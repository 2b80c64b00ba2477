import Mathlib.Order.Interval.Finset.Nat
import GoAds.Lib.Wrap

/-!
# `Session.Flap` — the backoff of the reconnects

`reconnectBackoff` picks a tier by sums of the configured counts, in 64 bits; `nextFlapCount` carries a
count from one drop to the next, and a Reconnect waits for `reconnectBackoff(flapCount)` before it dials.
-/

namespace GoAds.Session.Flap

open List
open scoped Finset

def flapWindow : Int := 5 * 10 ^ 9

def flapResetWindow : Int := 60 * 10 ^ 9

structure BackoffConfig where
  initialInterval : Int := 10 ^ 9
  initialAttempts : Int := 3
  midInterval : Int := 5 * 10 ^ 9
  midAttempts : Int := 3
  slowInterval : Int := 15 * 10 ^ 9
  slowAttempts : Int := 4
  maxInterval : Int := 30 * 10 ^ 9

/-- What `Validate` finds fault with. -/
inductive BackoffErr
  | notPositive (field : String) (got : Int)
  | negative (field : String) (got : Int)
  | below (field : String) (got : Int) (previous : String) (bound : Int)

def positive (field : String) (got : Int) : Option BackoffErr :=
  if got ≤ 0 then some (.notPositive field got) else none

def nonNegative (field : String) (got : Int) : Option BackoffErr :=
  if got < 0 then some (.negative field got) else none

def notBelow (previous : String) (bound : Int) (field : String) (got : Int) : Option BackoffErr :=
  if got < bound then some (.below field got previous bound) else none

/-- `Validate`: the first fault. -/
def BackoffConfig.validate (cfg : BackoffConfig) : Option BackoffErr :=
  positive "InitialInterval" cfg.initialInterval <|> positive "MidInterval" cfg.midInterval <|>
  positive "SlowInterval" cfg.slowInterval <|> positive "MaxInterval" cfg.maxInterval <|>
  nonNegative "InitialAttempts" cfg.initialAttempts <|> nonNegative "MidAttempts" cfg.midAttempts <|>
  nonNegative "SlowAttempts" cfg.slowAttempts <|>
  notBelow "InitialInterval" cfg.initialInterval "MidInterval" cfg.midInterval <|>
  notBelow "MidInterval" cfg.midInterval "SlowInterval" cfg.slowInterval <|>
  notBelow "SlowInterval" cfg.slowInterval "MaxInterval" cfg.maxInterval

inductive Tier
  | initial | mid | slow | max
  deriving DecidableEq

/-- The tier of an attempt, where each tier ends at one of these. -/
def tierOf (attempt initial mid slow : Int) : Tier :=
  if attempt ≤ initial then .initial else if attempt ≤ mid then .mid
  else if attempt ≤ slow then .slow else .max

namespace BackoffConfig

variable (cfg : BackoffConfig)

def interval : Tier → Int
  | .initial => cfg.initialInterval
  | .mid => cfg.midInterval
  | .slow => cfg.slowInterval
  | .max => cfg.maxInterval

/-- The case that the switch of `reconnectBackoff` takes. -/
def reconnectTier (attempt : Int) : Tier :=
  tierOf attempt cfg.initialAttempts (wrap (cfg.initialAttempts + cfg.midAttempts))
    (wrap (wrap (cfg.initialAttempts + cfg.midAttempts) + cfg.slowAttempts))

def reconnectBackoff (attempt : Int) : Int := cfg.interval (cfg.reconnectTier attempt)

/-- The attempts before the last tier. -/
def attempts : Int := cfg.initialAttempts + cfg.midAttempts + cfg.slowAttempts

/-- What a Reconnect waits before it dials. -/
def cooldown (flapCount : Int) : Int := if 0 < flapCount then cfg.reconnectBackoff flapCount else 0

/-- How many of the attempts that an `int` can number the tier gets. -/
def granted (t : Tier) : Nat :=
  #((Finset.range (2 ^ 63 - 1)).filter fun a : Nat => cfg.reconnectTier (a + 1) = t)

end BackoffConfig

/-- `nextFlapCount`; a session that was never connected has no `lastConnected`. -/
def nextFlapCount (prev : Int) (lastConnected : Option Int) (now : Int) (servedNothing : Bool) : Int :=
  match lastConnected with
  | none => if servedNothing then wrap (prev + 1) else prev
  | some connected =>
    if now - connected < flapWindow then wrap (prev + 2)
    else if now - connected < flapResetWindow then wrap (prev + 1)
    else 0

/-- A drop: when the session had become Connected, and when its Reconnect reads the clock. -/
structure Drop where
  connected : Int
  now : Int
  servedNothing : Bool

/-- The flap counts of successive Reconnect runs, after the one that is there. -/
def flapCounts (flapCount : Int) : List Drop → List Int
  | [] => [flapCount]
  | d :: drops =>
    flapCount :: flapCounts (nextFlapCount flapCount (some d.connected) d.now d.servedNothing) drops

/-- A connection that does not last `flapWindow` counts double. -/
def Drop.weight (d : Drop) : Nat := if d.now - d.connected < flapWindow then 2 else 1

/-- The configurations that `Validate` accepts, with counts of 64 bits. -/
structure Accepted (cfg : BackoffConfig) : Prop where
  valid : cfg.validate = none
  initial : cfg.initialAttempts < 2 ^ 63
  mid : cfg.midAttempts < 2 ^ 63
  slow : cfg.slowAttempts < 2 ^ 63

/-- What `Validate` checks. -/
structure Ordered (cfg : BackoffConfig) : Prop where
  pos : 0 < cfg.initialInterval
  mid : cfg.initialInterval ≤ cfg.midInterval
  slow : cfg.midInterval ≤ cfg.slowInterval
  max : cfg.slowInterval ≤ cfg.maxInterval
  attempts : 0 ≤ cfg.initialAttempts ∧ 0 ≤ cfg.midAttempts ∧ 0 ≤ cfg.slowAttempts

variable {cfg : BackoffConfig}

theorem Accepted.ordered (h : Accepted cfg) : Ordered cfg := by
  have hv := h.valid
  simp [BackoffConfig.validate, positive, nonNegative, notBelow] at hv
  constructor <;> omega

/-! ## The tiers -/

/-- A later attempt is in no earlier tier, wherever the tiers end. -/
theorem Ordered.mono (h : Ordered cfg) {a b} (hle : a ≤ b) :
    cfg.reconnectBackoff a ≤ cfg.reconnectBackoff b := by
  have hmid := h.mid
  have hslow := h.slow
  have hmax := h.max
  simp only [BackoffConfig.reconnectBackoff, BackoffConfig.reconnectTier, tierOf]
  split_ifs <;> simp only [BackoffConfig.interval] <;> omega

theorem Ordered.bounds (h : Ordered cfg) (a : Int) :
    cfg.initialInterval ≤ cfg.reconnectBackoff a ∧ cfg.reconnectBackoff a ≤ cfg.maxInterval := by
  have hmid := h.mid
  have hslow := h.slow
  have hmax := h.max
  unfold BackoffConfig.reconnectBackoff BackoffConfig.interval
  split <;> omega

section Tiers

variable {a i m s : Int}

end Tiers

section Counts

variable (h : Accepted cfg)

include h

end Counts

/-! ## The drops -/

theorem Drop.weight_pos (d : Drop) : 1 ≤ d.weight ∧ d.weight ≤ 2 := by
  unfold Drop.weight
  split <;> decide

theorem nextFlapCount_eq {d : Drop} (h : d.now - d.connected < flapResetWindow) (prev : Int) :
    nextFlapCount prev (some d.connected) d.now d.servedNothing = wrap (prev + d.weight) := by
  simp only [nextFlapCount, Drop.weight, h, if_true]
  split <;> rfl

/-- Every drop is one of a connection that did not last `flapResetWindow`. -/
def Flapping (drops : List Drop) : Prop := ∀ d ∈ drops, d.now - d.connected < flapResetWindow

/-- Every drop counts, while the count has 64 bits. -/
theorem Flapping.counts {drops} (h : Flapping drops) {n : Int} (hn : 0 ≤ n)
    (hfits : n + (drops.map Drop.weight).sum < 2 ^ 63) :
    (flapCounts n drops).Pairwise (· ≤ ·) ∧ ∀ (k : Nat) x, (flapCounts n drops)[k]? = some x → n + k ≤ x := by
  induction drops generalizing n with
  | nil =>
    refine ⟨pairwise_singleton .., fun k x hx => ?_⟩
    obtain ⟨rfl, rfl⟩ : k = 0 ∧ n = x := by simpa [flapCounts, getElem?_singleton] using hx
    simp
  | cons d drops ih =>
    have hw := d.weight_pos
    rw [map_cons, sum_cons] at hfits
    have hnext := nextFlapCount_eq (h d mem_cons_self) n
    rw [wrap_of_fits (by omega) (by omega)] at hnext
    obtain ⟨hsorted, hge⟩ :=
      @ih (fun d' hd' => h d' (mem_cons_of_mem _ hd')) (n + d.weight) (by omega) (by omega)
    rw [flapCounts, hnext]
    refine ⟨pairwise_cons.2 ⟨fun x hx => ?_, hsorted⟩, fun k x hx => ?_⟩
    · obtain ⟨k, hk⟩ := getElem?_of_mem hx
      have := hge k x hk
      omega
    · cases k with
      | zero =>
        obtain rfl := Option.some.inj hx
        simp
      | succ k =>
        have := hge k x hx
        omega

end GoAds.Session.Flap
