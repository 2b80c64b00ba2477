import GoAds.Lib.Interleaving

/-!
# `Symbols.ReloadCap` — the cap on automatic reloads is a sliding window

`tryRecordReloadAttempt` prunes the list of attempts to the window and then counts it.  What was pruned is
out of every later window as well, because the clock does not go back; so the list counts the calls that
were granted in the window as if nothing had ever been thrown away (`Inv.kept`).
-/

namespace GoAds.Symbols.ReloadCap

open Interleaving List

/-- `reloadAttempts`, and every call with its answer as history, the latest first. -/
structure Reloads where
  reloadAttempts : List Int := []
  calls : List (Int × Bool) := []

variable (reloadWindow maxReloadAttempts : Int)

/-- `tryRecordReloadAttempt` at the time `now`. -/
def tryRecordReloadAttempt (reloadAttempts : List Int) (now : Int) : Bool × List Int :=
  let cutoff := now - reloadWindow
  let pruned := reloadAttempts.filter (cutoff < ·)
  if maxReloadAttempts ≤ pruned.length then (false, pruned) else (true, pruned ++ [now])

def call (s : Reloads) (now : Int) : Option Reloads :=
  let r := tryRecordReloadAttempt reloadWindow maxReloadAttempts s.reloadAttempts now
  some ⟨r.2, (now, r.1) :: s.calls⟩

def Later (s : Reloads) (now : Int) : Prop := ∀ c ∈ s.calls, c.1 ≤ now

instance (s : Reloads) (now : Int) : Decidable (Later s now) := by
  unfold Later
  infer_instance

/-- How many calls in `(t - W, t]` returned true. -/
def granted (t : Int) (calls : List (Int × Bool)) : Nat :=
  calls.countP fun c => c.2 && decide (t - reloadWindow < c.1 ∧ c.1 ≤ t)

structure Inv (s : Reloads) : Prop where
  kept : ∀ now, Later s now → s.reloadAttempts.countP (now - reloadWindow < ·) =
    granted reloadWindow now s.calls
  capped : ∀ t, (granted reloadWindow t s.calls : Int) ≤ max maxReloadAttempts 0
  refused : ∀ newer t older, s.calls = newer ++ (t, false) :: older →
    maxReloadAttempts ≤ granted reloadWindow t older

variable {reloadWindow maxReloadAttempts} {s : Reloads} {now t : Int}

theorem granted_refused (t now : Int) (calls : List (Int × Bool)) :
    granted reloadWindow t ((now, false) :: calls) = granted reloadWindow t calls := by
  simp [granted]

theorem granted_true (t now : Int) (calls : List (Int × Bool)) :
    granted reloadWindow t ((now, true) :: calls) =
      granted reloadWindow t calls + if t - reloadWindow < now ∧ now ≤ t then 1 else 0 := by
  simp [granted, countP_cons]

/-- Pruning for one call loses nothing that a later call counts. -/
theorem countP_pruned (h : now ≤ t) (l : List Int) :
    (l.filter (now - reloadWindow < ·)).countP (t - reloadWindow < ·) = l.countP (t - reloadWindow < ·) := by
  rw [countP_filter]
  apply countP_congr
  intro u _
  simp only [Bool.and_eq_true, decide_eq_true_eq]
  omega

/-- A window that ends later and has the call `now` in it holds no more of what came before. -/
theorem granted_le (reloadWindow : Int) (h : now ≤ t) (hin : Later s now) :
    granted reloadWindow t s.calls ≤ granted reloadWindow now s.calls := by
  apply countP_mono_left
  intro c hc
  have hle := hin c hc
  simp only [Bool.and_eq_true, decide_eq_true_eq]
  rintro ⟨hok, hlow, _⟩
  exact ⟨hok, by omega, hle⟩

theorem later_cons {ok : Bool} {attempts : List Int} (h : Later ⟨attempts, (now, ok) :: s.calls⟩ t) :
    Later s t ∧ now ≤ t :=
  ⟨fun c hc => h c (mem_cons_of_mem _ hc), h (now, ok) mem_cons_self⟩

theorem Inv.step {s' : Reloads} (h : Inv reloadWindow maxReloadAttempts s) (hlater : Later s now)
    (hs : call reloadWindow maxReloadAttempts s now = some s') : Inv reloadWindow maxReloadAttempts s' := by
  cases hs
  -- what is left of the list after pruning is what the window holds
  have hcount : (s.reloadAttempts.filter (now - reloadWindow < ·)).length =
    granted reloadWindow now s.calls := by
    rw [← countP_eq_length_filter]
    exact h.kept now hlater
  unfold tryRecordReloadAttempt
  dsimp only
  rw [hcount]
  split
  · next hfull =>
    refine ⟨fun t ht => ?_, fun t => ?_, fun newer t older heq => ?_⟩
    · obtain ⟨hs, hle⟩ := later_cons ht
      rw [countP_pruned hle, granted_refused]
      exact h.kept t hs
    · rw [granted_refused]
      exact h.capped t
    rcases cons_eq_append_iff.1 heq with ⟨rfl, hcalls⟩ | ⟨newer', rfl, hcalls⟩
    · obtain ⟨hc, rfl⟩ := cons.inj hcalls
      cases hc
      exact hfull
    · exact h.refused newer' t older hcalls
  · next hroom =>
    refine ⟨fun t ht => ?_, fun t => ?_, fun newer t older heq => ?_⟩
    · obtain ⟨hs, hle⟩ := later_cons ht
      rw [countP_append, countP_pruned hle, granted_true, h.kept t hs]
      simp [countP_cons, hle]
    · rw [granted_true]
      have hold := h.capped t
      split
      · next hin =>
        have hle := granted_le reloadWindow hin.2 hlater
        omega
      · exact hold
    rcases cons_eq_append_iff.1 heq with ⟨rfl, hcalls⟩ | ⟨newer', rfl, hcalls⟩
    · cases hcalls
    · exact h.refused newer' t older hcalls

/-- **The cap is a true sliding window.**  Whatever the calls and their times, no half-open interval of the
    length of the window has more granted calls than the cap allows, and a call is refused only if as many
    were granted in the window that ends with it. -/
theorem reload_cap_slides (hrun : Run (call reloadWindow maxReloadAttempts) Later {} s) :
    (∀ t, (granted reloadWindow t s.calls : Int) ≤ max maxReloadAttempts 0) ∧
      ∀ newer t older, s.calls = newer ++ (t, false) :: older →
        maxReloadAttempts ≤ granted reloadWindow t older := by
  have hinv : Inv reloadWindow maxReloadAttempts s := by
    refine hrun.invariant (P := Inv reloadWindow maxReloadAttempts) ?_ fun s now s' h hl hs => h.step hl hs
    exact ⟨fun _ _ => rfl, fun _ => le_max_right _ _, fun newer t older h => absurd h (by simp)⟩
  exact ⟨hinv.capped, hinv.refused⟩

/-- Two reloads in ten seconds: the third call is refused, and one more is granted when the first has left. -/
theorem reload_cap_slides_two : ∃ s, Run (call 10 2) Later {} s ∧
    s.calls = [(10, true), (9, false), (5, true), (0, true)] ∧
      (2 : Int) ≤ granted 10 9 [(5, true), (0, true)] := by
  obtain ⟨s, hrun, hs⟩ := exists_run (call 10 2) Later {}
    (fun s => s.calls = [(10, true), (9, false), (5, true), (0, true)]) [0, 5, 9, 10] (by decide)
  exact ⟨s, hrun, hs, (reload_cap_slides hrun).2 [(10, true)] 9 _ hs⟩

end GoAds.Symbols.ReloadCap
