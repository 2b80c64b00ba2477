import GoAds.Heartbeat.Detector

/-!
# `Heartbeat.Recovery` — when the watcher re-subscribes

A recovery deletes and adds every subscription again, so the watcher is to be sure of its reason: two
silent windows where the caller asked for confirmation, none at all where the caller only wants to be
told, and after a reconnect only what has been seen since.

The mode is asked in the silence branch alone.  And the counter of the gap branch, like the count of
silent windows, is not among those that a new generation resets.
-/

namespace GoAds.Heartbeat

open Interleaving

variable (cfg : Config)

/-- The loop goes on to its next tick. -/
def next (d : Detector) (o : Tick) : Option Detector :=
  if (tick cfg d o).2.escalated then none else some (tick cfg d o).1

/-- A silent window ends with this tick. -/
def Event.window : Event → Bool
  | .waiting | .report | .recovery _ => true
  | _ => false

/-- What a tick adds to a count. -/
def one (b : Bool) : Nat := if b then 1 else 0

/-! ## Reasons for a recovery -/

/-- The silence since the last beat or recovery, as history: counted ticks, and silent windows. -/
structure Silence where
  ticks : Nat
  windows : Nat

def Silence.after (w : Silence) (d : Detector) (o : Tick) : Silence :=
  let e := (tick cfg d o).2
  if e = .beat ∨ e.recovers then ⟨0, 0⟩
  else ⟨w.ticks + one o.counted, w.windows + one e.window⟩

/-- No tick that sees a beat finds subscriptions missing for as long as is allowed. -/
def NoGap (d : Detector) (o : Tick) : Prop :=
  o.active < o.registered → o.beats = (d.restart o).lastBeats ∨ d.gapTicks + 1 < (d.restart o).allowed cfg

instance (d : Detector) (o : Tick) : Decidable (NoGap cfg d o) := by
  unfold NoGap
  infer_instance

variable {cfg} {d d' r : Detector} {o : Tick} {e : Event}

theorem restart_eq (d : Detector) (o : Tick) :
    (d.restart o).gapTicks = d.gapTicks ∧ (d.restart o).silentWindows = d.silentWindows ∧
      (d.restart o).quietTicks ≤ d.quietTicks ∧
      (d.restart o).framesAtWindow = d.framesAtWindow ∧
      (d.restart o).framelessWindows = d.framelessWindows := by
  unfold Detector.restart
  split
  · exact ⟨rfl, rfl, Nat.zero_le _, rfl, rfl⟩
  · exact ⟨rfl, rfl, Nat.le_refl _, rfl, rfl⟩

theorem next_eq (h : next cfg d o = some d') : d' = (tick cfg d o).1 := by
  unfold next at h
  split at h
  · cases h
  · exact (Option.some.inj h).symm

/-- What holds of the detector and the silence so far. -/
structure SilenceInv (cfg : Config) (d : Detector) (w : Silence) : Prop where
  windows : d.silentWindows ≤ w.windows
  ticks : cfg.heartbeatAllowedMisses * d.silentWindows + d.quietTicks ≤ w.ticks

theorem silenceInv_start (gen : Nat) : SilenceInv cfg (start gen) ⟨0, 0⟩ :=
  ⟨Nat.le_refl 0, Nat.le_of_eq (Nat.mul_zero cfg.heartbeatAllowedMisses)⟩

theorem silenceInv_restart {w} (hi : SilenceInv cfg d w) (o : Tick) :
    SilenceInv cfg (d.restart o) w := by
  obtain ⟨-, hw, hq, -, -⟩ := restart_eq d o
  refine ⟨hw ▸ hi.windows, ?_⟩
  have ht := hi.ticks
  rw [hw]
  omega

theorem silenceInv_step {w} (hi : SilenceInv cfg d w) (hok : NoGap cfg d o) :
    SilenceInv cfg (tick cfg d o).1 (w.after cfg d o) := by
  have hr := silenceInv_restart hi o
  obtain ⟨hgap, -⟩ := restart_eq d o
  obtain ⟨hw, ht⟩ := hr
  unfold Silence.after
  rcases htick : tick cfg d o with ⟨d', e⟩
  rcases tick_cases htick with ⟨hc, rfl, rfl⟩ | ⟨hc, hs⟩
  · rw [hc]
    exact ⟨hw, ht⟩
  cases hs with
  -- excluded: the tick would have seen a gap to act on
  | gap s hm hb hg =>
    rcases hok hm with h | h
    · exact absurd h hb
    · omega
  | beat => exact ⟨Nat.le_refl 0, Nat.le_refl 0⟩
  | quiet s g hg hb =>
    refine ⟨hw, ?_⟩
    show _ ≤ w.ticks + one o.counted
    simp only [hc, one, if_true]
    omega
  | establish s g fw fl b hg hb hesc =>
    refine ⟨hw, ?_⟩
    show _ ≤ w.ticks + one o.counted
    simp only [hc, one, if_true]
    omega
  -- the window is full, so its ticks pay for one more silent window
  | waiting s g hg hb hq hmode =>
    refine ⟨Nat.add_le_add_right hw 1, ?_⟩
    show _ ≤ w.ticks + one o.counted
    simp only [hc, one, if_true, Nat.mul_add]
    omega
  | report s g hg hb hq hmode =>
    refine ⟨Nat.le_trans hw (Nat.le_add_right _ _), ?_⟩
    show _ ≤ w.ticks + one o.counted
    simp only [hc, one, if_true]
    omega
  | recovery => exact ⟨Nat.le_refl 0, Nat.le_refl 0⟩

/-- **Observe never re-subscribes, and Confirm only after two silent windows in a row**, in every run
    without a gap to act on: since the last beat two windows have ended, with this tick, and none of
    their ticks saw a beat. -/
theorem recovery_justified {gen : Nat} {w : Silence}
    (h : Run (observe (next cfg) (Silence.after cfg)) (fun s o => NoGap cfg s.1 o)
      (start gen, ⟨0, 0⟩) (d, w)) (hok : NoGap cfg d o) (hrec : (tick cfg d o).2.recovers = true) :
    cfg.mode ≠ .observe ∧
      (cfg.mode = .confirm → 2 ≤ w.windows + 1 ∧ 2 * cfg.heartbeatAllowedMisses ≤ w.ticks + 1) := by
  have hi : SilenceInv cfg d w := by
    refine h.invariant (P := fun s => SilenceInv cfg s.1 s.2) (silenceInv_start gen) ?_
    intro s o s' hi hok hs
    obtain ⟨hn, hw⟩ := observe_eq_some.1 hs
    rw [next_eq hn, hw]
    exact silenceInv_step hi hok
  obtain ⟨hw, ht⟩ := silenceInv_restart hi o
  obtain ⟨hgap, -⟩ := restart_eq d o
  rcases htick : tick cfg d o with ⟨d', e⟩
  rw [htick] at hrec
  rcases tick_cases htick with ⟨-, -, rfl⟩ | ⟨hc, hs⟩
  · cases hrec
  cases hs with
  | gap s hm hb hg =>
    rcases hok hm with h | h
    · exact absurd h hb
    · omega
  | recovery s g fw fl b hg hb hq hmode hsw hesc =>
    refine ⟨hmode, fun hm => ?_⟩
    have h1 : 1 ≤ (d.restart o).silentWindows := Nat.le_of_succ_le_succ (hsw hm)
    have h2 : cfg.heartbeatAllowedMisses ≤
        cfg.heartbeatAllowedMisses * (d.restart o).silentWindows := Nat.le_mul_of_pos_right _ h1
    omega
  | _ => cases hrec

namespace Example

/-- A session on one connection, with a beat in place: how many beats there have been, and how many
    subscriptions there are. -/
def see (beats active : Nat) : Tick where
  gen := 0
  genBeats := beats
  connected := true
  transport := true
  active
  wanted := 2
  registered := 2
  beats
  handle := 9
  frames := beats
  outcome := .done

def options (mode : Mode) : Config := { mode, heartbeatMissed := 2, cycle := 2 * 10 ^ 9 }

end Example

open Example

/-- Confirm: a beat, then silence; the fourth silent tick re-subscribes. -/
theorem recovery_justified_confirm :
    ∃ d w, Run (observe (next (options .confirm)) (Silence.after (options .confirm)))
        (fun s o => NoGap (options .confirm) s.1 o) (start 0, ⟨0, 0⟩) (d, w) ∧
      (tick (options .confirm) d (see 1 2)).2.recovers = true ∧
      2 ≤ w.windows + 1 ∧ 4 ≤ w.ticks + 1 := by
  obtain ⟨⟨d, w⟩, hrun, hok, hrec⟩ := exists_run
    (observe (next (options .confirm)) (Silence.after (options .confirm)))
    (fun s o => NoGap (options .confirm) s.1 o) (start 0, ⟨0, 0⟩)
    (fun s => NoGap (options .confirm) s.1 (see 1 2) ∧
      (tick (options .confirm) s.1 (see 1 2)).2.recovers = true)
    (List.replicate 4 (see 1 2)) (by decide +kernel)
  exact ⟨d, w, hrun, hrec, (recovery_justified hrun hok hrec).2 rfl⟩

/-- A subscription is missing while the beat arrives: the second such tick re-subscribes, in Observe and
    in Confirm alike, and no window was silent. -/
theorem recovery_unjustified : (¬∀ d, Run (next (options .observe)) anyStep (start 0) d →
      ∀ o, (tick (options .observe) d o).2.recovers = false) ∧
      ¬∀ d w, Run (observe (next (options .confirm)) (Silence.after (options .confirm)))
          anyStep (start 0, ⟨0, 0⟩) (d, w) →
        ∀ o, (tick (options .confirm) d o).2.recovers = true → 2 ≤ w.windows + 1 := by
  constructor
  · intro hall
    exact not_forall_run [see 1 1] (by decide +kernel) fun d hrun => hall d hrun (see 2 1)
  intro hall
  exact not_forall_run [see 1 1] (by decide +kernel) fun (s : _ × _) hrun =>
    hall s.1 s.2 hrun (see 2 1)

/-! ## After a reconnect -/

/-- What has been counted since the last tick that observed a new generation, as history. -/
structure Since where
  /-- There was such a tick. -/
  observed : Bool
  /-- It was itself counted. -/
  own : Nat
  /-- The counted ticks after it. -/
  further : Nat
  /-- The silent windows that have ended since. -/
  windows : Nat

def Since.after (cfg : Config) (w : Since) (d : Detector) (o : Tick) : Since :=
  let window := one (tick cfg d o).2.window
  if o.gen ≠ d.lastGen then ⟨true, one o.counted, 0, window⟩
  else { w with further := w.further + one o.counted, windows := w.windows + window }

/-- A new generation finds neither a gap nor a silent window counted. -/
def Fresh (d : Detector) (o : Tick) : Prop :=
  o.gen ≠ d.lastGen → d.gapTicks = 0 ∧ d.silentWindows = 0

instance (d : Detector) (o : Tick) : Decidable (Fresh d o) := by
  unfold Fresh
  infer_instance

/-- The counters of the detector are of this generation. -/
structure SinceInv (d : Detector) (w : Since) : Prop where
  gap : d.gapTicks ≤ w.further + w.own
  quiet : d.quietTicks ≤ w.further + w.own
  windows : d.silentWindows ≤ w.windows

theorem CountedStep.counters (hs : CountedStep cfg r o d' e) :
    d'.gapTicks ≤ r.gapTicks + 1 ∧ d'.quietTicks ≤ r.quietTicks + 1 ∧
      d'.silentWindows ≤ r.silentWindows + one e.window := by
  cases hs with
  | gap => exact ⟨Nat.zero_le _, Nat.zero_le _, Nat.le_refl _⟩
  | beat s g hg | recovery s g fw fl b hg => exact ⟨hg, Nat.zero_le _, Nat.zero_le _⟩
  | quiet s g hg => exact ⟨hg, Nat.le_refl _, Nat.le_refl _⟩
  | establish s g fw fl b hg | waiting s g hg => exact ⟨hg, Nat.zero_le _, Nat.le_refl _⟩
  | report s g hg => exact ⟨hg, Nat.zero_le _, Nat.le_add_right _ _⟩

theorem CountedStep.recovers (hs : CountedStep cfg r o d' e) (h : e.recovers = true) :
    cfg.heartbeatAllowedMisses ≤ r.gapTicks + 1 ∨ cfg.heartbeatAllowedMisses ≤ r.quietTicks + 1 := by
  cases hs with
  | gap s hm hb hg => exact .inl (Nat.le_trans (le_allowed cfg r) hg)
  | recovery s g fw fl b hg hb hq => exact .inr hq
  | _ => cases h

/-- The counters of the restarted detector, before the tick is counted. -/
theorem sinceInv_restart {w} (hi : w.observed = true → SinceInv d w) (hok : Fresh d o)
    (hobs : (w.after cfg d o).observed = true) :
    ∃ n m, (d.restart o).gapTicks ≤ n ∧ (d.restart o).quietTicks ≤ n ∧
      (d.restart o).silentWindows ≤ m ∧
      (w.after cfg d o).further + (w.after cfg d o).own = n + one o.counted ∧
      (w.after cfg d o).windows = m + one (tick cfg d o).2.window := by
  obtain ⟨hg, hw, hq, -, -⟩ := restart_eq d o
  by_cases hgen : o.gen ≠ d.lastGen
  · -- a new generation: all counters are zero
    obtain ⟨hg0, hw0⟩ := hok hgen
    have hq0 : (d.restart o).quietTicks = 0 := by simp only [Detector.restart, if_pos hgen]
    refine ⟨0, 0, by omega, by omega, by omega, ?_, ?_⟩
    · simp only [Since.after, if_pos hgen]
    · simp only [Since.after, if_pos hgen, Nat.zero_add]
  simp only [Since.after, if_neg hgen] at hobs ⊢
  obtain ⟨h1, h2, h3⟩ := hi hobs
  refine ⟨w.further + w.own, w.windows, by omega, by omega, by omega, by omega, rfl⟩

theorem sinceInv_step {w} (hi : w.observed = true → SinceInv d w) (hok : Fresh d o)
    (hobs : (w.after cfg d o).observed = true) : SinceInv (tick cfg d o).1 (w.after cfg d o) := by
  obtain ⟨n, m, hg, hq, hw, hn, hm⟩ := sinceInv_restart hi hok hobs
  rcases htick : tick cfg d o with ⟨d', e⟩
  rw [htick] at hm
  rcases tick_cases htick with ⟨hc, rfl, rfl⟩ | ⟨hc, hs⟩
  · rw [hc] at hn
    refine ⟨?_, ?_, ?_⟩
    · rw [hn]
      exact hg
    · rw [hn]
      exact hq
    · rw [hm]
      exact hw
  obtain ⟨hg', hq', hw'⟩ := hs.counters
  simp only [hc, one, if_true] at hn
  show SinceInv d' _
  refine ⟨by omega, by omega, ?_⟩
  rw [hm]
  exact Nat.le_trans hw' (Nat.add_le_add_right hw _)

/-- **A reconnect restarts the detector**, in every run in which a new generation finds nothing counted
    in the gap branch and no silent window.  After a tick that observes a new generation the watcher
    re-subscribes only when as many ticks have been counted as are allowed, that tick among them if it
    is itself counted; and Confirm only after two windows that have ended since. -/
theorem recovery_after_reconnect {gen : Nat} {w : Since}
    (h : Run (observe (next cfg) (Since.after cfg)) (fun s o => Fresh s.1 o)
      (start gen, ⟨false, 0, 0, 0⟩) (d, w)) (hok : Fresh d o)
    (hobs : (w.after cfg d o).observed = true) (hrec : (tick cfg d o).2.recovers = true) :
    ((w.after cfg d o).own = 0 → cfg.heartbeatAllowedMisses ≤ (w.after cfg d o).further) ∧
      cfg.heartbeatAllowedMisses ≤ (w.after cfg d o).further + (w.after cfg d o).own ∧
      (cfg.mode = .confirm → (tick cfg d o).2 ≠ .gapRecovery → 2 ≤ (w.after cfg d o).windows) := by
  have hi : w.observed = true → SinceInv d w := by
    refine h.invariant (P := fun s => s.2.observed = true → SinceInv s.1 s.2) (fun h => nomatch h) ?_
    intro s o s' hi hok hs hobs
    obtain ⟨hn, hw⟩ := observe_eq_some.1 hs
    rw [hw] at hobs ⊢
    rw [next_eq hn]
    exact sinceInv_step hi hok hobs
  obtain ⟨n, m, hg, hq, hw, hn, hm⟩ := sinceInv_restart hi hok hobs
  rcases htick : tick cfg d o with ⟨d', e⟩
  rw [htick] at hrec hm
  rcases tick_cases htick with ⟨-, -, rfl⟩ | ⟨hc, hs⟩
  · cases hrec
  simp only [hc, one, if_true] at hn
  have hcount : cfg.heartbeatAllowedMisses ≤ (w.after cfg d o).further + (w.after cfg d o).own := by
    rcases hs.recovers hrec with h | h <;> omega
  refine ⟨fun hown => by omega, hcount, fun hmode hne => ?_⟩
  cases hs with
  | gap => exact absurd rfl hne
  | recovery s g fw fl b hg' hb hq' _ hsw hesc =>
    have h1 : 2 ≤ (d.restart o).silentWindows + 1 := hsw hmode
    have hm : (w.after cfg d o).windows = m + 1 := hm
    omega
  | _ => cases hrec

namespace Example

/-- The same on the second connection: the reconnect has brought back one subscription of two. -/
def seeAgain (beats active : Nat) : Tick := { see beats active with gen := 1 }

def five (mode : Mode) : Config := { mode, heartbeatMissed := 5, cycle := 2 * 10 ^ 9 }

end Example

/-- A reconnect, and then silence: the watcher re-subscribes when two ticks have been counted. -/
theorem recovery_after_reconnect_silent :
    ∃ d w, Run (observe (next (options .immediate)) (Since.after (options .immediate)))
        (fun s o => Fresh s.1 o) (start 0, ⟨false, 0, 0, 0⟩) (d, w) ∧
      (tick (options .immediate) d (seeAgain 1 2)).2.recovers = true ∧
      2 ≤ (w.after (options .immediate) d (seeAgain 1 2)).further +
        (w.after (options .immediate) d (seeAgain 1 2)).own := by
  obtain ⟨⟨d, w⟩, hrun, hok, hobs, hrec⟩ := exists_run
    (observe (next (options .immediate)) (Since.after (options .immediate)))
    (fun s o => Fresh s.1 o) (start 0, ⟨false, 0, 0, 0⟩)
    (fun s => Fresh s.1 (seeAgain 1 2) ∧
      (s.2.after (options .immediate) s.1 (seeAgain 1 2)).observed = true ∧
      (tick (options .immediate) s.1 (seeAgain 1 2)).2.recovers = true)
    [see 1 2, seeAgain 1 2] (by decide +kernel)
  exact ⟨d, w, hrun, hrec, (recovery_after_reconnect hrun hok hobs hrec).2.1⟩

/-- What a reconnect leaves standing.  Four ticks without a subscription, a reconnect, and the second
    tick after it re-subscribes where five are to be counted; and in Confirm one silent window before a
    reconnect makes do with one after it. -/
theorem recovery_before_reconnect :
    (¬∀ d w, Run (observe (next (five .immediate)) (Since.after (five .immediate)))
        anyStep (start 0, ⟨false, 0, 0, 0⟩) (d, w) →
      ∀ o, (w.after (five .immediate) d o).observed = true →
        (tick (five .immediate) d o).2.recovers = true →
          5 ≤ (w.after (five .immediate) d o).further +
            (w.after (five .immediate) d o).own) ∧
      ¬∀ d w, Run (observe (next (options .confirm)) (Since.after (options .confirm)))
          anyStep (start 0, ⟨false, 0, 0, 0⟩) (d, w) →
        ∀ o, (w.after (options .confirm) d o).observed = true →
          (tick (options .confirm) d o).2 = .recovery false →
            2 ≤ (w.after (options .confirm) d o).windows := by
  constructor
  · intro hall
    exact not_forall_run (List.replicate 4 (see 1 1) ++ [seeAgain 1 1]) (by decide +kernel)
      fun (s : _ × _) hrun => hall s.1 s.2 hrun (seeAgain 2 1)
  intro hall
  exact not_forall_run (List.replicate 3 (see 1 2) ++ [seeAgain 1 2]) (by decide +kernel)
    fun (s : _ × _) hrun => hall s.1 s.2 hrun (seeAgain 1 2)

end GoAds.Heartbeat
