import GoAds.Heartbeat.Recovery

/-!
# `Heartbeat.Backoff` — how far apart the recoveries are

After a recovery the watcher is to let pass as many ticks as the backoff asks for.  There are two triggers,
each with its own counter, and one counter of failures.  A recovery for missing subscriptions clears both
counters; one for silence leaves the gap counted, so the other trigger may follow at once.  And a stable
stretch clears the failures, so the next window is the first one again.
-/

namespace GoAds.Heartbeat

open Interleaving

variable (cfg : Config)

/-! ## The history -/

/-- A stable stretch ends with this tick: the failures are forgotten. -/
def Stabilises (d : Detector) (o : Tick) : Prop :=
  o.counted = true ∧ o.beats ≠ d.lastBeats ∧ o.registered ≤ o.active ∧ stableTicks cfg ≤ d.streak.healthy + 1

instance (d : Detector) (o : Tick) : Decidable (Stabilises cfg d o) := by
  unfold Stabilises
  infer_instance

/-- The last recovery that was not deferred, as history. -/
structure Attempt where
  /-- The failures after it. -/
  failures : Nat
  /-- The Connected ticks since. -/
  ticks : Nat
  /-- It found no subscription missing, or saw a beat, and no stable stretch has ended since. -/
  spaced : Bool
  deriving DecidableEq

def Attempt.after (p : Option Attempt) (d : Detector) (o : Tick) : Option Attempt :=
  if (tick cfg d o).2.recovers = true ∧ o.outcome ≠ .deferred then
    some ⟨(tick cfg d o).1.streak.failures, 0, decide (o.registered ≤ o.active ∨ o.beats ≠ d.lastBeats)⟩
  else p.map fun last => { last with
    ticks := last.ticks + one o.connected, spaced := last.spaced && !decide (Stabilises cfg d o) }

/-- The tick is no recovery, or a deferred one, or one that is late enough after the last. -/
def InTime (d : Detector) (last : Attempt) (o : Tick) : Prop :=
  (tick cfg d o).2.recovers = true → o.outcome ≠ .deferred →
    heartbeatAllowedTicks cfg.heartbeatAllowedMisses last.failures cfg.cycle ≤ last.ticks + one o.connected

/-- The beats as they arrive, as history: how many there were at the last tick, and the ticks since one
    arrived. -/
structure Arrivals where
  beats : Nat
  ticks : Nat

def Arrivals.after (w : Arrivals) (_ : Detector) (o : Tick) : Arrivals :=
  ⟨o.beats, if w.beats < o.beats then 0 else w.ticks + 1⟩

/-- The generation stays, no subscription is missing, and a beat arrives in as many ticks as the base. -/
structure Fed (d : Detector) (w : Arrivals) (o : Tick) : Prop where
  gen : o.gen = d.lastGen
  present : o.registered ≤ o.active
  counted : w.beats ≤ o.beats
  arrives : w.beats < o.beats ∨ w.ticks + 1 < cfg.heartbeatAllowedMisses

instance (d : Detector) (w : Arrivals) (o : Tick) : Decidable (Fed cfg d w o) :=
  decidable_of_iff (_ ∧ _ ∧ _ ∧ _)
    ⟨fun h => ⟨h.1, h.2.1, h.2.2.1, h.2.2.2⟩, fun h => ⟨h.gen, h.present, h.counted, h.arrives⟩⟩

variable {cfg} {d : Detector} {o : Tick}

/-! ## What a tick keeps -/

theorem heartbeatAllowedTicks_mono (base cycle : Nat) {f f'} (h : f ≤ f') :
    heartbeatAllowedTicks base f cycle ≤ heartbeatAllowedTicks base f' cycle := by
  by_cases hzero : f = 0 ∨ base = 0 ∨ cycle = 0
  · rw [heartbeatAllowedTicks, if_pos hzero]
    exact le_heartbeatAllowedTicks base f' cycle
  have hzero' : ¬ (f' = 0 ∨ base = 0 ∨ cycle = 0) := by omega
  rw [heartbeatAllowedTicks, heartbeatAllowedTicks, if_neg hzero, if_neg hzero']
  apply min_le_min_right
  rw [Nat.shiftLeft_eq, Nat.shiftLeft_eq]
  exact Nat.mul_le_mul_left base (Nat.pow_le_pow_right Nat.two_pos (min_le_min_right _ h))

theorem restart_self (h : o.gen = d.lastGen) : d.restart o = d := if_neg (not_not.2 h)

theorem recover_kept (d : Detector) (o : Tick) :
    d.streak.failures ≤ (d.recover o).1.streak.failures ∧ (d.recover o).1.gapTicks = d.gapTicks ∧
      (d.recover o).1.quietTicks = d.quietTicks := by
  unfold Detector.recover
  split
  · exact ⟨Nat.le_succ _, rfl, rfl⟩
  · exact ⟨Nat.le_refl _, rfl, rfl⟩
  obtain ⟨fw, fl, b, h, -⟩ := escalate_cases { d with streak := d.streak.attempt } o
  rw [h]
  exact ⟨Nat.le_succ _, rfl, rfl⟩

theorem window_kept (cfg : Config) (d : Detector) (o : Tick) :
    d.streak.failures ≤ (d.window cfg o).1.streak.failures ∧ (d.window cfg o).1.gapTicks = d.gapTicks ∧
      (d.window cfg o).1.quietTicks = d.quietTicks := by
  unfold Detector.window
  split
  · split
    · exact ⟨Nat.le_refl _, rfl, rfl⟩
    · exact recover_kept { d with silentWindows := 0 } o
  · exact ⟨Nat.le_succ _, rfl, rfl⟩
  · exact recover_kept { d with silentWindows := 0 } o

/-- Without a beat the failures only grow and the gap stays; a recovery comes with a full window. -/
theorem silent_kept (cfg : Config) (d : Detector) (o : Tick) :
    d.streak.failures ≤ (d.silent cfg o).1.streak.failures ∧ (d.silent cfg o).1.gapTicks = d.gapTicks ∧
      ((d.silent cfg o).2.recovers = true →
        d.allowed cfg ≤ d.quietTicks + 1 ∧ (d.silent cfg o).1.quietTicks = 0) := by
  unfold Detector.silent
  dsimp only
  split
  · exact ⟨Nat.le_refl _, rfl, nofun⟩
  next hfull =>
  split
  · obtain ⟨fw, fl, b, h, -⟩ := escalate_cases
      { d with quietTicks := 0, streak := d.streak.unhealthyTick.attempt } o
    rw [h]
    exact ⟨Nat.le_succ _, rfl, nofun⟩
  obtain ⟨hf, hg, hq⟩ :=
    window_kept cfg { d with quietTicks := 0, streak := d.streak.unhealthyTick } o
  exact ⟨hf, hg, fun _ => ⟨Nat.not_lt.1 hfull, hq⟩⟩

theorem listen_kept (cfg : Config) (d : Detector) (o : Tick) (g : Nat) :
    ((o.beats ≠ d.lastBeats → o.registered ≤ o.active → d.streak.healthy + 1 < stableTicks cfg) →
        d.streak.failures ≤ ({ d with gapTicks := g }.listen cfg o).1.streak.failures) ∧
      ({ d with gapTicks := g }.listen cfg o).1.gapTicks = g ∧
      (({ d with gapTicks := g }.listen cfg o).2.recovers = true → o.beats = d.lastBeats ∧
        d.allowed cfg ≤ d.quietTicks + 1 ∧ ({ d with gapTicks := g }.listen cfg o).1.quietTicks = 0) := by
  unfold Detector.listen
  split
  · next hbeat =>
    refine ⟨fun hstable => ?_, rfl, nofun⟩
    by_cases hpresent : o.registered ≤ o.active
    · have hshort := Nat.not_le.2 (hstable hbeat hpresent)
      simp only [if_pos hpresent, Streak.healthyTick, if_neg hshort, Nat.le_refl]
    · simp only [if_neg hpresent, Streak.unhealthyTick, Nat.le_refl]
  next hbeat =>
  obtain ⟨hf, hg, hrec⟩ := silent_kept cfg { d with gapTicks := g } o
  exact ⟨fun _ => hf, hg, fun h => ⟨not_not.1 hbeat, hrec h⟩⟩

/-- A counted tick forgets failures at the end of a stable stretch only; and a recovery clears the quiet
    ticks, and with the gap as its reason, or with no subscription missing, the gap. -/
theorem count_kept (cfg : Config) (d : Detector) (o : Tick) :
    ((o.beats ≠ d.lastBeats → o.registered ≤ o.active → d.streak.healthy + 1 < stableTicks cfg) →
        d.streak.failures ≤ (d.count cfg o).1.streak.failures) ∧
      ((d.count cfg o).2.recovers = true → (d.count cfg o).1.quietTicks = 0 ∧
        (d.allowed cfg ≤ d.gapTicks + 1 ∨ d.allowed cfg ≤ d.quietTicks + 1) ∧
        ((d.count cfg o).1.gapTicks = 0 ∨ o.active < o.registered ∧ o.beats = d.lastBeats)) := by
  unfold Detector.count
  dsimp only
  split
  · next hmissing =>
    split
    · next hgap =>
      refine ⟨fun _ => ?_, fun _ => ⟨rfl, .inl hgap.2, .inl rfl⟩⟩
      dsimp only
      split
      · exact Nat.le_succ _
      · exact Nat.le_refl _
    obtain ⟨hf, -, hrec⟩ := listen_kept cfg d o (d.gapTicks + 1)
    refine ⟨hf, fun h => ?_⟩
    obtain ⟨hb, hfull, hq⟩ := hrec h
    exact ⟨hq, .inr hfull, .inr ⟨hmissing, hb⟩⟩
  · obtain ⟨hf, hg, hrec⟩ := listen_kept cfg d o 0
    refine ⟨hf, fun h => ?_⟩
    obtain ⟨-, hfull, hq⟩ := hrec h
    exact ⟨hq, .inr hfull, .inl hg⟩

/-! ## The runs -/

/-- Nothing has been counted that was before the last attempt, and no failure has been forgotten. -/
structure AttemptInv (d : Detector) (last : Attempt) : Prop where
  failures : last.failures ≤ d.streak.failures
  gap : d.gapTicks ≤ last.ticks
  quiet : d.quietTicks ≤ last.ticks

theorem attempt_step {p}
    (hi : ∀ last, p = some last → last.spaced = true → AttemptInv d last) (hgen : o.gen = d.lastGen) :
    (∀ last, p = some last → last.spaced = true → InTime cfg d last o) ∧
      ∀ last, Attempt.after cfg p d o = some last → last.spaced = true → AttemptInv (tick cfg d o).1 last := by
  unfold InTime Attempt.after tick
  rw [restart_self hgen]
  by_cases hc : o.counted = true
  · have hone : one o.connected = 1 := by
      simp only [Tick.counted, Bool.and_eq_true] at hc
      rw [hc.1.1]
      rfl
    obtain ⟨hf, hrec⟩ := count_kept cfg d o
    have hstep : CountedStep cfg d o (d.count cfg o).1 (d.count cfg o).2 := count_cases rfl
    obtain ⟨hg, hq, -⟩ := hstep.counters
    rw [if_pos hc, hone]
    constructor
    · intro last hlast hspaced h _
      obtain ⟨hf₀, hg₀, hq₀⟩ := hi last hlast hspaced
      -- either counter has reached what is allowed after at least as many failures
      have hmono := heartbeatAllowedTicks_mono cfg.heartbeatAllowedMisses cfg.cycle hf₀
      have hfull : d.allowed cfg ≤ last.ticks + 1 := by
        rcases (hrec h).2.1 with hle | hle <;> omega
      exact hmono.trans hfull
    intro last hlast hspaced
    split at hlast
    · next hattempt =>
      cases hlast
      obtain ⟨hq', -, hg' | ⟨hmissing, hb⟩⟩ := hrec hattempt.1
      · exact ⟨Nat.le_refl _, Nat.le_of_eq hg', Nat.le_of_eq hq'⟩
      rcases of_decide_eq_true hspaced with hpresent | hbeat
      · exact absurd hmissing (Nat.not_lt.2 hpresent)
      · exact absurd hb hbeat
    obtain ⟨last₀, hlast₀, rfl⟩ := Option.map_eq_some_iff.1 hlast
    simp only [Bool.and_eq_true, Bool.not_eq_true', decide_eq_false_iff_not] at hspaced
    obtain ⟨hf₀, hg₀, hq₀⟩ := hi last₀ hlast₀ hspaced.1
    have hkept := hf fun hb hpresent => Nat.not_le.1 fun h => hspaced.2 ⟨hc, hb, hpresent, h⟩
    exact ⟨hf₀.trans hkept, hg.trans (Nat.add_le_add_right hg₀ 1), hq.trans (Nat.add_le_add_right hq₀ 1)⟩
  · rw [if_neg hc]
    refine ⟨fun _ _ _ => nofun, fun last hlast hspaced => ?_⟩
    rw [if_neg (by simp [Event.recovers])] at hlast
    obtain ⟨last₀, hlast₀, rfl⟩ := Option.map_eq_some_iff.1 hlast
    obtain ⟨hf₀, hg₀, hq₀⟩ := hi last₀ hlast₀ (Bool.and_eq_true_iff.1 hspaced).1
    exact ⟨hf₀, Nat.le_add_right_of_le hg₀, Nat.le_add_right_of_le hq₀⟩

/-- The detector has not missed a beat, and its quiet ticks are ticks without one. -/
structure ArrivalsInv (d : Detector) (w : Arrivals) : Prop where
  seen : d.lastBeats ≤ w.beats
  quiet : d.lastBeats = w.beats → d.quietTicks ≤ w.ticks

theorem arrivals_step {w} (hi : ArrivalsInv d w) (hok : Fed cfg d w o) :
    (tick cfg d o).2.recovers = false ∧ ArrivalsInv (tick cfg d o).1 (w.after d o) := by
  obtain ⟨hseen, hquiet⟩ := hi
  obtain ⟨hgen, hpresent, hcounted, harrives⟩ := hok
  -- a tick that sees nothing new is one on which no beat has arrived
  have hsame : o.beats = d.lastBeats →
      d.quietTicks ≤ w.ticks ∧ w.ticks + 1 < cfg.heartbeatAllowedMisses ∧
        (w.after d o).ticks = w.ticks + 1 := by
    intro hb
    have hnone : ¬ w.beats < o.beats := by omega
    exact ⟨hquiet (by omega), harrives.resolve_left hnone, if_neg hnone⟩
  have hseen' : d.lastBeats ≤ (w.after d o).beats := hseen.trans hcounted
  rcases htick : tick cfg d o with ⟨d', e⟩
  rcases tick_cases htick with ⟨-, rfl, rfl⟩ | ⟨-, hs⟩
  · rw [restart_self hgen]
    refine ⟨rfl, hseen', fun heq => ?_⟩
    obtain ⟨hq, -, ht⟩ := hsame heq.symm
    show d.quietTicks ≤ _
    omega
  rw [restart_self hgen] at hs
  cases hs with
  | gap s hm => exact absurd hm (Nat.not_lt.2 hpresent)
  | beat => exact ⟨rfl, Nat.le_refl _, fun _ => Nat.zero_le _⟩
  | quiet s g hg hb =>
    obtain ⟨hq, -, ht⟩ := hsame hb
    exact ⟨rfl, hseen', fun _ => ht ▸ Nat.add_le_add_right hq 1⟩
  | establish | waiting | report => exact ⟨rfl, hseen', fun _ => Nat.zero_le _⟩
  | recovery s g fw fl b hg hb hfull =>
    obtain ⟨hq, hlt, -⟩ := hsame hb
    omega

/-- **Recoveries keep their distance**, in every run of one generation: after a recovery that found no
    subscription missing, or saw a beat, and while no stable stretch has ended, the next comes after as many
    Connected ticks as the backoff asks for.  And with all subscriptions present and a beat in every base
    consecutive ticks there is none. -/
theorem recoveries_spaced (cfg : Config) (gen : Nat) :
    (∀ d p, Run (observe (next cfg) (Attempt.after cfg)) (fun s o => o.gen = s.1.lastGen)
        (start gen, none) (d, p) →
      ∀ o, o.gen = d.lastGen → ∀ last, p = some last → last.spaced = true → InTime cfg d last o) ∧
    ∀ d w, Run (observe (next cfg) Arrivals.after) (fun s o => Fed cfg s.1 s.2 o) (start gen, ⟨0, 0⟩) (d, w) →
      ∀ o, Fed cfg d w o → (tick cfg d o).2.recovers = false := by
  constructor
  · intro d p h o hgen
    refine (attempt_step ?_ hgen).1
    refine h.invariant
      (P := fun s => ∀ last, s.2 = some last → last.spaced = true → AttemptInv s.1 last) nofun ?_
    intro s o s' hi hgen hs
    obtain ⟨hn, hp⟩ := observe_eq_some.1 hs
    rw [next_eq hn, hp]
    exact (attempt_step hi hgen).2
  intro d w h o hok
  refine (arrivals_step ?_ hok).1
  refine h.invariant (P := fun s => ArrivalsInv s.1 s.2) ⟨Nat.le_refl 0, fun _ => Nat.le_refl 0⟩ ?_
  intro s o s' hi hok hs
  obtain ⟨hn, hw⟩ := observe_eq_some.1 hs
  rw [next_eq hn, hw]
  exact (arrivals_step hi hok).2

open Example

/-- Silence throughout: the second recovery comes on the fourth tick after the first. -/
theorem recoveries_spaced_silent :
    ∃ d, Run (observe (next (options .immediate)) (Attempt.after (options .immediate)))
        (fun s o => o.gen = s.1.lastGen) (start 0, none) (d, some ⟨1, 3, true⟩) ∧
      (tick (options .immediate) d (see 0 2)).2.recovers = true ∧
      heartbeatAllowedTicks 2 1 (2 * 10 ^ 9) ≤ 3 + 1 := by
  obtain ⟨⟨d, p⟩, hrun, rfl, hgen, hrec⟩ := exists_run
    (observe (next (options .immediate)) (Attempt.after (options .immediate)))
    (fun s o => o.gen = s.1.lastGen) (start 0, none)
    (fun s => s.2 = some ⟨1, 3, true⟩ ∧ (see 0 2).gen = s.1.lastGen ∧
      (tick (options .immediate) s.1 (see 0 2)).2.recovers = true)
    (List.replicate 5 (see 0 2)) (by decide +kernel)
  exact ⟨d, hrun, hrec, (recoveries_spaced _ 0).1 d _ hrun _ hgen _ rfl rfl hrec nofun⟩

/-- A subscription is missing.  The watcher recovers for silence, and two ticks later, when a beat arrives,
    for the gap, though four are to pass. -/
theorem recoveries_crowded :
    ¬ ∀ d p, Run (observe (next (options .immediate)) (Attempt.after (options .immediate)))
        (fun s o => o.gen = s.1.lastGen) (start 0, none) (d, p) →
      ∀ o, o.gen = d.lastGen → ∀ last, p = some last → InTime (options .immediate) d last o := by
  intro hall
  obtain ⟨⟨d, p⟩, hrun, rfl, hgen, hrec⟩ := exists_run
    (observe (next (options .immediate)) (Attempt.after (options .immediate)))
    (fun s o => o.gen = s.1.lastGen) (start 0, none)
    (fun s => s.2 = some ⟨1, 1, false⟩ ∧ (see 1 1).gen = s.1.lastGen ∧
      (tick (options .immediate) s.1 (see 1 1)).2.recovers = true)
    (List.replicate 3 (see 0 1)) (by decide +kernel)
  exact absurd (hall d _ hrun _ hgen _ rfl hrec nofun) (by decide)

end GoAds.Heartbeat
