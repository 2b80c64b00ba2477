import GoAds.Lib.Interleaving

/-!
# `Heartbeat.Detector` — one tick of the heartbeat watcher

`heartbeatWatch` is a loop over a ticker.  A tick looks at the session once, and what it sees is a value
here, `Tick`; what it remembers from tick to tick are its eight local variables, the `Detector`; what it
does to the session is an `Event`.  The requests it makes are not modelled, only their outcome.

`time.Duration` is a number of nanoseconds.  Log lines and the callback are left out.
-/

namespace GoAds.Heartbeat

/-- `HeartbeatRecovery`, with its default resolved. -/
inductive Mode
  | immediate
  | confirm
  | observe
  deriving DecidableEq

/-- `recoveryOutcome`. -/
inductive Outcome
  | failed
  | done
  | deferred
  deriving DecidableEq

/-- The options of the session that the watcher reads. -/
structure Config where
  mode : Mode
  heartbeatMissed : Int
  cycle : Nat

def defaultHeartbeatMissed : Nat := 5

def heartbeatFailuresBeforeReconnect : Nat := 2

def maxHeartbeatRecoveryBackoff : Nat := 30 * 10 ^ 9

def maxFailureBackoffShift : Nat := 6

def Config.heartbeatAllowedMisses (cfg : Config) : Nat :=
  if 2 ≤ cfg.heartbeatMissed then cfg.heartbeatMissed.toNat else defaultHeartbeatMissed

/-- The silent ticks tolerated before a recovery. -/
def heartbeatAllowedTicks (base consecutiveFailures cycle : Nat) : Nat :=
  if consecutiveFailures = 0 ∨ base = 0 ∨ cycle = 0 then base
  else
    let shift := min consecutiveFailures maxFailureBackoffShift
    let capTicks := max (maxHeartbeatRecoveryBackoff / cycle) base
    min (base <<< shift) capTicks

/-- `recoveryStreak`; its `stableTicks` is a constant of the session. -/
structure Streak where
  failures : Nat
  healthy : Nat
  deriving DecidableEq

namespace Streak

def attempt (r : Streak) : Streak := { failures := r.failures + 1, healthy := 0 }

def healthyTick (stableTicks : Nat) (r : Streak) : Streak :=
  { failures := if stableTicks ≤ r.healthy + 1 then 0 else r.failures, healthy := r.healthy + 1 }

def unhealthyTick (r : Streak) : Streak := { r with healthy := 0 }

def reset : Streak := { failures := 0, healthy := 0 }

end Streak

/-- The local variables of `heartbeatWatch`. -/
structure Detector where
  lastBeats : Nat
  quietTicks : Nat
  lastGen : Nat
  streak : Streak
  framesAtWindow : Nat
  framelessWindows : Nat
  gapTicks : Nat
  silentWindows : Nat
  deriving DecidableEq

/-- What a tick finds. -/
structure Tick where
  /-- The connected generation. -/
  gen : Nat
  /-- The beats, as they are read when the generation has changed. -/
  genBeats : Nat
  /-- The FSM is in state Connected. -/
  connected : Bool
  /-- There is a client, and its context is alive. -/
  transport : Bool
  active : Nat
  wanted : Nat
  registered : Nat
  beats : Nat
  /-- `heartbeatHandle`. -/
  handle : UInt32
  /-- The frames seen, when they are asked for. -/
  frames : Nat
  /-- What a recovery would end in. -/
  outcome : Outcome

/-- What a tick does. -/
inductive Event
  /-- The session is not connected, or there is nothing to protect. -/
  | skipped
  | beat
  | quiet
  /-- `establishHeartbeat` is called, since there is no beat to miss. -/
  | establish (escalated : Bool)
  /-- The first of the two windows that Confirm asks for. -/
  | waiting
  /-- Observe reports the silence. -/
  | report
  /-- `recoverDeadSubscriptions`, since subscriptions are missing. -/
  | gapRecovery
  /-- `recoverDeadSubscriptions`, since the beats have stopped. -/
  | recovery (escalated : Bool)
  deriving DecidableEq

/-- The tick calls `recoverDeadSubscriptions`. -/
def Event.recovers : Event → Bool
  | .gapRecovery | .recovery _ => true
  | _ => false

/-- The tick ends the loop. -/
def Event.escalated : Event → Bool
  | .establish b | .recovery b => b
  | _ => false

variable (cfg : Config)

def Detector.allowed (d : Detector) : Nat :=
  heartbeatAllowedTicks cfg.heartbeatAllowedMisses d.streak.failures cfg.cycle

def stableTicks : Nat := 2 * cfg.heartbeatAllowedMisses

/-- The detector restarts when the connected generation has changed. -/
def Detector.restart (d : Detector) (o : Tick) : Detector :=
  if o.gen ≠ d.lastGen then
    -- neither the gap nor the silent windows are among what is reset
    { d with lastGen := o.gen, lastBeats := o.genBeats, quietTicks := 0, streak := .reset }
  else d

/-- The tick is one that the detector counts. -/
def Tick.counted (o : Tick) : Bool :=
  o.connected && o.transport && !(o.wanted == 0 && o.active == 0)

/-- The closure `escalate`: whether no frame has arrived for two silent windows. -/
def Detector.escalate (d : Detector) (o : Tick) : Detector × Bool :=
  if o.frames ≠ d.framesAtWindow then
    ({ d with framesAtWindow := o.frames, framelessWindows := 0 }, false)
  else
    let d := { d with framelessWindows := d.framelessWindows + 1 }
    (d, decide (heartbeatFailuresBeforeReconnect ≤ d.framelessWindows))

/-- The recovery of the silence branch. -/
def Detector.recover (d : Detector) (o : Tick) : Detector × Event :=
  match o.outcome with
  | .done => ({ d with streak := d.streak.attempt }, .recovery false)
  -- the runtime is not serving: this was no attempt
  | .deferred => (d, .recovery false)
  | .failed =>
    let (d, escalated) := { d with streak := d.streak.attempt }.escalate o
    (d, .recovery escalated)

/-- A silent window has passed with a beat in place. -/
def Detector.window (d : Detector) (o : Tick) : Detector × Event :=
  match cfg.mode with
  | .confirm =>
    -- the first window only arms the second
    if d.silentWindows + 1 < 2 then ({ d with silentWindows := d.silentWindows + 1 }, .waiting)
    else { d with silentWindows := 0 }.recover o
  -- observing backs off like recovering, so that reports thin out
  | .observe => ({ d with streak := d.streak.attempt }, .report)
  | .immediate => { d with silentWindows := 0 }.recover o

/-- No beat has arrived. -/
def Detector.silent (d : Detector) (o : Tick) : Detector × Event :=
  let d := { d with quietTicks := d.quietTicks + 1, streak := d.streak.unhealthyTick }
  if d.quietTicks < d.allowed cfg then (d, .quiet)
  -- no beat is registered, so its absence says nothing about the subscriptions
  else if o.handle = 0 then
    let (d, escalated) := { d with quietTicks := 0, streak := d.streak.attempt }.escalate o
    (d, .establish escalated)
  else { d with quietTicks := 0 }.window cfg o

/-- The silence check. -/
def Detector.listen (d : Detector) (o : Tick) : Detector × Event :=
  if o.beats ≠ d.lastBeats then
    -- a beat with subscriptions missing is not yet health
    let streak :=
      if o.registered ≤ o.active then d.streak.healthyTick (stableTicks cfg) else d.streak.unhealthyTick
    ({ d with lastBeats := o.beats, quietTicks := 0, silentWindows := 0, streak }, .beat)
  else d.silent cfg o

/-- The gap check: subscriptions are missing though the beat arrives. -/
def Detector.count (d : Detector) (o : Tick) : Detector × Event :=
  let d := { d with gapTicks := d.gapTicks + 1 }
  if o.active < o.registered then
    -- the mode is not asked here
    if o.beats ≠ d.lastBeats ∧ d.allowed cfg ≤ d.gapTicks then
      let streak := if o.outcome ≠ .deferred then d.streak.attempt else d.streak
      ({ d with gapTicks := 0, lastBeats := o.beats, quietTicks := 0, streak }, .gapRecovery)
    else d.listen cfg o
  else { d with gapTicks := 0 }.listen cfg o

/-- **One tick of `heartbeatWatch`.** -/
def tick (d : Detector) (o : Tick) : Detector × Event :=
  if o.counted then (d.restart o).count cfg o else (d.restart o, .skipped)

/-- The detector as the loop begins. -/
def start (gen : Nat) : Detector where
  lastBeats := 0
  quietTicks := 0
  lastGen := gen
  streak := .reset
  framesAtWindow := 0
  framelessWindows := 0
  gapTicks := 0
  silentWindows := 0

/-! ## A tick, read backwards -/

theorem le_heartbeatAllowedTicks (base failures cycle : Nat) :
    base ≤ heartbeatAllowedTicks base failures cycle := by
  unfold heartbeatAllowedTicks
  split
  · exact Nat.le_refl base
  -- the shift only grows the base, and the cap is at least the base
  · apply Nat.le_min.2
    constructor
    · rw [Nat.shiftLeft_eq]
      exact Nat.le_mul_of_pos_right base (Nat.two_pow_pos _)
    · exact Nat.le_max_right _ base

theorem le_allowed (d : Detector) : cfg.heartbeatAllowedMisses ≤ d.allowed cfg :=
  le_heartbeatAllowedTicks _ _ _

/-- Two silent windows have passed without a frame. -/
def Detector.Frameless (r : Detector) (o : Tick) : Prop :=
  o.frames = r.framesAtWindow ∧ heartbeatFailuresBeforeReconnect ≤ r.framelessWindows + 1

/-- What a counted tick does to a detector that has been restarted if it had to be.  The backoff and the
    count of frames are any. -/
inductive CountedStep (r : Detector) (o : Tick) : Detector → Event → Prop
  | gap (s : Streak) (hm : o.active < o.registered) (hb : o.beats ≠ r.lastBeats)
      (hg : r.allowed cfg ≤ r.gapTicks + 1) :
      CountedStep r o { r with gapTicks := 0, lastBeats := o.beats, quietTicks := 0, streak := s }
        .gapRecovery
  | beat (s : Streak) (g : Nat) (hg : g ≤ r.gapTicks + 1) (hb : o.beats ≠ r.lastBeats) :
      CountedStep r o
        { r with gapTicks := g, lastBeats := o.beats, quietTicks := 0, silentWindows := 0, streak := s }
        .beat
  | quiet (s : Streak) (g : Nat) (hg : g ≤ r.gapTicks + 1) (hb : o.beats = r.lastBeats) :
      CountedStep r o { r with gapTicks := g, quietTicks := r.quietTicks + 1, streak := s } .quiet
  | establish (s : Streak) (g fw fl : Nat) (b : Bool) (hg : g ≤ r.gapTicks + 1)
      (hb : o.beats = r.lastBeats) (hesc : b = true → r.Frameless o) :
      CountedStep r o
        { r with gapTicks := g, quietTicks := 0, streak := s, framesAtWindow := fw,
                 framelessWindows := fl } (.establish b)
  | waiting (s : Streak) (g : Nat) (hg : g ≤ r.gapTicks + 1) (hb : o.beats = r.lastBeats)
      (hq : cfg.heartbeatAllowedMisses ≤ r.quietTicks + 1) (hmode : cfg.mode = .confirm) :
      CountedStep r o
        { r with gapTicks := g, quietTicks := 0, streak := s, silentWindows := r.silentWindows + 1 }
        .waiting
  | report (s : Streak) (g : Nat) (hg : g ≤ r.gapTicks + 1) (hb : o.beats = r.lastBeats)
      (hq : cfg.heartbeatAllowedMisses ≤ r.quietTicks + 1) (hmode : cfg.mode = .observe) :
      CountedStep r o { r with gapTicks := g, quietTicks := 0, streak := s } .report
  | recovery (s : Streak) (g fw fl : Nat) (b : Bool) (hg : g ≤ r.gapTicks + 1)
      (hb : o.beats = r.lastBeats) (hq : cfg.heartbeatAllowedMisses ≤ r.quietTicks + 1)
      (hmode : cfg.mode ≠ .observe) (hw : cfg.mode = .confirm → 2 ≤ r.silentWindows + 1)
      (hesc : b = true → r.Frameless o) :
      CountedStep r o
        { r with gapTicks := g, quietTicks := 0, streak := s, silentWindows := 0,
                 framesAtWindow := fw, framelessWindows := fl } (.recovery b)

variable {cfg} {d d' r : Detector} {o : Tick} {e : Event}

/-- What `escalate` leaves of a detector, and when it gives the transport up. -/
theorem escalate_cases (d : Detector) (o : Tick) :
    ∃ fw fl b, d.escalate o = ({ d with framesAtWindow := fw, framelessWindows := fl }, b) ∧
      (b = true → d.Frameless o) := by
  unfold Detector.escalate
  split
  · exact ⟨o.frames, 0, false, rfl, fun h => nomatch h⟩
  next hf =>
  refine ⟨d.framesAtWindow, d.framelessWindows + 1, _, rfl, fun h => ?_⟩
  exact ⟨not_not.1 hf, of_decide_eq_true h⟩

theorem recover_cases (d : Detector) (o : Tick) : ∃ s fw fl b, d.recover o =
      ({ d with streak := s, framesAtWindow := fw, framelessWindows := fl }, .recovery b) ∧
        (b = true → d.Frameless o) := by
  unfold Detector.recover
  split
  · exact ⟨d.streak.attempt, d.framesAtWindow, d.framelessWindows, false, rfl, fun h => nomatch h⟩
  · exact ⟨d.streak, d.framesAtWindow, d.framelessWindows, false, rfl, fun h => nomatch h⟩
  obtain ⟨fw, fl, b, h, hesc⟩ := escalate_cases { d with streak := d.streak.attempt } o
  rw [h]
  exact ⟨d.streak.attempt, fw, fl, b, rfl, hesc⟩

/-- A silent window: `d` is the restarted detector with its gap counted and its quiet ticks cleared. -/
theorem window_cases {g s} (hg : g ≤ r.gapTicks + 1) (hb : o.beats = r.lastBeats)
    (hq : cfg.heartbeatAllowedMisses ≤ r.quietTicks + 1)
    (h : { r with gapTicks := g, quietTicks := 0, streak := s }.window cfg o = (d', e)) :
    CountedStep cfg r o d' e := by
  unfold Detector.window at h
  split at h
  · next hmode =>
    split at h
    · cases h
      exact .waiting s g hg hb hq hmode
    -- the second window in a row
    · next hw =>
      obtain ⟨s', fw, fl, b, hr, hesc⟩ := recover_cases
        { r with gapTicks := g, quietTicks := 0, streak := s, silentWindows := 0 } o
      rw [hr] at h
      cases h
      exact .recovery s' g fw fl b hg hb hq (by rw [hmode]; nofun) (fun _ => Nat.not_lt.1 hw) hesc
  · next hmode =>
    cases h
    exact .report s.attempt g hg hb hq hmode
  next hmode =>
  obtain ⟨s', fw, fl, b, hr, hesc⟩ := recover_cases
    { r with gapTicks := g, quietTicks := 0, streak := s, silentWindows := 0 } o
  rw [hr] at h
  cases h
  refine .recovery s' g fw fl b hg hb hq (by rw [hmode]; nofun) (fun hc => ?_) hesc
  rw [hmode] at hc
  cases hc

theorem listen_cases {g} (hg : g ≤ r.gapTicks + 1)
    (h : { r with gapTicks := g }.listen cfg o = (d', e)) : CountedStep cfg r o d' e := by
  unfold Detector.listen at h
  split at h
  · next hb =>
    cases h
    exact .beat _ g hg hb
  next hb =>
  have hb : o.beats = r.lastBeats := not_not.1 hb
  unfold Detector.silent at h
  dsimp only at h
  split at h
  · cases h
    exact .quiet _ g hg hb
  next hq =>
  -- the backoff may ask for more ticks than the base, never for fewer
  have hq : cfg.heartbeatAllowedMisses ≤ r.quietTicks + 1 :=
    Nat.le_trans (le_allowed cfg _) (Nat.not_lt.1 hq)
  split at h
  · obtain ⟨fw, fl, b, hr, hesc⟩ := escalate_cases
      { r with gapTicks := g, quietTicks := 0, streak := r.streak.unhealthyTick.attempt } o
    rw [hr] at h
    cases h
    exact .establish _ g fw fl b hg hb hesc
  · exact window_cases hg hb hq h

theorem count_cases (h : r.count cfg o = (d', e)) : CountedStep cfg r o d' e := by
  unfold Detector.count at h
  dsimp only at h
  split at h
  · next hm =>
    split at h
    · next hb =>
      cases h
      exact .gap _ hm hb.1 hb.2
    · exact listen_cases (Nat.le_refl _) h
  · exact listen_cases (Nat.zero_le _) h

/-- **One tick**: it is skipped, or it is counted by the detector, restarted if the generation is new. -/
theorem tick_cases (h : tick cfg d o = (d', e)) : (o.counted = false ∧ d' = d.restart o ∧ e = .skipped) ∨
      (o.counted = true ∧ CountedStep cfg (d.restart o) o d' e) := by
  unfold tick at h
  split at h
  · next hc => exact .inr ⟨hc, count_cases h⟩
  next hc =>
  cases h
  exact .inl ⟨by simpa using hc, rfl, rfl⟩

end GoAds.Heartbeat
