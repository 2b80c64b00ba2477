import GoAds.Heartbeat.Detector

/-!
# `Heartbeat.Watch` — the life of the heartbeat watcher

The watcher is started through a `sync.Once` by the first `establishHeartbeat` that gets so far.  Its
loop ends when the session is closed, and also when it has given the transport up and asked for a
reconnect.  The `sync.Once` is spent by then, and the reconnect does not start another loop.

`closed` is the FSM in Closed, which is entered before `closedCh` is closed; the loop may end here as soon
as it is entered.  The calls of `establishHeartbeat` that the watcher makes itself are steps of some goroutine
here, and so is its tick.
-/

namespace GoAds.Heartbeat.Watch

open Interleaving

inductive Watcher
  | absent
  | running (d : Detector)
  | ended
  deriving DecidableEq

structure Shared where
  closed : Bool
  heartbeatHandle : UInt32
  /-- `heartbeatOnce` is spent. -/
  once : Bool
  watcher : Watcher

/-- Where a goroutine is in `establishHeartbeat`. -/
inductive Pc
  | idle
  | add
  | check (handle : UInt32)
  | cas (handle : UInt32)
  | startWatch

inductive Act
  | next
  /-- `establishHeartbeat` is called, with or without a client. -/
  | establishHeartbeat (client : Bool)
  | added (handle : UInt32)
  | refused
  /-- Whether the handle is one of the caller's already. -/
  | collides (b : Bool)
  /-- The watcher begins in this generation, if it does. -/
  | begin (gen : Nat)
  /-- `takeNotificationHandles`. -/
  | take
  | close
  /-- The watcher sees that the session is closed. -/
  | stop
  | tick (o : Tick)

variable (cfg : Config)

/-- `startHeartbeatWatch`: `trackGoroutineOn` refuses once the session is closed. -/
def startHeartbeatWatch (c : Shared) (gen : Nat) : Shared :=
  if c.once then c
  else
    { c with
      once := true
      watcher := if c.closed then c.watcher else .running (start gen) }

/-- A tick of the loop, and its end if the tick gives the transport up. -/
def Watcher.tick (d : Detector) (o : Tick) : Watcher :=
  if (Heartbeat.tick cfg d o).2.escalated then .ended else .running (Heartbeat.tick cfg d o).1

/-- `establishHeartbeat`. -/
def establishStep (c : Shared) : Pc → Act → Option (Pc × Shared)
  | .add, .added handle => some (.check handle, c)
  | .add, .refused => some (.startWatch, c)
  | .check handle, .collides b => some (if b then .startWatch else .cas handle, c)
  | .cas handle, .next =>
    -- the loser deletes what it has added
    if c.heartbeatHandle = 0 then some (.startWatch, { c with heartbeatHandle := handle })
    else some (.idle, c)
  | .startWatch, .begin gen => some (.idle, startHeartbeatWatch c gen)
  | _, _ => none

def idleStep (c : Shared) : Act → Option (Pc × Shared)
  | .establishHeartbeat client =>
    if c.closed ∨ c.heartbeatHandle ≠ 0 ∨ client = false then some (.idle, c) else some (.add, c)
  | .take => some (.idle, { c with heartbeatHandle := 0 })
  | .close => some (.idle, { c with closed := true })
  | .stop =>
    match c.watcher with
    | .running _ => if c.closed then some (.idle, { c with watcher := .ended }) else none
    | _ => none
  | .tick o =>
    match c.watcher with
    | .running d =>
      if o.handle = c.heartbeatHandle then some (.idle, { c with watcher := .tick cfg d o }) else none
    | _ => none
  | _ => none

def plan (_ : Nat) (pc : Pc) (c : Shared) (a : Act) : Option (Pc × Shared) :=
  match pc with
  | .idle => idleStep cfg c a
  | _ => establishStep c pc a

abbrev State := Conf Nat Shared Pc

def step : State → Nat × Act → Option State := Conf.exec (plan cfg)

def init : State where
  shared := { closed := false, heartbeatHandle := 0, once := false, watcher := .absent }
  loc _ := .idle

/-- No tick finds that two silent windows have passed without a frame. -/
def Framed (s : State) (x : Nat × Act) : Prop :=
  match s.shared.watcher, x.2 with
  | .running d, .tick o => ¬ d.Frameless o
  | _, _ => True

instance (s : State) (x : Nat × Act) : Decidable (Framed s x) := by
  unfold Framed Detector.Frameless
  split <;> infer_instance

/-! ## What a step does to the watcher -/

variable {cfg} {c c' : Shared} {pc pc' : Pc} {a : Act}

inductive WatchStep (cfg : Config) (c : Shared) (a : Act) (c' : Shared) : Prop
  | same (hw : c'.watcher = c.watcher) (ho : c'.once = c.once) (hc : c.closed = true → c'.closed = true)
  | spent (ho : c.once = false) (hc : c.closed = true) (hc' : c'.closed = true)
  | begin (gen : Nat) (ho : c.once = false) (hw : c'.watcher = .running (start gen))
  | stop (d : Detector) (hd : c.watcher = .running d) (hc : c.closed = true) (hc' : c'.closed = true)
  | tick (d : Detector) (o : Tick) (ha : a = .tick o) (hd : c.watcher = .running d)
      (hw : c'.watcher = .tick cfg d o) (ho : c'.once = c.once) (hc : c'.closed = c.closed)

theorem startHeartbeatWatch_cases (c : Shared) (gen : Nat) :
    WatchStep cfg c a (startHeartbeatWatch c gen) := by
  unfold startHeartbeatWatch
  by_cases ho : c.once = true
  · rw [if_pos ho]
    exact .same rfl rfl id
  rw [if_neg ho]
  have ho : c.once = false := by simpa using ho
  by_cases hc : c.closed = true
  · exact .spent ho hc hc
  · exact .begin gen ho (by simp only [if_neg hc])

theorem establishStep_cases (h : establishStep c pc a = some (pc', c')) : WatchStep cfg c a c' := by
  -- only the last step of the call starts the watcher
  cases pc with
  | idle => cases h
  | add =>
    cases a with
    | added handle | refused =>
      cases h
      exact .same rfl rfl id
    | _ => cases h
  | check =>
    cases a <;> cases h
    exact .same rfl rfl id
  | cas handle =>
    cases a with
    | next =>
      change (if c.heartbeatHandle = 0 then some (.startWatch, { c with heartbeatHandle := handle })
        else some (.idle, c)) = some (pc', c') at h
      split at h <;> cases h <;> exact .same rfl rfl id
    | _ => cases h
  | startWatch =>
    cases a with
    | begin gen =>
      cases h
      exact startHeartbeatWatch_cases c gen
    | _ => cases h

theorem idleStep_cases (h : idleStep cfg c a = some (pc', c')) : WatchStep cfg c a c' := by
  unfold idleStep at h
  split at h
  · split at h <;> cases h <;> exact .same rfl rfl id
  · cases h
    exact .same rfl rfl id
  · cases h
    exact .same rfl rfl fun _ => rfl
  · split at h
    · next d hd =>
      split at h
      · next hc =>
        cases h
        exact .stop d hd hc hc
      · cases h
    · cases h
  · split at h
    · next d hd =>
      split at h
      · cases h
        exact .tick d _ rfl hd rfl rfl rfl
      · cases h
    · cases h
  · cases h

variable {x : Nat × Act} {s s' : State}

theorem step_cases (h : step cfg s x = some s') : WatchStep cfg s.shared x.2 s'.shared := by
  obtain ⟨pc', c', ha, rfl⟩ := Conf.exec_eq_some.1 h
  unfold plan at ha
  split at ha
  · exact idleStep_cases ha
  · exact establishStep_cases ha

/-! ## The invariant -/

/-- Once the watcher has been started, it runs while the session is open. -/
def Alive (s : State) : Prop :=
  s.shared.once = true → s.shared.closed = false → ∃ d, s.shared.watcher = .running d

/-- A tick that gives the transport up has seen no frame for two windows. -/
theorem escalated_frameless {d o}
    (h : (Heartbeat.tick cfg d o).2.escalated = true) : d.Frameless o := by
  rcases htick : Heartbeat.tick cfg d o with ⟨d', e⟩
  rw [htick] at h
  have hr : (d.restart o).Frameless o → d.Frameless o := by
    intro hf
    unfold Detector.restart at hf
    split at hf <;> exact hf
  rcases tick_cases htick with ⟨-, -, rfl⟩ | ⟨-, hs⟩
  · cases h
  cases hs with
  | establish s g fw fl b hg hb hesc | recovery s g fw fl b hg hb hq hmode hsw hesc => exact hr (hesc h)
  | _ => cases h

theorem alive_step (hi : Alive s) (hok : Framed s x) (hs : step cfg s x = some s') : Alive s' := by
  intro ho hc
  cases step_cases hs with
  | same hw hso hcc =>
    -- an open session was open before
    have hopen : s.shared.closed = false := by
      by_contra h
      rw [hcc (by simpa using h)] at hc
      cases hc
    rw [hw]
    exact hi (hso ▸ ho) hopen
  | spent _ _ hc' | stop d hd _ hc' =>
    rw [hc'] at hc
    cases hc
  | begin gen _ hw => exact ⟨start gen, hw⟩
  | tick d o ha hd hw _ _ =>
    have hframes : ¬ d.Frameless o := by
      unfold Framed at hok
      rw [hd, ha] at hok
      exact hok
    have hgo : (Heartbeat.tick cfg d o).2.escalated = false := by
      by_contra h
      exact hframes (escalated_frameless (by simpa using h))
    refine ⟨(Heartbeat.tick cfg d o).1, ?_⟩
    rw [hw, Watcher.tick, hgo]
    rfl

/-- **The watcher lives as long as the session**, in every run in which no tick finds two silent windows
    without a frame. -/
theorem watch_alive {s : State} (h : Run (step cfg) Framed init s) (ho : s.shared.once = true)
    (hc : s.shared.closed = false) : ∃ d, s.shared.watcher = .running d := by
  have hi : Alive s :=
    h.invariant (fun ho => nomatch ho) fun _ _ _ hi hok hs => alive_step hi hok hs
  exact hi ho hc

theorem ended_stays (h : Run (step cfg) anyStep s s') (ho : s.shared.once = true)
    (hw : s.shared.watcher = .ended) : s'.shared.watcher = .ended := by
  have hi : s'.shared.once = true ∧ s'.shared.watcher = .ended := by
    refine h.invariant (P := fun s => s.shared.once = true ∧ s.shared.watcher = .ended) ⟨ho, hw⟩ ?_
    rintro s x s' ⟨ho, hw⟩ - hs
    cases step_cases hs with
    | same hw' hso => exact ⟨hso.trans ho, hw'.trans hw⟩
    | spent ho' | begin gen ho' => exact nomatch ho.symm.trans ho'
    | stop d hd | tick d o _ hd => exact nomatch hw.symm.trans hd
  exact hi.2

namespace Example

def options : Config := { mode := .immediate, heartbeatMissed := 2, cycle := 2 * 10 ^ 9 }

/-- The PLC refuses the first beat; the watcher is started all the same. -/
def refusedBeat : List (Nat × Act) :=
  [(0, .establishHeartbeat true), (0, .refused), (0, .begin 0)]

/-- A tick of a connected session without a beat, and the frames that have arrived so far. -/
def silent (frames : Nat) : Nat × Act :=
  (1, .tick {
    gen := 0, genBeats := 0, connected := true, transport := true, active := 1, wanted := 1,
    registered := 1, beats := 0, handle := 0, frames, outcome := .failed })

end Example

/-- Two silent windows, in each of which the PLC answers something. -/
theorem watch_alive_framed :
    ∃ s, Run (step Example.options) Framed init s ∧ s.shared.once = true ∧ s.shared.closed = false ∧
      ∃ d, s.shared.watcher = .running d := by
  obtain ⟨s, hrun, ho, hc⟩ := exists_run (step Example.options) Framed init
    (fun s => s.shared.once = true ∧ s.shared.closed = false)
    (Example.refusedBeat ++ List.replicate 2 (Example.silent 3) ++ List.replicate 4 (Example.silent 5))
    (by decide +kernel)
  exact ⟨s, hrun, ho, hc, watch_alive hrun ho hc⟩

/-- Two silent windows without a frame end the loop, and the open session has no watcher any more,
    whatever happens to it. -/
theorem watch_dies :
    ∃ s, Run (step Example.options) anyStep init s ∧ s.shared.once = true ∧ s.shared.closed = false ∧
      ∀ s', Run (step Example.options) anyStep s s' → s'.shared.watcher = .ended := by
  obtain ⟨s, hrun, ho, hc, hw⟩ := exists_run (step Example.options) anyStep init
    (fun s => s.shared.once = true ∧ s.shared.closed = false ∧ s.shared.watcher = .ended)
    (Example.refusedBeat ++ List.replicate 6 (Example.silent 0)) (by decide +kernel)
  exact ⟨s, hrun, ho, hc, fun s' h => ended_stays h ho hw⟩

end GoAds.Heartbeat.Watch
