import GoAds.Dispatch.System

/-!
# `Dispatch.Steps` — what one step can do

The step functions of `Dispatch.System` as relations: one case for each thing a function can do, with
the tests it made.  Every invariant of the later modules is proved from these cases.
-/

namespace GoAds.Dispatch

open Interleaving
open Notification (Handle)

/-- A step of the receive side. -/
inductive DispatchStep (sh : Shared) : Frame → List Frame → Effect → Prop
  | beat (s : Sample) (buffer : Bool) (hz : s.handle ≠ 0) (h : s.handle = sh.heartbeatHandle) :
      DispatchStep sh (.beat s buffer) [] .none
  | notBeat (s : Sample) (buffer : Bool) (h : ¬ (s.handle ≠ 0 ∧ s.handle = sh.heartbeatHandle)) :
      DispatchStep sh (.beat s buffer) [.lookup s buffer] .none
  | hit (s : Sample) (buffer : Bool) (h : s.handle ∈ sh.activeNotifications) :
      DispatchStep sh (.lookup s buffer) [] .none
  | miss (s : Sample) (buffer : Bool) (h : s.handle ∉ sh.activeNotifications) :
      DispatchStep sh (.lookup s buffer) [.missed s buffer] .none
  | closed (s : Sample) (buffer : Bool) (h : sh.closed = true) :
      DispatchStep sh (.missed s buffer) [] .none
  | live (s : Sample) (h : sh.closed = false) : DispatchStep sh (.missed s true) [.window s] .none
  | replayed (s : Sample) (h : sh.closed = false) :
      DispatchStep sh (.missed s false) [.unknown s] .none
  | clock (s : Sample) : DispatchStep sh (.window s) [.race s sh.now] .none
  | raceOpen (s : Sample) (now newest : Nat) (h : sh.newestOpenSubscribe = some newest)
      (hlt : now - newest < subscribeRaceMaxOpen) : DispatchStep sh (.race s now) [.park s] .none
  | raceWedged (s : Sample) (now newest : Nat) (h : sh.newestOpenSubscribe = some newest)
      (hlt : ¬ now - newest < subscribeRaceMaxOpen) :
      DispatchStep sh (.race s now) [.unknown s] .none
  | raceNone (s : Sample) (now : Nat) (h : sh.newestOpenSubscribe = none) :
      DispatchStep sh (.race s now) [.tail s now] .none
  | tailOpen (s : Sample) (now : Nat) (h : now - sh.lastSubscribeNs < subscribeRaceWindow) :
      DispatchStep sh (.tail s now) [.park s] .none
  | tailOver (s : Sample) (now : Nat) (h : ¬ now - sh.lastSubscribeNs < subscribeRaceWindow) :
      DispatchStep sh (.tail s now) [.unknown s] .none
  | stale (s : Sample) (h : sh.reconnecting = true) : DispatchStep sh (.unknown s) [] .none
  | orphan (s : Sample) (h : sh.reconnecting = false) :
      DispatchStep sh (.unknown s) [.orphan s.handle] .none
  | full (s : Sample) (h : sh.full s = true) : DispatchStep sh (.park s) [] .none
  | park (s : Sample) (h : sh.full s = false) :
      DispatchStep sh (.park s) [.replayBound [s.handle]] (.park s)
  | boundNil : DispatchStep sh (.replayBound []) [] .none
  | bound (handles : List Handle) (h : handles ≠ []) :
      DispatchStep sh (.replayBound handles)
        [.replayTake (handles.filter (· ∈ sh.activeNotifications))] .none
  | take (bound : List Handle) :
      DispatchStep sh (.replayTake bound) [.replayDispatch (takeSamples bound sh.earlySamples).1]
        (.take bound)
  | replayNil : DispatchStep sh (.replayDispatch []) [] .none
  | replay (s : Sample) (rest : List Sample) :
      DispatchStep sh (.replayDispatch (s :: rest)) [.beat s false, .replayDispatch rest] .none

/-- A step of `tryOrphanDelete` or of the goroutine it starts. -/
inductive OrphanStep (sh : Shared) : Frame → Act → List Frame → Effect → Prop
  | skip (handle : Handle) (h : sh.closed = true ∨ sh.reconnecting = true) :
      OrphanStep sh (.orphan handle) .next [] .none
  | go (handle : Handle) (hc : sh.closed = false) (hr : sh.reconnecting = false) :
      OrphanStep sh (.orphan handle) .next [.throttle handle] .none
  | throttled (handle : Handle) (h : sh.throttled handle = true) :
      OrphanStep sh (.throttle handle) .next [] .collect
  | unthrottled (handle : Handle) (h : sh.throttled handle = false) :
      OrphanStep sh (.throttle handle) .next [.sem handle sh.now] .collect
  | acquire (handle : Handle) (now : Nat) (h : sh.orphanSem < orphanDeleteMaxConcurrency) :
      OrphanStep sh (.sem handle now) .next [.record handle now] .acquire
  | busy (handle : Handle) (now : Nat) (h : ¬ sh.orphanSem < orphanDeleteMaxConcurrency) :
      OrphanStep sh (.sem handle now) .next [] .none
  | record (handle : Handle) (now : Nat) :
      OrphanStep sh (.record handle now) .next [.spawn handle] (.record handle now)
  | notStarted (handle : Handle) (h : sh.closed = true) :
      OrphanStep sh (.spawn handle) .next [] (.unspawn handle)
  | started (handle : Handle) (h : sh.closed = false) :
      OrphanStep sh (.spawn handle) .next [] (.schedule handle)
  | reappeared (handle : Handle) (h : handle ∈ sh.activeNotifications) :
      OrphanStep sh (.reapCheck handle) .next [.reapAbort handle] .none
  | absent (handle : Handle) (h : handle ∉ sh.activeNotifications) :
      OrphanStep sh (.reapCheck handle) .next [.reapInFlight handle] .none
  | inFlight (handle : Handle) (h : 0 < sh.subscribeInFlight) :
      OrphanStep sh (.reapInFlight handle) .next [.reapAbort handle] .none
  | clear (handle : Handle) (h : sh.subscribeInFlight = 0) :
      OrphanStep sh (.reapInFlight handle) .next [.reapClient handle] .none
  | abort (handle : Handle) : OrphanStep sh (.reapAbort handle) .next [] (.unspawn handle)
  | noClient (handle : Handle) : OrphanStep sh (.reapClient handle) (.client false) [] .release
  | client (handle : Handle) :
      OrphanStep sh (.reapClient handle) (.client true) [.reapSend handle] .none
  | send (handle : Handle) : OrphanStep sh (.reapSend handle) .next [] .release

/-- A subscribe with one more handle committed. -/
def Sub.commit (sub : Sub) (handle : Handle) : Sub :=
  { sub with committed := sub.committed ++ [handle] }

inductive SubscribeStep (sh : Shared) : Frame → Act → List Frame → Effect → Prop
  | begin (batch : Bool) : SubscribeStep sh (.begin batch) .next [.opening batch sh.now] .none
  | opening (batch : Bool) (now : Nat) :
      SubscribeStep sh (.opening batch now) .next
        [.opened ⟨sh.nextSubscribeToken + 1, batch, []⟩ now] (.open now)
  | opened (sub : Sub) (now : Nat) : SubscribeStep sh (.opened sub now) .next [.add sub] (.stamp now)
  | create (sub : Sub) (items : List (Option Handle)) :
      SubscribeStep sh (.add sub) (.create items) [.created sub items] .none
  | fail (sub : Sub) : SubscribeStep sh (.add sub) .fail [.ending sub] .none
  | finish (sub : Sub) (ok : Bool) : SubscribeStep sh (.add sub) (.finish ok) [.ending sub] .none
  | finishBeat (sub : Sub) :
      SubscribeStep sh (.add sub) (.finish true) [.beatCheck, .ending sub] .none
  | handled (sub : Sub) : SubscribeStep sh (.created sub []) .next [.add sub] .none
  | refused (sub : Sub) (item : Option Handle) (rest : List (Option Handle)) :
      SubscribeStep sh (.created sub (item :: rest)) .next [.created sub rest] (.touch sub.token)
  | item (sub : Sub) (handle : Handle) (rest : List (Option Handle)) (hb : sub.batch = true)
      (hz : handle ≠ 0) :
      SubscribeStep sh (.created sub (some handle :: rest)) .next [.commit sub handle rest]
        (.touch sub.token)
  | single (sub : Sub) (handle : Handle) (rest : List (Option Handle)) (hb : sub.batch = false) :
      SubscribeStep sh (.created sub (some handle :: rest)) .next
        [.beatCheck, .commit sub handle rest] .none
  | bindItem (sub : Sub) (handle : Handle) (rest : List (Option Handle)) (hb : sub.batch = true) :
      SubscribeStep sh (.commit sub handle rest) (.accept true)
        [.replayBound [handle], .created (sub.commit handle) rest] (.bind handle)
  | bindSingle (sub : Sub) (handle : Handle) (rest : List (Option Handle)) (hb : sub.batch = false) :
      SubscribeStep sh (.commit sub handle rest) (.accept true) [.ending (sub.commit handle)]
        (.bind handle)
  | declineItem (sub : Sub) (handle : Handle) (rest : List (Option Handle)) (hb : sub.batch = true) :
      SubscribeStep sh (.commit sub handle rest) (.accept false) [.created sub rest] .none
  | declineSingle (sub : Sub) (handle : Handle) (rest : List (Option Handle))
      (hb : sub.batch = false) :
      SubscribeStep sh (.commit sub handle rest) (.accept false) [.ending sub] .none
  | ending (sub : Sub) :
      SubscribeStep sh (.ending sub) .next [.replayBound sub.committed, .closing sub]
        (.stamp sh.now)
  | closing (sub : Sub) : SubscribeStep sh (.closing sub) .next [] (.close sub.token)

/-- A step of `establishHeartbeat`. -/
inductive HeartbeatStep (sh : Shared) : Frame → Act → List Frame → Effect → Prop
  | skip (ok : Bool) : HeartbeatStep sh .beatCheck (.client ok) [] .none
  | go (h : sh.heartbeatHandle = 0) : HeartbeatStep sh .beatCheck (.client true) [.beatAdd] .none
  | create (handle : Handle) :
      HeartbeatStep sh .beatAdd (.create [some handle]) [.beatCreated handle] .none
  | fail : HeartbeatStep sh .beatAdd .fail [] .none
  | collides (handle : Handle) (h : handle ∈ sh.activeNotifications) :
      HeartbeatStep sh (.beatCreated handle) .next [.beatRelease handle] .none
  | distinct (handle : Handle) (h : handle ∉ sh.activeNotifications) :
      HeartbeatStep sh (.beatCreated handle) .next [.beatStore handle] .none
  | store (handle : Handle) (h : sh.heartbeatHandle = 0) :
      HeartbeatStep sh (.beatStore handle) .next [] (.beat handle)
  | lost (handle : Handle) (h : sh.heartbeatHandle ≠ 0) :
      HeartbeatStep sh (.beatStore handle) .next [.beatRelease handle] .none
  | release (handle : Handle) : HeartbeatStep sh (.beatRelease handle) .next [] .none

/-- A step of the innermost function of a goroutine. -/
inductive FrameStep (sh : Shared) : Frame → Act → List Frame → Effect → Prop
  | dispatch {f : Frame} {gs : List Frame} {e : Effect} (h : DispatchStep sh f gs e) :
      FrameStep sh f .next gs e
  | orphan {f : Frame} {a : Act} {gs : List Frame} {e : Effect} (h : OrphanStep sh f a gs e) :
      FrameStep sh f a gs e
  | subscribe {f : Frame} {a : Act} {gs : List Frame} {e : Effect} (h : SubscribeStep sh f a gs e) :
      FrameStep sh f a gs e
  | heartbeat {f : Frame} {a : Act} {gs : List Frame} {e : Effect} (h : HeartbeatStep sh f a gs e) :
      FrameStep sh f a gs e

variable {a : Act} {e : Effect} {f : Frame} {gs : List Frame} {sh : Shared}

theorem dispatchStep_cases (h : dispatchStep sh f = some (gs, e)) : DispatchStep sh f gs e := by
  unfold dispatchStep at h
  split at h
  · next s buffer =>
    split at h <;> cases h
    · next hb => exact .beat s buffer hb.1 hb.2
    · next hb => exact .notBeat s buffer hb
  · next s buffer =>
    split at h <;> cases h
    · next hm => exact .hit s buffer hm
    · next hm => exact .miss s buffer hm
  · next s buffer =>
    split at h <;> cases h
    · next hc => exact .closed s buffer hc
    next hc =>
    have hc : sh.closed = false := by simpa using hc
    cases buffer with
    | true => exact .live s hc
    | false => exact .replayed s hc
  · next s =>
    cases h
    exact .clock s
  · next s now =>
    split at h <;> cases h
    · next newest hn =>
      split
      · next hlt => exact .raceOpen s now newest hn hlt
      · next hlt => exact .raceWedged s now newest hn hlt
    · next hn => exact .raceNone s now hn
  · next s now =>
    cases h
    split
    · next hlt => exact .tailOpen s now hlt
    · next hlt => exact .tailOver s now hlt
  · next s =>
    cases h
    split
    · next hr => exact .stale s hr
    · next hr => exact .orphan s (by simpa using hr)
  · next s =>
    split at h <;> cases h
    · next hf => exact .full s hf
    · next hf => exact .park s (by simpa using hf)
  · next handles =>
    split at h <;> cases h
    · next he =>
      have he : handles = [] := by simpa using he
      subst he
      exact .boundNil
    · next he => exact .bound handles (by simpa using he)
  · next bound =>
    cases h
    exact .take bound
  · cases h
    exact .replayNil
  · next s rest =>
    cases h
    exact .replay s rest
  · cases h

theorem orphanStep_cases (h : orphanStep sh f a = some (gs, e)) : OrphanStep sh f a gs e := by
  unfold orphanStep at h
  split at h
  · next handle =>
    cases h
    split
    · next hs => exact .skip handle (by simpa using hs)
    next hs =>
    have hs : sh.closed = false ∧ sh.reconnecting = false := by simpa using hs
    exact .go handle hs.1 hs.2
  · next handle =>
    cases h
    split
    · next ht => exact .throttled handle ht
    · next ht => exact .unthrottled handle (by simpa using ht)
  · next handle now =>
    split at h <;> cases h
    · next hlt => exact .acquire handle now hlt
    · next hlt => exact .busy handle now hlt
  · next handle now =>
    cases h
    exact .record handle now
  · next handle =>
    cases h
    split
    · next hc => exact .notStarted handle hc
    · next hc => exact .started handle (by simpa using hc)
  · next handle =>
    cases h
    split
    · next hm => exact .reappeared handle hm
    · next hm => exact .absent handle hm
  · next handle =>
    cases h
    split
    · next hp => exact .inFlight handle hp
    · next hp => exact .clear handle (by omega)
  · next handle =>
    cases h
    exact .abort handle
  · next handle ok =>
    split at h <;> cases h
    · next hok =>
      rw [hok]
      exact .client handle
    next hok =>
    have hok : ok = false := by simpa using hok
    rw [hok]
    exact .noClient handle
  · next handle =>
    cases h
    exact .send handle
  · cases h

theorem subscribeStep_cases (h : subscribeStep sh f a = some (gs, e)) : SubscribeStep sh f a gs e := by
  unfold subscribeStep at h
  split at h
  · cases h
    exact .begin _
  · cases h
    exact .opening _ _
  · cases h
    exact .opened _ _
  · split at h <;> cases h
    exact .create _ _
  · split at h <;> cases h
    exact .fail _
  · next sub ok =>
    split at h <;> cases h
    split
    · next hb =>
      have hok : ok = true := by
        rw [Bool.and_eq_true] at hb
        exact hb.1
      rw [hok]
      exact .finishBeat sub
    · exact .finish sub ok
  · cases h
    exact .handled _
  · cases h
    exact .refused _ _ _
  · next sub handle rest =>
    split at h
    · next hb =>
      cases h
      split
      · exact .refused sub _ rest
      · next hz => exact .item sub handle rest hb hz
    next hb =>
    cases h
    exact .single sub handle rest (by simpa using hb)
  · next sub handle rest =>
    cases h
    split
    · next hb => exact .bindItem sub handle rest hb
    · next hb => exact .bindSingle sub handle rest (by simpa using hb)
  · next sub handle rest =>
    cases h
    split
    · next hb => exact .declineItem sub handle rest hb
    · next hb => exact .declineSingle sub handle rest (by simpa using hb)
  · cases h
    exact .ending _
  · cases h
    exact .closing _
  · cases h

theorem heartbeatStep_cases (h : heartbeatStep sh f a = some (gs, e)) : HeartbeatStep sh f a gs e := by
  unfold heartbeatStep at h
  split at h
  · next ok =>
    cases h
    split
    · exact .skip ok
    next hn =>
    have hn : (sh.closed = false ∧ ok = true) ∧ sh.heartbeatHandle = 0 := by simpa using hn
    rw [hn.1.2]
    exact .go hn.2
  · cases h
    exact .create _
  · cases h
    exact .fail
  · next handle =>
    cases h
    split
    · next hm => exact .collides handle hm
    · next hm => exact .distinct handle hm
  · next handle =>
    split at h <;> cases h
    · next hz => exact .store handle hz
    · next hz => exact .lost handle hz
  · cases h
    exact .release _
  · cases h

theorem frameStep_cases (h : frameStep sh f a = some (gs, e)) : FrameStep sh f a gs e := by
  unfold frameStep at h
  split at h
  case h_12 | h_13 | h_14 | h_15 | h_16 | h_17 | h_18 | h_19 | h_20 | h_21 =>
    exact .orphan (orphanStep_cases h)
  case h_22 | h_23 | h_24 | h_25 | h_26 | h_27 | h_28 | h_29 => exact .subscribe (subscribeStep_cases h)
  case h_30 | h_31 | h_32 | h_33 | h_34 => exact .heartbeat (heartbeatStep_cases h)
  all_goals
    split at h
    · exact .dispatch (dispatchStep_cases h)
    · cases h

/-- A step of a goroutine: its innermost function moves, or it is idle and starts something. -/
inductive PlanStep (sh : Shared) (p : Party) : List Frame → Act → List Frame → Effect → Prop
  | frame {f : Frame} {a : Act} {gs : List Frame} {e : Effect} (rest : List Frame)
      (h : FrameStep sh f a gs e) : PlanStep sh p (f :: rest) a (gs ++ rest) e
  | sample (handle : Handle) (timestamp : Nat) (content : List UInt8) (hp : shardOf handle = p) :
      PlanStep sh p [] (.sample handle timestamp content)
        [.beat ⟨handle, timestamp, content, sh.arrivals⟩ true] .arrive
  | subscribe (batch : Bool) : PlanStep sh p [] (.subscribe batch) [.begin batch] .none
  | heartbeat : PlanStep sh p [] .heartbeat [.beatCheck] .none
  | reap (handle : Handle) (h : handle ∈ sh.scheduled) :
      PlanStep sh p [] (.reap handle) [.reapCheck handle] (.unschedule handle)
  | tick (ns : Nat) : PlanStep sh p [] (.tick ns) [] (.tick ns)
  | close : PlanStep sh p [] .close [] .closeSession
  | reconnecting (b : Bool) : PlanStep sh p [] (.reconnecting b) [] (.setReconnecting b)
  | sweep : PlanStep sh p [] .sweep [] .sweep
  | delete (handle : Handle) : PlanStep sh p [] (.delete handle) [] (.delete handle)

theorem plan_cases {p stack stack'}
    (h : plan p stack sh a = some (stack', e)) : PlanStep sh p stack a stack' e := by
  cases stack with
  | nil =>
    unfold plan idleStep at h
    dsimp only at h
    split at h
    · next handle timestamp content =>
      split at h <;> cases h
      next hp => exact .sample _ _ _ hp
    · cases h
      exact .subscribe _
    · cases h
      exact .heartbeat
    · split at h <;> cases h
      next hm => exact .reap _ hm
    · cases h
      exact .tick _
    · cases h
      exact .close
    · cases h
      exact .reconnecting _
    · cases h
      exact .sweep
    · cases h
      exact .delete _
    · cases h
  | cons f rest =>
    simp only [plan, Option.map_eq_some_iff, Prod.exists, Prod.mk.injEq] at h
    obtain ⟨gs, e', hf, rfl, rfl⟩ := h
    exact .frame rest (frameStep_cases hf)

/-- **One step.**  The goroutine moves as planned, and the shared state changes by the planned
    effect. -/
theorem step_cases {c c' p} (h : step c (p, a) = some c') :
    ∃ stack e, PlanStep c.shared p (c.loc p) a stack e ∧
      c' = ⟨e.run c.shared, Function.update c.loc p stack⟩ := by
  obtain ⟨stack, sh', ha, rfl⟩ := Conf.exec_eq_some.1 h
  simp only [act, Option.map_eq_some_iff, Prod.exists, Prod.mk.injEq] at ha
  obtain ⟨stack, e, hp, rfl, rfl⟩ := ha
  exact ⟨stack, e, plan_cases hp, rfl⟩

end GoAds.Dispatch
