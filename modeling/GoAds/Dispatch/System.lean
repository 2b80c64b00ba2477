import Mathlib.Data.Finset.Basic
import GoAds.Lib.Interleaving
import GoAds.Notification.Manager

/-!
# `Dispatch.System` — samples, early samples, the heartbeat and the orphan reaper

The receive side of `cmd_notification.go` beside the subscribing side.  A shard worker runs
`dispatchSample` for the samples of its handles, one at a time.  A sample whose handle is not in the
map is parked while a subscribe is in flight, and otherwise taken for a leaked registration that a
reaper goroutine deletes.  The subscribes open a window, add, commit and close it; the heartbeat is a
registration of the session's own, which lives in `heartbeatHandle` and not in the map.

A goroutine is its call stack: one `Frame` for each function it is in, with the function's local
variables, and each step runs the innermost frame to its next lock, atomic load or request.  Of
`activeNotifications` only the handles are kept; what `dispatchSample` does once it has found the
handle there is the delivery, which is not part of this model.
-/

namespace GoAds.Dispatch

open Interleaving
open Notification (Handle)

def notifShardCount : Nat := 8

/-- `subscribeRaceWindow`, in nanoseconds. -/
def subscribeRaceWindow : Nat := 100 * 10 ^ 6

def subscribeRaceMaxOpen : Nat := 30 * 10 ^ 9

def earlySampleMaxHandles : Nat := 4096

def earlySampleMaxBytes : Nat := 8 * 2 ^ 20

def orphanDeleteThrottle : Nat := 60 * 10 ^ 9

def orphanDeleteSeenMaxAge : Nat := 5 * 60 * 10 ^ 9

def orphanDeleteMaxConcurrency : Nat := 10

/-- The goroutines: the shard workers, and everybody else. -/
inductive Party
  | shard (i : Nat)
  | caller (n : Nat)
  deriving DecidableEq, Repr

/-- The worker that dispatches the samples of a handle. -/
def shardOf (handle : Handle) : Party := .shard (handle % notifShardCount)

/-- A notification sample.  `arrival` numbers the samples in the order they are dispatched. -/
structure Sample where
  handle : Handle
  timestamp : Nat
  content : List UInt8
  arrival : Nat
  deriving DecidableEq, Repr

/-- A subscribe in flight: its token and the handles it has committed. -/
structure Sub where
  token : Nat
  batch : Bool
  committed : List Handle

/-- A function that a goroutine is in, and where. -/
inductive Frame
  /-- `dispatchSample`, before `consumeHeartbeat`. -/
  | beat (s : Sample) (buffer : Bool)
  | lookup (s : Sample) (buffer : Bool)
  | missed (s : Sample) (buffer : Bool)
  /-- `subscribeRaceActive`, before it reads the clock. -/
  | window (s : Sample)
  | race (s : Sample) (now : Nat)
  | tail (s : Sample) (now : Nat)
  | unknown (s : Sample)
  /-- `bufferEarlySample`. -/
  | park (s : Sample)
  /-- `replayEarlySamples`. -/
  | replayBound (handles : List Handle)
  | replayTake (bound : List Handle)
  | replayDispatch (pending : List Sample)
  /-- `tryOrphanDelete`. -/
  | orphan (handle : Handle)
  | throttle (handle : Handle)
  | sem (handle : Handle) (now : Nat)
  | record (handle : Handle) (now : Nat)
  | spawn (handle : Handle)
  /-- The goroutine it starts, in `orphanDeleteAbortReason`. -/
  | reapCheck (handle : Handle)
  | reapInFlight (handle : Handle)
  | reapAbort (handle : Handle)
  | reapClient (handle : Handle)
  /-- About to send the delete. -/
  | reapSend (handle : Handle)
  /-- A subscribe, in `beginSubscribe`. -/
  | begin (batch : Bool)
  | opening (batch : Bool) (now : Nat)
  | opened (sub : Sub) (now : Nat)
  /-- An Add request is out. -/
  | add (sub : Sub)
  /-- The PLC has answered the items, each with a registration or an error; they are not handled yet. -/
  | created (sub : Sub) (items : List (Option Handle))
  | commit (sub : Sub) (handle : Handle) (rest : List (Option Handle))
  /-- `endSubscribe`. -/
  | ending (sub : Sub)
  | closing (sub : Sub)
  /-- `establishHeartbeat`. -/
  | beatCheck
  | beatAdd
  | beatCreated (handle : Handle)
  | beatStore (handle : Handle)
  | beatRelease (handle : Handle)

structure Shared where
  activeNotifications : Finset Handle
  /-- 0 when there is none. -/
  heartbeatHandle : Handle
  openSubscribes : List (Nat × Nat)
  nextSubscribeToken : Nat
  subscribeInFlight : Nat
  lastSubscribeNs : Nat
  earlySamples : List Sample
  earlyBytes : Nat
  orphanSeen : List (Handle × Nat)
  /-- The slots of `orphanSem` that are taken. -/
  orphanSem : Nat
  /-- The orphan deletes whose goroutine has been started and has not run yet. -/
  scheduled : List Handle
  /-- The clock, in nanoseconds. -/
  now : Nat
  closed : Bool
  reconnecting : Bool
  /-- How many samples have been dispatched. -/
  arrivals : Nat

/-- What the environment decides in a step. -/
inductive Act
  | next
  | sample (handle : Handle) (timestamp : Nat) (content : List UInt8)
  | subscribe (batch : Bool)
  /-- The watcher or the recovery calls `establishHeartbeat`. -/
  | heartbeat
  | reap (handle : Handle)
  /-- The PLC serves an Add request: the registrations it creates. -/
  | create (items : List (Option Handle))
  | fail
  | finish (ok : Bool)
  /-- Whether the other checks of a commit pass. -/
  | accept (ok : Bool)
  /-- Whether there is a client to send with (and, for the heartbeat, whether it is enabled). -/
  | client (ok : Bool)
  | tick (ns : Nat)
  | close
  | reconnecting (b : Bool)
  /-- `takeNotificationHandles`. -/
  | sweep
  /-- The application gives up a subscription. -/
  | delete (handle : Handle)
  deriving Repr

/-- What a step does to the shared state. -/
inductive Effect
  | none
  | arrive
  | bind (handle : Handle)
  | open (now : Nat)
  | touch (token : Nat)
  | stamp (now : Nat)
  | close (token : Nat)
  | park (s : Sample)
  | take (bound : List Handle)
  | beat (handle : Handle)
  | collect
  | acquire
  | release
  | record (handle : Handle) (now : Nat)
  /-- Give back the throttle entry and the slot of an orphan delete that sends nothing. -/
  | unspawn (handle : Handle)
  | schedule (handle : Handle)
  | unschedule (handle : Handle)
  | tick (ns : Nat)
  | closeSession
  | setReconnecting (b : Bool)
  | sweep
  | delete (handle : Handle)

/-! ## The critical sections -/

/-- The parked sample of a handle. -/
def parked (early : List Sample) (handle : Handle) : Option Sample :=
  early.find? fun s => s.handle == handle

/-- Remove the parked sample of a handle. -/
def unpark (early : List Sample) (handle : Handle) : List Sample :=
  early.filter fun s => s.handle != handle

/-- The loop of `replayEarlySamples` under `earlyMu`: what it takes, and what it leaves. -/
def takeSamples : List Handle → List Sample → List Sample × List Sample
  | [], early => ([], early)
  | h :: hs, early =>
    match parked early h with
    | some s =>
      let r := takeSamples hs (unpark early h)
      (s :: r.1, r.2)
    | none => takeSamples hs early

def bytes (ss : List Sample) : Nat := (ss.map fun s => s.content.length).sum

namespace Shared

variable (sh : Shared)

def newestOpenSubscribe : Option Nat :=
  let newest := (sh.openSubscribes.map (·.2)).foldl max 0
  if newest = 0 then none else some newest

/-- The bytes freed when a sample of the handle replaces the parked one. -/
def replacedBytes (handle : Handle) : Nat :=
  ((parked sh.earlySamples handle).map fun s => s.content.length).getD 0

/-- `full` of `bufferEarlySample`. -/
def full (s : Sample) : Bool :=
  ((parked sh.earlySamples s.handle).isNone && decide (earlySampleMaxHandles ≤ sh.earlySamples.length))
    || decide (earlySampleMaxBytes + sh.replacedBytes s.handle < sh.earlyBytes + s.content.length)

/-- The insert of `bufferEarlySample`. -/
def park (s : Sample) : Shared :=
  { sh with
    earlySamples := s :: unpark sh.earlySamples s.handle
    earlyBytes := sh.earlyBytes + s.content.length - sh.replacedBytes s.handle }

/-- The locked part of `replayEarlySamples`. -/
def take (bound : List Handle) : Shared :=
  let r := takeSamples bound sh.earlySamples
  { sh with earlySamples := r.2, earlyBytes := sh.earlyBytes - bytes r.1 }

/-- The last section of `endSubscribe`: close the token, and discard what is parked when no subscribe
    is open any more. -/
def close (token : Nat) : Shared :=
  let remaining := sh.openSubscribes.filter fun x => x.1 != token
  let closed := { sh with openSubscribes := remaining, subscribeInFlight := remaining.length }
  -- whatever is left is taken for samples of handles that never committed
  if remaining.isEmpty then { closed with earlySamples := [], earlyBytes := 0 } else closed

/-- The attempts on record that are not too old. -/
def collected : List (Handle × Nat) :=
  sh.orphanSeen.filter fun x => decide (sh.now ≤ x.2 + orphanDeleteSeenMaxAge)

/-- An attempt for the handle is on record and recent. -/
def throttled (handle : Handle) : Bool :=
  sh.collected.any fun x => x.1 == handle && decide (sh.now < x.2 + orphanDeleteThrottle)

end Shared

def Effect.run (sh : Shared) : Effect → Shared
  | .none => sh
  | .arrive => { sh with arrivals := sh.arrivals + 1 }
  | .bind handle => { sh with activeNotifications := insert handle sh.activeNotifications }
  | .open now =>
    { sh with
      nextSubscribeToken := sh.nextSubscribeToken + 1
      openSubscribes := (sh.nextSubscribeToken + 1, now) :: sh.openSubscribes
      subscribeInFlight := sh.openSubscribes.length + 1 }
  | .touch token =>
    { sh with
      openSubscribes := sh.openSubscribes.map fun x => if x.1 = token then (x.1, sh.now) else x }
  | .stamp now => { sh with lastSubscribeNs := now }
  | .close token => sh.close token
  | .park s => sh.park s
  | .take bound => sh.take bound
  | .beat handle => { sh with heartbeatHandle := handle }
  | .collect => { sh with orphanSeen := sh.collected }
  | .acquire => { sh with orphanSem := sh.orphanSem + 1 }
  | .release => { sh with orphanSem := sh.orphanSem - 1 }
  | .record handle now =>
    { sh with orphanSeen := (handle, now) :: sh.orphanSeen.filter fun x => x.1 != handle }
  | .unspawn handle =>
    { sh with
      orphanSeen := sh.orphanSeen.filter fun x => x.1 != handle
      orphanSem := sh.orphanSem - 1 }
  | .schedule handle => { sh with scheduled := handle :: sh.scheduled }
  | .unschedule handle => { sh with scheduled := sh.scheduled.erase handle }
  | .tick ns => { sh with now := sh.now + ns }
  | .closeSession => { sh with closed := true }
  | .setReconnecting b => { sh with reconnecting := b }
  | .sweep => { sh with activeNotifications := ∅, heartbeatHandle := 0 }
  | .delete handle => { sh with activeNotifications := sh.activeNotifications.erase handle }

/-! ## The steps -/

/-- The receive side: `dispatchSample`, `bufferEarlySample` and `replayEarlySamples`. -/
def dispatchStep (sh : Shared) : Frame → Option (List Frame × Effect)
  | .beat s buffer =>
    -- the heartbeat's handle is never in the map
    if s.handle ≠ 0 ∧ s.handle = sh.heartbeatHandle then some ([], .none)
    else some ([.lookup s buffer], .none)
  | .lookup s buffer =>
    if s.handle ∈ sh.activeNotifications then some ([], .none) else some ([.missed s buffer], .none)
  | .missed s buffer =>
    if sh.closed then some ([], .none)
    -- a replayed sample is not parked again
    else some ([if buffer then .window s else .unknown s], .none)
  | .window s => some ([.race s sh.now], .none)
  | .race s now =>
    match sh.newestOpenSubscribe with
    | some newest =>
      some ([if now - newest < subscribeRaceMaxOpen then .park s else .unknown s], .none)
    | none => some ([.tail s now], .none)
  | .tail s now =>
    some ([if now - sh.lastSubscribeNs < subscribeRaceWindow then .park s else .unknown s], .none)
  | .unknown s => some (if sh.reconnecting then [] else [.orphan s.handle], .none)
  | .park s =>
    -- the handle may have been committed since the lookup, so the worker replays it itself
    if sh.full s then some ([], .none) else some ([.replayBound [s.handle]], .park s)
  | .replayBound handles =>
    if handles.isEmpty then some ([], .none)
    else some ([.replayTake (handles.filter (· ∈ sh.activeNotifications))], .none)
  | .replayTake bound =>
    some ([.replayDispatch (takeSamples bound sh.earlySamples).1], .take bound)
  | .replayDispatch [] => some ([], .none)
  | .replayDispatch (s :: rest) => some ([.beat s false, .replayDispatch rest], .none)
  | _ => none

/-- `tryOrphanDelete` and the goroutine it starts. -/
def orphanStep (sh : Shared) : Frame → Act → Option (List Frame × Effect)
  | .orphan handle, .next =>
    some (if sh.closed || sh.reconnecting then [] else [.throttle handle], .none)
  | .throttle handle, .next =>
    some (if sh.throttled handle then [] else [.sem handle sh.now], .collect)
  | .sem handle now, .next =>
    if sh.orphanSem < orphanDeleteMaxConcurrency then some ([.record handle now], .acquire)
    else some ([], .none)
  | .record handle now, .next => some ([.spawn handle], .record handle now)
  | .spawn handle, .next =>
    some ([], if sh.closed then .unspawn handle else .schedule handle)
  | .reapCheck handle, .next =>
    some ([if handle ∈ sh.activeNotifications then .reapAbort handle else .reapInFlight handle], .none)
  | .reapInFlight handle, .next =>
    some ([if 0 < sh.subscribeInFlight then .reapAbort handle else .reapClient handle], .none)
  | .reapAbort handle, .next => some ([], .unspawn handle)
  | .reapClient handle, .client ok =>
    if ok then some ([.reapSend handle], .none) else some ([], .release)
  | .reapSend _, .next => some ([], .release)
  | _, _ => none

/-- `AddSymbolNotification` and `AddSymbolNotifications`, from `beginSubscribe` to `endSubscribe`.
    The releases of what is not committed are requests of their own, and touch nothing here. -/
def subscribeStep (sh : Shared) : Frame → Act → Option (List Frame × Effect)
  | .begin batch, .next => some ([.opening batch sh.now], .none)
  | .opening batch now, .next =>
    some ([.opened ⟨sh.nextSubscribeToken + 1, batch, []⟩ now], .open now)
  | .opened sub now, .next => some ([.add sub], .stamp now)
  | .add sub, .create items =>
    if sub.batch || (items.length = 1 && items.all Option.isSome) then some ([.created sub items], .none)
    else none
  | .add sub, .fail => if sub.batch then none else some ([.ending sub], .none)
  | .add sub, .finish ok =>
    if sub.batch then
      some (if ok && !sub.committed.isEmpty then [.beatCheck, .ending sub] else [.ending sub], .none)
    else none
  | .created sub [], .next => some ([.add sub], .none)
  | .created sub (none :: rest), .next => some ([.created sub rest], .touch sub.token)
  | .created sub (some handle :: rest), .next =>
    if sub.batch then
      some ([if handle = 0 then .created sub rest else .commit sub handle rest], .touch sub.token)
    else some ([.beatCheck, .commit sub handle rest], .none)
  | .commit sub handle rest, .accept true =>
    let sub' := { sub with committed := sub.committed ++ [handle] }
    some (if sub.batch then [.replayBound [handle], .created sub' rest] else [.ending sub'],
      .bind handle)
  | .commit sub _ rest, .accept false =>
    some ([if sub.batch then .created sub rest else .ending sub], .none)
  | .ending sub, .next => some ([.replayBound sub.committed, .closing sub], .stamp sh.now)
  | .closing sub, .next => some ([], .close sub.token)
  | _, _ => none

/-- `establishHeartbeat`. -/
def heartbeatStep (sh : Shared) : Frame → Act → Option (List Frame × Effect)
  | .beatCheck, .client ok =>
    some (if sh.closed || !ok || sh.heartbeatHandle != 0 then [] else [.beatAdd], .none)
  | .beatAdd, .create [some handle] => some ([.beatCreated handle], .none)
  | .beatAdd, .fail => some ([], .none)
  | .beatCreated handle, .next =>
    some ([if handle ∈ sh.activeNotifications then .beatRelease handle else .beatStore handle], .none)
  | .beatStore handle, .next =>
    if sh.heartbeatHandle = 0 then some ([], .beat handle) else some ([.beatRelease handle], .none)
  | .beatRelease _, .next => some ([], .none)
  | _, _ => none

/-- One step of the innermost function: the frames that take its place. -/
def frameStep (sh : Shared) (f : Frame) (a : Act) : Option (List Frame × Effect) :=
  match f with
  | .beat .. | .lookup .. | .missed .. | .window _ | .race .. | .tail .. | .unknown _ | .park _
  | .replayBound _ | .replayTake _ | .replayDispatch _ =>
    match a with
    | .next => dispatchStep sh f
    | _ => none
  | .orphan _ | .throttle _ | .sem .. | .record .. | .spawn _
  | .reapCheck _ | .reapInFlight _ | .reapAbort _ | .reapClient _ | .reapSend _ => orphanStep sh f a
  | .begin _ | .opening .. | .opened .. | .add _ | .created .. | .commit .. | .ending _
  | .closing _ => subscribeStep sh f a
  | .beatCheck | .beatAdd | .beatCreated _ | .beatStore _ | .beatRelease _ => heartbeatStep sh f a

/-- What a goroutine does that is in no function: a shard worker takes up the next sample of its
    handles; the others start something, or stand for the rest of the session. -/
def idleStep (sh : Shared) : Party → Act → Option (List Frame × Effect)
  | .shard i, .sample handle timestamp content =>
    if shardOf handle = .shard i then
      some ([.beat ⟨handle, timestamp, content, sh.arrivals⟩ true], .arrive)
    else none
  | .caller _, .subscribe batch => some ([.begin batch], .none)
  | .caller _, .heartbeat => some ([.beatCheck], .none)
  | .caller _, .reap handle =>
    if handle ∈ sh.scheduled then some ([.reapCheck handle], .unschedule handle) else none
  | .caller _, .tick ns => some ([], .tick ns)
  | .caller _, .close => some ([], .closeSession)
  | .caller _, .reconnecting b => some ([], .setReconnecting b)
  | .caller _, .sweep => some ([], .sweep)
  | .caller _, .delete handle => some ([], .delete handle)
  | _, _ => none

/-- The next step of a goroutine: its call stack after it, and what it does to the shared state. -/
def plan (p : Party) (stack : List Frame) (sh : Shared) (a : Act) : Option (List Frame × Effect) :=
  match stack with
  | [] => idleStep sh p a
  | f :: rest => (frameStep sh f a).map fun r => (r.1 ++ rest, r.2)

def act (p : Party) (stack : List Frame) (sh : Shared) (a : Act) : Option (List Frame × Shared) :=
  (plan p stack sh a).map fun r => (r.1, r.2.run sh)

abbrev State := Conf Party Shared (List Frame)

/-- A session that has just been set up at time `now`. -/
def initAt (now : Nat) : State :=
  { shared :=
      { activeNotifications := ∅, heartbeatHandle := 0, openSubscribes := [], nextSubscribeToken := 0
        subscribeInFlight := 0, lastSubscribeNs := 0, earlySamples := [], earlyBytes := 0
        orphanSeen := [], orphanSem := 0, scheduled := [], now := now, closed := false
        reconnecting := false, arrivals := 0 }
    loc := fun _ => [] }

abbrev step : State → Party × Act → Option State := Conf.exec act

end GoAds.Dispatch
