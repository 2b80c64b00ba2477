import GoAds.Lib.Interleaving

/-!
# `Session.Close` — `Close` beside subscribes, recovery and the heartbeat

Three kinds of goroutines deal in notification handles: callers that subscribe (`AddSymbolNotification`,
`AddSymbolNotifications`), the heartbeat watcher (`recoverDeadSubscriptions`, `establishHeartbeat`), and the
one that closes the session.  A handle exists from the moment the PLC carries out the Add.  Then the reply
is on its way, the goroutine has the handle in its hand, and at last the handle is bound in
`activeNotifications`, or it is the heartbeat's, or a delete is sent for it.

Which checks a commit makes, and what an Add is answered with, is left to the label of the step
(`Notification.System` has these decisions).  The connection is up until `Close` closes it.
-/

namespace GoAds.Session.Close

open Interleaving

/-- A notification handle of the PLC; 0 is none. -/
abbrev Handle := Nat

inductive Party
  | closer
  | watcher
  | caller (n : Nat)
  deriving DecidableEq, Repr

structure Shared where
  /-- The state machine is in `SessionStateClosed`. -/
  closed : Bool
  /-- `closedCh` is closed. -/
  closedCh : Bool
  /-- The keys of `activeNotifications`. -/
  active : List Handle
  heartbeatHandle : Handle
  /-- `heartbeatWG`: the watcher is running. -/
  watching : Bool
  /-- The lifecycle context. -/
  cancelled : Bool
  socketOpen : Bool
  /-- History: `Close` has taken the handles of `activeNotifications`. -/
  taken : Bool
  /-- History: the handles that the PLC has registered and for which no delete was sent since. -/
  undeleted : List Handle
  /-- History: the goroutines that have taken a step. -/
  moved : List Party

/-- The local variables of `AddSymbolNotifications`; `preHandles` are its caller's if that is a
    re-subscribe. -/
structure Batch where
  committed : List Handle
  refused : List Handle
  preHandles : Option (List Handle)
  deriving DecidableEq, Repr

/-- What comes after a call. -/
inductive After
  | done
  /-- The single subscribe goes on to its commit. -/
  | commit (h : Handle)
  /-- The batch goes on to `settle`. -/
  | settle (b : Batch) (err : Bool)
  /-- The batch returns; `orphans` are the handles of its skipped results. -/
  | returned (preHandles : Option (List Handle)) (orphans : List Handle) (err : Bool)
  /-- The re-subscribe has released the orphans. -/
  | triaged (preHandles : List Handle) (err : Bool)
  /-- The recovery goes on to the re-subscribe. -/
  | resubscribe
  /-- `Close` goes on to the cancel. -/
  | cancel
  deriving DecidableEq, Repr

inductive Pc
  | idle
  /-- `AddSymbolNotification`: the Add is out. -/
  | add
  /-- The PLC has registered the handle; the reply is on its way. -/
  | added (h : Handle)
  | commit (h : Handle)
  /-- `AddSymbolNotifications`, before its sum request or the next Add of the fallback. -/
  | batch (b : Batch)
  | batchOut (b : Batch)
  | batchAdded (hs : List Handle) (b : Batch)
  /-- `onItem`: these handles are to be committed. -/
  | bind (hs : List Handle) (b : Batch)
  | settle (b : Batch) (err : Bool)
  /-- `establishHeartbeat`. -/
  | beat (k : After)
  | beatOut (k : After)
  | beatAdded (h : Handle) (k : After)
  /-- Before the collision check. -/
  | beatCheck (h : Handle) (k : After)
  /-- Before the compare-and-swap. -/
  | beatStore (h : Handle) (k : After)
  /-- Deletes are being sent. -/
  | free (hs : List Handle) (k : After)
  /-- `recoverDeadSubscriptions`, admitted. -/
  | recover
  /-- Between the two halves of `takeNotificationHandles`. -/
  | recoverBeat (hs : List Handle)
  | resubscribe
  | rollback (preHandles : List Handle)
  /-- `Close`, before `markClosed`. -/
  | mark
  /-- Before `releasePLCResources`. -/
  | take
  | takeBeat (hs : List Handle)
  | cancel
  | closeSocket
  /-- `heartbeatWG.Wait()`. -/
  | wait
  /-- `Close` has returned. -/
  | closed
  deriving DecidableEq, Repr

inductive Act
  | addSymbolNotification
  | addSymbolNotifications
  /-- The watcher calls `recoverDeadSubscriptions`. -/
  | recoverDeadSubscriptions
  /-- The watcher calls `establishHeartbeat`. -/
  | establishHeartbeat
  /-- The watcher sees `closedCh`. -/
  | exit
  | close
  | next
  /-- A request goes out. -/
  | request
  /-- The PLC carries the request out and registers these handles. -/
  | registers (hs : List Handle)
  /-- The request fails, and the PLC has not carried it out. -/
  | fail
  /-- The PLC has carried the request out and the reply does not arrive. -/
  | lost
  /-- A commit, and whether its checks pass. -/
  | commit (ok : Bool)
  /-- The batch has no more requests, or its transport has failed. -/
  | finish (err : Bool)
  /-- There is nothing to do: the heartbeat is off, or nothing is on file. -/
  | skip
  /-- One delete is sent and answered. -/
  | delete
  /-- The deletes are sent in one request. -/
  | deleteAll
  /-- The transport or the context fails: the deletes that are left are not sent. -/
  | giveUp
  deriving DecidableEq, Repr

namespace Shared

/-- `startHeartbeatWatch`, admitted under `spawnMu`. -/
def startHeartbeatWatch (sh : Shared) : Shared :=
  if sh.closedCh || sh.closed then sh else { sh with watching := true }

/-- The PLC registers handles. -/
def register (sh : Shared) (hs : List Handle) : Shared :=
  { sh with undeleted := hs ++ sh.undeleted }

/-- Deletes are sent; a bound handle leaves the map with the answer. -/
def delete (sh : Shared) (hs : List Handle) : Shared :=
  { sh with
    undeleted := sh.undeleted.filter fun h => decide (h ∉ hs)
    active := sh.active.filter fun h => decide (h ∉ hs) }

end Shared

/-- Requests go through the socket; those of the watcher also need the lifecycle context. -/
def Shared.canSend (sh : Shared) : Party → Bool
  | .watcher => sh.socketOpen && !sh.cancelled
  | _ => sh.socketOpen

/-- A caller returns, a watcher waits for its next tick. -/
def After.pc : After → Pc
  | .done => .idle
  | .commit h => .commit h
  | .settle b err => .settle b err
  | .returned none _ _ => .idle
  | .returned (some pre) orphans err => .free orphans (.triaged pre err)
  | .triaged pre true => .rollback pre
  | .triaged _ false => .beat .done
  | .resubscribe => .resubscribe
  | .cancel => .cancel

def idleAct (t : Party) (sh : Shared) (a : Act) : Option (Pc × Shared) :=
  match t, a with
  | .caller _, .addSymbolNotification => if sh.socketOpen then some (.add, sh) else none
  | .caller _, .addSymbolNotifications => some (.batch ⟨[], [], none⟩, sh)
  -- `admitBackgroundWork`
  | .watcher, .recoverDeadSubscriptions =>
    if sh.watching && !sh.closedCh && !sh.closed then some (.recover, sh) else none
  | .watcher, .establishHeartbeat => if sh.watching then some (.beat .done, sh) else none
  | .watcher, .exit => if sh.closedCh then some (.idle, { sh with watching := false }) else none
  | .closer, .close => some (.mark, { sh with closed := true })
  | _, _ => none

def advance (t : Party) (pc : Pc) (sh : Shared) (a : Act) : Option (Pc × Shared) :=
  match pc, a with
  | .idle, a => idleAct t sh a
  -- `AddSymbolNotification`
  | .add, .registers [h] =>
    if sh.canSend t && h != 0 then some (.added h, sh.register [h]) else none
  | .add, .fail => some (.idle, sh)
  | .added h, .next => some (.beat (.commit h), sh)
  | .added _, .lost => some (.idle, sh)
  | .commit h, .commit true => some (.idle, { sh with active := h :: sh.active })
  | .commit h, .commit false => some (.free [h] .done, sh)
  -- `AddSymbolNotifications`
  | .batch b, .request => if sh.canSend t then some (.batchOut b, sh) else none
  | .batch b, .finish err =>
    some (if err || b.committed.isEmpty then .settle b err else .beat (.settle b err), sh)
  | .batchOut b, .registers hs =>
    if sh.canSend t && decide (0 ∉ hs) then some (.batchAdded hs b, sh.register hs) else none
  | .batchOut b, .fail => some (.settle b true, sh)
  | .batchAdded hs b, .next => some (.bind hs b, sh)
  | .batchAdded _ b, .lost => some (.settle b true, sh)
  | .bind (h :: hs) b, .commit true =>
    some (.bind hs { b with committed := h :: b.committed }, { sh with active := h :: sh.active })
  | .bind (h :: hs) b, .commit false => some (.bind hs { b with refused := h :: b.refused }, sh)
  | .bind [] b, .next => some (.batch b, sh)
  | .settle b err, .next =>
    let refused := b.refused ++ b.committed.filter fun h => decide (h ∉ sh.active)
    some (.free refused (.returned b.preHandles refused err), sh)
  -- `establishHeartbeat`
  | .beat k, .request =>
    if sh.closed || sh.heartbeatHandle != 0 || !sh.canSend t then none else some (.beatOut k, sh)
  | .beat k, .skip => some (k.pc, sh)
  | .beatOut k, .registers [h] =>
    if sh.canSend t && h != 0 then some (.beatAdded h k, sh.register [h]) else none
  | .beatOut k, .fail => some (k.pc, sh.startHeartbeatWatch)
  | .beatAdded h k, .next => some (.beatCheck h k, sh)
  | .beatAdded _ k, .lost => some (k.pc, sh.startHeartbeatWatch)
  | .beatCheck h k, .next =>
    if h ∈ sh.active then some (.free [h] k, sh.startHeartbeatWatch) else some (.beatStore h k, sh)
  | .beatStore h k, .next =>
    if sh.heartbeatHandle = 0 then
      some (k.pc, Shared.startHeartbeatWatch { sh with heartbeatHandle := h })
    else some (.free [h] k, sh)
  -- deletes
  | .free [] k, .next => some (k.pc, sh)
  | .free (h :: hs) k, .delete => if sh.canSend t then some (.free hs k, sh.delete [h]) else none
  | .free (h :: hs) k, .deleteAll => if sh.canSend t then some (.free [] k, sh.delete (h :: hs)) else none
  | .free (_ :: _) k, .giveUp => some (.free [] k, sh)
  -- `recoverDeadSubscriptions`
  | .recover, .next => some (.recoverBeat sh.active, { sh with active := [] })
  | .recoverBeat hs, .next =>
    some (.free (if sh.heartbeatHandle = 0 then hs else hs ++ [sh.heartbeatHandle]) .resubscribe,
      { sh with heartbeatHandle := 0 })
  | .resubscribe, .next => some (.batch ⟨[], [], some sh.active⟩, sh)
  | .resubscribe, .skip => some (.beat .done, sh)
  | .rollback pre, .next =>
    some (.free (sh.active.filter fun h => decide (h ∉ pre)) .done,
      { sh with active := sh.active.filter fun h => decide (h ∈ pre) })
  -- `Close`
  | .mark, .next => some (.take, { sh with closedCh := true })
  | .take, .next => some (.takeBeat sh.active, { sh with active := [], taken := true })
  | .takeBeat hs, .next =>
    some (.free (if sh.heartbeatHandle = 0 then hs else hs ++ [sh.heartbeatHandle]) .cancel,
      { sh with heartbeatHandle := 0 })
  | .cancel, .next => some (.closeSocket, { sh with cancelled := true })
  | .closeSocket, .next => some (.wait, { sh with socketOpen := false })
  | .wait, .next => if sh.watching then none else some (.closed, sh)
  | _, _ => none

def act (t : Party) (pc : Pc) (sh : Shared) (a : Act) : Option (Pc × Shared) :=
  advance t pc { sh with moved := t :: sh.moved } a

abbrev State := Conf Party Shared Pc

abbrev step : State → Party × Act → Option State := Conf.exec act

/-- A session that is connected and has no subscriptions. -/
def init : State := ⟨⟨false, false, [], 0, false, false, true, false, [], []⟩, fun _ => .idle⟩

end GoAds.Session.Close
