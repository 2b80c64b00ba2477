import GoAds.Lib.Interleaving
import GoAds.Wire.Frames

/-!
# `Wire.Requests` — requests in flight

Any number of goroutines call `sendRequestTo`; sixteen workers hand the frames of `recvQueue` to them
through `activeRequests`, a map from a 32-bit invoke id to a channel of its own for each call; and a
reconnect's `tearDownAndReset` replaces map and queue under everybody's hands.  The state is shared, so is
the counter the ids come from, which wraps.

A party is a goroutine.  Where a `select` has several ready cases the label says which one is taken, and a
timeout, a drop of the transport or the end of the grace period may come at any time.  Calls and frames are
told apart by numbers the program does not have: a call by the count of `currentRequest.Add`, which also
stands for the channel it makes, and a frame by its place among all that were received.
-/

namespace GoAds.Wire.Requests

open Interleaving
open Function (update)

/-- A call of `sendRequestTo`. -/
structure Call where
  caller : Nat
  number : Nat
  id : UInt32
  /-- The request frame. -/
  pack : Bytes
  /-- Which `activeRequests` map it has registered in. -/
  map : Nat
  deriving DecidableEq, Repr

/-- A frame that was received. -/
structure Frame where
  serial : Nat
  data : Bytes
  deriving DecidableEq, Repr

/-- An `amsReply`, with the frame it was made from. -/
structure Reply where
  frame : Frame
  data : Bytes
  amsErr : UInt32
  deriving DecidableEq, Repr

/-- `amsReply.payload`. -/
def Reply.payload (r : Reply) : Except UInt32 Bytes :=
  if r.amsErr ≠ 0 then .error r.amsErr else .ok r.data

structure Shared where
  currentRequest : UInt32
  activeRequests : UInt32 → Option Nat
  /-- What is in the channel of each call; it holds one reply. -/
  channels : Nat → Option Reply
  recvQueue : List Frame
  disconnected : Bool
  /-- History: how often `currentRequest.Add` was called. -/
  issued : Nat
  /-- History: how many maps there were before this one. -/
  maps : Nat
  /-- History: the calls that have registered and not returned. -/
  outstanding : List Call
  /-- History: every frame that was received, in order. -/
  received : List Bytes
  /-- History: the calls that have returned, and the reply they had. -/
  returned : List (Call × Option Reply)

def Shared.init : Shared := ⟨0, fun _ => none, fun _ => none, [], false, 0, 0, [], [], []⟩

inductive Pc
  | idle
  /-- The first `select` of `sendRequestTo`. -/
  | send (k : Call)
  /-- The second. -/
  | wait (k : Call)
  /-- The one under `droppedResponseGrace`. -/
  | grace (k : Call)
  /-- About to run the deferred delete. -/
  | leave (k : Call) (reply : Option Reply)
  /-- `handleReceive` at its beginning. -/
  | take (f : Frame)
  /-- `handleReceive` at its send. -/
  | deliver (channel : Nat) (r : Reply)
  deriving DecidableEq, Repr

inductive Act
  | sendRequestTo (source target : AMSAddress) (command : CommandID) (data : Bytes)
  /-- The transfer a `select` waits for, or the next statement. -/
  | next
  | ctxDone
  | dropped
  | graceOver
  | recvWorker
  | arrive (data : Bytes)
  /-- `send`, the handshake of local mode, draws an id too. -/
  | handshake
  | tearDownAndReset
  | disconnect (b : Bool)

/-- The header of a frame that `handleReceive` accepts. -/
def receivedHeader (data : Bytes) : Option AMSHeader :=
  if data.length < 32 then none
  else
    match binaryRead AMSHeader.layout data with
    | .error _ => none
    | .ok (header, _) => if (data.drop 32).length ≠ header.length.toNat then none else some header

/-- `handleReceive` up to its send: the channel and what goes into it. -/
def lookup (sh : Shared) (f : Frame) : Option (Nat × Reply) :=
  match receivedHeader f.data with
  | none => none
  | some header =>
    if header.command = CommandID.deviceNotification then none
    else
      (sh.activeRequests header.invokeID).map fun n => (n, ⟨f, f.data.drop 32, header.errorCode⟩)

namespace Shared

variable (sh : Shared)

/-- The call that registers next. -/
def nextCall (caller : Nat) (source target : AMSAddress) (command : CommandID) (data : Bytes) : Call :=
  let id := sh.currentRequest + 1
  ⟨caller, sh.issued + 1, id, encodeTo source target command data id, sh.maps⟩

/-- `currentRequest.Add(1)`. -/
def bump : Shared :=
  { sh with currentRequest := sh.currentRequest + 1, issued := sh.issued + 1 }

/-- The critical section that draws an id and registers a channel for it. -/
def register (k : Call) : Shared :=
  { sh.bump with
    activeRequests := update sh.activeRequests k.id (some k.number)
    outstanding := k :: sh.outstanding }

/-- A reply is taken from a channel. -/
def receive (n : Nat) : Shared :=
  { sh with channels := update sh.channels n none }

/-- The deferred delete, and the return. -/
def leave (k : Call) (reply : Option Reply) : Shared :=
  { sh with
    activeRequests := update sh.activeRequests k.id none
    outstanding := sh.outstanding.filter (· ≠ k)
    returned := (k, reply) :: sh.returned }

/-- A frame comes in, over the primary connection or one that the PLC has opened. -/
def arrive (data : Bytes) : Shared :=
  { sh with
    recvQueue :=
      if sh.recvQueue.length < Queue.recv.capacity then
        sh.recvQueue ++ [⟨sh.received.length, data⟩]
      else sh.recvQueue
    received := sh.received ++ [data] }

/-- `tearDownAndReset`, as far as it touches the transport. -/
def reset : Shared :=
  { sh with activeRequests := fun _ => none, recvQueue := [], maps := sh.maps + 1 }

end Shared

def act (t : Nat) (pc : Pc) (sh : Shared) (a : Act) : Option (Pc × Shared) :=
  match pc, a with
  | .idle, .sendRequestTo source target command data =>
    if sh.disconnected then some (.idle, sh)
    else
      let k := sh.nextCall t source target command data
      some (.send k, sh.register k)
  | .send k, .next => some (.wait k, sh)
  | .send k, .ctxDone | .send k, .dropped => some (.leave k none, sh)
  | .wait k, .next =>
    (sh.channels k.number).map fun r => (.leave k (some r), sh.receive k.number)
  | .wait k, .ctxDone => some (.leave k none, sh)
  | .wait k, .dropped => some (.grace k, sh)
  | .grace k, .next =>
    (sh.channels k.number).map fun r => (.leave k (some r), sh.receive k.number)
  | .grace k, .ctxDone | .grace k, .graceOver => some (.leave k none, sh)
  | .leave k reply, .next => some (.idle, sh.leave k reply)
  | .idle, .recvWorker =>
    match sh.recvQueue with
    | [] => none
    | f :: q => some (.take f, { sh with recvQueue := q })
  | .take f, .next =>
    match lookup sh f with
    | none => some (.idle, sh)
    | some (n, r) => some (.deliver n r, sh)
  | .deliver n r, .next =>
    match sh.channels n with
    | none => some (.idle, { sh with channels := update sh.channels n (some r) })
    -- the channel is full: the send waits
    | some _ => none
  | .deliver _ _, .ctxDone => some (.idle, sh)
  | .idle, .arrive data => some (.idle, sh.arrive data)
  | .idle, .handshake => some (.idle, sh.bump)
  | .idle, .tearDownAndReset => some (.idle, sh.reset)
  | .idle, .disconnect b => some (.idle, { sh with disconnected := b })
  | _, _ => none

abbrev State := Conf Nat Shared Pc

abbrev step : State → Nat × Act → Option State := Conf.exec act

def init : State := ⟨.init, fun _ => .idle⟩

/-! ## What a step can be -/

/-- The call a goroutine is in. -/
def Pc.call : Pc → Option Call
  | .send k | .wait k | .grace k | .leave k _ => some k
  | .idle | .take _ | .deliver _ _ => none

/-- The frame a goroutine has in its hands. -/
def Pc.frame : Pc → Option Frame
  | .take f => some f
  | .deliver _ r | .leave _ (some r) => some r.frame
  | .leave _ none | .idle | .send _ | .wait _ | .grace _ => none

/-- The reply a goroutine has in its hands, with the call it is for. -/
def Pc.reply : Pc → Option (Nat × Reply)
  | .deliver n r => some (n, r)
  | .leave k (some r) => some (k.number, r)
  | .leave _ none | .idle | .send _ | .wait _ | .grace _ | .take _ => none

/-- **The steps of a goroutine**, by what they do to calls and frames. -/
inductive Move (t : Nat) (sh : Shared) : Pc → Act → Pc → Shared → Prop
  | quiet (b : Bool) (a : Act) : Move t sh .idle a .idle { sh with disconnected := b }
  | register (source target : AMSAddress) (command : CommandID) (data : Bytes) :
      Move t sh .idle (.sendRequestTo source target command data)
        (.send (sh.nextCall t source target command data))
        (sh.register (sh.nextCall t source target command data))
  | goOn {pc pc' : Pc} (a : Act) (k : Call) (hcall : pc.call = some k) (hcall' : pc'.call = some k)
      (hframe : pc.frame = none) (hframe' : pc'.frame = none) : Move t sh pc a pc' sh
  | receive {pc : Pc} (a : Act) (k : Call) (r : Reply) (hcall : pc.call = some k)
      (hframe : pc.frame = none) (hr : sh.channels k.number = some r) :
      Move t sh pc a (.leave k (some r)) (sh.receive k.number)
  | leave (k : Call) (reply : Option Reply) : Move t sh (.leave k reply) .next .idle (sh.leave k reply)
  | take (f : Frame) (q : List Frame) (hq : sh.recvQueue = f :: q) :
      Move t sh .idle .recvWorker (.take f) { sh with recvQueue := q }
  | giveUp {pc : Pc} (a : Act) (hcall : pc.call = none) : Move t sh pc a .idle sh
  | lookup (f : Frame) (header : AMSHeader) (n : Nat) (hheader : receivedHeader f.data = some header)
      (hn : sh.activeRequests header.invokeID = some n) :
      Move t sh (.take f) .next (.deliver n ⟨f, f.data.drop 32, header.errorCode⟩) sh
  | deliver (n : Nat) (r : Reply) (hempty : sh.channels n = none) :
      Move t sh (.deliver n r) .next .idle
        { sh with channels := update sh.channels n (some r) }
  | arrive (data : Bytes) : Move t sh .idle (.arrive data) .idle (sh.arrive data)
  | handshake : Move t sh .idle .handshake .idle sh.bump
  | reset : Move t sh .idle .tearDownAndReset .idle sh.reset

theorem lookup_eq_some {sh f n r} (h : lookup sh f = some (n, r)) :
    ∃ header, receivedHeader f.data = some header ∧ sh.activeRequests header.invokeID = some n ∧
      r = ⟨f, f.data.drop 32, header.errorCode⟩ := by
  unfold lookup at h
  split at h
  · cases h
  next header hheader =>
  split at h
  · cases h
  obtain ⟨n', hn, heq⟩ := Option.map_eq_some_iff.1 h
  cases heq
  exact ⟨header, hheader, hn, rfl⟩

theorem act_moves {t pc pc' sh sh' a}
    (h : act t pc sh a = some (pc', sh')) : Move t sh pc a pc' sh' := by
  cases pc with
  | idle =>
    cases a with
    | sendRequestTo source target command data =>
      simp only [act] at h
      split at h
      · cases h
        exact .quiet sh.disconnected _
      · cases h
        exact .register source target command data
    | recvWorker =>
      simp only [act] at h
      split at h
      · cases h
      next f q hq =>
      cases h
      exact .take f q hq
    | arrive data =>
      cases h
      exact .arrive data
    | handshake =>
      cases h
      exact .handshake
    | tearDownAndReset =>
      cases h
      exact .reset
    | disconnect b =>
      cases h
      exact .quiet b _
    | next | ctxDone | dropped | graceOver => cases h
  | send k =>
    cases a with
    | next | ctxDone | dropped =>
      cases h
      exact .goOn _ k rfl rfl rfl rfl
    | _ => cases h
  | wait k =>
    cases a with
    | next =>
      obtain ⟨r, hr, heq⟩ := Option.map_eq_some_iff.1 h
      cases heq
      exact .receive _ k r rfl rfl hr
    | ctxDone | dropped =>
      cases h
      exact .goOn _ k rfl rfl rfl rfl
    | _ => cases h
  | grace k =>
    cases a with
    | next =>
      obtain ⟨r, hr, heq⟩ := Option.map_eq_some_iff.1 h
      cases heq
      exact .receive _ k r rfl rfl hr
    | ctxDone | graceOver =>
      cases h
      exact .goOn _ k rfl rfl rfl rfl
    | _ => cases h
  | leave k reply =>
    cases a <;> cases h
    exact .leave k reply
  | take f =>
    cases a with
    | next =>
      simp only [act] at h
      split at h
      · cases h
        exact .giveUp _ rfl
      next n r hlookup =>
      cases h
      obtain ⟨header, hheader, hn, rfl⟩ := lookup_eq_some hlookup
      exact .lookup f header n hheader hn
    | _ => cases h
  | deliver n r =>
    cases a with
    | next =>
      simp only [act] at h
      split at h
      · next hempty =>
        cases h
        exact .deliver n r hempty
      · cases h
    | ctxDone =>
      cases h
      exact .giveUp _ rfl
    | _ => cases h

end GoAds.Wire.Requests
