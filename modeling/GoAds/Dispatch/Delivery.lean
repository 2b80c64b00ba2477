import GoAds.Dispatch.System

/-!
# `Dispatch.Delivery` — live samples and replayed ones on their way out

`dispatchSample` from the handle's entry on: the order lock of the entry, created by the first dispatch,
the last stamp under it, and the send.  A live sample runs on the shard of its handle, a replayed one on
the goroutine that subscribed or on the shard that has just parked it, and both may be anywhere in
`dispatchSample` at the same time.  Handles are bound, deleted and swept meanwhile; a bind makes a new
entry, with an order of its own.

Whether a missed sample is parked, whether a parsed one reaches the channel, and when the buffer is
discarded is left open here (`Dispatch.System` has these decisions).
-/

namespace GoAds.Dispatch.Delivery

open Interleaving
open Function (update)
open Notification (Handle)

/-- `handleOrder`. -/
structure Order where
  lastStamp : Nat
  locked : Bool

/-- The entry of a handle.  When it is gone, what it was stays as history. -/
structure Slot where
  bound : Bool
  /-- Nil until the first dispatch. -/
  order : Option Nat
  /-- History: the number of samples that had arrived when the entry before this one was gone. -/
  since : Nat
  /-- History: the number of samples that had arrived when this entry was gone. -/
  ended : Nat

/-- A sample that was put on the channel. -/
structure Sent where
  sample : Sample
  live : Bool

structure Shared where
  slots : Handle → Slot
  orders : Nat → Order
  /-- The number of orders that were made. -/
  nextOrder : Nat
  earlySamples : Handle → Option Sample
  /-- History: the samples that came from the PLC, newest first. -/
  arrived : List Sample
  /-- History: the goroutines that have taken a step. -/
  moved : List Party
  /-- History: the samples that were delivered, newest first. -/
  delivered : List Sent

inductive Pc
  | idle
  /-- `dispatchSample`, before the lookup; `rest` is what the replay has still to dispatch. -/
  | lookup (s : Sample) (buffer : Bool) (rest : List Sample)
  | missed (s : Sample) (buffer : Bool) (rest : List Sample)
  /-- Before `order.mu.Lock()`. -/
  | ordered (o : Nat) (s : Sample) (buffer : Bool) (rest : List Sample)
  /-- Under `order.mu`, past the check of the stamp. -/
  | deliver (o : Nat) (s : Sample) (buffer : Bool) (rest : List Sample)
  /-- `bufferEarlySample`. -/
  | park (s : Sample)
  /-- `replayEarlySamples`. -/
  | replayBound (handles : List Handle)
  | replayTake (bound : List Handle)
  deriving DecidableEq, Repr

inductive Act
  | sample (handle : Handle) (timestamp : Nat) (content : List UInt8)
  /-- `endSubscribe` replays the handles its subscribe has committed. -/
  | replay (handles : List Handle)
  | next
  /-- The sample ends here: it is the heartbeat's, or it is missed and not parked, or the buffer is
      full. -/
  | drop
  /-- Whether the sample gets on the channel. -/
  | send (ok : Bool)
  | bind (handle : Handle)
  | unbind (handle : Handle)
  | sweep
  /-- `endSubscribe` throws the buffer away. -/
  | discard

/-- The end of a `dispatchSample`: the next sample of the replay, or the return. -/
def Pc.done : List Sample → Pc
  | [] => .idle
  | s :: rest => .lookup s false rest

/-- The loop of `replayEarlySamples` under `earlyMu`. -/
def takeEarly : List Handle → (Handle → Option Sample) → List Sample × (Handle → Option Sample)
  | [], early => ([], early)
  | h :: hs, early =>
    match early h with
    | none => takeEarly hs early
    | some s =>
      let r := takeEarly hs (update early h none)
      (s :: r.1, r.2)

namespace Slot

variable (slot : Slot) (arrivals : Nat)

/-- From which arrival on the samples belong to an entry that is made now. -/
def start : Nat := if slot.bound then arrivals else slot.ended

/-- `activeNotifications[handle] = activeNotification{...}`. -/
def bind : Slot :=
  { slot with bound := true, order := none, since := slot.start arrivals }

def unbind : Slot :=
  if slot.bound then { slot with bound := false, ended := arrivals } else slot

end Slot

namespace Shared

variable (sh : Shared) (o : Nat)

def setSlot (h : Handle) (slot : Slot) : Shared :=
  { sh with slots := update sh.slots h slot }

/-- `entry.order = &handleOrder{}`. -/
def newOrder (h : Handle) : Shared :=
  { sh.setSlot h { sh.slots h with order := some sh.nextOrder } with
    orders := update sh.orders sh.nextOrder ⟨0, false⟩
    nextOrder := sh.nextOrder + 1 }

def setOrder (order : Order) : Shared :=
  { sh with orders := update sh.orders o order }

/-- The stamp check has passed, and the lock is held. -/
def lock (s : Sample) (buffer : Bool) : Shared :=
  let last := (sh.orders o).lastStamp
  sh.setOrder o ⟨if buffer || decide (s.timestamp > last) then s.timestamp else last, true⟩

/-- The send, and `order.mu.Unlock()`. -/
def send (s : Sample) (buffer ok : Bool) : Shared :=
  { sh.setOrder o { sh.orders o with locked := false } with
    delivered := if ok then ⟨s, buffer⟩ :: sh.delivered else sh.delivered }

end Shared

def advance (t : Party) (pc : Pc) (sh : Shared) (a : Act) : Option (Pc × Shared) :=
  match pc, a with
  | .idle, .sample handle timestamp content =>
    if t = shardOf handle then
      let s : Sample := ⟨handle, timestamp, content, sh.arrived.length⟩
      some (.lookup s true [], { sh with arrived := s :: sh.arrived })
    else none
  | .idle, .replay handles => some (.replayBound handles, sh)
  | .lookup _ _ rest, .drop => some (.done rest, sh)
  | .lookup s buffer rest, .next =>
    match (sh.slots s.handle).bound, (sh.slots s.handle).order with
    | false, _ => some (.missed s buffer rest, sh)
    | true, some o => some (.ordered o s buffer rest, sh)
    | true, none => some (.ordered sh.nextOrder s buffer rest, sh.newOrder s.handle)
  | .missed s true _, .next => some (.park s, sh)
  | .missed _ _ rest, .drop => some (.done rest, sh)
  | .park s, .next =>
    some (.replayBound [s.handle],
      { sh with earlySamples := update sh.earlySamples s.handle (some s) })
  | .park _, .drop => some (.idle, sh)
  | .replayBound handles, .next =>
    some (.replayTake (handles.filter fun h => (sh.slots h).bound), sh)
  | .replayTake bound, .next =>
    let r := takeEarly bound sh.earlySamples
    some (.done r.1, { sh with earlySamples := r.2 })
  | .ordered o s buffer rest, .next =>
    if (sh.orders o).locked then none
    else if !buffer && decide (s.timestamp < (sh.orders o).lastStamp) then some (.done rest, sh)
    else some (.deliver o s buffer rest, sh.lock o s buffer)
  | .deliver o s buffer rest, .send ok => some (.done rest, sh.send o s buffer ok)
  | .idle, .bind h => some (.idle, sh.setSlot h ((sh.slots h).bind sh.arrived.length))
  | .idle, .unbind h => some (.idle, sh.setSlot h ((sh.slots h).unbind sh.arrived.length))
  | .idle, .sweep =>
    some (.idle, { sh with slots := fun h => (sh.slots h).unbind sh.arrived.length })
  | .idle, .discard => some (.idle, { sh with earlySamples := fun _ => none })
  | _, _ => none

def act (t : Party) (pc : Pc) (sh : Shared) (a : Act) : Option (Pc × Shared) :=
  advance t pc { sh with moved := t :: sh.moved } a

abbrev State := Conf Party Shared Pc

abbrev step : State → Party × Act → Option State := Conf.exec act

def init : State :=
  ⟨⟨fun _ => ⟨false, none, 0, 0⟩, fun _ => ⟨0, false⟩, 0, fun _ => none, [], [], []⟩, fun _ => .idle⟩

/-! ## Conditions -/

/-- The samples a goroutine has in its hands. -/
def Pc.samples : Pc → List Sample
  | .lookup s _ rest | .missed s _ rest | .ordered _ s _ rest | .deliver _ s _ rest => s :: rest
  | .park s => [s]
  | .idle | .replayBound _ | .replayTake _ => []

/-- The samples of a handle come with stamps that do not go back. -/
def Monotone (c : State) (x : Party × Act) : Prop :=
  match x.2 with
  | .sample handle timestamp _ =>
    ∀ a ∈ c.shared.arrived, a.handle = handle → a.timestamp ≤ timestamp
  | _ => True

/-- A handle comes into the map only when no sample of it that had arrived before it last left the map is
    parked or in the hands of a goroutine. -/
def Settled (c : State) (x : Party × Act) : Prop :=
  match x.2 with
  | .bind h =>
    (∀ t ∈ c.shared.moved, ∀ s ∈ (c.loc t).samples, s.handle = h →
      (c.shared.slots h).start c.shared.arrived.length ≤ s.arrival) ∧
    ∀ s ∈ c.shared.earlySamples h, (c.shared.slots h).start c.shared.arrived.length ≤ s.arrival
  | _ => True

instance (c : State) (x : Party × Act) : Decidable (Monotone c x) := by
  unfold Monotone
  split <;> infer_instance

instance (c : State) (x : Party × Act) : Decidable (Settled c x) := by
  unfold Settled
  split <;> infer_instance

/-- **No replayed sample is delivered after a live one of its handle with a later stamp.** -/
def InOrder (c : State) : Prop :=
  c.shared.delivered.Pairwise fun newer older =>
    newer.live = false → older.live = true → newer.sample.handle = older.sample.handle →
      older.sample.timestamp ≤ newer.sample.timestamp

instance (c : State) : Decidable (InOrder c) := inferInstanceAs (Decidable (List.Pairwise _ _))

end GoAds.Dispatch.Delivery
