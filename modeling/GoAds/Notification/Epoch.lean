import GoAds.Notification.System

/-!
# `Notification.Epoch` — is a committed handle one of the current connection and table?

The subscribe programs of `Notification.Subscribe` once more, at a finer grain.  There a commit is one
step.  Here the steps that load the epoch, take `notifications.lock` and write the map stand apart,
because the epoch advances without that lock: a cache swap and the entry into `Connected` can fall
between any two of them.  Everything the other parties do to the manager is one step `other`, which
needs the lock to be free.

Each program resolves its symbols, captures the epoch, and compares it before the insert.  The single
path captures it only after its Add has returned, the batch after its resolve loop.  What advances
before the capture goes unnoticed, and so does what advances between the comparison and the insert.
Outside these two windows (`Pc.exposed`) every advance is caught.
-/

namespace GoAds.Notification.Epoch

open Interleaving

/-- What the parties share, with the holder of `notifications.lock`. -/
structure Locked (Name Key : Type) extends Shared Name Key where
  lock : Option Nat

variable {Name Key : Type}

/-- A request, and the epoch at which its symbol was resolved.  The epoch is not a variable of the
    program; it is what the property speaks of. -/
structure Item (Name : Type) where
  config : NotificationConfig Name
  resolvedAt : Nat

/-- A handle on its way into the map.  `gen` is the captured epoch, `fresh` the symbol that was
    re-fetched, `rest` what a batch has still to report (`none` for the single path). -/
structure Commit (Name : Type) where
  item : Item Name
  ch : Option Chan
  handle : Handle
  fresh : Option Name
  gen : Nat
  rest : Option (List (Item Name))

/-- The two subscribe paths; they share the commit. -/
inductive Pc (Name Key : Type)
  | idle
  | check (cfg : NotificationConfig Name) (ch : Option Chan)
  /-- `getSymbol` runs. -/
  | resolve (cfg : NotificationConfig Name) (ch : Option Chan)
  /-- The Add request is out. -/
  | send (item : Item Name) (ch : Option Chan)
  /-- The Add has returned; the heartbeat is registered, then the symbol re-fetched. -/
  | refetch (item : Item Name) (ch : Option Chan) (handle : Handle)
  | batchCheck (configs : List (NotificationConfig Name)) (ch : Option Chan)
  | batchResolve (existing batchSeen : Finset Key) (todo : List (NotificationConfig Name))
      (requests : List (Item Name)) (ch : Option Chan)
  | batchSend (requests : List (Item Name)) (ch : Option Chan) (batchCacheEpoch : Nat)
  | batchRefetch (item : Item Name) (rest : List (Item Name)) (ch : Option Chan)
      (batchCacheEpoch : Nat) (handle : Handle)
  /-- Before `notifications.lock` is taken. -/
  | lock (k : Commit Name)
  /-- Under the lock, before the epoch is compared. -/
  | verify (k : Commit Name)
  /-- Under the lock, after it. -/
  | insert (k : Commit Name)
  /-- A refused handle is being deleted on the PLC. -/
  | release (handle : Handle)

/-- The steps.  `swapSymbols` and `enterConnected` are the two epoch advances. -/
inductive Act (Name Key : Type)
  | startAdd (cfg : NotificationConfig Name) (ch : Option Chan)
  | startBatch (configs : List (NotificationConfig Name)) (ch : Option Chan)
  | gate (ok : Bool)
  | found (ok : Bool)
  /-- The PLC's answer to an Add: a handle, or a refusal. -/
  | reply (handle : Option Handle)
  | abort
  | next
  | swapSymbols (table : Key → Option Name)
  | enterConnected
  | insertSymbol (key : Key) (fullName : Name)
  /-- Any critical section of another party. -/
  | other (s : Section Name)

variable (k : Commit Name)

/-- Where a commit goes on when the handle is bound. -/
def Commit.done : Pc Name Key :=
  match k.rest with
  | none => .idle
  | some rest => .batchSend rest k.ch k.gen

/-- Where a commit goes on when it is refused.  The batch collects the handle for its `settle`. -/
def Commit.declined : Pc Name Key :=
  match k.rest with
  | none => .release k.handle
  | some rest => .batchSend rest k.ch k.gen

section

variable [DecidableEq Key] (C : Casing Name Key)

/-- The single path, up to the commit. -/
def addStep (sh : Locked Name Key) : Pc Name Key → Act Name Key → Option (Pc Name Key)
  | .check cfg ch, .gate ok =>
    if sh.lock.isSome then none
    else if !ok || sh.notifications.channelMismatch ch ||
        sh.notifications.hasLiveNotification C cfg.symbolName then some .idle
    else some (.resolve cfg ch)
  | .resolve cfg ch, .found ok => some (if ok then .send ⟨cfg, sh.epoch⟩ ch else .idle)
  | .send item ch, .reply handle => some (handle.elim .idle (.refetch item ch))
  | .refetch item ch handle, .next =>
    match sh.symbols (C.symbolKey item.config.symbolName) with
    | none => some (.release handle)
    | some sym => some (.lock ⟨item, ch, handle, some sym, sh.epoch, none⟩)
  | .release _, .next => some .idle
  | _, _ => none

/-- The batch, up to the commits. -/
def batchStep (sh : Locked Name Key) : Pc Name Key → Act Name Key → Option (Pc Name Key)
  | .batchCheck configs ch, .gate ok =>
    if sh.lock.isSome then none
    else if !ok || configs.isEmpty || sh.notifications.channelMismatch ch then some .idle
    else some (.batchResolve (sh.notifications.liveNotificationNames C) ∅ configs [] ch)
  | .batchResolve existing batchSeen (cfg :: todo) requests ch, .found ok =>
    if C.symbolKey cfg.symbolName ∈ existing ∨ C.symbolKey cfg.symbolName ∈ batchSeen then
      some (.batchResolve existing batchSeen todo requests ch)
    else
      some (.batchResolve existing (Insert.insert (C.symbolKey cfg.symbolName) batchSeen) todo
        (if ok then requests ++ [⟨cfg, sh.epoch⟩] else requests) ch)
  | .batchResolve _ _ [] requests ch, .next =>
    some (if requests.isEmpty then .idle else .batchSend requests ch sh.epoch)
  | .batchSend (item :: rest) ch gen, .reply handle =>
    some (handle.elim (.batchSend rest ch gen) (.batchRefetch item rest ch gen))
  | .batchSend _ _ _, .abort | .batchSend [] _ _, .next => some .idle
  | .batchRefetch item rest ch gen handle, .next =>
    some (.lock ⟨item, ch, handle, sh.symbols (C.symbolKey item.config.symbolName), gen, some rest⟩)
  | _, _ => none

/-- The commit: take the lock, compare the epoch, check and insert. -/
def commitStep (t : Nat) (sh : Locked Name Key) :
    Pc Name Key → Act Name Key → Option (Pc Name Key × Locked Name Key)
  | .lock k, .next => if sh.lock.isSome then none else some (.verify k, { sh with lock := some t })
  | .verify k, .next =>
    if sh.epoch = k.gen then some (.insert k, sh) else some (k.declined, { sh with lock := none })
  | .insert k, .next =>
    match sh.notifications.commitCheck C k.item.config k.ch k.fresh false with
    | .ok sym =>
      some (k.done,
        { sh with
          notifications := sh.notifications.bind C k.item.config k.handle sym k.ch
          lock := none })
    | .error _ => some (k.declined, { sh with lock := none })
  | _, _ => none

def idleStep (sh : Locked Name Key) : Act Name Key → Option (Pc Name Key × Locked Name Key)
  | .startAdd cfg ch => some (.check cfg ch, sh)
  | .startBatch configs ch => some (.batchCheck configs ch, sh)
  | .swapSymbols table => some (.idle, { sh with symbols := table, epoch := sh.epoch + 1 })
  | .enterConnected => some (.idle, { sh with epoch := sh.epoch + 1 })
  | .insertSymbol key fullName =>
    some (.idle, { sh with toShared := Effect.run C sh.toShared (.insertSymbol key fullName) })
  | .other s =>
    if sh.lock.isSome then none
    else some (.idle, { sh with notifications := s.run C sh.notifications })
  | _ => none

def act (t : Nat) (pc : Pc Name Key) (sh : Locked Name Key) (a : Act Name Key) :
    Option (Pc Name Key × Locked Name Key) :=
  match pc with
  | .idle => idleStep C sh a
  | .lock _ | .verify _ | .insert _ => commitStep C t sh pc a
  | .check _ _ | .resolve _ _ | .send _ _ | .refetch _ _ _ | .release _ =>
    (addStep C sh pc a).map (·, sh)
  | _ => (batchStep C sh pc a).map (·, sh)

end

/-- The state of the session at this grain. -/
abbrev State (Name Key : Type) := Conf Nat (Locked Name Key) (Pc Name Key)

def init : State Name Key :=
  { shared := { toShared := Notification.init.shared, lock := none }
    loc := fun _ => .idle }

variable [DecidableEq Key] {C : Casing Name Key}

abbrev step (C : Casing Name Key) : State Name Key → Nat × Act Name Key → Option (State Name Key) :=
  Conf.exec (act C)

variable {a : Act Name Key} {sh sh' : Locked Name Key} {t : Nat} {pc pc' : Pc Name Key}

/-- The insert of the coarse model is this one, when nothing advances under the lock. -/
theorem insert_eq_commit {k sym}
    (hepoch : sh.epoch = k.gen) (hfresh : k.fresh = some sym) (hrest : k.rest = none) :
    ∃ p s, addAct C sh.toShared (.commit k.item.config k.ch k.handle sym k.gen) .commit = some (p, s) ∧
      act C t (.insert k) sh .next =
        some (p.elim .idle fun _ => .release k.handle,
          { sh with notifications := s.run C sh.notifications, lock := none }) := by
  have hne : (sh.epoch != k.gen) = false := by simp [hepoch]
  simp only [addAct, act, commitStep, hne, hfresh]
  cases hc : sh.notifications.commitCheck C k.item.config k.ch (some sym) false with
  | ok fresh =>
    exact ⟨none, .bind k.item.config k.handle fresh k.ch, rfl, by simp [Commit.done, hrest, Section.run]⟩
  | error => exact ⟨some (.release k.handle), .skip, rfl, by simp [Commit.declined, hrest, Section.run]⟩

/-! ## The windows -/

/-- An advance would go unnoticed: a symbol is resolved and the epoch not yet captured, or the epoch
    is compared and the handle not yet inserted. -/
def Pc.exposed : Pc Name Key → Bool
  | .send _ _ | .refetch _ _ _ => true
  | .batchResolve _ _ _ requests _ => !requests.isEmpty
  | .insert _ => true
  | _ => false

/-- What the captured epoch says of a commit and of what its batch has still to report. -/
def Commit.Captured : Prop :=
  k.item.resolvedAt = k.gen ∧ ∀ rest ∈ k.rest, ∀ i ∈ rest, i.resolvedAt = k.gen

/-- Every symbol in hand was resolved at the current epoch, or, once it is captured, at the captured
    one. -/
def Pc.Tied (epoch : Nat) : Pc Name Key → Prop
  | .send item _ | .refetch item _ _ => item.resolvedAt = epoch
  | .batchResolve _ _ _ requests _ => ∀ i ∈ requests, i.resolvedAt = epoch
  | .batchSend requests _ gen => ∀ i ∈ requests, i.resolvedAt = gen
  | .batchRefetch item rest _ gen _ => item.resolvedAt = gen ∧ ∀ i ∈ rest, i.resolvedAt = gen
  | .lock k | .verify k => k.Captured
  | .insert k => k.Captured ∧ k.gen = epoch
  | _ => True

omit [DecidableEq Key] in
theorem Commit.Captured.done {k : Commit Name} (h : k.Captured) (epoch : Nat) :
    (k.done : Pc Name Key).Tied epoch ∧ (k.declined : Pc Name Key).Tied epoch := by
  unfold Commit.done Commit.declined
  cases hr : k.rest with
  | none => exact ⟨trivial, trivial⟩
  | some rest => exact ⟨h.2 rest hr, h.2 rest hr⟩

end GoAds.Notification.Epoch
