import GoAds.Client.Sum
import GoAds.Lib.Interleaving
import GoAds.Notification.Subscribe

/-!
# `Notification.Indexed` — `AddSymbolNotifications` with its indices

The batch subscribe as it is written: `results` beside `configs`, the map `infos` from the position of a
request to the position of its config, and the callback `onItem` that the client calls with the positions of
the requests, in order.  On the sum path all answers are there before the first call; on the fallback each
Add has its own answer and the transport may fail at any of them.  (`Notification.Subscribe` has the same
function with one slot per config instead of the indices.)

Between two critical sections the other goroutines may do anything to the shared state: sweep it, reload the
cache, subscribe, delete.  Only the client pointer never becomes nil again: its one store, in
`publishWiredClient`, is of a client.
-/

namespace GoAds.Notification.Indexed

open Interleaving Client

variable {Name Key : Type}

/-! ## Local variables -/

/-- What a request needs of a symbol. -/
structure SymbolRef where
  handle : UInt32
  length : UInt32
  contextMask : UInt8

structure SymbolInfo (Name : Type) where
  configIndex : Nat
  config : NotificationConfig Name
  symbol : SymbolRef

def groupSymbolValueByHandle : UInt32 := 0xF005

/-- The mode to send and the cycle-time field, which is the context number in the InContext modes. -/
def notificationCycleField (mode : TransMode) (contextMask : UInt8) (cycleTime : Duration) :
    TransMode × Duration :=
  match mode with
  | .serverCycle2 | .serverOnChange2 =>
    if contextMask = 0 then (downgradeTransMode mode, cycleTime) else (mode, contextMask.toNat * 100)
  | _ => (mode, cycleTime)

/-- The request for one config. -/
def SymbolInfo.request (info : SymbolInfo Name) : SumNotificationRequest :=
  let field := notificationCycleField info.config.transmissionMode info.symbol.contextMask
    info.config.cycleTime
  { group := groupSymbolValueByHandle
    offset := info.symbol.handle
    length := info.symbol.length
    transmissionMode := field.1
    maxDelay := info.config.maxDelay
    cycleTime := field.2 }

structure Locals (Name : Type) where
  configs : List (NotificationConfig Name)
  ch : Option Chan
  results : List SumNotificationResult
  infos : List (SymbolInfo Name)
  requests : List SumNotificationRequest
  batchCacheEpoch : Nat
  committedIdx : List Nat
  refused : List Handle
  /-- History: what the PLC has answered, by the position of the request. -/
  answers : List SumNotificationResult
  /-- History: what the client has passed to `onItem`, by the position of the request. -/
  items : List SumNotificationResult

namespace Locals

variable (l : Locals Name) (i : Nat)

/-- `results[i]`. -/
def result : SumNotificationResult := l.results[i]?.getD {}

variable (r : SumNotificationResult)

def setResult : Locals Name :=
  { l with results := l.results.set i r }

/-- An item that was not added: the transport failed. -/
def abandoned : SumNotificationResult := { skipped := some .transportFailure }

/-- `onItem` with an item the client has skipped. -/
def skipItem : Locals Name :=
  match l.infos[i]? with
  | none => { l with items := l.items ++ [r] }
  | some info => { l.setResult info.configIndex r with items := l.items ++ [r] }

/-- The end of a fallback that the transport has failed: the items from `i` on are reported skipped. -/
def abortFrom : Locals Name :=
  (List.range' i (l.requests.length - i)).foldl (fun l j => l.skipItem j abandoned) l

/-- `results[idx] = f(results[idx])`. -/
def amend (f : SumNotificationResult → SumNotificationResult) (l : Locals Name) (idx : Nat) : Locals Name :=
  l.setResult idx (f (l.result idx))

/-- After an error of the client: what `onItem` has not reported is skipped. -/
def markItem : SumNotificationResult :=
  if r.skipped.isSome || r.handle != 0 || r.error != ReturnCode.noErrors then r
  else { r with skipped := some .transportFailure }

/-- The loop over `infos` after an error of the client. -/
def markAborted : Locals Name :=
  (l.infos.map (·.configIndex)).foldl (amend markItem) l

/-- The committed entries whose handle is no longer bound. -/
def stranded (m : Manager Name Key) : List Nat :=
  l.committedIdx.filter fun idx => decide ((l.result idx).handle ∉ m.activeNotifications)

def strandItem : SumNotificationResult :=
  { handle := r.handle, skipped := some .strandedByReload }

/-- `settle`, with the map it looks at. -/
def settle (m : Manager Name Key) : Locals Name :=
  let amended := (l.stranded m).foldl (amend strandItem) l
  { amended with
    refused := amended.refused ++ ((amended.committedIdx.filter fun idx =>
      (amended.result idx).skipped.isSome && (amended.result idx).handle != 0).map fun idx =>
        (amended.result idx).handle) }

end Locals

/-! ## The program -/

/-- How the client reports: `sum rest` has decoded the answers and `rest` is still to be passed on. -/
inductive Path
  | sum (rest : List SumNotificationResult)
  | adds

inductive Pc (Name Key : Type)
  | check (configs : List (NotificationConfig Name)) (ch : Option Chan)
  | resolve (configs : List (NotificationConfig Name)) (ch : Option Chan) (existing : Finset Key)
  /-- Before `requireClient`. -/
  | client (l : Locals Name)
  /-- In `sumAddDeviceNotificationFunc`, before the first answer. -/
  | request (l : Locals Name)
  /-- Before `onItem(i, …)`. -/
  | report (l : Locals Name) (path : Path) (i : Nat)
  /-- In `onItem(i, r)`: `commitNotification` after its re-fetch of the symbol. -/
  | commit (l : Locals Name) (path : Path) (i : Nat) (info : SymbolInfo Name)
      (r : SumNotificationResult) (fresh : Option Name)
  | settle (l : Locals Name) (err : Bool)
  /-- The refused handles go to `bestEffortDeleteNotifications`; `bound` is history: the handles that
      were bound when `settle` looked. -/
  | release (l : Locals Name) (err : Bool) (bound : List Handle)
  /-- The results are returned; `bound` and `released` are history. -/
  | returned (l : Locals Name) (err : Bool) (bound released : List Handle)
  /-- No results are returned. -/
  | noResults (err : Bool)

inductive Act (Name : Type)
  | check (gate : Bool)
  /-- The loop over the configs; `getSymbol` is what the session finds for a name. -/
  | resolve (getSymbol : Name → Option SymbolRef)
  | client
  /-- The answer to the sum command. -/
  | sum (answers : List (ReturnCode × Handle))
  /-- The PLC does not know the sum command. -/
  | fallback
  | fail
  /-- The next decoded answer is passed on. -/
  | item
  /-- The next Add of the fallback is answered. -/
  | added (answer : Except ReturnCode UInt32)
  | abort
  | finish
  | commit
  | settle
  | release (codes : List ReturnCode)

/-- What is shared: the session's state, and whether it has a client. -/
structure World (Name Key : Type) where
  shared : Shared Name Key
  client : Bool

structure State (Name Key : Type) where
  world : World Name Key
  pc : Pc Name Key

inductive Label (Name Key : Type)
  | own (a : Act Name)
  /-- The other goroutines have changed the shared state. -/
  | others (shared : Shared Name Key)
  /-- A client is stored. -/
  | connect

variable [DecidableEq Key] (C : Casing Name Key)

/-- The loop over the configs from position `i` on. -/
def resolveLoop (existing : Finset Key) (getSymbol : Name → Option SymbolRef) :
    Nat → Finset Key → List (NotificationConfig Name) →
      List SumNotificationResult × List (SymbolInfo Name)
  | _, _, [] => ([], [])
  | i, batchSeen, cfg :: rest =>
    let key := C.symbolKey cfg.symbolName
    if key ∈ existing ∨ key ∈ batchSeen then
      let r := resolveLoop existing getSymbol (i + 1) batchSeen rest
      ({ skipped := some .duplicate } :: r.1, r.2)
    else
      let r := resolveLoop existing getSymbol (i + 1) (insert key batchSeen) rest
      match getSymbol cfg.symbolName with
      | none => ({ skipped := some .unresolved } :: r.1, r.2)
      | some symbol => ({} :: r.1, ⟨i, cfg, symbol⟩ :: r.2)

/-- `onItem(i, r)`, up to the commit if there is one. -/
def onItem (sh : Shared Name Key) (l : Locals Name) (path : Path) (i : Nat)
    (r : SumNotificationResult) : Pc Name Key :=
  match l.infos[i]? with
  -- an index out of range: nothing is recorded
  | none => .report { l with items := l.items ++ [r] } path (i + 1)
  | some info =>
    if r.skipped.isSome then .report (l.skipItem i r) path (i + 1)
    else if r.handle = 0 ∧ r.error = ReturnCode.noErrors then
      .report { l.setResult info.configIndex
        { l.result info.configIndex with skipped := some .zeroHandle } with
        items := l.items ++ [r] } path (i + 1)
    else if r.error ≠ ReturnCode.noErrors then
      .report { l.setResult info.configIndex r with items := l.items ++ [r] } path (i + 1)
    else .commit l path i info r (sh.symbols (C.symbolKey info.config.symbolName))

/-- The locked part of `commitNotification`, and the rest of `onItem`. -/
def commit (sh : Shared Name Key) (l : Locals Name) (info : SymbolInfo Name)
    (r : SumNotificationResult) (fresh : Option Name) : Locals Name × Section Name :=
  match sh.notifications.commitCheck C info.config l.ch fresh (sh.epoch != l.batchCacheEpoch) with
  | .error e =>
    ({ l.setResult info.configIndex
        { l.result info.configIndex with skipped := some e, handle := r.handle } with
      refused := l.refused ++ [r.handle]
      items := l.items ++ [r] }, .skip)
  | .ok sym =>
    ({ l.setResult info.configIndex r with
      committedIdx := l.committedIdx ++ [info.configIndex]
      items := l.items ++ [r] }, .bind info.config r.handle sym l.ch)

def act (w : World Name Key) : Pc Name Key → Act Name → Option (Pc Name Key × Section Name)
  | .check configs ch, .check gate =>
    if !gate then some (.noResults true, .skip)
    else if configs.isEmpty then some (.noResults false, .skip)
    else if w.shared.notifications.channelMismatch ch then some (.noResults true, .skip)
    else some (.resolve configs ch (w.shared.notifications.liveNotificationNames C), .skip)
  | .resolve configs ch existing, .resolve getSymbol =>
    -- a symbol is known only from a client's answers
    let r := resolveLoop C existing (fun n => if w.client then getSymbol n else none) 0 ∅ configs
    let l : Locals Name :=
      { configs := configs, ch := ch, results := r.1, infos := r.2
        requests := r.2.map SymbolInfo.request, batchCacheEpoch := w.shared.epoch
        committedIdx := [], refused := [], answers := [], items := [] }
    some (if r.2.isEmpty then .returned l false [] [] else .client l, .skip)
  | .client l, .client => some (if w.client then .request l else .settle l true, .skip)
  | .request l, .sum answers =>
    if answers.length = l.requests.length then
      let decoded : List SumNotificationResult :=
        answers.map fun a => { handle := a.2, error := a.1 }
      some (.report { l with answers := decoded } (.sum decoded) 0, .skip)
    else none
  | .request l, .fallback => some (.report l .adds 0, .skip)
  | .request l, .fail => some (.settle l.markAborted true, .skip)
  | .report l (.sum (r :: rest)) i, .item => some (onItem C w.shared l (.sum rest) i r, .skip)
  | .report l (.sum []) _, .finish => some (.settle l false, .skip)
  | .report l .adds i, .added answer =>
    if i < l.requests.length then
      let r := notificationResult answer
      some (onItem C w.shared { l with answers := l.answers ++ [r] } .adds i r, .skip)
    else none
  | .report l .adds i, .abort =>
    if i < l.requests.length then some (.settle (l.abortFrom i).markAborted true, .skip) else none
  | .report l .adds i, .finish => if i < l.requests.length then none else some (.settle l false, .skip)
  | .commit l path i info r fresh, .commit =>
    let c := commit C w.shared l info r fresh
    some (.report c.1 path (i + 1), c.2)
  | .settle l err, .settle =>
    let m := w.shared.notifications
    let l' := l.settle m
    some (if l'.refused.isEmpty then .returned l' err m.activeNotifications.keys []
      else .release l' err m.activeNotifications.keys,
      .removeConfigs ((l.stranded m).filterMap fun idx => (l.configs[idx]?).map (·.symbolName)))
  | .release l err bound, .release codes =>
    some (.returned l err bound l.refused, .sumDelete false l.refused codes)
  | _, _ => none

def step (s : State Name Key) : Label Name Key → Option (State Name Key)
  | .own a => (act C s.world s.pc a).map fun r =>
      ⟨{ s.world with
          shared := { s.world.shared with
            notifications := r.2.run C s.world.shared.notifications } }, r.1⟩
  | .others shared => some ⟨⟨shared, s.world.client⟩, s.pc⟩
  | .connect => some ⟨⟨s.world.shared, true⟩, s.pc⟩

/-- A goroutine calls `AddSymbolNotifications`. -/
def init (w : World Name Key) (configs : List (NotificationConfig Name)) (ch : Option Chan) :
    State Name Key := ⟨w, .check configs ch⟩

end GoAds.Notification.Indexed
