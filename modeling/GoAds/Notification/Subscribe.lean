import GoAds.Notification.Manager

/-!
# `Notification.Subscribe` — `AddSymbolNotification` and `AddSymbolNotifications`

Both subscribe paths as programs over the shared state: a program counter that holds the local
variables, and a function that gives the next program counter and the critical section performed on
the way.  Between two sections any other party may move.  What the environment answers (does a name
resolve, what did the PLC say to an Add) is part of the label.

A batch keeps one `Slot` per config, so that `results[i]` stands beside `configs[i]`.  A slot without
a result is one whose request was sent and whose answer has not been reported to `onItem` yet; the
answers are reported in order, on the sum path as on the one-Add-per-item fallback.
-/

namespace GoAds.Notification

open ReturnCode (noErrors)

/-- What the notification code shares: the manager, the part of the symbol cache it reads, the
    session epoch, and the holder of `resubscribeMu`. -/
structure Shared (Name Key : Type) where
  notifications : Manager Name Key
  /-- `cache.symbols`: the `FullName` filed under a key. -/
  symbols : Key → Option Name
  /-- `cache.onDemandSymbols`. -/
  onDemandSymbols : Finset Key
  epoch : Nat
  resubscribeMu : Option Nat

variable {Name Key : Type}

/-! ## The single subscribe -/

/-- `AddSymbolNotification`, between its critical sections. -/
inductive AddPc (Name : Type)
  /-- Before the pre-check. -/
  | check (cfg : NotificationConfig Name) (ch : Option Chan)
  /-- The pre-check passed; `getSymbol` runs. -/
  | resolve (cfg : NotificationConfig Name) (ch : Option Chan)
  /-- The window is open; the Add request is out. -/
  | send (cfg : NotificationConfig Name) (ch : Option Chan)
  /-- The PLC created `handle`; the symbol and the epoch were re-fetched. -/
  | commit (cfg : NotificationConfig Name) (ch : Option Chan) (handle : Handle) (fresh : Name)
      (cacheGen : Nat)
  /-- The commit was refused; `releaseUncommittedHandle` sends a raw delete. -/
  | release (handle : Handle)

/-- The steps of `AddSymbolNotification`.  `gate` is the answer of `requireRunningRuntime`; a reply
    of `none` is any failure of the Add request (or no client to send it with). -/
inductive AddAct
  | check (gate : Bool)
  | resolve (ok : Bool)
  | reply (handle : Option Handle)
  | commit
  | release

/-- `SumNotificationResult` beside its config.  `committed` is membership in `committedIdx`. -/
structure Slot (Name : Type) where
  config : NotificationConfig Name
  result : Option SumNotificationResult
  committed : Bool := false

def Slot.handle (s : Slot Name) : Handle := (s.result.getD {}).handle

/-- `results[i].Skipped != nil`. -/
def Slot.skipped (s : Slot Name) : Bool := (s.result.getD {}).skipped.isSome

/-- The local variables of `AddSymbolNotifications` once its requests are built. -/
structure Batch (Name : Type) where
  slots : List (Slot Name)
  ch : Option Chan
  batchCacheEpoch : Nat
  refused : List Handle

/-- The results a batch returns. -/
def results (slots : List (Slot Name)) : List SumNotificationResult :=
  slots.map fun s => s.result.getD {}

/-- The config whose answer is reported next. -/
def nextConfig : List (Slot Name) → Option (NotificationConfig Name)
  | [] => none
  | s :: rest => if s.result.isNone then some s.config else nextConfig rest

/-- Record the answer of the slot that is reported next. -/
def report (r : SumNotificationResult) (committed : Bool) : List (Slot Name) → List (Slot Name)
  | [] => []
  | s :: rest =>
    if s.result.isNone then { s with result := some r, committed := committed } :: rest
    else s :: report r committed rest

/-- The transport failed: every slot without an answer is skipped. -/
def abandon (slots : List (Slot Name)) : List (Slot Name) :=
  slots.map fun s =>
    { s with result := some (s.result.getD { skipped := some .transportFailure }) }

section

variable [DecidableEq Key] (C : Casing Name Key)

/-- The resolve loop of `AddSymbolNotifications`: duplicates of a live symbol or of an earlier
    config are skipped, as is a name that does not resolve; the rest is sent. -/
def resolveLoop (existing : Finset Key) (resolves : Name → Bool) :
    Finset Key → List (NotificationConfig Name) → List (Slot Name)
  | _, [] => []
  | batchSeen, cfg :: rest =>
    if C.symbolKey cfg.symbolName ∈ existing ∨ C.symbolKey cfg.symbolName ∈ batchSeen then
      { config := cfg, result := some { skipped := some .duplicate } } ::
        resolveLoop existing resolves batchSeen rest
    else
      { config := cfg,
        result := if resolves cfg.symbolName then none else some { skipped := some .unresolved } } ::
        resolveLoop existing resolves (insert (C.symbolKey cfg.symbolName) batchSeen) rest

/-- A committed slot whose handle a sweep has taken out of the map meanwhile. -/
def Slot.stranded (m : Manager Name Key) (s : Slot Name) : Bool :=
  s.committed && decide (s.handle ∉ m.activeNotifications)

/-- The stranded slots, when `settle` looks at the map. -/
def Batch.strandedSlots (b : Batch Name) (m : Manager Name Key) : List (Slot Name) :=
  b.slots.filter (Slot.stranded m)

/-- The amendment of `settle`: stranded entries are reported as such, and their handles join the
    refused ones. -/
def Batch.settle (b : Batch Name) (m : Manager Name Key) : Batch Name :=
  { b with
    slots := b.slots.map fun s =>
      if s.stranded m then
        { s with result := some { handle := s.handle, skipped := some .strandedByReload } }
      else s
    refused := b.refused ++ ((b.strandedSlots m).map Slot.handle).filter (· ≠ 0) }

/-- `AddSymbolNotifications`, between its critical sections. -/
inductive BatchPc (Name Key : Type)
  /-- Before the runtime gate and the pre-check. -/
  | check (configs : List (NotificationConfig Name)) (ch : Option Chan)
  /-- The live symbols were snapshotted; the names are being resolved. -/
  | resolve (configs : List (NotificationConfig Name)) (ch : Option Chan) (existing : Finset Key)
  /-- The window is open and the batch epoch taken; before `requireClient`. -/
  | client (b : Batch Name)
  /-- Requests are out, or answers are being reported. -/
  | send (b : Batch Name)
  /-- `commitNotification` after its re-fetch of the symbol. -/
  | commit (b : Batch Name) (cfg : NotificationConfig Name) (handle : Handle) (fresh : Option Name)
  /-- Before the locked part of `settle`. -/
  | settle (b : Batch Name) (err : Bool)
  /-- The refused handles are being released. -/
  | release (b : Batch Name) (err : Bool)
  | returned (res : List SumNotificationResult) (err : Bool)

inductive BatchAct (Name : Type)
  | check (gate : Bool)
  | resolve (resolves : Name → Bool)
  | client (ok : Bool)
  /-- The PLC's answer to the next request. -/
  | reply (error : ReturnCode) (handle : Handle)
  /-- The transport fails with requests unanswered. -/
  | abort
  /-- Every request is answered. -/
  | finish
  | commit
  | settle
  | release (codes : List ReturnCode)

/-- One step of `AddSymbolNotification`; the program counter `none` is its return. -/
def addAct (sh : Shared Name Key) : AddPc Name → AddAct → Option (Option (AddPc Name) × Section Name)
  | .check cfg ch, .check gate =>
    if !gate || sh.notifications.channelMismatch ch ||
        sh.notifications.hasLiveNotification C cfg.symbolName then some (none, .skip)
    else some (some (.resolve cfg ch), .skip)
  | .resolve cfg ch, .resolve ok => some (if ok then some (.send cfg ch) else none, .skip)
  | .send cfg ch, .reply handle =>
    match handle with
    | none => some (none, .skip)
    | some h =>
      -- the PLC holds a registration by now; without a symbol it has to go
      match sh.symbols (C.symbolKey cfg.symbolName) with
      | none => some (some (.release h), .skip)
      | some sym => some (some (.commit cfg ch h sym sh.epoch), .skip)
  | .commit cfg ch h sym gen, .commit =>
    match sh.notifications.commitCheck C cfg ch (some sym) (sh.epoch != gen) with
    | .ok fresh => some (none, .bind cfg h fresh ch)
    | .error _ => some (some (.release h), .skip)
  | .release _, .release => some (none, .skip)
  | _, _ => none

def batchAct (sh : Shared Name Key) : BatchPc Name Key → BatchAct Name →
    Option (BatchPc Name Key × Section Name)
  | .check configs ch, .check gate =>
    if !gate then some (.returned [] true, .skip)
    else if configs.isEmpty then some (.returned [] false, .skip)
    else if sh.notifications.channelMismatch ch then some (.returned [] true, .skip)
    else some (.resolve configs ch (sh.notifications.liveNotificationNames C), .skip)
  | .resolve configs ch existing, .resolve resolves =>
    let slots := resolveLoop C existing resolves ∅ configs
    -- every config was skipped: no window is opened and no epoch taken
    if (nextConfig slots).isNone then some (.returned (results slots) false, .skip)
    else
      some (.client { slots := slots, ch := ch, batchCacheEpoch := sh.epoch, refused := [] }, .skip)
  | .client b, .client ok => some (if ok then .send b else .settle b true, .skip)
  | .send b, .reply error handle =>
    match nextConfig b.slots with
    | none => none
    | some cfg =>
      -- a refused item is reported and never committed
      if error != noErrors then
        some (.send { b with slots := report { handle := handle, error := error } false b.slots },
          .skip)
      else if handle = 0 then
        some (.send { b with slots := report { skipped := some .zeroHandle } false b.slots }, .skip)
      else some (.commit b cfg handle (sh.symbols (C.symbolKey cfg.symbolName)), .skip)
  | .send b, .abort =>
    if (nextConfig b.slots).isNone then none
    else some (.settle { b with slots := abandon b.slots } true, .skip)
  | .send b, .finish => if (nextConfig b.slots).isNone then some (.settle b false, .skip) else none
  | .commit b cfg h fresh, .commit =>
    match sh.notifications.commitCheck C cfg b.ch fresh (sh.epoch != b.batchCacheEpoch) with
    | .ok sym =>
      some (.send { b with slots := report { handle := h } true b.slots }, .bind cfg h sym b.ch)
    | .error e =>
      some (.send { b with
        slots := report { handle := h, skipped := some e } false b.slots
        refused := b.refused ++ [h] }, .skip)
  | .settle b err, .settle =>
    -- a sweep may have taken handles this batch committed; their configs leave the file with them
    let b' := b.settle sh.notifications
    some (if b'.refused.isEmpty then .returned (results b'.slots) err else .release b' err,
      .removeConfigs ((b.strandedSlots sh.notifications).map fun s => s.config.symbolName))
  | .release b err, .release codes =>
    some (.returned (results b.slots) err, .sumDelete false b.refused codes)
  | _, _ => none

/-! ## What a step can do -/

/-- The steps of `addAct`, by what happens. -/
inductive AddStep (sh : Shared Name Key) :
    AddPc Name → AddAct → Option (AddPc Name) → Section Name → Prop
  | refused {gate : Bool} (cfg : NotificationConfig Name) (ch : Option Chan) :
      AddStep sh (.check cfg ch) (.check gate) none .skip
  | checked {gate : Bool} (cfg : NotificationConfig Name) (ch : Option Chan) :
      AddStep sh (.check cfg ch) (.check gate) (some (.resolve cfg ch)) .skip
  | unresolved (cfg : NotificationConfig Name) (ch : Option Chan) :
      AddStep sh (.resolve cfg ch) (.resolve false) none .skip
  | resolved (cfg : NotificationConfig Name) (ch : Option Chan) :
      AddStep sh (.resolve cfg ch) (.resolve true) (some (.send cfg ch)) .skip
  | failed (cfg : NotificationConfig Name) (ch : Option Chan) :
      AddStep sh (.send cfg ch) (.reply none) none .skip
  | vanished (cfg : NotificationConfig Name) (ch : Option Chan) (h : Handle) :
      AddStep sh (.send cfg ch) (.reply (some h)) (some (.release h)) .skip
  | created (cfg : NotificationConfig Name) (ch : Option Chan) (h : Handle) (sym : Name)
      (hsym : sh.symbols (C.symbolKey cfg.symbolName) = some sym) :
      AddStep sh (.send cfg ch) (.reply (some h)) (some (.commit cfg ch h sym sh.epoch)) .skip
  | committed (cfg : NotificationConfig Name) (ch : Option Chan) (h : Handle) (sym fresh : Name)
      (gen : Nat)
      (hc : sh.notifications.commitCheck C cfg ch (some sym) (sh.epoch != gen) = .ok fresh) :
      AddStep sh (.commit cfg ch h sym gen) .commit none (.bind cfg h fresh ch)
  | declined (cfg : NotificationConfig Name) (ch : Option Chan) (h : Handle) (sym : Name)
      (gen : Nat) : AddStep sh (.commit cfg ch h sym gen) .commit (some (.release h)) .skip
  | released (h : Handle) : AddStep sh (.release h) .release none .skip

theorem addAct_cases {sh p p' a s} (h : addAct C sh p a = some (p', s)) : AddStep C sh p a p' s := by
  cases p <;> cases a <;> simp only [addAct, reduceCtorEq] at h
  case check.check cfg ch gate =>
    split at h <;> cases h
    · exact .refused ..
    · exact .checked ..
  case resolve.resolve cfg ch ok =>
    cases ok <;> cases h
    · exact .unresolved ..
    · exact .resolved ..
  case send.reply cfg ch handle =>
    cases handle with
    | none => cases h; exact .failed ..
    | some x =>
      dsimp only at h
      split at h <;> cases h
      · exact .vanished ..
      · next hs => exact .created _ _ _ _ hs
  case commit.commit cfg ch x sym gen =>
    split at h <;> cases h
    · next hc => exact .committed _ _ _ _ _ _ hc
    · exact .declined ..
  case release.release x => cases h; exact .released ..

/-- The steps of `batchAct`, by what happens. -/
inductive BatchStep (sh : Shared Name Key) :
    BatchPc Name Key → BatchAct Name → BatchPc Name Key → Section Name → Prop
  | refused (cs : List (NotificationConfig Name)) (ch : Option Chan) (gate : Bool) :
      BatchStep sh (.check cs ch) (.check gate) (.returned [] true) .skip
  | empty (ch : Option Chan) : BatchStep sh (.check [] ch) (.check true) (.returned [] false) .skip
  | checked (cs : List (NotificationConfig Name)) (ch : Option Chan) :
      BatchStep sh (.check cs ch) (.check true)
        (.resolve cs ch (sh.notifications.liveNotificationNames C)) .skip
  | allSkipped (cs : List (NotificationConfig Name)) (ch : Option Chan) (existing : Finset Key)
      (resolves : Name → Bool) (hn : nextConfig (resolveLoop C existing resolves ∅ cs) = none) :
      BatchStep sh (.resolve cs ch existing) (.resolve resolves)
        (.returned (results (resolveLoop C existing resolves ∅ cs)) false) .skip
  | resolved (cs : List (NotificationConfig Name)) (ch : Option Chan) (existing : Finset Key)
      (resolves : Name → Bool) :
      BatchStep sh (.resolve cs ch existing) (.resolve resolves)
        (.client ⟨resolveLoop C existing resolves ∅ cs, ch, sh.epoch, []⟩) .skip
  | connected (b : Batch Name) : BatchStep sh (.client b) (.client true) (.send b) .skip
  | noClient (b : Batch Name) :
      BatchStep sh (.client b) (.client false) (.settle b true) .skip
  | plcRefused (b : Batch Name) (error : ReturnCode) (handle : Handle)
      (he : error ≠ noErrors) (cfg : NotificationConfig Name)
      (hn : nextConfig b.slots = some cfg) :
      BatchStep sh (.send b) (.reply error handle)
        (.send { b with slots := report { handle := handle, error := error } false b.slots }) .skip
  | zeroHandle (b : Batch Name) :
      BatchStep sh (.send b) (.reply noErrors 0)
        (.send { b with slots := report { skipped := some .zeroHandle } false b.slots }) .skip
  | created (b : Batch Name) (cfg : NotificationConfig Name) (handle : Handle)
      (hn : nextConfig b.slots = some cfg) (h0 : handle ≠ 0) :
      BatchStep sh (.send b) (.reply noErrors handle)
        (.commit b cfg handle (sh.symbols (C.symbolKey cfg.symbolName))) .skip
  | aborted (b : Batch Name) :
      BatchStep sh (.send b) .abort (.settle { b with slots := abandon b.slots } true) .skip
  | finished (b : Batch Name) (hn : nextConfig b.slots = none) :
      BatchStep sh (.send b) .finish (.settle b false) .skip
  | committed (b : Batch Name) (cfg : NotificationConfig Name) (handle : Handle)
      (fresh : Option Name) (sym : Name)
      (hc : sh.notifications.commitCheck C cfg b.ch fresh (sh.epoch != b.batchCacheEpoch) = .ok sym) :
      BatchStep sh (.commit b cfg handle fresh) .commit
        (.send { b with slots := report { handle := handle } true b.slots })
        (.bind cfg handle sym b.ch)
  | declined (b : Batch Name) (cfg : NotificationConfig Name) (handle : Handle)
      (fresh : Option Name) (e : SkipReason) :
      BatchStep sh (.commit b cfg handle fresh) .commit
        (.send { b with
          slots := report { handle := handle, skipped := some e } false b.slots
          refused := b.refused ++ [handle] }) .skip
  | settled (b : Batch Name) (err : Bool) (hr : (b.settle sh.notifications).refused = []) :
      BatchStep sh (.settle b err) .settle
        (.returned (results (b.settle sh.notifications).slots) err)
        (.removeConfigs ((b.strandedSlots sh.notifications).map fun s => s.config.symbolName))
  | amended (b : Batch Name) (err : Bool) :
      BatchStep sh (.settle b err) .settle (.release (b.settle sh.notifications) err)
        (.removeConfigs ((b.strandedSlots sh.notifications).map fun s => s.config.symbolName))
  | released (b : Batch Name) (err : Bool) (codes : List ReturnCode) :
      BatchStep sh (.release b err) (.release codes) (.returned (results b.slots) err)
        (.sumDelete false b.refused codes)

theorem batchAct_cases {sh p p' a s} (h : batchAct C sh p a = some (p', s)) : BatchStep C sh p a p' s := by
  cases p <;> cases a <;> simp only [batchAct, reduceCtorEq] at h
  case check.check cs ch gate =>
    cases gate with
    | false => cases h; exact .refused ..
    | true =>
      simp only [Bool.not_true, Bool.false_eq_true, if_false] at h
      split at h
      · next he => cases h; cases cs <;> simp at he; exact .empty ..
      split at h <;> cases h
      · exact .refused ..
      · exact .checked ..
  case resolve.resolve cs ch existing resolves =>
    split at h <;> cases h
    · next hn => exact .allSkipped _ _ _ _ (by simpa using hn)
    · exact .resolved ..
  case client.client b ok =>
    cases ok <;> cases h
    · exact .noClient ..
    · exact .connected ..
  case send.reply b error handle =>
    split at h
    · cases h
    next cfg hn =>
    split at h
    · next he => cases h; exact .plcRefused _ _ _ (by simpa using he) _ hn
    next he =>
    have hok : error = noErrors := by simpa using he
    subst hok
    split at h
    · next h0 => cases h; subst h0; exact .zeroHandle ..
    · next h0 => cases h; exact .created _ _ _ hn h0
  case send.abort b =>
    split at h <;> cases h
    exact .aborted ..
  case send.finish b =>
    split at h <;> cases h
    next hn => exact .finished _ (by simpa using hn)
  case commit.commit b cfg handle fresh =>
    split at h <;> cases h
    · next hc => exact .committed _ _ _ _ _ hc
    · exact .declined ..
  case settle.settle b err =>
    cases h
    split
    · next hr => exact .settled _ _ (by simpa using hr)
    · exact .amended ..
  case release.release b err codes => cases h; exact .released ..

theorem commitCheck_ok {m : Manager Name Key} {cfg : NotificationConfig Name} {ch : Option Chan}
    {fresh : Option Name} {stranded : Bool} {sym : Name}
    (h : m.commitCheck C cfg ch fresh stranded = .ok sym) :
    stranded = false ∧ fresh = some sym ∧ m.channelMismatch ch = false ∧
      m.hasLiveNotification C cfg.symbolName = false := by
  unfold Manager.commitCheck at h
  split at h
  · cases h
  next hs =>
  cases fresh with
  | none => cases h
  | some x =>
    dsimp only at h
    split at h
    · cases h
    next hm =>
    split at h
    · cases h
    next hv =>
    cases h
    exact ⟨by simpa using hs, rfl, by simpa using hm, by simpa using hv⟩

end

end GoAds.Notification
