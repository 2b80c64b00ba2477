import Mathlib.Data.List.AList
import Mathlib.Data.Finset.Basic
import Mathlib.Data.Finset.Image
import Mathlib.Tactic.Ring

/-!
# `Notification.Manager` — the connection-level notification state

The fields of `notificationManager` that are guarded by `notifications.lock`, and the functions that
read or write them with that lock held.  Each is one critical section, or the body of one: the
parties of `Notification.Subscribe` and `Notification.Resubscribe` interleave them.

Symbol names are a type parameter.  The source normalises a name with `strings.ToLower` where it
keys a map and compares with `strings.EqualFold` where it removes a config; `Casing` holds the two,
and nothing relates them unless a theorem says so (they differ on a few letters outside ASCII).
-/

namespace GoAds

open List

/-- The two ways the source compares symbol names: `symbolKey` (`strings.ToLower`) and
    `strings.EqualFold`. -/
structure Casing (Name Key : Type) where
  symbolKey : Name → Key
  equalFold : Name → Name → Bool

/-- The two comparisons agree on every name in use. -/
def Casing.Agree {Name Key : Type} (C : Casing Name Key) : Prop :=
  ∀ a b, C.equalFold a b = true ↔ C.symbolKey a = C.symbolKey b

/-- Names in ASCII, on which both comparisons are by lower case. -/
def ascii : Casing String String :=
  { symbolKey := String.toLower, equalFold := fun a b => a.toLower == b.toLower }

theorem ascii_agree : ascii.Agree := fun a b => by simp [ascii]

/-- `ReturnCode`: an ADS error code. -/
abbrev ReturnCode := UInt32

namespace ReturnCode

def noErrors : ReturnCode := 0
def deviceNotifyHandleInvalid : ReturnCode := 0x714
def deviceClientUnknown : ReturnCode := 0x715

end ReturnCode

/-- `TransMode`: the transmission modes of a notification; a value the source has no name for is
    `unknown`. -/
inductive TransMode
  | noTransmission | clientCycle | clientOnChange | serverCycle | serverOnChange
  | serverCycle2 | serverOnChange2 | client1Request | unknown (code : UInt32)
  deriving DecidableEq, Repr

namespace Notification

abbrev Handle := Nat

/-- A user channel, by identity. -/
abbrev Chan := Nat

/-- `time.Duration`, in nanoseconds. -/
abbrev Duration := Int

def resubscribeMaxAttempts : Nat := 3

/-- `isBestEffortDeleteSuccess`: the PLC deleted the handle, or has no such registration. -/
def isBestEffortDeleteSuccess (code : ReturnCode) : Bool :=
  code == ReturnCode.noErrors || code == ReturnCode.deviceNotifyHandleInvalid ||
    code == ReturnCode.deviceClientUnknown

variable {Name Key : Type}

structure NotificationConfig (Name : Type) where
  symbolName : Name
  maxDelay : Duration
  cycleTime : Duration
  transmissionMode : TransMode
  deriving DecidableEq, Repr

/-- `pendingNotification`: a config with the count of re-subscribe rounds that skipped it. -/
structure PendingNotification (Name : Type) where
  config : NotificationConfig Name
  resubscribeAttempts : Nat
  deriving DecidableEq, Repr

/-- `activeNotification`.  Of the symbol only `FullName` is read under `notifications.lock`. -/
structure ActiveNotification (Name : Type) where
  fullName : Name
  ch : Option Chan

/-- `notificationManager`: the handle map, the declared configs with their key index, the user
    channel (`none` is nil), and the count a healthy session holds. -/
structure Manager (Name Key : Type) where
  activeNotifications : AList (fun _ : Handle => ActiveNotification Name)
  pending : List (PendingNotification Name)
  configsByKey : Finset Key
  notificationChannel : Option Chan
  registered : Int

def Manager.empty : Manager Name Key :=
  { activeNotifications := ∅, pending := [], configsByKey := ∅, notificationChannel := none,
    registered := 0 }

/-- Why the library did not commit an entry (`SumNotificationResult.Skipped`). -/
inductive SkipReason
  | duplicate | channelMismatch | symbolVanished | strandedByReload | transportFailure
  | unresolved | zeroHandle
  deriving DecidableEq, Repr

/-- `SumNotificationResult`; a fresh result is handle 0, no error, not skipped. -/
structure SumNotificationResult where
  handle : Handle := 0
  error : ReturnCode := ReturnCode.noErrors
  skipped : Option SkipReason := none
  deriving DecidableEq, Repr

section Sections

variable [DecidableEq Key] (C : Casing Name Key)

/-- The key an entry is filed under. -/
def PendingNotification.key (p : PendingNotification Name) : Key := C.symbolKey p.config.symbolName

/-- The keys of a list of entries, in order. -/
def keys (ps : List (PendingNotification Name)) : List Key := ps.map (PendingNotification.key C)

/-- The loop of `setPending`: the first entry of `p`'s symbol is replaced. -/
def replaceFirst (p : PendingNotification Name) :
    List (PendingNotification Name) → List (PendingNotification Name)
  | [] => []
  | q :: qs => if q.key C = p.key C then p :: qs else q :: replaceFirst p qs

namespace Manager

variable (m : Manager Name Key)

/-- `setPending`: one entry per symbol, replacing the one on file. -/
def setPending (p : PendingNotification Name) : Manager Name Key :=
  if p.key C ∈ m.configsByKey ∧ p.key C ∈ keys C m.pending then
    { m with pending := replaceFirst C p m.pending }
  else
    { m with pending := m.pending ++ [p], configsByKey := insert (p.key C) m.configsByKey }

variable (cfg : NotificationConfig Name)

/-- `addConfig`: file a config with a fresh attempt count. -/
def addConfig : Manager Name Key :=
  m.setPending C { config := cfg, resubscribeAttempts := 0 }

/-- `addPending`: file an entry with the attempt count it has. -/
def addPending (p : PendingNotification Name) : Manager Name Key :=
  m.setPending C p

/-- `hasLiveNotification`: the symbol has a committed handle. -/
def hasLiveNotification (symbolName : Name) : Bool :=
  m.activeNotifications.entries.any fun e => C.symbolKey e.2.fullName = C.symbolKey symbolName

/-- `liveNotificationNames`: the keys that have a committed handle. -/
def liveNotificationNames : Finset Key :=
  (m.activeNotifications.entries.map fun e => C.symbolKey e.2.fullName).toFinset

def raiseRegistered : Manager Name Key :=
  { m with registered := max m.registered m.activeNotifications.keys.length }

def lowerRegisteredTo (n : Int) : Manager Name Key :=
  { m with registered := min m.registered n }

/-- `resetConfigs`: swap the whole list and rebuild the key index. -/
def resetConfigs (ps : List (PendingNotification Name)) : Manager Name Key :=
  { m with pending := ps, configsByKey := (keys C ps).toFinset }

/-- `restoreConfigs`: put a snapshot back; what is already on file wins. -/
def restoreConfigs (m : Manager Name Key) : List (PendingNotification Name) → Manager Name Key
  | [] => m
  | p :: ps =>
    restoreConfigs (if p.key C ∈ m.configsByKey then m else m.addPending C p) ps

/-- `removeNotificationConfig`: the index is keyed by `symbolKey`, the entry is found by
    `EqualFold`. -/
def removeNotificationConfig (symbolName : Name) : Manager Name Key :=
  if C.symbolKey symbolName ∈ m.configsByKey then
    { m with
      configsByKey := m.configsByKey.erase (C.symbolKey symbolName)
      pending := m.pending.eraseP fun e => C.equalFold e.config.symbolName symbolName }
  else m

/-- The channel rule of every subscribe: a bound channel must be the caller's. -/
def channelMismatch (ch : Option Chan) : Bool :=
  m.notificationChannel.isSome && m.notificationChannel != ch

/-- The insert both subscribe paths end in: bind the handle, raise the baseline, file the config,
    bind the channel. -/
def bind (handle : Handle) (fresh : Name) (ch : Option Chan) : Manager Name Key :=
  let bound := { m with
    activeNotifications := m.activeNotifications.insert handle { fullName := fresh, ch := ch } }
  { bound.raiseRegistered.addConfig C cfg with notificationChannel := ch }

/-- The checks of `commitNotification`: `fresh` was re-fetched from the cache just before, and
    `stranded` says that the epoch is no longer the batch's.  The symbol to bind, or the refusal. -/
def commitCheck (ch : Option Chan) (fresh : Option Name) (stranded : Bool) : Except SkipReason Name :=
  if stranded then .error .strandedByReload
  else match fresh with
    | none => .error .symbolVanished
    | some sym =>
      if m.channelMismatch ch then .error .channelMismatch
      else if m.hasLiveNotification C cfg.symbolName then .error .duplicate
      else .ok sym

/-- The locked part of `takeNotificationHandles`: the handles taken, and the emptied map. -/
def takeNotificationHandles : List Handle × Manager Name Key :=
  (m.activeNotifications.keys, { m with activeNotifications := ∅ })

/-- Remove the config of the symbol a delete knows; `none` when the handle was not ours. -/
def removeSymbol : Option Name → Manager Name Key
  | some symbolName => m.removeNotificationConfig C symbolName
  | none => m

/-- The second critical section of `DeleteDeviceNotification`.  `symbol` is what the first section
    read. -/
def deleteDeviceNotification (handle : Handle) (symbol : Option Name) :
    Manager Name Key :=
  let m₁ := m.removeSymbol C symbol
  let m₂ := { m₁ with activeNotifications := m₁.activeNotifications.erase handle }
  let m₃ := { m₂ with registered := m₂.activeNotifications.keys.length }
  if symbol.isSome ∧ m₃.activeNotifications.keys = [] then { m₃ with notificationChannel := none }
  else m₃

/-- One iteration of the loop of `sumDeleteDeviceNotification`. -/
def sumDeleteOne (userTeardown : Bool) (m : Manager Name Key) (handle : Handle)
    (code : ReturnCode) : Manager Name Key :=
  if isBestEffortDeleteSuccess code then
    let m₁ := m.removeSymbol C ((m.activeNotifications.lookup handle).map (·.fullName))
    let m₂ := { m₁ with activeNotifications := m₁.activeNotifications.erase handle }
    if userTeardown then { m₂ with registered := m₂.activeNotifications.keys.length } else m₂
  else m

/-- The loop of `sumDeleteDeviceNotification`, over the handles that have a code. -/
def sumDeleteLoop (userTeardown : Bool) : Manager Name Key → List (Handle × ReturnCode) → Manager Name Key
  | m, [] => m
  | m, (h, code) :: rest => sumDeleteLoop userTeardown (m.sumDeleteOne C userTeardown h code) rest

/-- The locked part of `sumDeleteDeviceNotification`; with no code at all it does nothing. -/
def sumDeleteDeviceNotification (userTeardown : Bool) (m : Manager Name Key)
    (handles : List Handle) (codes : List ReturnCode) : Manager Name Key :=
  if codes = [] then m
  else
    let m₁ := m.sumDeleteLoop C userTeardown (handles.zip codes)
    if userTeardown ∧ m₁.activeNotifications.keys = [] then { m₁ with notificationChannel := none }
    else m₁

/-- `removeNotificationConfig` for each name of a list. -/
def removeConfigs (m : Manager Name Key) : List Name → Manager Name Key
  | [] => m
  | n :: ns => removeConfigs (m.removeNotificationConfig C n) ns

/-- `addPending` for each entry of a list. -/
def addPendings (m : Manager Name Key) : List (PendingNotification Name) → Manager Name Key
  | [] => m
  | p :: ps => addPendings (m.addPending C p) ps

/-- Delete each handle of a list from the map. -/
def dropHandles (m : Manager Name Key) : List Handle → Manager Name Key
  | [] => m
  | h :: hs => dropHandles { m with activeNotifications := m.activeNotifications.erase h } hs

/-- The handles of the map that a snapshot of it does not have. -/
def newHandles (preHandles : List Handle) : List Handle :=
  m.activeNotifications.keys.filter fun h => h ∉ preHandles

/-- The locked part of the re-subscribe's rollback. -/
def rollback (preHandles : List Handle)
    (savedPending : List (PendingNotification Name)) (savedChannel : Option Chan) : Manager Name Key :=
  { (m.dropHandles (m.newHandles preHandles)).resetConfigs C savedPending with
    notificationChannel := savedChannel }

/-- `restoreIntent` of `recoverDeadSubscriptions`. -/
def restoreIntent (intent : List (PendingNotification Name))
    (channel : Option Chan) : Manager Name Key :=
  let m₁ := m.restoreConfigs C intent
  if m₁.notificationChannel.isNone then { m₁ with notificationChannel := channel } else m₁

end Manager

/-- **The critical sections** of `notifications.lock` that change the manager, with the values their
    callers pass in. -/
inductive Section (Name : Type)
  | skip
  /-- A subscribe commits. -/
  | bind (cfg : NotificationConfig Name) (handle : Handle) (fresh : Name) (ch : Option Chan)
  /-- A batch un-registers the symbols whose handles were swept. -/
  | removeConfigs (names : List Name)
  | delete (handle : Handle) (symbol : Option Name)
  | sumDelete (userTeardown : Bool) (handles : List Handle) (codes : List ReturnCode)
  | sweep
  /-- A re-subscribe takes every config off file. -/
  | clearConfigs
  /-- A re-subscribe finds no symbol left. -/
  | releaseChannel
  | lowerRegistered (n : Int)
  | addPendings (ps : List (PendingNotification Name))
  | rollback (preHandles : List Handle) (savedPending : List (PendingNotification Name))
      (savedChannel : Option Chan)
  | restoreIntent (intent : List (PendingNotification Name)) (channel : Option Chan)
  | raiseRegistered

def Section.run (m : Manager Name Key) : Section Name → Manager Name Key
  | .skip => m
  | .bind cfg handle fresh ch => m.bind C cfg handle fresh ch
  | .removeConfigs names => m.removeConfigs C names
  | .delete handle symbol => m.deleteDeviceNotification C handle symbol
  | .sumDelete userTeardown handles codes =>
    m.sumDeleteDeviceNotification C userTeardown handles codes
  | .sweep => m.takeNotificationHandles.2
  | .clearConfigs => m.resetConfigs C []
  | .releaseChannel => { m with notificationChannel := none }.lowerRegisteredTo 0
  | .lowerRegistered n => m.lowerRegisteredTo n
  | .addPendings ps => m.addPendings C ps
  | .rollback preHandles savedPending savedChannel => m.rollback C preHandles savedPending savedChannel
  | .restoreIntent intent channel => m.restoreIntent C intent channel
  | .raiseRegistered => m.raiseRegistered

end Sections

/-! ## What the sections do to the configs -/

section Lemmas

variable [DecidableEq Key] {C : Casing Name Key}

theorem keys_replaceFirst (p : PendingNotification Name) (ps : List (PendingNotification Name)) :
    keys C (replaceFirst C p ps) = keys C ps := by
  induction ps with
  | nil => rfl
  | cons q qs ih =>
    by_cases hq : q.key C = p.key C
    · simp [replaceFirst, keys, hq]
    · simpa [replaceFirst, keys, hq] using ih

omit [DecidableEq Key] in
theorem mem_keys {ps k} :
    k ∈ keys C ps ↔ ∃ p ∈ ps, p.key C = k := by
  simp [keys]

namespace Manager

variable {m m' : Manager Name Key} {p : PendingNotification Name} {k : Key}

@[simp] theorem activeNotifications_setPending :
    (m.setPending C p).activeNotifications = m.activeNotifications := by
  unfold setPending; split <;> rfl

@[simp] theorem notificationChannel_setPending :
    (m.setPending C p).notificationChannel = m.notificationChannel := by
  unfold setPending; split <;> rfl

@[simp] theorem configsByKey_setPending :
    (m.setPending C p).configsByKey = insert (p.key C) m.configsByKey := by
  unfold setPending
  split
  · next h => exact (Finset.insert_eq_of_mem h.1).symm
  · rfl

theorem mem_keys_setPending :
    k ∈ keys C (m.setPending C p).pending ↔ k = p.key C ∨ k ∈ keys C m.pending := by
  unfold setPending
  split
  · next h =>
    simp only [keys_replaceFirst]
    exact ⟨.inr, fun hk => hk.elim (fun hk => hk ▸ h.2) id⟩
  · simp [keys, or_comm]

@[simp] theorem activeNotifications_removeNotificationConfig {n : Name} :
    (m.removeNotificationConfig C n).activeNotifications = m.activeNotifications := by
  unfold removeNotificationConfig; split <;> rfl

@[simp] theorem notificationChannel_removeNotificationConfig {n : Name} :
    (m.removeNotificationConfig C n).notificationChannel = m.notificationChannel := by
  unfold removeNotificationConfig; split <;> rfl

theorem pending_removeNotificationConfig_subset {n} :
    (m.removeNotificationConfig C n).pending ⊆ m.pending := by
  unfold removeNotificationConfig
  split
  · exact eraseP_subset
  · exact fun _ h => h

/-- **Lockstep.**  `configsByKey` mirrors `pending`, which has one entry per symbol. -/
structure Lockstep (C : Casing Name Key) (m : Manager Name Key) : Prop where
  mirror : ∀ k, k ∈ m.configsByKey ↔ k ∈ keys C m.pending
  nodup : (keys C m.pending).Nodup

theorem Lockstep.setPending (h : m.Lockstep C) : (m.setPending C p).Lockstep C := by
  refine ⟨fun k => ?_, ?_⟩
  · rw [configsByKey_setPending, Finset.mem_insert, mem_keys_setPending, h.mirror]
  unfold Manager.setPending
  split
  · simpa only [keys_replaceFirst] using h.nodup
  next hn =>
  have hk : p.key C ∉ keys C m.pending := fun hk => hn ⟨(h.mirror _).2 hk, hk⟩
  have : keys C (m.pending ++ [p]) = keys C m.pending ++ [p.key C] := by simp [keys]
  simpa only [this, nodup_append, mem_singleton] using
    ⟨h.nodup, by simp, fun a ha b hb => by rintro rfl; exact hk (hb ▸ ha)⟩

/-- With one entry per symbol, the first of a symbol is every one of it. -/
theorem eraseP_key {ps : List (PendingNotification Name)} (h : (keys C ps).Nodup) :
    ps.eraseP (fun e => e.key C = k) = ps.filter fun e => e.key C ≠ k := by
  induction ps with
  | nil => rfl
  | cons p ps ih =>
    obtain ⟨hp, hps⟩ := nodup_cons.1 h
    by_cases hk : p.key C = k
    · have hrest : ps.filter (fun e => e.key C ≠ k) = ps := by
        refine filter_eq_self.2 fun e he => decide_eq_true fun heq => hp ?_
        exact mem_keys.2 ⟨e, he, heq.trans hk.symm⟩
      rw [eraseP_cons_of_pos (by simp [hk]), filter_cons_of_neg (by simp [hk]), hrest]
    · simp [hk, ih hps]

section

variable (hC : C.Agree) (h : m.Lockstep C)

include hC h

/-- Under agreeing comparisons the entry removed is the one filed under the key. -/
theorem Lockstep.pending_removeNotificationConfig (n : Name) :
    (m.removeNotificationConfig C n).pending = m.pending.filter fun e => e.key C ≠ C.symbolKey n := by
  rw [← eraseP_key h.nodup]
  have hp : (fun e : PendingNotification Name => C.equalFold e.config.symbolName n) =
      fun e => decide (e.key C = C.symbolKey n) := by
    funext e
    exact Bool.eq_iff_iff.2 ((hC e.config.symbolName n).trans decide_eq_true_iff.symm)
  unfold Manager.removeNotificationConfig
  split
  · rw [← hp]
  next hn =>
  refine (eraseP_of_forall_not fun e he heq => hn ?_).symm
  exact (h.mirror _).2 (mem_keys.2 ⟨e, he, of_decide_eq_true heq⟩)

theorem keys_removeNotificationConfig {n} :
    keys C (m.removeNotificationConfig C n).pending = (keys C m.pending).erase (C.symbolKey n) := by
  rw [h.pending_removeNotificationConfig hC, h.nodup.erase_eq_filter, keys, keys, filter_map]
  exact congrArg _ (filter_congr fun e _ => Bool.eq_iff_iff.2 (by simp))

theorem Lockstep.removeNotificationConfig (n : Name) : (m.removeNotificationConfig C n).Lockstep C := by
  refine ⟨fun k => ?_, ?_⟩
  · rw [keys_removeNotificationConfig hC h, h.nodup.mem_erase_iff, ← h.mirror]
    unfold Manager.removeNotificationConfig
    split
    · simp [and_comm]
    · next hn => exact ⟨fun hk => ⟨fun e => hn (e ▸ hk), hk⟩, fun hk => hk.2⟩
  · rw [keys_removeNotificationConfig hC h]
    exact h.nodup.erase _

end

theorem Lockstep.resetConfigs {ps} (h : (keys C ps).Nodup) :
    (m.resetConfigs C ps).Lockstep C :=
  ⟨fun k => by simp [Manager.resetConfigs], h⟩

/-- A symbol is on file: it has an entry, and the index says so. -/
def OnFile (C : Casing Name Key) (m : Manager Name Key) (k : Key) : Prop :=
  k ∈ m.configsByKey ∧ k ∈ keys C m.pending

omit [DecidableEq Key] in
theorem Lockstep.onFile_iff (h : m.Lockstep C) : m.OnFile C k ↔ k ∈ keys C m.pending :=
  ⟨And.right, fun hk => ⟨(h.mirror k).2 hk, hk⟩⟩

theorem onFile_setPending (h : m.OnFile C k ∨ k = p.key C) : (m.setPending C p).OnFile C k := by
  rw [OnFile, configsByKey_setPending, Finset.mem_insert, mem_keys_setPending]
  rcases h with h | h
  · exact ⟨.inr h.1, .inr h.2⟩
  · exact ⟨.inl h, .inl h⟩

theorem restoreConfigs_frame (ps : List (PendingNotification Name)) :
    (m.restoreConfigs C ps).activeNotifications = m.activeNotifications ∧
    (m.restoreConfigs C ps).notificationChannel = m.notificationChannel := by
  induction ps generalizing m with
  | nil => exact ⟨rfl, rfl⟩
  | cons p ps ih =>
    unfold restoreConfigs
    split
    · exact ih
    · simpa [addPending] using @ih (m.addPending C p)

end Manager

end Lemmas

end Notification
end GoAds
