import GoAds.Notification.Subscribe

/-!
# `Notification.Resubscribe` — `resubscribeNotificationsLocked` and `recoverDeadSubscriptions`

The re-subscribe takes every declared config off file, subscribes those whose symbol still exists in
one batch, and files what the batch skipped again; when the batch fails it deletes what it created
and restores the configs it took.  Heartbeat recovery wraps it: it sweeps first, and puts the intent
it snapshotted back when nothing came of the attempt.

As in `Notification.Subscribe` each step is one critical section.  A section the source leaves out
when its list is empty is here a step without effect.
-/

namespace GoAds.Notification

variable {Name Key : Type}

/-- `intent` and `channel` of `recoverDeadSubscriptions`. -/
structure Intent (Name : Type) where
  pending : List (PendingNotification Name)
  channel : Option Chan

/-- What the loop over the batch's results collects: the handles nothing owns, the entries to queue
    again, and the configs given up. -/
structure Triage (Name : Type) where
  orphanHandles : List Handle := []
  retryEntries : List (PendingNotification Name) := []
  droppedConfigs : List Name := []

/-- The local variables of `resubscribeNotificationsLocked`; `intent` is its caller's, when that is
    the heartbeat recovery. -/
structure Resub (Name : Type) where
  intent : Option (Intent Name)
  savedPending : List (PendingNotification Name)
  savedChannel : Option Chan
  validPending : List (PendingNotification Name)
  preHandles : List Handle := []
  outcome : Triage Name := {}

/-- An entry after one more round that skipped it. -/
def PendingNotification.bump (p : PendingNotification Name) : PendingNotification Name :=
  { p with resubscribeAttempts := p.resubscribeAttempts + 1 }

/-- The entries a batch skipped, with their attempts counted. -/
def skippedEntries (validPending : List (PendingNotification Name))
    (res : List SumNotificationResult) : List (PendingNotification Name) :=
  ((validPending.zip res).filter fun x => x.2.skipped.isSome).map fun x => x.1.bump

/-- The loop over `subResults`. -/
def triage (validPending : List (PendingNotification Name)) (res : List SumNotificationResult) :
    Triage Name :=
  { orphanHandles := (res.filter fun r => r.skipped.isSome && r.handle != 0).map (·.handle)
    retryEntries := (skippedEntries validPending res).filter fun p =>
      p.resubscribeAttempts < resubscribeMaxAttempts
    droppedConfigs := ((skippedEntries validPending res).filter fun p =>
      resubscribeMaxAttempts ≤ p.resubscribeAttempts).map fun p => p.config.symbolName }

/-- The re-subscribe between its critical sections.  `recoverSweep` to `recoverIntent` come before
    it, and `recheck` to `raise` after it, when heartbeat recovery called it. -/
inductive ResubPc (Name Key : Type)
  | recoverSweep
  | recoverRelease (handles : List Handle)
  | recoverIntent
  /-- Before the section that takes the configs off file. -/
  | take (intent : Option (Intent Name))
  | filter (intent : Option (Intent Name)) (savedPending : List (PendingNotification Name))
      (savedChannel : Option Chan)
  /-- No symbol is left: the channel is about to be released. -/
  | allGone (r : Resub Name)
  | lower (r : Resub Name)
  | snapshot (r : Resub Name)
  | batch (r : Resub Name) (p : BatchPc Name Key)
  | orphans (r : Resub Name) (err : Bool)
  | requeue (r : Resub Name) (err : Bool)
  | drop (r : Resub Name) (err : Bool)
  | rollback (r : Resub Name)
  | undo (r : Resub Name) (newHandles : List Handle)
  /-- `resubscribeNotificationsLocked` returns; `r` is what it worked on, if anything. -/
  | returned (intent : Option (Intent Name)) (r : Option (Resub Name)) (err : Bool)
  | recheck (i : Intent Name)
  | restore (i : Intent Name)
  | raise

inductive ResubAct (Name : Type)
  | next
  | codes (codes : List ReturnCode)
  | batch (a : BatchAct Name)

section

variable [DecidableEq Key] (C : Casing Name Key)

/-- `filterValidPending`: the entries whose symbol is in the cache, or was resolved on demand. -/
def filterValidPending (sh : Shared Name Key) (entries : List (PendingNotification Name)) :
    List (PendingNotification Name) :=
  entries.filter fun p => (sh.symbols (p.key C)).isSome || decide (p.key C ∈ sh.onDemandSymbols)

/-- One step of the re-subscribe; the program counter `none` is the end of it. -/
def resubAct (sh : Shared Name Key) : ResubPc Name Key → ResubAct Name →
    Option (Option (ResubPc Name Key) × Section Name)
  | .recoverSweep, .next =>
    some (some (.recoverRelease sh.notifications.takeNotificationHandles.1), .sweep)
  | .recoverRelease handles, .codes codes =>
    some (some .recoverIntent, .sumDelete false handles codes)
  | .recoverIntent, .next =>
    some (some (.take (some
      { pending := sh.notifications.pending
        channel := sh.notifications.notificationChannel })), .skip)
  | .take intent, .next =>
    -- without a channel the configs stay where they are, and the call succeeds
    if sh.notifications.pending.isEmpty || sh.notifications.notificationChannel.isNone then
      some (some (.returned intent none false), .skip)
    else
      some (some (.filter intent sh.notifications.pending sh.notifications.notificationChannel),
        .clearConfigs)
  | .filter intent savedPending savedChannel, .next =>
    let r : Resub Name :=
      { intent := intent, savedPending := savedPending, savedChannel := savedChannel
        validPending := filterValidPending C sh savedPending }
    -- what the new table does not have is given up here
    some (some (if r.validPending.isEmpty then .allGone r else .lower r), .skip)
  | .allGone r, .next => some (some (.returned r.intent (some r) false), .releaseChannel)
  | .lower r, .next =>
    some (some (.snapshot r),
      if r.validPending.length < r.savedPending.length then .lowerRegistered r.validPending.length
      else .skip)
  | .snapshot r, .next =>
    some (some (.batch { r with preHandles := sh.notifications.activeNotifications.keys }
      (.check (r.validPending.map (·.config)) r.savedChannel)), .skip)
  | .batch r (.returned res err), .next =>
    some (some (.orphans { r with outcome := triage r.validPending res } err), .skip)
  | .batch r p, .batch a => (batchAct C sh p a).map fun x => (some (.batch r x.1), x.2)
  | .orphans r err, .codes codes =>
    some (some (.requeue r err), .sumDelete false r.outcome.orphanHandles codes)
  | .requeue r err, .next => some (some (.drop r err), .addPendings r.outcome.retryEntries)
  | .drop r err, .next =>
    -- the retries are on file and the give-ups counted before the error is looked at
    some (some (if err then .rollback r else .returned r.intent (some r) false),
      if r.outcome.droppedConfigs.isEmpty then .skip
      else .lowerRegistered ((r.validPending.length : Int) - r.outcome.droppedConfigs.length))
  | .rollback r, .next =>
    some (some (.undo r (sh.notifications.newHandles r.preHandles)),
      .rollback r.preHandles r.savedPending r.savedChannel)
  | .undo r newHandles, .codes codes =>
    some (some (.returned r.intent (some r) true), .sumDelete false newHandles codes)
  | .returned none _ _, .next => some (none, .skip)
  | .returned (some i) _ err, .next => some (some (if err then .restore i else .recheck i), .skip)
  | .recheck i, .next =>
    -- success with nothing live is taken for a failure
    if sh.notifications.activeNotifications.keys.isEmpty && !i.pending.isEmpty then
      some (some (.restore i), .skip)
    else some (some .raise, .skip)
  | .restore i, .next => some (none, .restoreIntent i.pending i.channel)
  | .raise, .next => some (none, .raiseRegistered)
  | _, _ => none

/-! ## What a step can do -/

/-- A section that at most lowers the baseline. -/
def Section.Lowers (s : Section Name) : Prop := s = .skip ∨ ∃ n, s = .lowerRegistered n

/-- The steps of `resubAct`, by what happens. -/
inductive ResubStep (sh : Shared Name Key) :
    ResubPc Name Key → ResubAct Name → Option (ResubPc Name Key) → Section Name → Prop
  | swept : ResubStep sh .recoverSweep .next
      (some (.recoverRelease sh.notifications.activeNotifications.keys)) .sweep
  | sweptReleased (handles : List Handle) (codes : List ReturnCode) :
      ResubStep sh (.recoverRelease handles) (.codes codes) (some .recoverIntent)
        (.sumDelete false handles codes)
  | intentTaken : ResubStep sh .recoverIntent .next
      (some (.take (some ⟨sh.notifications.pending, sh.notifications.notificationChannel⟩))) .skip
  | nothing (intent : Option (Intent Name))
      (hn : sh.notifications.pending = [] ∨ sh.notifications.notificationChannel = none) :
      ResubStep sh (.take intent) .next (some (.returned intent none false)) .skip
  | taken (intent : Option (Intent Name)) (hp : sh.notifications.pending ≠ [])
      (hc : sh.notifications.notificationChannel.isSome) :
      ResubStep sh (.take intent) .next
        (some (.filter intent sh.notifications.pending sh.notifications.notificationChannel))
        .clearConfigs
  | noneLeft (intent : Option (Intent Name)) (saved : List (PendingNotification Name))
      (ch : Option Chan) (hv : filterValidPending C sh saved = []) :
      ResubStep sh (.filter intent saved ch) .next
        (some (.allGone { intent := intent, savedPending := saved, savedChannel := ch
                          validPending := filterValidPending C sh saved })) .skip
  | filtered (intent : Option (Intent Name)) (saved : List (PendingNotification Name))
      (ch : Option Chan) (hv : filterValidPending C sh saved ≠ []) :
      ResubStep sh (.filter intent saved ch) .next
        (some (.lower { intent := intent, savedPending := saved, savedChannel := ch
                        validPending := filterValidPending C sh saved })) .skip
  | channelReleased (r : Resub Name) :
      ResubStep sh (.allGone r) .next (some (.returned r.intent (some r) false)) .releaseChannel
  | lowered (r : Resub Name) (s : Section Name) (hs : s.Lowers) :
      ResubStep sh (.lower r) .next (some (.snapshot r)) s
  | snapshot (r : Resub Name) :
      ResubStep sh (.snapshot r) .next
        (some (.batch { r with preHandles := sh.notifications.activeNotifications.keys }
          (.check (r.validPending.map (·.config)) r.savedChannel))) .skip
  | batch (r : Resub Name) (p p' : BatchPc Name Key) (a : BatchAct Name) (s : Section Name)
      (hb : BatchStep C sh p a p' s) : ResubStep sh (.batch r p) (.batch a) (some (.batch r p')) s
  | triaged (r : Resub Name) (res : List SumNotificationResult) (err : Bool) :
      ResubStep sh (.batch r (.returned res err)) .next
        (some (.orphans { r with outcome := triage r.validPending res } err)) .skip
  | orphansReleased (r : Resub Name) (err : Bool) (codes : List ReturnCode) :
      ResubStep sh (.orphans r err) (.codes codes) (some (.requeue r err))
        (.sumDelete false r.outcome.orphanHandles codes)
  | requeued (r : Resub Name) (err : Bool) :
      ResubStep sh (.requeue r err) .next (some (.drop r err)) (.addPendings r.outcome.retryEntries)
  | failed (r : Resub Name) (s : Section Name) (hs : s.Lowers) :
      ResubStep sh (.drop r true) .next (some (.rollback r)) s
  | succeeded (r : Resub Name) (s : Section Name) (hs : s.Lowers) :
      ResubStep sh (.drop r false) .next (some (.returned r.intent (some r) false)) s
  | rolledBack (r : Resub Name) :
      ResubStep sh (.rollback r) .next (some (.undo r (sh.notifications.newHandles r.preHandles)))
        (.rollback r.preHandles r.savedPending r.savedChannel)
  | undone (r : Resub Name) (newHandles : List Handle) (codes : List ReturnCode) :
      ResubStep sh (.undo r newHandles) (.codes codes) (some (.returned r.intent (some r) true))
        (.sumDelete false newHandles codes)
  | finished (r : Option (Resub Name)) (err : Bool) :
      ResubStep sh (.returned none r err) .next none .skip
  | recoveryFailed (i : Intent Name) (r : Option (Resub Name)) :
      ResubStep sh (.returned (some i) r true) .next (some (.restore i)) .skip
  | recoveryReturned (i : Intent Name) (r : Option (Resub Name)) :
      ResubStep sh (.returned (some i) r false) .next (some (.recheck i)) .skip
  | boundNothing (i : Intent Name) : ResubStep sh (.recheck i) .next (some (.restore i)) .skip
  | recovered (i : Intent Name)
      (hb : sh.notifications.activeNotifications.keys ≠ [] ∨ i.pending = []) :
      ResubStep sh (.recheck i) .next (some .raise) .skip
  | restored (i : Intent Name) :
      ResubStep sh (.restore i) .next none (.restoreIntent i.pending i.channel)
  | raised : ResubStep sh .raise .next none .raiseRegistered

theorem resubAct_cases {sh p p' a s}
    (h : resubAct C sh p a = some (p', s)) : ResubStep C sh p a p' s := by
  cases p with
  | recoverSweep =>
    cases a <;> cases h
    exact .swept
  | recoverRelease =>
    cases a <;> cases h
    exact .sweptReleased ..
  | recoverIntent =>
    cases a <;> cases h
    exact .intentTaken
  | take intent =>
    cases a <;> simp only [resubAct, reduceCtorEq] at h
    split at h <;> cases h
    · next hn => exact .nothing _ (by simpa using hn)
    next hn =>
    simp only [Bool.or_eq_true, List.isEmpty_iff, Option.isNone_iff_eq_none, not_or] at hn
    exact .taken _ hn.1 (Option.isSome_iff_ne_none.2 hn.2)
  | filter intent saved ch =>
    cases a <;> cases h
    dsimp only
    split
    · next hv => exact .noneLeft _ _ _ (by simpa using hv)
    · next hv => exact .filtered _ _ _ (by simpa using hv)
  | allGone =>
    cases a <;> cases h
    exact .channelReleased ..
  | lower r =>
    cases a <;> cases h
    refine .lowered _ _ ?_
    split
    · exact .inr ⟨_, rfl⟩
    · exact .inl rfl
  | snapshot =>
    cases a <;> cases h
    exact .snapshot ..
  | batch r p =>
    cases a with
    | next =>
      cases p <;> cases h
      exact .triaged ..
    | codes => simp only [resubAct, reduceCtorEq] at h
    | batch =>
      simp only [resubAct, Option.map_eq_some_iff, Prod.exists, Prod.mk.injEq] at h
      obtain ⟨p', s', hb, rfl, rfl⟩ := h
      exact .batch _ _ _ _ _ (batchAct_cases C hb)
  | orphans =>
    cases a <;> cases h
    exact .orphansReleased ..
  | requeue =>
    cases a <;> cases h
    exact .requeued ..
  | drop r err =>
    cases a <;> cases h
    have hs : Section.Lowers (if r.outcome.droppedConfigs.isEmpty then .skip
        else .lowerRegistered ((r.validPending.length : Int) - r.outcome.droppedConfigs.length) :
          Section Name) := by
      split
      · exact .inl rfl
      · exact .inr ⟨_, rfl⟩
    cases err
    · exact .succeeded _ _ hs
    · exact .failed _ _ hs
  | rollback =>
    cases a <;> cases h
    exact .rolledBack ..
  | undo =>
    cases a <;> cases h
    exact .undone ..
  | returned intent r err =>
    cases intent <;> cases a <;> cases h
    · exact .finished ..
    cases err
    · exact .recoveryReturned ..
    · exact .recoveryFailed ..
  | recheck i =>
    cases a <;> simp only [resubAct, reduceCtorEq] at h
    split at h <;> cases h
    · exact .boundNothing ..
    next hb =>
    refine .recovered _ ?_
    by_cases hp : i.pending = []
    · exact .inr hp
    · exact .inl (by simpa [hp] using hb)
  | restore =>
    cases a <;> cases h
    exact .restored ..
  | raise =>
    cases a <;> cases h
    exact .raised

end

end GoAds.Notification
