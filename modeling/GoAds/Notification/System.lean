import GoAds.Lib.Interleaving
import GoAds.Notification.Resubscribe

/-!
# `Notification.System` — every party of the subscription bookkeeping

Any number of goroutines, each idle or inside one operation: a subscribe, a delete, a batch delete,
the release that follows a sweep (reconnect and auto-reload take every handle and delete them
PLC-side), or a re-subscribe.  An idle goroutine may also change what the operations read: swap or
extend the symbol cache, or advance the epoch.
-/

namespace GoAds.Notification

open Interleaving

/-- What the PLC answered to `DeleteDeviceNotification`: no error, one of the two codes for a
    registration it does not have, or any other failure. -/
inductive DeleteOutcome
  | ok | gone | failed
  deriving DecidableEq, Repr

inductive Pc (Name Key : Type)
  | idle
  | add (p : AddPc Name)
  | batch (p : BatchPc Name Key)
  /-- `DeleteDeviceNotification` after its first section, which read `symbol`. -/
  | delete (handle : Handle) (symbol : Option Name)
  /-- `SumDeleteDeviceNotification`, its request out. -/
  | sumDelete (handles : List Handle)
  /-- After a sweep: the handles taken are being released. -/
  | release (handles : List Handle)
  | resub (p : ResubPc Name Key)

inductive Act (Name Key : Type)
  | startAdd (cfg : NotificationConfig Name) (ch : Option Chan)
  | startBatch (configs : List (NotificationConfig Name)) (ch : Option Chan)
  | startDelete (handle : Handle)
  | startSumDelete (handles : List Handle)
  /-- `takeNotificationHandles` by reconnect or auto-reload. -/
  | sweep
  /-- A re-subscribe takes `resubscribeMu`; `recovery` when heartbeat recovery runs it. -/
  | startResub (recovery : Bool)
  /-- `LoadSymbols` and its kin swap `cache.symbols` and advance the epoch. -/
  | swapSymbols (table : Key → Option Name)
  /-- `getSymbol` files a symbol it resolved on demand. -/
  | insertSymbol (key : Key) (fullName : Name)
  | clearOnDemand
  | bumpEpoch
  | add (a : AddAct)
  | batch (a : BatchAct Name)
  /-- A batch returns to its caller. -/
  | ret
  | deleteReply (outcome : DeleteOutcome)
  | sumDeleteReply (codes : List ReturnCode)
  | release (codes : List ReturnCode)
  | resub (a : ResubAct Name)

/-- What a step does to the shared state: at most one critical section, or a change of what the
    sections read. -/
inductive Effect (Name Key : Type)
  | notifications (s : Section Name)
  | lockResubscribe (t : Nat)
  | unlockResubscribe (s : Section Name)
  | swapSymbols (table : Key → Option Name)
  | insertSymbol (key : Key) (fullName : Name)
  | clearOnDemand
  | bumpEpoch

variable {Name Key : Type} [DecidableEq Key] (C : Casing Name Key)

/-- The critical section of an effect. -/
def Effect.toSection : Effect Name Key → Section Name
  | .notifications s | .unlockResubscribe s => s
  | _ => .skip

def Effect.run (sh : Shared Name Key) : Effect Name Key → Shared Name Key
  | .notifications s => { sh with notifications := s.run C sh.notifications }
  | .lockResubscribe t => { sh with resubscribeMu := some t }
  | .unlockResubscribe s =>
    { sh with notifications := s.run C sh.notifications, resubscribeMu := none }
  | .swapSymbols table => { sh with symbols := table, epoch := sh.epoch + 1 }
  | .insertSymbol key fullName =>
    if (sh.symbols key).isSome then sh
    else
      { sh with
        symbols := fun k => if k = key then some fullName else sh.symbols k
        onDemandSymbols := insert key sh.onDemandSymbols }
  | .clearOnDemand => { sh with onDemandSymbols := ∅ }
  | .bumpEpoch => { sh with epoch := sh.epoch + 1 }

def idleAct (t : Nat) (sh : Shared Name Key) : Act Name Key → Option (Pc Name Key × Effect Name Key)
  | .startAdd cfg ch => some (.add (.check cfg ch), .notifications .skip)
  | .startBatch configs ch => some (.batch (.check configs ch), .notifications .skip)
  | .startDelete h =>
    some (.delete h ((sh.notifications.activeNotifications.lookup h).map (·.fullName)),
      .notifications .skip)
  | .startSumDelete hs => some (.sumDelete hs, .notifications .skip)
  | .sweep =>
    some (.release sh.notifications.takeNotificationHandles.1, .notifications .sweep)
  | .startResub recovery =>
    if sh.resubscribeMu.isSome then none
    else some (.resub (if recovery then .recoverSweep else .take none), .lockResubscribe t)
  | .swapSymbols table => some (.idle, .swapSymbols table)
  | .insertSymbol key fullName => some (.idle, .insertSymbol key fullName)
  | .clearOnDemand => some (.idle, .clearOnDemand)
  | .bumpEpoch => some (.idle, .bumpEpoch)
  | _ => none

/-- The next step of goroutine `t`: where it goes, and what it does to the shared state. -/
def plan (t : Nat) (pc : Pc Name Key) (sh : Shared Name Key) (a : Act Name Key) :
    Option (Pc Name Key × Effect Name Key) :=
  match pc, a with
  | .idle, a => idleAct t sh a
  | .add p, .add a => (addAct C sh p a).map fun r => (r.1.elim .idle .add, .notifications r.2)
  | .batch p, .batch a => (batchAct C sh p a).map fun r => (.batch r.1, .notifications r.2)
  | .batch (.returned _ _), .ret => some (.idle, .notifications .skip)
  | .delete h symbol, .deleteReply outcome =>
    some (.idle, .notifications (if outcome = .failed then .skip else .delete h symbol))
  | .sumDelete hs, .sumDeleteReply codes => some (.idle, .notifications (.sumDelete true hs codes))
  | .release hs, .release codes => some (.idle, .notifications (.sumDelete false hs codes))
  | .resub p, .resub a =>
    (resubAct C sh p a).map fun r =>
      match r.1 with
      | some p' => (.resub p', .notifications r.2)
      | none => (.idle, .unlockResubscribe r.2)
  | _, _ => none

def act (t : Nat) (pc : Pc Name Key) (sh : Shared Name Key) (a : Act Name Key) :
    Option (Pc Name Key × Shared Name Key) :=
  (plan C t pc sh a).map fun r => (r.1, r.2.run C sh)

abbrev State (Name Key : Type) := Conf Nat (Shared Name Key) (Pc Name Key)

/-- A fresh session: nothing subscribed, every goroutine idle. -/
def init : State Name Key :=
  { shared :=
      { notifications := Manager.empty, symbols := fun _ => none, onDemandSymbols := ∅, epoch := 0
        resubscribeMu := none }
    loc := fun _ => .idle }

abbrev step : State Name Key → Nat × Act Name Key → Option (State Name Key) := Conf.exec (act C)

/-- The section goroutine `a.1` performs when it does `a.2`. -/
def sectionOf (c : State Name Key) (a : Nat × Act Name Key) : Section Name :=
  match plan C a.1 (c.loc a.1) c.shared a.2 with
  | some r => r.2.toSection
  | none => .skip

/-! ## What a step can do -/

/-- The steps of `plan`, by what happens. -/
inductive PlanStep (t : Nat) (sh : Shared Name Key) :
    Pc Name Key → Act Name Key → Pc Name Key → Effect Name Key → Prop
  | startAdd (cfg : NotificationConfig Name) (ch : Option Chan) :
      PlanStep t sh .idle (.startAdd cfg ch) (.add (.check cfg ch)) (.notifications .skip)
  | startBatch (cs : List (NotificationConfig Name)) (ch : Option Chan) :
      PlanStep t sh .idle (.startBatch cs ch) (.batch (.check cs ch)) (.notifications .skip)
  | startDelete (h : Handle) :
      PlanStep t sh .idle (.startDelete h)
        (.delete h ((sh.notifications.activeNotifications.lookup h).map (·.fullName)))
        (.notifications .skip)
  | startSumDelete (hs : List Handle) :
      PlanStep t sh .idle (.startSumDelete hs) (.sumDelete hs) (.notifications .skip)
  | sweep : PlanStep t sh .idle .sweep (.release sh.notifications.activeNotifications.keys)
      (.notifications .sweep)
  | startResub (recovery : Bool) (hmu : sh.resubscribeMu = none) :
      PlanStep t sh .idle (.startResub recovery)
        (.resub (if recovery then .recoverSweep else .take none)) (.lockResubscribe t)
  | swapSymbols (table : Key → Option Name) :
      PlanStep t sh .idle (.swapSymbols table) .idle (.swapSymbols table)
  | insertSymbol (key : Key) (fullName : Name) :
      PlanStep t sh .idle (.insertSymbol key fullName) .idle (.insertSymbol key fullName)
  | clearOnDemand : PlanStep t sh .idle .clearOnDemand .idle .clearOnDemand
  | bumpEpoch : PlanStep t sh .idle .bumpEpoch .idle .bumpEpoch
  | add (p : AddPc Name) (p' : Option (AddPc Name)) (a : AddAct) (s : Section Name)
      (h : AddStep C sh p a p' s) :
      PlanStep t sh (.add p) (.add a) (p'.elim .idle .add) (.notifications s)
  | batch (p p' : BatchPc Name Key) (a : BatchAct Name) (s : Section Name)
      (h : BatchStep C sh p a p' s) :
      PlanStep t sh (.batch p) (.batch a) (.batch p') (.notifications s)
  | ret (res : List SumNotificationResult) (err : Bool) :
      PlanStep t sh (.batch (.returned res err)) .ret .idle (.notifications .skip)
  | deleteFailed (h : Handle) (symbol : Option Name) :
      PlanStep t sh (.delete h symbol) (.deleteReply .failed) .idle (.notifications .skip)
  | deleted (h : Handle) (symbol : Option Name) (outcome : DeleteOutcome) (ho : outcome ≠ .failed) :
      PlanStep t sh (.delete h symbol) (.deleteReply outcome) .idle
        (.notifications (.delete h symbol))
  | sumDeleted (hs : List Handle) (codes : List ReturnCode) :
      PlanStep t sh (.sumDelete hs) (.sumDeleteReply codes) .idle
        (.notifications (.sumDelete true hs codes))
  | released (hs : List Handle) (codes : List ReturnCode) :
      PlanStep t sh (.release hs) (.release codes) .idle
        (.notifications (.sumDelete false hs codes))
  | resub (p p' : ResubPc Name Key) (a : ResubAct Name) (s : Section Name)
      (h : ResubStep C sh p a (some p') s) :
      PlanStep t sh (.resub p) (.resub a) (.resub p') (.notifications s)
  | resubDone (p : ResubPc Name Key) (a : ResubAct Name) (s : Section Name)
      (h : ResubStep C sh p a none s) :
      PlanStep t sh (.resub p) (.resub a) .idle (.unlockResubscribe s)

variable {a : Act Name Key} {t : Nat} {c c' : State Name Key}

theorem plan_cases {sh pc pc' e} (h : plan C t pc sh a = some (pc', e)) : PlanStep C t sh pc a pc' e := by
  cases pc with
  | idle =>
    cases a <;> simp only [plan, idleAct, reduceCtorEq] at h
    case startAdd => cases h; exact .startAdd ..
    case startBatch => cases h; exact .startBatch ..
    case startDelete => cases h; exact .startDelete ..
    case startSumDelete => cases h; exact .startSumDelete ..
    case sweep => cases h; exact .sweep
    case startResub recovery =>
      split at h <;> cases h
      next hmu => exact .startResub _ (by simpa using hmu)
    case swapSymbols => cases h; exact .swapSymbols ..
    case insertSymbol => cases h; exact .insertSymbol ..
    case clearOnDemand => cases h; exact .clearOnDemand
    case bumpEpoch => cases h; exact .bumpEpoch
  | add =>
    cases a <;> simp only [plan, reduceCtorEq] at h
    simp only [Option.map_eq_some_iff, Prod.exists, Prod.mk.injEq] at h
    obtain ⟨p', s, hs, rfl, rfl⟩ := h
    exact .add _ _ _ _ (addAct_cases C hs)
  | batch p =>
    cases a with
    | batch =>
      simp only [plan, Option.map_eq_some_iff, Prod.exists, Prod.mk.injEq] at h
      obtain ⟨p', s, hs, rfl, rfl⟩ := h
      exact .batch _ _ _ _ (batchAct_cases C hs)
    | ret =>
      cases p <;> simp only [plan, reduceCtorEq] at h
      cases h
      exact .ret ..
    | _ => simp [plan] at h
  | delete x symbol =>
    cases a <;> simp only [plan, reduceCtorEq] at h
    cases h
    split
    · next ho => subst ho; exact .deleteFailed ..
    · next ho => exact .deleted _ _ _ ho
  | sumDelete => cases a <;> simp only [plan, reduceCtorEq] at h; cases h; exact .sumDeleted ..
  | release => cases a <;> simp only [plan, reduceCtorEq] at h; cases h; exact .released ..
  | resub =>
    cases a <;> simp only [plan, reduceCtorEq] at h
    simp only [Option.map_eq_some_iff, Prod.exists] at h
    obtain ⟨p', s, hs, h⟩ := h
    cases p' with
    | none => cases h; exact .resubDone _ _ _ (resubAct_cases C hs)
    | some => cases h; exact .resub _ _ _ _ (resubAct_cases C hs)

/-- **One step.**  The goroutine moves as planned, and the shared state changes by the planned
    effect. -/
theorem step_eq_some : step C c (t, a) = some c' ↔
      ∃ pc' e, plan C t (c.loc t) c.shared a = some (pc', e) ∧
        c' = ⟨e.run C c.shared, Function.update c.loc t pc'⟩ := by
  rw [Conf.exec_eq_some]
  constructor
  · rintro ⟨pc', sh', h, rfl⟩
    simp only [act, Option.map_eq_some_iff, Prod.exists, Prod.mk.injEq] at h
    obtain ⟨pc'', e, h, rfl, rfl⟩ := h
    exact ⟨pc'', e, h, rfl⟩
  · rintro ⟨pc', e, h, rfl⟩
    exact ⟨pc', _, by simp [act, h], rfl⟩

variable {C}

theorem step_cases (h : step C c (t, a) = some c') :
    ∃ pc' e, PlanStep C t c.shared (c.loc t) a pc' e ∧ sectionOf C c (t, a) = e.toSection ∧
      c' = ⟨e.run C c.shared, Function.update c.loc t pc'⟩ := by
  obtain ⟨pc', e, hp, hc⟩ := (step_eq_some C).1 h
  exact ⟨pc', e, plan_cases C hp, by simp only [sectionOf, hp], hc⟩

theorem planStep_of_sectionOf {s} (h : sectionOf C c (t, a) = s) (hs : s ≠ .skip) :
    ∃ pc' e, PlanStep C t c.shared (c.loc t) a pc' e ∧ e.toSection = s := by
  unfold sectionOf at h
  split at h
  · next r hr => exact ⟨r.1, r.2, plan_cases C hr, h⟩
  · exact absurd h.symm hs

@[simp] theorem Effect.run_notifications (sh : Shared Name Key) (e : Effect Name Key) :
    (e.run C sh).notifications = e.toSection.run C sh.notifications := by
  cases e with
  | insertSymbol key fullName =>
    simp only [Effect.run, Effect.toSection, Section.run]
    split <;> rfl
  | _ => rfl

end GoAds.Notification
