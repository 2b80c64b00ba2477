import GoAds.Notification.Channel

/-!
# `Notification.Baseline` — what a healthy session holds

`registered` is how many subscriptions the session should hold, and what it holds is the length of
`activeNotifications`; recovery acts on the difference.  A commit raises the baseline and a re-subscribe
lowers it by what it gives up.  A delete of the caller stores the length outright, whether or not the
handle was one of the session's: what had been lost before is no longer missed.
-/

namespace GoAds.Notification

open Interleaving Manager

variable {Name Key : Type}

/-- `subscriptionGap`: what the session wants, and what it has. -/
def Manager.subscriptionGap (m : Manager Name Key) : Int × Int :=
  (m.registered, m.activeNotifications.keys.length)

/-- The session wants no less than it has. -/
def Manager.Covered (m : Manager Name Key) : Prop := m.subscriptionGap.2 ≤ m.subscriptionGap.1

def Section.isCallerDelete : Section Name → Bool
  | .delete _ _ => true
  | .sumDelete userTeardown _ _ => userTeardown
  | _ => false

/-- A section that keeps the baseline honest: the caller deletes only where nothing is missing, and a
    re-subscribe lowers the baseline no further than to what is held. -/
def Section.KeepsBaseline (m : Manager Name Key) : Section Name → Prop
  | .delete _ _ => m.subscriptionGap.1 ≤ m.subscriptionGap.2
  | .sumDelete true handles codes =>
    m.subscriptionGap.1 ≤ m.subscriptionGap.2 ∨
      ∀ x ∈ handles.zip codes, isBestEffortDeleteSuccess x.2 = false
  | .releaseChannel => m.subscriptionGap.2 ≤ 0
  | .lowerRegistered n => m.subscriptionGap.2 ≤ n
  | _ => True

/-! ## What the sections do to the two numbers -/

/-- The two numbers are left alone. -/
def Manager.SameGap (m m' : Manager Name Key) : Prop :=
  m'.activeNotifications = m.activeNotifications ∧ m'.registered = m.registered

namespace Manager

variable {m m' : Manager Name Key}

theorem SameGap.refl (m : Manager Name Key) : SameGap m m := ⟨rfl, rfl⟩

theorem SameGap.trans {m₁ m₂ m₃ : Manager Name Key} (h : SameGap m₁ m₂) (h' : SameGap m₂ m₃) :
    SameGap m₁ m₃ := ⟨h'.1.trans h.1, h'.2.trans h.2⟩

theorem SameGap.subscriptionGap (h : SameGap m m') : m'.subscriptionGap = m.subscriptionGap := by
  unfold Manager.subscriptionGap
  rw [h.1, h.2]

theorem SameGap.covered (h : SameGap m m') (hc : m.Covered) : m'.Covered := by
  unfold Covered
  rw [h.subscriptionGap]
  exact hc

theorem covered_erase (hc : m.Covered) (h : Handle) :
    { m with activeNotifications := m.activeNotifications.erase h }.Covered := by
  have hle : (m.activeNotifications.keys.erase h).length ≤ m.activeNotifications.keys.length :=
    List.length_erase_le
  unfold Covered Manager.subscriptionGap at *
  simp only [AList.keys_erase] at *
  omega

theorem covered_raiseRegistered (m : Manager Name Key) : m.raiseRegistered.Covered :=
  Int.le_max_right _ _

theorem covered_dropHandles (hc : m.Covered) (hs : List Handle) : (m.dropHandles hs).Covered := by
  induction hs generalizing m with
  | nil => exact hc
  | cons h hs ih => exact ih (covered_erase hc h)

variable [DecidableEq Key] {C : Casing Name Key}

theorem sameGap_setPending (m : Manager Name Key) (p : PendingNotification Name) :
    SameGap m (m.setPending C p) := by
  unfold setPending
  split <;> exact ⟨rfl, rfl⟩

theorem sameGap_removeNotificationConfig (m : Manager Name Key) (n : Name) :
    SameGap m (m.removeNotificationConfig C n) := by
  unfold removeNotificationConfig
  split <;> exact ⟨rfl, rfl⟩

theorem sameGap_removeSymbol (m : Manager Name Key) (symbol : Option Name) :
    SameGap m (m.removeSymbol C symbol) := by
  cases symbol with
  | none => exact .refl m
  | some n => exact sameGap_removeNotificationConfig m n

theorem sameGap_removeConfigs (m : Manager Name Key) (ns : List Name) :
    SameGap m (m.removeConfigs C ns) := by
  induction ns generalizing m with
  | nil => exact .refl m
  | cons n ns ih => exact (sameGap_removeNotificationConfig m n).trans (ih _)

theorem sameGap_addPendings (m : Manager Name Key) (ps : List (PendingNotification Name)) :
    SameGap m (m.addPendings C ps) := by
  induction ps generalizing m with
  | nil => exact .refl m
  | cons p ps ih => exact (sameGap_setPending m p).trans (ih _)

theorem sameGap_restoreConfigs (m : Manager Name Key) (ps : List (PendingNotification Name)) :
    SameGap m (m.restoreConfigs C ps) := by
  induction ps generalizing m with
  | nil => exact .refl m
  | cons p ps ih =>
    unfold restoreConfigs
    split
    · exact ih m
    · exact (sameGap_setPending m p).trans (ih _)

theorem sameGap_restoreIntent (m : Manager Name Key) (intent : List (PendingNotification Name))
    (channel : Option Chan) : SameGap m (m.restoreIntent C intent channel) := by
  have h := sameGap_restoreConfigs (C := C) m intent
  unfold restoreIntent
  dsimp only
  split <;> exact h

theorem covered_bind (m : Manager Name Key) (cfg : NotificationConfig Name) (handle : Handle)
    (fresh : Name) (ch : Option Chan) : (m.bind C cfg handle fresh ch).Covered := by
  let bound := { m with
    activeNotifications := m.activeNotifications.insert handle { fullName := fresh, ch := ch } }
  -- the config goes on file after the baseline was raised
  have h : SameGap bound.raiseRegistered (m.bind C cfg handle fresh ch) :=
    sameGap_setPending bound.raiseRegistered _
  exact h.covered (covered_raiseRegistered bound)

theorem covered_delete (m : Manager Name Key) (handle : Handle) (symbol : Option Name) :
    (m.deleteDeviceNotification C handle symbol).Covered := by
  unfold deleteDeviceNotification
  dsimp only
  split <;> exact Int.le_refl _

section

variable (hc : m.Covered) (user : Bool)

include hc user

theorem covered_sumDeleteOne (handle : Handle) (code : ReturnCode) :
    (m.sumDeleteOne C user handle code).Covered := by
  unfold sumDeleteOne
  split
  · dsimp only
    split
    · exact Int.le_refl _
    · exact covered_erase ((sameGap_removeSymbol m _).covered hc) handle
  · exact hc

theorem covered_sumDeleteLoop (l : List (Handle × ReturnCode)) : (m.sumDeleteLoop C user l).Covered := by
  induction l generalizing m with
  | nil => exact hc
  | cons x l ih => exact ih (covered_sumDeleteOne hc user x.1 x.2)

theorem covered_sumDelete (handles : List Handle)
    (codes : List ReturnCode) : (m.sumDeleteDeviceNotification C user handles codes).Covered := by
  have hloop := covered_sumDeleteLoop (C := C) hc user (handles.zip codes)
  unfold sumDeleteDeviceNotification
  split
  · exact hc
  · dsimp only
    split <;> exact hloop

end

/-- A batch delete of which nothing succeeds. -/
theorem sumDeleteLoop_of_failure (user : Bool) {l}
    (h : ∀ x ∈ l, isBestEffortDeleteSuccess x.2 = false) : m.sumDeleteLoop C user l = m := by
  induction l with
  | nil => rfl
  | cons x l ih =>
    have hx : isBestEffortDeleteSuccess x.2 ≠ true := by
      rw [h x (List.mem_cons_self ..)]
      exact Bool.false_ne_true
    show (m.sumDeleteOne C user x.1 x.2).sumDeleteLoop C user l = m
    rw [sumDeleteOne_of_failure hx]
    exact ih fun y hy => h y (List.mem_cons_of_mem x hy)

theorem sameGap_sumDelete_of_failure (m : Manager Name Key) (user : Bool) {handles codes}
    (h : ∀ x ∈ handles.zip codes, isBestEffortDeleteSuccess x.2 = false) :
    SameGap m (m.sumDeleteDeviceNotification C user handles codes) := by
  unfold sumDeleteDeviceNotification
  split
  · exact .refl m
  rw [sumDeleteLoop_of_failure user h]
  dsimp only
  split <;> exact ⟨rfl, rfl⟩

end Manager

variable [DecidableEq Key] {C : Casing Name Key} {m : Manager Name Key} {s : Section Name}

/-- **A section that keeps the baseline leaves it covering what is held.** -/
theorem Manager.Covered.run (hc : m.Covered) (hk : s.KeepsBaseline m) : (s.run C m).Covered := by
  cases s with
  | skip => exact hc
  | bind cfg handle fresh ch => exact covered_bind m cfg handle fresh ch
  | removeConfigs names => exact (sameGap_removeConfigs m names).covered hc
  | delete handle symbol => exact covered_delete m handle symbol
  | sumDelete user handles codes => exact covered_sumDelete hc user handles codes
  -- the handles go, the baseline stays
  | sweep =>
    have h0 : (0 : Int) ≤ m.activeNotifications.keys.length := Int.natCast_nonneg _
    exact Int.le_trans h0 hc
  | clearConfigs => exact hc
  | releaseChannel => exact Int.le_min.2 ⟨hc, hk⟩
  | lowerRegistered => exact Int.le_min.2 ⟨hc, hk⟩
  | addPendings ps => exact (sameGap_addPendings m ps).covered hc
  | rollback => exact covered_dropHandles hc _
  | restoreIntent intent ch => exact (sameGap_restoreIntent m intent ch).covered hc
  | raiseRegistered => exact covered_raiseRegistered m

/-- **A delete of the caller lowers the baseline by no more than what it removes**, where nothing is
    missing. -/
theorem Section.lowers_of_callerDelete (hc : m.Covered) (hk : s.KeepsBaseline m)
    (hs : s.isCallerDelete = true) : m.subscriptionGap.1 - (s.run C m).subscriptionGap.1 ≤
      m.subscriptionGap.2 - (s.run C m).subscriptionGap.2 := by
  have hc' : (s.run C m).Covered := hc.run hk
  unfold Manager.Covered at hc hc'
  cases s with
  | delete handle symbol =>
    have hk : m.subscriptionGap.1 ≤ m.subscriptionGap.2 := hk
    omega
  | sumDelete user handles codes =>
    obtain rfl : user = true := hs
    -- nothing is missing before, or nothing is deleted
    rcases hk with hk | hk
    · omega
    have h := (sameGap_sumDelete_of_failure (C := C) m true hk).subscriptionGap
    have h' : ((Section.sumDelete true handles codes).run C m).subscriptionGap = m.subscriptionGap := h
    rw [h']
    omega
  | _ => cases hs

/-! ## Every run -/

/-- The step keeps the baseline honest. -/
def KeepsBaseline (C : Casing Name Key) (c : State Name Key) (a : Nat × Act Name Key) : Prop :=
  (sectionOf C c a).KeepsBaseline c.shared.notifications

variable {a : Nat × Act Name Key} {c c' : State Name Key}

/-- A step is its section, as far as the bookkeeping goes. -/
theorem notifications_step (h : step C c a = some c') :
    c'.shared.notifications = (sectionOf C c a).run C c.shared.notifications := by
  obtain ⟨t, a⟩ := a
  obtain ⟨pc', e, -, hsec, rfl⟩ := step_cases h
  rw [hsec]
  exact Effect.run_notifications c.shared e

theorem covered_step
    (hc : c.shared.notifications.Covered) (hk : KeepsBaseline C c a) (h : step C c a = some c') :
    c'.shared.notifications.Covered := by
  rw [notifications_step h]
  exact hc.run hk

theorem covered_run (h : Run (step C) (KeepsBaseline C) init c) : c.shared.notifications.Covered := by
  refine h.invariant (P := fun c => c.shared.notifications.Covered) (Int.le_refl 0) ?_
  intro c a c' hc hk hs
  exact covered_step hc hk hs

/-- **The baseline is lowered only by what was given up**, in every run whose steps keep it: the session
    wants no less than it has, before and after each step, and a delete of the caller lowers the
    baseline by at most the number of subscriptions it removes. -/
theorem baseline_covers {c c' : State Name Key} {a : Nat × Act Name Key}
    (hrun : Run (step C) (KeepsBaseline C) init c) (hk : KeepsBaseline C c a) (hs : step C c a = some c') :
    c.shared.notifications.subscriptionGap.2 ≤ c.shared.notifications.subscriptionGap.1 ∧
      c'.shared.notifications.subscriptionGap.2 ≤ c'.shared.notifications.subscriptionGap.1 ∧
      ((sectionOf C c a).isCallerDelete = true →
        c.shared.notifications.subscriptionGap.1 - c'.shared.notifications.subscriptionGap.1 ≤
          c.shared.notifications.subscriptionGap.2 - c'.shared.notifications.subscriptionGap.2) := by
  have hc := covered_run hrun
  refine ⟨hc, covered_step hc hk hs, ?_⟩
  intro hdel
  rw [notifications_step hs]
  exact Section.lowers_of_callerDelete hc hk hdel

/-! ## A delete that keeps the baseline, and one that hides a loss -/

instance (m : Manager Name Key) (s : Section Name) : Decidable (s.KeepsBaseline m) := by
  unfold Section.KeepsBaseline
  induction s using Section.casesOn with
  | sumDelete user => cases user <;> infer_instance
  | _ => infer_instance

instance (c : State Name Key) (a : Nat × Act Name Key) : Decidable (KeepsBaseline C c a) :=
  inferInstanceAs (Decidable ((sectionOf C c a).KeepsBaseline c.shared.notifications))

section Example

/-- The caller deletes the one subscription it has: one wanted and one held become none. -/
theorem baseline_covers_delete :
    ∃ c c' : State String String, Run (step ascii) (KeepsBaseline ascii) init c ∧
      step ascii c (0, .deleteReply .ok) = some c' ∧
      c.shared.notifications.subscriptionGap = (1, 1) ∧
      c'.shared.notifications.subscriptionGap = (0, 0) ∧
      c.shared.notifications.subscriptionGap.1 - c'.shared.notifications.subscriptionGap.1 ≤
        c.shared.notifications.subscriptionGap.2 - c'.shared.notifications.subscriptionGap.2 := by
  obtain ⟨c, hrun, hgap, hdel, hk, hp⟩ := exists_run (step ascii) (KeepsBaseline ascii) init
    (fun c => c.shared.notifications.subscriptionGap = (1, 1) ∧
      (sectionOf ascii c (0, .deleteReply .ok)).isCallerDelete ∧ KeepsBaseline ascii c (0, .deleteReply .ok) ∧
      (step ascii c (0, .deleteReply .ok)).any fun c' =>
        decide (c'.shared.notifications.subscriptionGap = (0, 0)))
    (subscribeA ++ [(0, .startDelete 7)])
    (by decide +kernel)
  simp only [decide_eq_true_eq, Option.any_eq_true] at hp
  obtain ⟨c', hs, hgap'⟩ := hp
  exact ⟨c, c', hrun, hs, hgap, hgap', (baseline_covers hrun hk hs).2.2 hdel⟩

/-- A subscription is swept and its handle then deleted by the caller: nothing is removed, and the
    baseline falls to zero.  And a re-subscribe whose configs are all gone lowers the baseline under a
    subscription that was committed meanwhile. -/
theorem baseline_falls : (¬ ∀ (c c' : State String String) (a : Nat × Act String String),
        Run (step ascii) anyStep init c → step ascii c a = some c' →
        (sectionOf ascii c a).isCallerDelete = true →
        c.shared.notifications.subscriptionGap.1 - c'.shared.notifications.subscriptionGap.1 ≤
          c.shared.notifications.subscriptionGap.2 - c'.shared.notifications.subscriptionGap.2) ∧
      ¬ ∀ c : State String String, Run (step ascii) anyStep init c →
        c.shared.notifications.subscriptionGap.2 ≤ c.shared.notifications.subscriptionGap.1 := by
  constructor
  · intro hall
    obtain ⟨c, hrun, hgap, hdel, hp⟩ := exists_run (step ascii) anyStep init
      (fun c => c.shared.notifications.subscriptionGap = (1, 0) ∧
        (sectionOf ascii c (0, .deleteReply .gone)).isCallerDelete ∧
        (step ascii c (0, .deleteReply .gone)).any fun c' =>
          decide (c'.shared.notifications.subscriptionGap = (0, 0)))
      (subscribeA ++ [(1, .sweep), (0, .startDelete 7)])
      (by decide +kernel)
    simp only [decide_eq_true_eq, Option.any_eq_true] at hp
    obtain ⟨c', hs, hgap'⟩ := hp
    have hle := hall c c' _ hrun hs hdel
    rw [hgap, hgap'] at hle
    exact absurd hle (by decide)
  · intro hall
    refine not_forall_run
      (subscribeA ++ [(1, .sweep), (1, .release [ReturnCode.noErrors]), (1, .startResub false),
        (1, .resub .next),
        (0, .swapSymbols fun k => if k = "main.b" then some "MAIN.b" else none),
        (1, .resub .next),
        (0, .startAdd ⟨"MAIN.b", 0, 0, .serverOnChange⟩ (some 1)), (0, .add (.check true)),
        (0, .add (.resolve true)), (0, .add (.reply (some 8))), (0, .add .commit),
        (1, .resub .next)]) (by decide +kernel) hall

end Example

end GoAds.Notification
