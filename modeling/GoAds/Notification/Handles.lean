import GoAds.Notification.Retained

/-!
# `Notification.Handles` — which goroutine holds which PLC handle

A handle the PLC gave out is first *in hand*: its goroutine has the reply and has not committed it
yet.  The commit binds it in the map, and a refusal leaves it *loose*: nothing owns it, and its
goroutine deletes it on the PLC.  A batch also remembers the handles it committed, since `settle`
gives up those that a sweep took.

When the PLC never gives out a handle twice, a handle in hand occurs nowhere else, and a loose handle
is bound by nobody (`HandlesInv`).  So a goroutine that deletes its loose handles never touches a
subscription.
-/

namespace GoAds.Notification

open Interleaving List Batch Conf Manager

variable {Name Key : Type}

/-- The handles a goroutine holds. -/
structure Grip where
  hand : Option Handle := none
  bound : List Handle := []
  loose : List Handle := []

/-- The handles of skipped results: nothing owns them. -/
def looseOf (res : List SumNotificationResult) : List Handle :=
  (res.filter fun r => r.skipped.isSome && r.handle != 0).map (·.handle)

def Batch.grip (b : Batch Name) : Grip :=
  { bound := (b.slots.filter (·.committed)).map Slot.handle
    loose := b.refused ++ looseOf (results b.slots) }

def BatchPc.grip : BatchPc Name Key → Grip
  | .check _ _ | .resolve _ _ _ => {}
  | .client b | .send b => b.grip
  | .commit b _ handle _ => { b.grip with hand := some handle }
  | .settle b _ | .release b _ => b.grip
  | .returned res _ => { loose := looseOf res }

def AddPc.grip : AddPc Name → Grip
  | .commit _ _ handle _ _ => { hand := some handle }
  | .release handle => { loose := [handle] }
  | _ => {}

def ResubPc.grip : ResubPc Name Key → Grip
  | .batch _ p => p.grip
  | .orphans r _ => { loose := r.outcome.orphanHandles }
  | .undo _ newHandles => { loose := newHandles }
  | _ => {}

def Pc.grip : Pc Name Key → Grip
  | .add p | .batch p | .resub p => p.grip
  | _ => {}

/-- The handle the PLC gives out in a step of a batch. -/
def BatchAct.replied : BatchAct Name → Option Handle
  | .reply error handle => if error = ReturnCode.noErrors ∧ handle ≠ 0 then some handle else none
  | _ => none

/-- The handle the PLC gives out in a step. -/
def Act.replied : Act Name Key → Option Handle
  | .add (.reply handle) => handle
  | .batch a | .resub (.batch a) => a.replied
  | _ => none

variable [DecidableEq Key] {C : Casing Name Key}

/-- How a step may change what its goroutine holds, when it performs the section `s`. -/
structure GripStep (C : Casing Name Key) (m : Manager Name Key) (replied : Option Handle)
    (g g' : Grip) (s : Section Name) : Prop where
  hand : ∀ x, g'.hand = some x → replied = some x
  bound : ∀ x ∈ g'.bound, x ∈ g.bound ∨ g.hand = some x
  loose : ∀ x ∈ g'.loose, x ∈ g.loose ∨ g.hand = some x ∧ s = .skip ∨
    (replied = some x ∧ g'.hand = none ∧ s = .skip) ∨
      (x ∈ g.bound ∨ x ∈ m.activeNotifications) ∧ x ∉ (s.run C m).activeNotifications
  binds : ∀ cfg x fresh ch, s = .bind cfg x fresh ch → g.hand = some x

/-! ## The programs -/

variable {b : Batch Name} {x : Handle} {m : Manager Name Key} {s : Section Name} {sh : Shared Name Key}

omit [DecidableEq Key] in
theorem mem_looseOf {res} :
    x ∈ looseOf res ↔ ∃ r ∈ res, r.skipped.isSome = true ∧ r.handle ≠ 0 ∧ r.handle = x := by
  simp [looseOf, and_assoc]

theorem mem_looseOf_results {slots : List (Slot Name)} :
    x ∈ looseOf (results slots) ↔ ∃ s ∈ slots, s.skipped = true ∧ s.handle ≠ 0 ∧ s.handle = x := by
  rw [mem_looseOf]
  simp [results, Slot.skipped, Slot.handle]

theorem Batch.mem_bound : x ∈ b.grip.bound ↔ ∃ s ∈ b.slots, s.committed = true ∧ s.handle = x := by
  simp [Batch.grip, and_assoc]

theorem Batch.mem_loose : x ∈ b.grip.loose ↔ x ∈ b.refused ∨
      ∃ s ∈ b.slots, s.skipped = true ∧ s.handle ≠ 0 ∧ s.handle = x := by
  rw [← mem_looseOf_results]
  exact mem_append

/-- A section-free step after which the goroutine holds nothing it did not hold. -/
theorem GripStep.of_subset {replied g g'}
    (hh : g'.hand = none) (hb : g'.bound ⊆ g.bound) (hl : g'.loose ⊆ g.loose)
    (hs : ∀ cfg x fresh ch, s ≠ .bind cfg x fresh ch) : GripStep C m replied g g' s := by
  refine ⟨fun x hx => ?_, fun x hx => .inl (hb hx), fun x hx => .inl (hl hx), ?_⟩
  · rw [hh] at hx
    cases hx
  · exact fun cfg x fresh ch h => absurd h (hs cfg x fresh ch)

theorem GripStep.of_empty {replied g}
    (hs : ∀ cfg x fresh ch, s = .bind cfg x fresh ch → g.hand = some x) : GripStep C m replied g {} s :=
  ⟨fun _ hx => absurd hx (by simp), fun _ hx => absurd hx (by simp),
    fun _ hx => absurd hx (by simp), hs⟩

theorem GripStep.of_loose {replied g loose}
    (hs : ∀ cfg x fresh ch, s ≠ .bind cfg x fresh ch)
    (hl : ∀ x ∈ loose, x ∈ g.loose ∨ g.hand = some x ∧ s = .skip ∨ (replied = some x ∧ s = .skip) ∨
      (x ∈ g.bound ∨ x ∈ m.activeNotifications) ∧ x ∉ (s.run C m).activeNotifications) :
    GripStep C m replied g { loose := loose } s := by
  refine ⟨fun _ hx => absurd hx (by simp), fun _ hx => absurd hx (by simp), fun x hx => ?_,
    fun _ _ _ _ h => absurd h (hs _ _ _ _)⟩
  rcases hl x hx with hg | hg | ⟨hr, hskip⟩ | hg
  · exact .inl hg
  · exact .inr (.inl hg)
  · exact .inr (.inr (.inl ⟨hr, rfl, hskip⟩))
  · exact .inr (.inr (.inr hg))

/-- The answer that was reported is in a slot now, and the slot's handle is the answer's. -/
theorem Batch.grip_report {r committed refused} :
    (x ∈ (Batch.grip { b with slots := report r committed b.slots, refused := refused }).bound →
      x ∈ b.grip.bound ∨ committed = true ∧ x = r.handle) ∧
    (x ∈ (Batch.grip { b with slots := report r committed b.slots, refused := refused }).loose →
      x ∈ b.grip.loose ∨ x ∈ refused ∨
        r.skipped.isSome = true ∧ r.handle ≠ 0 ∧ x = r.handle) := by
  refine ⟨fun hx => ?_, fun hx => ?_⟩
  · obtain ⟨s, hs, hc, rfl⟩ := mem_bound.1 hx
    rcases mem_report hs with hs | ⟨-, hres, hcom⟩
    · exact .inl (mem_bound.2 ⟨s, hs, hc, rfl⟩)
    · exact .inr ⟨hcom ▸ hc, by simp [Slot.handle, hres]⟩
  rcases mem_loose.1 hx with hx | ⟨s, hs, hskip, h0, rfl⟩
  · exact .inr (.inl hx)
  rcases mem_report hs with hs | ⟨-, hres, -⟩
  · exact .inl (mem_loose.2 (.inr ⟨s, hs, hskip, h0, rfl⟩))
  · simp only [Slot.skipped, Slot.handle, hres, Option.getD_some] at hskip h0 ⊢
    exact .inr (.inr ⟨hskip, h0, trivial⟩)

/-- An answer that is not skipped, or has no handle, leaves no handle loose. -/
theorem Batch.loose_report {r committed}
    (hr : r.skipped.isSome = true → r.handle = 0)
    (hx : x ∈ (Batch.grip { b with slots := report r committed b.slots }).loose) : x ∈ b.grip.loose := by
  rcases grip_report.2 hx with hx | hx | ⟨hskip, h0, -⟩
  · exact hx
  · exact mem_loose.2 (.inl hx)
  · exact absurd (hr hskip) h0

theorem mem_abandon {slots : List (Slot Name)} {s : Slot Name} (h : s ∈ abandon slots) :
    ∃ s₀ ∈ slots, s.committed = s₀.committed ∧ s.handle = s₀.handle ∧
      (s.handle ≠ 0 → s.skipped = s₀.skipped) := by
  obtain ⟨s₀, hs₀, rfl⟩ := mem_map.1 h
  refine ⟨s₀, hs₀, rfl, ?_⟩
  cases hr : s₀.result with
  | none => simp [Slot.handle, hr]
  | some => simp [Slot.handle, Slot.skipped, hr]

theorem Batch.grip_abandon : (Batch.grip { b with slots := abandon b.slots }).bound ⊆ b.grip.bound ∧
      (Batch.grip { b with slots := abandon b.slots }).loose ⊆ b.grip.loose := by
  refine ⟨fun x hx => ?_, fun x hx => ?_⟩
  · obtain ⟨s, hs, hc, rfl⟩ := mem_bound.1 hx
    obtain ⟨s₀, hs₀, hcom, hh, -⟩ := mem_abandon hs
    exact mem_bound.2 ⟨s₀, hs₀, hcom ▸ hc, hh.symm⟩
  rcases mem_loose.1 hx with hx | ⟨s, hs, hskip, h0, rfl⟩
  · exact mem_loose.2 (.inl hx)
  obtain ⟨s₀, hs₀, -, hh, hsk⟩ := mem_abandon hs
  rw [hsk h0] at hskip
  exact mem_loose.2 (.inr ⟨s₀, hs₀, hskip, hh ▸ h0, hh.symm⟩)

omit [DecidableEq Key] in
theorem Batch.grip_settle : (x ∈ (b.settle m).grip.bound → x ∈ b.grip.bound) ∧
    (x ∈ (b.settle m).grip.loose →
      x ∈ b.grip.loose ∨ x ∈ b.grip.bound ∧ x ∉ m.activeNotifications) := by
  have hstranded : ∀ s ∈ b.slots, s.stranded m = true →
      s.handle ∈ b.grip.bound ∧ s.handle ∉ m.activeNotifications := by
    intro s hs hst
    simp only [Slot.stranded, Bool.and_eq_true, decide_eq_true_eq] at hst
    exact ⟨mem_bound.2 ⟨s, hs, hst.1, rfl⟩, hst.2⟩
  refine ⟨fun hx => ?_, fun hx => ?_⟩
  · obtain ⟨s, hs, hc, rfl⟩ := mem_bound.1 hx
    obtain ⟨s₀, hs₀, rfl⟩ := mem_map.1 hs
    refine mem_bound.2 ⟨s₀, hs₀, ?_⟩
    split at hc <;> split <;> first | contradiction | exact ⟨hc, rfl⟩
  rcases mem_loose.1 hx with hx | ⟨s, hs, hskip, h0, rfl⟩
  · rcases mem_append.1 hx with hx | hx
    · exact .inl (mem_loose.2 (.inl hx))
    obtain ⟨s, hs, rfl⟩ := mem_map.1 (mem_filter.1 hx).1
    obtain ⟨hs, hst⟩ := mem_filter.1 hs
    exact .inr (hstranded s hs hst)
  obtain ⟨s₀, hs₀, rfl⟩ := mem_map.1 hs
  by_cases hst : s₀.stranded m = true
  · rw [if_pos hst]
    exact .inr (hstranded s₀ hs₀ hst)
  · rw [if_neg hst] at hskip h0 ⊢
    exact .inl (mem_loose.2 (.inr ⟨s₀, hs₀, hskip, h0, rfl⟩))

theorem BatchStep.grip {p p' : BatchPc Name Key} {a : BatchAct Name} (h : BatchStep C sh p a p' s) :
    GripStep C sh.notifications a.replied p.grip p'.grip s := by
  cases h with
  | refused | empty | checked => exact .of_empty (by simp)
  | allSkipped =>
    refine .of_loose (by simp) fun x hx => ?_
    obtain ⟨s, hs, -, h0, -⟩ := mem_looseOf_results.1 hx
    exact absurd (accounts_resolveLoop s hs).2.2 h0
  | resolved =>
    refine ⟨fun _ hx => absurd hx (by simp [BatchPc.grip, Batch.grip]), fun x hx => ?_, fun x hx => ?_,
      (by simp)⟩
    · obtain ⟨s, hs, hc, -⟩ := mem_bound.1 hx
      rw [(accounts_resolveLoop s hs).2.1] at hc
      cases hc
    rcases mem_loose.1 hx with hx | ⟨s, hs, -, h0, -⟩
    · exact absurd hx (by simp)
    · exact absurd (accounts_resolveLoop s hs).2.2 h0
  | connected | noClient | finished => exact .of_subset rfl (fun _ hx => hx) (fun _ hx => hx) (by simp)
  | plcRefused =>
    refine .of_subset rfl (fun x hx => ?_) (fun x => loose_report (by simp)) (by simp)
    exact (grip_report.1 hx).resolve_right fun h => by cases h.1
  | zeroHandle =>
    refine .of_subset rfl (fun x hx => ?_) (fun x => loose_report fun _ => rfl) (by simp)
    exact (grip_report.1 hx).resolve_right fun h => by cases h.1
  | created b cfg handle hn h0 =>
    refine ⟨fun x hx => ?_, fun _ hx => .inl hx, fun _ hx => .inl hx, (by simp)⟩
    simpa [BatchPc.grip, BatchAct.replied, h0] using hx
  | aborted => exact .of_subset rfl grip_abandon.1 grip_abandon.2 (by simp)
  | committed =>
    refine ⟨fun _ hx => absurd hx (by simp [BatchPc.grip, Batch.grip]), fun x hx => ?_,
      fun x hx => .inl (loose_report (fun h => by cases h) hx), fun _ x _ _ h => ?_⟩
    · exact (grip_report.1 hx).imp_right fun h => by rw [h.2]; rfl
    · cases h
      rfl
  | declined =>
    refine ⟨fun _ hx => absurd hx (by simp [BatchPc.grip, Batch.grip]), fun x hx => ?_, fun x hx => ?_,
      (by simp)⟩
    · exact .inl ((grip_report.1 hx).resolve_right fun h => by cases h.1)
    rcases grip_report.2 hx with hx | hx | ⟨-, -, hx⟩
    · exact .inl hx
    · rcases mem_append.1 hx with hx | hx
      · exact .inl (mem_loose.2 (.inl hx))
      · rw [mem_singleton.1 hx]
        exact .inr (.inl ⟨rfl, rfl⟩)
    · rw [hx]
      exact .inr (.inl ⟨rfl, rfl⟩)
  | settled =>
    refine .of_loose (by simp) fun x hx => ?_
    rcases grip_settle.2 (mem_append_right _ hx) with hx | ⟨hb, hn⟩
    · exact .inl hx
    · refine .inr (.inr (.inr ⟨.inl hb, ?_⟩))
      rwa [Section.run, activeNotifications_removeConfigs]
  | amended =>
    refine ⟨fun _ hx => absurd hx (by simp [BatchPc.grip, Batch.grip]),
      fun x hx => .inl (grip_settle.1 hx), fun x hx => ?_, (by simp)⟩
    rcases grip_settle.2 hx with hx | ⟨hb, hn⟩
    · exact .inl hx
    · refine .inr (.inr (.inr ⟨.inl hb, ?_⟩))
      rwa [Section.run, activeNotifications_removeConfigs]
  | released =>
    exact .of_subset rfl (by simp [BatchPc.grip]) (fun x hx => mem_append_right _ hx) (by simp)

theorem AddStep.grip {p p' a} (h : AddStep C sh p a p' s) :
    GripStep C sh.notifications (Act.replied (.add a : Act Name Key)) p.grip
      (p'.elim {} AddPc.grip) s := by
  cases h with
  | vanished =>
    refine .of_loose nofun fun y hy => .inr (.inr (.inl ⟨?_, rfl⟩))
    rw [mem_singleton.1 hy]
    rfl
  | created =>
    exact ⟨fun y hy => hy, fun _ hx => absurd hx (by simp [AddPc.grip]),
      fun _ hx => absurd hx (by simp [AddPc.grip]), nofun⟩
  | committed =>
    exact .of_empty fun _ y _ _ h => by cases h; rfl
  | declined =>
    refine .of_loose nofun fun y hy => .inr (.inl ⟨?_, rfl⟩)
    rw [mem_singleton.1 hy]
    rfl
  | _ => exact .of_empty nofun

theorem Manager.not_mem_rollback {pre saved ch}
    (hx : x ∈ m.newHandles pre) : x ∉ (m.rollback C pre saved ch).activeNotifications := by
  intro hmem
  obtain ⟨e, he⟩ := Option.isSome_iff_exists.1 (AList.lookup_isSome.2 hmem)
  have hpre := (mem_of_lookup_rollback he).1
  exact absurd hpre (by simpa using (mem_filter.1 hx).2)

theorem ResubStep.grip {p p' a}
    (h : ResubStep C sh p a p' s) :
    GripStep C sh.notifications (Act.replied (.resub a : Act Name Key)) p.grip
      (p'.elim {} ResubPc.grip) s := by
  cases h with
  | batch r p p' a s hb => exact hb.grip
  | triaged => exact .of_subset rfl (fun _ hx => hx) (fun _ hx => hx) nofun
  | lowered r s hs | failed r s hs | succeeded r s hs =>
    exact .of_empty fun _ _ _ _ h => by rcases hs with rfl | ⟨n, rfl⟩ <;> cases h
  | rolledBack =>
    -- the handles it takes out of the map
    refine .of_loose nofun fun x hx => ?_
    refine .inr (.inr (.inr ⟨.inr ?_, not_mem_rollback hx⟩))
    exact AList.mem_keys.2 (mem_filter.1 hx).1
  | _ => exact .of_empty nofun

/-- **One step** changes what its goroutine holds in one of the ways of `GripStep`. -/
theorem PlanStep.grip {t pc pc' a e} (h : PlanStep C t sh pc a pc' e) :
    GripStep C sh.notifications a.replied pc.grip pc'.grip e.toSection := by
  cases h with
  | startResub recovery => cases recovery <;> exact .of_empty nofun
  | add p p' a s hs =>
    have hg := hs.grip
    cases p' <;> exact hg
  | batch p p' a s hs | resub p p' a s hs | resubDone p a s hs => exact hs.grip
  | _ => exact .of_empty nofun

/-! ## All goroutines -/

theorem Section.mem_run (hC : C.Agree) (hl : m.Lockstep C) (h : x ∈ (s.run C m).activeNotifications) :
    x ∈ m.activeNotifications ∨ ∃ cfg fresh ch, s = .bind cfg x fresh ch := by
  by_cases hb : ∃ cfg y fresh ch, s = .bind cfg y fresh ch
  · obtain ⟨cfg, y, fresh, ch, rfl⟩ := hb
    rw [Section.run, (bind_eq cfg y fresh ch).1, AList.mem_insert] at h
    rcases h with rfl | h
    · exact .inr ⟨cfg, fresh, ch, rfl⟩
    · exact .inl h
  obtain ⟨e, he⟩ := Option.isSome_iff_exists.1 (AList.lookup_isSome.2 h)
  have hf := Section.fewer_run hC hl (fun cfg y fresh ch hs => hb ⟨cfg, y, fresh, ch, hs⟩) x e he
  exact .inl (AList.lookup_isSome.1 (by rw [hf]; rfl))

/-- Who holds what, when the PLC has given out the handles `issued` so far: a handle in hand occurs
    nowhere else, and a loose one is not bound. -/
structure HandlesInv (issued : List Handle) (c : State Name Key) : Prop where
  active : ∀ x ∈ c.shared.notifications.activeNotifications, x ∈ issued
  bound : ∀ t, ∀ x ∈ (c.loc t).grip.bound, x ∈ issued
  loose : ∀ t, ∀ x ∈ (c.loc t).grip.loose,
    x ∈ issued ∧ x ∉ c.shared.notifications.activeNotifications
  hand : ∀ t x, (c.loc t).grip.hand = some x → x ∈ issued ∧
    x ∉ c.shared.notifications.activeNotifications ∧
    ∀ u, x ∉ (c.loc u).grip.bound ∧ x ∉ (c.loc u).grip.loose ∧
      ((c.loc u).grip.hand = some x → u = t)

omit [DecidableEq Key] in
theorem handlesInv_init : HandlesInv [] (init : State Name Key) :=
  ⟨fun x hx => absurd hx (AList.notMem_empty x), fun t x hx => absurd hx (by simp [init, Pc.grip]),
    fun t x hx => absurd hx (by simp [init, Pc.grip]), fun t x hx => absurd hx (by simp [init, Pc.grip])⟩

section Step

variable {issued : List Handle} {c : State Name Key} {t : Nat} {replied : Option Handle} {g' : Grip}

section

variable (hi : HandlesInv issued c) (hg : GripStep C c.shared.notifications replied (c.loc t).grip g' s)

include hi hg

/-- Every handle the goroutine holds after its step has been issued. -/
theorem HandlesInv.issued_own
    (hx : x ∈ g'.bound ∨ x ∈ g'.loose) : x ∈ issued ∨ replied = some x ∧ g'.hand = none := by
  rcases hx with hx | hx
  · rcases hg.bound x hx with hb | hh
    · exact .inl (hi.bound t x hb)
    · exact .inl (hi.hand t x hh).1
  rcases hg.loose x hx with hl | ⟨hh, -⟩ | ⟨hr, hn, -⟩ | ⟨hb | ha, -⟩
  · exact .inl (hi.loose t x hl).1
  · exact .inl (hi.hand t x hh).1
  · exact .inr ⟨hr, hn⟩
  · exact .inl (hi.bound t x hb)
  · exact .inl (hi.active x ha)

/-- A handle in another goroutine's hand does not come into this goroutine's hands. -/
theorem HandlesInv.hand_other (hfresh : ∀ x, replied = some x → x ∉ issued) {u} (hu : u ≠ t)
    (hx : (c.loc u).grip.hand = some x) : x ∉ g'.bound ∧ x ∉ g'.loose ∧ g'.hand ≠ some x := by
  obtain ⟨hiss, hact, hocc⟩ := hi.hand u x hx
  obtain ⟨hbt, hlt, hht⟩ := hocc t
  have hht : (c.loc t).grip.hand ≠ some x := fun h => hu (hht h).symm
  refine ⟨fun hb => ?_, fun hl => ?_, fun hh => hfresh x (hg.hand x hh) hiss⟩
  · exact (hg.bound x hb).elim hbt hht
  rcases hg.loose x hl with hl | ⟨hh, -⟩ | ⟨hr, -⟩ | ⟨hb | ha, -⟩
  · exact hlt hl
  · exact hht hh
  · exact hfresh x hr hiss
  · exact hbt hb
  · exact hact ha

end

/-- What the goroutine leaves loose is not bound after its section. -/
theorem HandlesInv.loose_own (hC : C.Agree) (hl : c.shared.notifications.Lockstep C)
    (hi : HandlesInv issued c) (hg : GripStep C c.shared.notifications replied (c.loc t).grip g' s)
    (hfresh : ∀ x, replied = some x → x ∉ issued) (hx : x ∈ g'.loose) :
    x ∉ (s.run C c.shared.notifications).activeNotifications := by
  rcases hg.loose x hx with hlo | ⟨hh, rfl⟩ | ⟨hr, -, rfl⟩ | ⟨-, hn⟩
  · intro hmem
    rcases Section.mem_run hC hl hmem with hm | ⟨cfg, fresh, ch, hs⟩
    · exact (hi.loose t x hlo).2 hm
    · exact ((hi.hand t x (hg.binds _ _ _ _ hs)).2.2 t).2.1 hlo
  · exact (hi.hand t x hh).2.1
  · exact fun hm => hfresh x hr (hi.active x hm)
  · exact hn

end Step

/-- **One step** keeps the invariant, when the PLC gives out a handle it has not given out before. -/
theorem handlesInv_step (hC : C.Agree) {issued c c' t a} (hl : c.shared.notifications.Lockstep C)
    (hi : HandlesInv issued c)
    (hfresh : ∀ x, a.replied = some x → x ∉ issued) (hs : step C c (t, a) = some c') :
    HandlesInv (a.replied.toList ++ issued) c' := by
  obtain ⟨pc', e, hp, -, rfl⟩ := step_cases hs
  have hg := hp.grip
  have hold : ∀ {x}, x ∈ issued → x ∈ a.replied.toList ++ issued := mem_append_right _
  have hnew : ∀ {x}, a.replied = some x → x ∈ a.replied.toList ++ issued := by
    intro x hx
    exact mem_append_left _ (Option.mem_toList.2 hx)
  -- a handle bound now was bound before, or it was in `t`'s hand
  have hact : ∀ x ∈ (e.run C c.shared).notifications.activeNotifications,
      x ∈ c.shared.notifications.activeNotifications ∨ (c.loc t).grip.hand = some x := by
    intro x hx
    rw [Effect.run_notifications] at hx
    refine (Section.mem_run hC hl hx).imp_right ?_
    rintro ⟨cfg, fresh, ch, hbind⟩
    exact hg.binds _ _ _ _ hbind
  have hown : ∀ {x}, x ∈ pc'.grip.bound ∨ x ∈ pc'.grip.loose → x ∈ a.replied.toList ++ issued :=
    fun hx => (hi.issued_own hg hx).elim hold fun h => hnew h.1
  refine ⟨fun x hx => ?_, fun u x hx => ?_, fun u x hx => ?_, fun u x hx => ?_⟩
  · exact (hact x hx).elim (fun h => hold (hi.active x h)) fun h => hold (hi.hand t x h).1
  · by_cases hu : u = t
    · subst hu
      rw [loc_self] at hx
      exact hown (.inl hx)
    · rw [loc_of_ne hu] at hx
      exact hold (hi.bound u x hx)
  · by_cases hu : u = t
    · subst hu
      rw [loc_self] at hx
      refine ⟨hown (.inr hx), ?_⟩
      rw [Effect.run_notifications]
      exact hi.loose_own hC hl hg hfresh hx
    rw [loc_of_ne hu] at hx
    refine ⟨hold (hi.loose u x hx).1, fun hmem => ?_⟩
    rcases hact x hmem with hm | hh
    · exact (hi.loose u x hx).2 hm
    · exact ((hi.hand t x hh).2.2 u).2.1 hx
  · by_cases hu : u = t
    · -- a handle comes into hand only with a reply, and replies are new
      subst hu
      rw [loc_self] at hx
      have hr := hg.hand x hx
      have hnot : x ∉ issued := hfresh x hr
      refine ⟨hnew hr, fun hmem => ?_, fun v => ?_⟩
      · exact hnot ((hact x hmem).elim (hi.active x) fun h => (hi.hand u x h).1)
      by_cases hv : v = u
      · subst hv
        rw [loc_self]
        have hno : ¬ (x ∈ pc'.grip.bound ∨ x ∈ pc'.grip.loose) := by
          intro hmem
          rcases hi.issued_own hg hmem with h | ⟨-, h⟩
          · exact hnot h
          · rw [h] at hx
            cases hx
        exact ⟨fun h => hno (.inl h), fun h => hno (.inr h), fun _ => rfl⟩
      · rw [loc_of_ne hv]
        exact ⟨fun h => hnot (hi.bound v x h), fun h => hnot (hi.loose v x h).1,
          fun h => absurd (hi.hand v x h).1 hnot⟩
    · rw [loc_of_ne hu] at hx
      obtain ⟨hiss, hnact, hocc⟩ := hi.hand u x hx
      refine ⟨hold hiss, fun hmem => ?_, fun v => ?_⟩
      · rcases hact x hmem with hm | hh
        · exact hnact hm
        · exact hu ((hocc t).2.2 hh).symm
      by_cases hv : v = t
      · subst hv
        rw [loc_self]
        obtain ⟨hb, hlo, hh⟩ := hi.hand_other hg hfresh hu hx
        exact ⟨hb, hlo, fun h => absurd h hh⟩
      · rw [loc_of_ne hv]
        exact hocc v

end GoAds.Notification
