import GoAds.Session.Close

/-!
# `Session.Terminal` — which handles `Close` leaves on the PLC

`Close` deletes what is bound when it takes the map.  A handle that is not bound at that moment belongs to
the goroutine that registered it, and that goroutine does not look at the state of the session again: it
commits after the take, or its own delete comes when the socket is closed.  When no goroutine has an Add out
or a handle in its hands at the take, and none sends one from then on, every handle gets its delete.
-/

namespace GoAds.Session.Close

open Interleaving List Conf

/-! ## What a goroutine holds -/

/-- The handles that the call in progress leaves to its caller. -/
def After.holds : After → List Handle
  | .commit h => [h]
  | .settle b _ => b.refused
  | .done | .returned _ _ _ | .triaged _ _ | .resubscribe | .cancel => []

/-- The handles a goroutine has still to bind or to delete. -/
def Pc.holds : Pc → List Handle
  | .added h | .commit h => [h]
  | .batch b | .batchOut b | .settle b _ => b.refused
  | .batchAdded hs b | .bind hs b => hs ++ b.refused
  | .beat k | .beatOut k => k.holds
  | .beatAdded h k | .beatCheck h k | .beatStore h k => h :: k.holds
  | .free hs k => hs ++ k.holds
  | .recoverBeat hs | .takeBeat hs => hs
  | .idle | .add | .recover | .resubscribe | .rollback _ | .mark | .take | .cancel | .closeSocket
  | .wait | .closed => []

def After.busy : After → Bool
  | .commit _ => true
  | .done | .settle _ _ | .returned _ _ _ | .triaged _ _ | .resubscribe | .cancel => false

/-- A goroutine that has an Add out, or a handle that is not bound yet, or that is about to take the map
    itself. -/
def Pc.busy : Pc → Bool
  | .add | .added _ | .commit _ | .batchOut _ | .batchAdded _ _ | .beatOut _ | .beatAdded _ _
  | .beatCheck _ _ | .beatStore _ _ | .recover | .recoverBeat _ => true
  | .bind hs _ => !hs.isEmpty
  | .beat k | .free _ k => k.busy
  | .idle | .batch _ | .settle _ _ | .resubscribe | .rollback _ | .mark | .take | .takeBeat _ | .cancel
  | .closeSocket | .wait | .closed => false

def After.past : After → Bool
  | .cancel => true
  | .done | .commit _ | .settle _ _ | .returned _ _ _ | .triaged _ _ | .resubscribe => false

/-- `Close` has taken the map. -/
def Pc.past : Pc → Bool
  | .takeBeat _ | .cancel | .closeSocket | .wait | .closed => true
  | .beat k | .beatOut k | .beatAdded _ k | .beatCheck _ k | .beatStore _ k | .free _ k => k.past
  | .idle | .add | .added _ | .commit _ | .batch _ | .batchOut _ | .batchAdded _ _ | .bind _ _
  | .settle _ _ | .recover | .recoverBeat _ | .resubscribe | .rollback _ | .mark | .take => false

def Pc.closing (pc : Pc) : Bool := pc.past || decide (pc = .mark) || decide (pc = .take)

variable (k : After)

theorem After.holds_pc : k.holds ⊆ k.pc.holds := by
  cases k with
  | commit h | settle b err => exact Subset.refl _
  | done | returned pre orphans err | triaged pre err | resubscribe | cancel => exact nil_subset _

@[simp] theorem After.busy_pc : k.pc.busy = k.busy := by
  rcases k with _ | _ | _ | ⟨_ | pre, _, _⟩ | ⟨_, _ | _⟩ | _ | _ <;> rfl

@[simp] theorem After.past_pc : k.pc.past = k.past := by
  rcases k with _ | _ | _ | ⟨_ | pre, _, _⟩ | ⟨_, _ | _⟩ | _ | _ <;> rfl

theorem After.pc_ne : k.pc ≠ .mark ∧ k.pc ≠ .take := by
  rcases k with _ | _ | _ | ⟨_ | pre, _, _⟩ | ⟨_, _ | _⟩ | _ | _ <;> simp [After.pc]

theorem Pc.closing_eq {pc : Pc} (h : pc ≠ .mark ∧ pc ≠ .take) : pc.closing = pc.past := by
  simp [Pc.closing, h.1, h.2]

/-- Inside a call, and not where `Close` marks the session or takes the map. -/
def Pc.midway : Pc → Bool
  | .idle | .mark | .take | .takeBeat _ => false
  | _ => true

theorem Pc.ne_of_midway {pc : Pc} (h : pc.midway = true) :
    (pc ≠ .idle ∧ ∀ hs, pc ≠ .takeBeat hs) ∧ pc ≠ .mark ∧ pc ≠ .take := by
  refine ⟨⟨?_, ?_⟩, ?_, ?_⟩
  · rintro rfl
    cases h
  · rintro hs rfl
    cases h
  · rintro rfl
    cases h
  · rintro rfl
    cases h

/-! ## What a step can be -/

/-- The steps that put an Add out. -/
def Act.opens : Act → Bool
  | .addSymbolNotification | .request => true
  | _ => false

/-- The fields that most steps leave alone. -/
structure Same (sh sh' : Shared) : Prop where
  closedCh : sh'.closedCh = sh.closedCh
  active : sh'.active = sh.active
  beat : sh'.heartbeatHandle = sh.heartbeatHandle
  taken : sh'.taken = sh.taken
  undeleted : sh'.undeleted = sh.undeleted
  moved : sh'.moved = sh.moved

theorem Same.rfl {sh} : Same sh sh := ⟨.refl _, .refl _, .refl _, .refl _, .refl _, .refl _⟩

theorem same_startHeartbeatWatch (sh : Shared) : Same sh sh.startHeartbeatWatch := by
  unfold Shared.startHeartbeatWatch
  split
  · exact .rfl
  · exact ⟨.refl _, .refl _, .refl _, .refl _, .refl _, .refl _⟩

/-- Where a goroutine may go. -/
structure Goes (t : Party) (sh : Shared) (a : Act) (pc pc' : Pc) : Prop where
  role : pc = .idle → t ≠ .closer
  taking : (∀ hs, pc ≠ .takeBeat hs) ∧ pc' ≠ .take
  busy : pc.busy = false → pc'.busy = true → a.opens = true ∨ sh.closedCh = false
  past : pc'.past = pc.past
  closing : pc'.closing = pc.closing

/-- **The steps of a goroutine**, by what happens to the handles. -/
inductive Move (t : Party) (sh : Shared) (a : Act) (pc pc' : Pc) : Shared → Prop
  | calm (sh' : Shared) (same : Same sh sh') (goes : Goes t sh a pc pc')
      (holds : pc.holds ⊆ pc'.holds) : Move t sh a pc pc' sh'
  /-- The PLC registers handles. -/
  | register (hs : List Handle) (goes : Goes t sh a pc pc') (busy : pc.busy = true) (h0 : 0 ∉ hs)
      (holds : hs ++ pc.holds ⊆ pc'.holds) : Move t sh a pc pc' (sh.register hs)
  | bind (h : Handle) (goes : Goes t sh a pc pc') (busy : pc.busy = true)
      (holds : pc.holds ⊆ h :: pc'.holds) : Move t sh a pc pc' { sh with active := h :: sh.active }
  /-- A handle becomes the heartbeat's. -/
  | store (h : Handle) (sh' : Shared) (same : Same { sh with heartbeatHandle := h } sh')
      (goes : Goes t sh a pc pc') (busy : pc.busy = true) (free : sh.heartbeatHandle = 0)
      (holds : pc.holds ⊆ h :: pc'.holds) : Move t sh a pc pc' sh'
  | delete (hs : List Handle) (goes : Goes t sh a pc pc') (holds : pc.holds ⊆ hs ++ pc'.holds) :
      Move t sh a pc pc' (sh.delete hs)
  /-- Handles are forgotten. -/
  | drop (sh' : Shared) (ha : a = .lost ∨ a = .giveUp) (same : Same sh sh')
      (goes : Goes t sh a pc pc') : Move t sh a pc pc' sh'
  /-- A recovery takes the map, and then the heartbeat. -/
  | sweep (goes : Goes t sh a pc pc') (busy : pc.busy = true) (holds : pc.holds = [])
      (holds' : pc'.holds = sh.active) : Move t sh a pc pc' { sh with active := [] }
  | sweepBeat (goes : Goes t sh a pc pc') (busy : pc.busy = true) (holds : pc.holds ⊆ pc'.holds)
      (beat : sh.heartbeatHandle ≠ 0 → sh.heartbeatHandle ∈ pc'.holds) :
      Move t sh a pc pc' { sh with heartbeatHandle := 0 }
  | rollback (keep : Handle → Bool) (goes : Goes t sh a pc pc') (holds : pc.holds = [])
      (holds' : pc'.holds = sh.active.filter fun h => !keep h) :
      Move t sh a pc pc' { sh with active := sh.active.filter keep }
  | close (ht : t = .closer) (hpc : pc = .idle) (hpc' : pc' = .mark) :
      Move t sh a pc pc' { sh with closed := true }
  | mark (hpc : pc = .mark) (hpc' : pc' = .take) : Move t sh a pc pc' { sh with closedCh := true }
  | take (ha : a = .next) (hpc : pc = .take) (hpc' : pc' = .takeBeat sh.active) :
      Move t sh a pc pc' { sh with active := [], taken := true }
  | takeBeat (hs : List Handle) (hpc : pc = .takeBeat hs)
      (hpc' : pc' = .free (if sh.heartbeatHandle = 0 then hs else hs ++ [sh.heartbeatHandle]) .cancel) :
      Move t sh a pc pc' { sh with heartbeatHandle := 0 }

section Moves

variable {t : Party} {sh sh' : Shared} {a : Act} {pc pc' : Pc}

/-- A goroutine on its way, which goes on inside its call. -/
theorem Goes.of_midway (hbusy : pc.busy = false → pc'.busy = true → a.opens = true ∨ sh.closedCh = false)
    (hpc : pc.midway = true := by rfl) (hne' : pc' ≠ .mark ∧ pc' ≠ .take := by simp)
    (hpast : pc'.past = pc.past := by simp [Pc.past, After.past]) : Goes t sh a pc pc' where
  role h := absurd h (Pc.ne_of_midway hpc).1.1
  taking := ⟨(Pc.ne_of_midway hpc).1.2, hne'.2⟩
  busy := hbusy
  past := hpast
  closing := by rw [Pc.closing_eq (Pc.ne_of_midway hpc).2, Pc.closing_eq hne', hpast]

/-- One that is busy already, or does not become so. -/
theorem Goes.on (hpc : pc.midway = true := by rfl)
    (hbusy : pc'.busy = true → pc.busy = true := by simp [Pc.busy, After.busy])
    (hne' : pc' ≠ .mark ∧ pc' ≠ .take := by simp)
    (hpast : pc'.past = pc.past := by simp [Pc.past, After.past]) :
    Goes t sh a pc pc' := by
  refine .of_midway ?_ hpc hne' hpast
  intro hfree hbusy'
  rw [hbusy hbusy'] at hfree
  cases hfree

/-- One that goes where `k` says. -/
theorem Goes.after (k : After) (hpc : pc.midway = true := by rfl)
    (hbusy : k.busy = true → pc.busy = true := by simp [Pc.busy]) (hpast : k.past = pc.past := by rfl) :
    Goes t sh a pc k.pc :=
  .on hpc (fun hb => hbusy (k.busy_pc.symm.trans hb)) k.pc_ne (k.past_pc.trans hpast)

/-- A step of a call with which nothing happens to any handle. -/
theorem Move.on (holds : pc.holds ⊆ pc'.holds := by simp [Pc.holds, After.holds])
    (goes : Goes t sh a pc pc' := by exact .on) : Move t sh a pc pc' sh :=
  .calm _ .rfl goes holds

theorem idleAct_moves (h : idleAct t sh a = some (pc', sh')) : Move t sh a .idle pc' sh' := by
  unfold idleAct at h
  split at h
  · split at h <;> cases h
    exact .calm _ .rfl ⟨by simp, by simp, fun _ _ => .inl rfl, rfl, rfl⟩ (nil_subset _)
  · cases h
    exact .calm _ .rfl ⟨by simp, by simp, by simp [Pc.busy], rfl, rfl⟩ (nil_subset _)
  · split at h
    · next hadmit =>
      cases h
      simp only [Bool.and_eq_true, Bool.not_eq_true'] at hadmit
      exact .calm _ .rfl ⟨by simp, by simp, fun _ _ => .inr hadmit.1.2, rfl, rfl⟩ (nil_subset _)
    · cases h
  · split at h <;> cases h
    exact .calm _ .rfl ⟨by simp, by simp, by simp [Pc.busy, After.busy], rfl, rfl⟩ (nil_subset _)
  · split at h <;> cases h
    exact .calm _ ⟨rfl, rfl, rfl, rfl, rfl, rfl⟩ ⟨by simp, by simp, by simp [Pc.busy], rfl, rfl⟩
      (nil_subset _)
  · cases h
    exact .close rfl rfl rfl
  · cases h

theorem add_moves (hpc : pc = .add ∨ ∃ h, pc = .added h ∨ pc = .commit h)
    (h : advance t pc sh a = some (pc', sh')) : Move t sh a pc pc' sh' := by
  obtain rfl | ⟨x, rfl | rfl⟩ := hpc
  · cases a with
    | registers hs =>
      match hs with
      | [x] =>
        simp only [advance] at h
        split at h <;> cases h
        next hsend =>
        have hx : 0 ∉ [x] := by simpa [ne_comm] using (Bool.and_eq_true_iff.1 hsend).2
        exact .register [x] .on rfl hx (Subset.refl _)
      | [] => cases h
      | _ :: _ :: _ => cases h
    | fail =>
      cases h
      exact .on
    | _ => cases h
  · cases a with
    | next =>
      cases h
      exact .on
    | lost =>
      cases h
      exact .drop _ (.inl rfl) .rfl .on
    | _ => cases h
  cases a with
  | commit ok =>
    cases ok with
    | true =>
      cases h
      exact .bind x .on rfl (by simp [Pc.holds])
    | false =>
      cases h
      exact .on
  | _ => cases h

/-- `AddSymbolNotifications`. -/
theorem batch_moves (hpc : ∃ b, pc = .batch b ∨ pc = .batchOut b ∨ (∃ err, pc = .settle b err) ∨
    ∃ hs, pc = .batchAdded hs b ∨ pc = .bind hs b) (h : advance t pc sh a = some (pc', sh')) :
    Move t sh a pc pc' sh' := by
  obtain ⟨b, rfl | rfl | ⟨err, rfl⟩ | ⟨hs, rfl | rfl⟩⟩ := hpc
  · cases a with
    | request =>
      simp only [advance] at h
      split at h <;> cases h
      exact .calm _ .rfl (.of_midway fun _ _ => .inl rfl) (Subset.refl _)
    | finish err =>
      simp only [advance] at h
      cases h
      split
      · exact .on
      · exact .on
    | _ => cases h
  · cases a with
    | registers hs =>
      simp only [advance] at h
      split at h <;> cases h
      next hsend =>
      refine .register hs .on rfl ?_ ?_
      · simpa using (Bool.and_eq_true_iff.1 hsend).2
      · exact Subset.refl _
    | fail =>
      cases h
      exact .on
    | _ => cases h
  · cases a <;> cases h
    refine .on ?_
    intro x hx
    exact mem_append_left _ (mem_append_left _ hx)
  · cases a with
    | next =>
      cases h
      exact .on
    | lost =>
      cases h
      exact .drop _ (.inl rfl) .rfl .on
    | _ => cases h
  cases hs with
  | nil =>
    cases a <;> cases h
    exact .on
  | cons x hs =>
    cases a with
    | commit ok =>
      cases ok with
      | true =>
        cases h
        exact .bind x .on rfl (Subset.refl _)
      | false =>
        cases h
        refine .on ?_
        intro y hy
        simp only [Pc.holds, cons_append, mem_cons, mem_append] at hy ⊢
        tauto
    | _ => cases h

/-- `establishHeartbeat`. -/
theorem beat_moves (hpc : ∃ k, pc = .beat k ∨ pc = .beatOut k ∨
    ∃ h, pc = .beatAdded h k ∨ pc = .beatCheck h k ∨ pc = .beatStore h k)
    (h : advance t pc sh a = some (pc', sh')) : Move t sh a pc pc' sh' := by
  obtain ⟨k, rfl | rfl | ⟨x, rfl | rfl | rfl⟩⟩ := hpc
  · cases a with
    | request =>
      simp only [advance] at h
      split at h <;> cases h
      exact .calm _ .rfl (.of_midway fun _ _ => .inl rfl) (Subset.refl _)
    | skip =>
      cases h
      exact .on k.holds_pc (.after k)
    | _ => cases h
  · cases a with
    | registers hs =>
      match hs with
      | [x] =>
        simp only [advance] at h
        split at h <;> cases h
        next hsend =>
        have hx : 0 ∉ [x] := by simpa [ne_comm] using (Bool.and_eq_true_iff.1 hsend).2
        exact .register [x] .on rfl hx (Subset.refl _)
      | [] => cases h
      | _ :: _ :: _ => cases h
    | fail =>
      cases h
      exact .calm _ (same_startHeartbeatWatch sh) (.after k) k.holds_pc
    | _ => cases h
  · cases a with
    | next =>
      cases h
      exact .on
    | lost =>
      cases h
      exact .drop _ (.inl rfl) (same_startHeartbeatWatch sh) (.after k)
    | _ => cases h
  · cases a with
    | next =>
      simp only [advance] at h
      split at h <;> cases h
      · exact .calm _ (same_startHeartbeatWatch sh) .on (Subset.refl _)
      · exact .on
    | _ => cases h
  cases a with
  | next =>
    simp only [advance] at h
    split at h <;> cases h
    · next hfree =>
      exact .store x _ (same_startHeartbeatWatch _) (.after k) rfl hfree
        (cons_subset_cons x k.holds_pc)
    · exact .on
  | _ => cases h

theorem free_moves {hs k} (h : advance t (.free hs k) sh a = some (pc', sh')) :
    Move t sh a (.free hs k) pc' sh' := by
  cases hs with
  | nil =>
    cases a <;> cases h
    exact .on k.holds_pc (.after k)
  | cons x hs =>
    cases a with
    | delete =>
      simp only [advance] at h
      split at h <;> cases h
      exact .delete [x] .on (Subset.refl _)
    | deleteAll =>
      simp only [advance] at h
      split at h <;> cases h
      exact .delete (x :: hs) .on (Subset.refl _)
    | giveUp =>
      cases h
      exact .drop _ (.inr rfl) .rfl .on
    | _ => cases h

/-- `recoverDeadSubscriptions`, around its re-subscribe. -/
theorem recover_moves (hpc : pc = .recover ∨ pc = .resubscribe ∨
    (∃ hs, pc = .recoverBeat hs) ∨ ∃ pre, pc = .rollback pre)
    (h : advance t pc sh a = some (pc', sh')) : Move t sh a pc pc' sh' := by
  obtain rfl | rfl | ⟨hs, rfl⟩ | ⟨pre, rfl⟩ := hpc
  · cases a <;> cases h
    exact .sweep .on rfl rfl rfl
  · cases a with
    | next | skip =>
      cases h
      exact .on
    | _ => cases h
  · cases a <;> cases h
    refine .sweepBeat .on rfl ?_ ?_
    · show hs ⊆ (if sh.heartbeatHandle = 0 then hs else hs ++ [sh.heartbeatHandle]) ++ []
      split <;> simp
    intro h0
    show _ ∈ (if sh.heartbeatHandle = 0 then hs else hs ++ [sh.heartbeatHandle]) ++ []
    simp [h0]
  cases a <;> cases h
  refine .rollback (fun x => decide (x ∈ pre)) .on rfl ?_
  simp [Pc.holds, After.holds]

/-- `Close`. -/
theorem close_moves (hpc : pc = .mark ∨ pc = .take ∨ (∃ hs, pc = .takeBeat hs) ∨ pc = .cancel ∨
    pc = .closeSocket ∨ pc = .wait ∨ pc = .closed) (h : advance t pc sh a = some (pc', sh')) :
    Move t sh a pc pc' sh' := by
  obtain rfl | rfl | ⟨hs, rfl⟩ | rfl | rfl | rfl | rfl := hpc
  · cases a <;> cases h
    exact .mark rfl rfl
  · cases a <;> cases h
    exact .take rfl rfl rfl
  · cases a <;> cases h
    exact .takeBeat hs rfl rfl
  · cases a <;> cases h
    exact .calm _ ⟨rfl, rfl, rfl, rfl, rfl, rfl⟩ .on (Subset.refl _)
  · cases a <;> cases h
    exact .calm _ ⟨rfl, rfl, rfl, rfl, rfl, rfl⟩ .on (Subset.refl _)
  · cases a with
    | next =>
      simp only [advance] at h
      split at h <;> cases h
      exact .on
    | _ => cases h
  · cases h

theorem advance_moves (h : advance t pc sh a = some (pc', sh')) : Move t sh a pc pc' sh' := by
  cases pc with
  | idle => exact idleAct_moves h
  | add | added | commit => exact add_moves (by simp) h
  | batch | batchOut | settle | batchAdded | bind => exact batch_moves (by simp) h
  | beat | beatOut | beatAdded | beatCheck | beatStore => exact beat_moves (by simp) h
  | free => exact free_moves h
  | recover | resubscribe | recoverBeat | rollback => exact recover_moves (by simp) h
  | mark | take | takeBeat | cancel | closeSocket | wait | closed => exact close_moves (by simp) h

end Moves

/-! ## The handles, one step -/

/-- Somebody will see to the handle: it is bound, it is the heartbeat's, or the goroutine at `pc` has it. -/
def Owned (sh : Shared) (pc : Pc) (h : Handle) : Prop :=
  h ∈ sh.active ∨ h = sh.heartbeatHandle ∨ h ∈ pc.holds

section Steps

variable {t : Party} {sh sh' : Shared} {a : Act} {pc pc' : Pc}

section

variable (hm : Move t sh a pc pc' sh')

include hm

/-- **No handle gets lost in a step**, if its reply arrives and its delete is sent. -/
theorem Move.owned (ha : a ≠ .lost ∧ a ≠ .giveUp) {h}
    (h0 : h ≠ 0) (hu : h ∈ sh'.undeleted) (hold : h ∈ sh.undeleted → Owned sh pc h) : Owned sh' pc' h := by
  cases hm with
  | calm sh' same goes holds =>
    rw [same.undeleted] at hu
    unfold Owned
    rw [same.active, same.beat]
    exact (hold hu).imp_right (Or.imp_right fun hh => holds hh)
  | register hs goes busy hz holds =>
    rcases mem_append.1 hu with hnew | hu
    · exact .inr (.inr (holds (mem_append_left _ hnew)))
    · exact (hold hu).imp_right (Or.imp_right fun hh => holds (mem_append_right _ hh))
  | bind x goes busy holds =>
    rcases hold hu with hact | hb | hh
    · exact .inl (mem_cons_of_mem _ hact)
    · exact .inr (.inl hb)
    rcases mem_cons.1 (holds hh) with rfl | hh
    · exact .inl mem_cons_self
    · exact .inr (.inr hh)
  | store x sh' same goes busy free holds =>
    rw [same.undeleted] at hu
    unfold Owned
    rw [same.active, same.beat]
    rcases hold hu with hact | hb | hh
    · exact .inl hact
    · exact absurd (hb.trans free) h0
    rcases mem_cons.1 (holds hh) with rfl | hh
    · exact .inr (.inl rfl)
    · exact .inr (.inr hh)
  | delete hs goes holds =>
    obtain ⟨hu, hn⟩ := mem_filter.1 hu
    rcases hold hu with hact | hb | hh
    · exact .inl (mem_filter.2 ⟨hact, hn⟩)
    · exact .inr (.inl hb)
    rcases mem_append.1 (holds hh) with hh | hh
    · exact absurd hh (of_decide_eq_true hn)
    · exact .inr (.inr hh)
  | drop sh' hd =>
    rcases hd with hd | hd
    · exact absurd hd ha.1
    · exact absurd hd ha.2
  | sweep goes busy holds holds' =>
    rcases hold hu with hact | hb | hh
    · exact .inr (.inr (holds' ▸ hact))
    · exact .inr (.inl hb)
    · rw [holds] at hh
      exact absurd hh not_mem_nil
  | sweepBeat goes busy holds beat =>
    rcases hold hu with hact | hb | hh
    · exact .inl hact
    · exact .inr (.inr (hb ▸ beat (hb ▸ h0)))
    · exact .inr (.inr (holds hh))
  | rollback keep goes holds holds' =>
    rcases hold hu with hact | hb | hh
    · cases hk : keep h with
      | true => exact .inl (mem_filter.2 ⟨hact, hk⟩)
      | false =>
        refine .inr (.inr ?_)
        rw [holds']
        exact mem_filter.2 ⟨hact, by rw [hk]; rfl⟩
    · exact .inr (.inl hb)
    · rw [holds] at hh
      exact absurd hh not_mem_nil
  | close ht hpc hpc' | mark hpc hpc' =>
    subst hpc hpc'
    exact hold hu
  | take ha hpc hpc' =>
    subst hpc hpc'
    rcases hold hu with hact | hb | hh
    · exact .inr (.inr hact)
    · exact .inr (.inl hb)
    · exact absurd hh not_mem_nil
  | takeBeat hs hpc hpc' =>
    subst hpc hpc'
    rcases hold hu with hact | hb | hh
    · exact .inl hact
    · refine .inr (.inr ?_)
      have hne : sh.heartbeatHandle ≠ 0 := hb ▸ h0
      simp [Pc.holds, After.holds, hne, hb]
    refine .inr (.inr ?_)
    show h ∈ (if sh.heartbeatHandle = 0 then hs else hs ++ [sh.heartbeatHandle]) ++ []
    rw [append_nil]
    split
    · exact hh
    · exact mem_append_left _ hh

theorem Move.nonzero (h : 0 ∉ sh.undeleted) : 0 ∉ sh'.undeleted := by
  cases hm with
  | calm sh' same | store x sh' same | drop sh' hd same =>
    rw [same.undeleted]
    exact h
  | register hs goes busy hz =>
    intro hmem
    exact (mem_append.1 hmem).elim hz h
  | delete =>
    intro hmem
    exact h (mem_filter.1 hmem).1
  | bind | sweep | sweepBeat | rollback | close | mark | take | takeBeat => exact h

/-- The steps that are no step of `Close` as far as the take. -/
theorem Move.goes : Goes t sh a pc pc' ∨ t = .closer ∧ pc = .idle ∧ pc' = .mark ∨
      pc.closing = true ∧ pc'.closing = true ∧ pc'.busy = false ∧ (pc' = .take → sh'.closedCh = true) := by
  cases hm with
  | calm sh' same goes | store x sh' same goes | drop sh' hd same goes
  | register hs goes | bind x goes | delete hs goes | sweep goes | sweepBeat goes | rollback keep goes =>
    exact .inl goes
  | close ht hpc hpc' => exact .inr (.inl ⟨ht, hpc, hpc'⟩)
  | mark hpc hpc' | take ha hpc hpc' | takeBeat hs hpc hpc' =>
    subst hpc hpc'
    exact .inr (.inr ⟨rfl, rfl, rfl, by simp⟩)

/-- Only `Close` takes the map for good. -/
theorem Move.taken : sh'.taken = sh.taken ∧ pc'.past = pc.past ∨
      a = .next ∧ pc = .take ∧ sh'.taken = true ∧ pc' = .takeBeat sh.active ∧ sh'.active = [] := by
  cases hm with
  | calm sh' same goes | drop sh' hd same goes | store x sh' same goes => exact .inl ⟨same.taken, goes.past⟩
  | register hs goes | bind x goes | delete hs goes | sweep goes | sweepBeat goes | rollback keep goes =>
    exact .inl ⟨rfl, goes.past⟩
  | close ht hpc hpc' | mark hpc hpc' | takeBeat hs hpc hpc' =>
    subst hpc hpc'
    exact .inl ⟨rfl, rfl⟩
  | take ha hpc hpc' => exact .inr ⟨ha, hpc, rfl, hpc', rfl⟩

theorem Move.closedCh (h : sh.closedCh = true) : sh'.closedCh = true := by
  cases hm with
  | calm sh' same | store x sh' same | drop sh' hd same => exact same.closedCh.trans h
  | mark => rfl
  | register | bind | delete | sweep | sweepBeat | rollback | close | take | takeBeat => exact h

theorem Move.moved : sh'.moved = sh.moved := by
  cases hm with
  | calm sh' same | store x sh' same | drop sh' hd same => exact same.moved
  | register | bind | delete | sweep | sweepBeat | rollback | close | mark | take | takeBeat => rfl

end

/-- `Close` takes the map after `markClosed`. -/
theorem Move.closedCh_of_take (hm : Move t sh a pc .take sh') : sh'.closedCh = true := by
  rcases hm.goes with goes | ⟨-, -, hpc'⟩ | ⟨-, -, -, hmark⟩
  · exact absurd rfl goes.taking.2
  · cases hpc'
  · exact hmark rfl

/-- A goroutine that is not busy becomes so by a request, or by a recovery that is still admitted. -/
theorem Move.busy (hm : Move t sh a pc pc' sh') (hbusy : pc.busy = false) (hopens : a.opens = false)
    (hclosed : sh.closedCh = true) : pc'.busy = false := by
  rcases hm.goes with goes | ⟨-, -, rfl⟩ | ⟨-, -, hfree, -⟩
  · cases hb : pc'.busy with
    | false => rfl
    | true =>
      rcases goes.busy hbusy hb with ho | hc
      · rw [hopens] at ho
        cases ho
      · rw [hclosed] at hc
        cases hc
  · rfl
  · exact hfree

theorem Move.calm_of_free (hm : Move t sh a pc pc' sh') (hbusy : pc.busy = false)
    (hactive : sh.active = []) : sh'.active = [] ∧ sh'.undeleted ⊆ sh.undeleted ∧
      (sh'.heartbeatHandle = sh.heartbeatHandle ∧ (∀ hs, pc ≠ .takeBeat hs) ∨
        sh'.heartbeatHandle = 0 ∧ pc.closing = true) := by
  cases hm with
  | calm sh' same goes | drop sh' hd same goes =>
    exact ⟨same.active.trans hactive, by rw [same.undeleted]; exact Subset.refl _,
      .inl ⟨same.beat, goes.taking.1⟩⟩
  | register hs goes busy | bind x goes busy | store x sh' same goes busy | sweep goes busy
  | sweepBeat goes busy =>
    rw [busy] at hbusy
    cases hbusy
  | delete hs goes =>
    refine ⟨?_, fun _ hx => (mem_filter.1 hx).1, .inl ⟨rfl, goes.taking.1⟩⟩
    show sh.active.filter _ = []
    rw [hactive]
    rfl
  | rollback keep goes =>
    refine ⟨?_, Subset.refl _, .inl ⟨rfl, goes.taking.1⟩⟩
    show sh.active.filter _ = []
    rw [hactive]
    rfl
  | close ht hpc hpc' | mark hpc hpc' =>
    subst hpc
    exact ⟨hactive, Subset.refl _, .inl ⟨rfl, by simp⟩⟩
  | take ha hpc hpc' =>
    subst hpc
    exact ⟨rfl, Subset.refl _, .inl ⟨rfl, by simp⟩⟩
  | takeBeat hs hpc hpc' =>
    subst hpc
    exact ⟨hactive, Subset.refl _, .inr ⟨rfl, rfl⟩⟩

end Steps

/-! ## Runs -/

/-- Each Add that the PLC carries out gets its reply; deletes are cut short only after `Close` has taken the
    map, and not those of `Close`; when it takes the map no goroutine is busy or holds a handle; and no Add
    is sent from then on. -/
def Quiet (c : State) (x : Party × Act) : Prop :=
  match x.2 with
  | .addSymbolNotification | .request => c.shared.taken = false
  | .lost => False
  | .giveUp => c.shared.taken = true ∧ x.1 ≠ .closer
  | .next => c.loc x.1 = .take →
      ∀ u ∈ c.shared.moved, (c.loc u).busy = false ∧ (c.loc u).holds = []
  | _ => True

instance (c : State) (x : Party × Act) : Decidable (Quiet c x) := by
  unfold Quiet
  split <;> infer_instance

/-- After the take: only `Close` has handles to delete. -/
structure Over (c : State) : Prop where
  active : c.shared.active = []
  beat : c.shared.heartbeatHandle ≠ 0 → ∃ hs, c.loc .closer = .takeBeat hs
  free : ∀ t, (c.loc t).busy = false
  owned : ∀ h ∈ c.shared.undeleted, Owned c.shared (c.loc .closer) h

structure Inv (c : State) : Prop where
  roles : ∀ t, t ≠ .closer → (c.loc t).closing = false
  closer : c.loc .closer = .idle ∨ (c.loc .closer).closing = true
  taken : c.shared.taken = (c.loc .closer).past
  marked : c.loc .closer = .take ∨ c.shared.taken = true → c.shared.closedCh = true
  nonzero : 0 ∉ c.shared.undeleted
  moved : ∀ t, c.loc t ≠ .idle → t ∈ c.shared.moved
  before : c.shared.taken = false → ∀ h ∈ c.shared.undeleted, ∃ t, Owned c.shared (c.loc t) h
  after : c.shared.taken = true → Over c

theorem Inv.init : Inv init where
  roles _ _ := rfl
  closer := .inl rfl
  taken := rfl
  marked h := by
    rcases h with h | h <;> cases h
  nonzero := not_mem_nil
  moved _ h := absurd rfl h
  before _ h hh := absurd hh not_mem_nil
  after h := by cases h

section Runs

variable {c : State} {t : Party} {a : Act} {pc' : Pc} {sh' : Shared}

/-- What a step leaves of the part that says who closes. -/
theorem Inv.closing_step (h : Inv c) (hm : Move t { c.shared with moved := t :: c.shared.moved } a
    (c.loc t) pc' sh') : (t ≠ .closer → pc'.closing = false) ∧ (t = .closer → pc'.closing = true) := by
  have hrole := h.roles t
  have hcloser := h.closer
  constructor
  · intro ht
    rcases hm.goes with goes | ⟨heq, -⟩ | ⟨hc, -⟩
    · exact goes.closing.trans (hrole ht)
    · exact absurd heq ht
    · rw [hrole ht] at hc
      cases hc
  intro ht
  subst ht
  rcases hm.goes with goes | ⟨-, -, rfl⟩ | ⟨-, hc, -⟩
  · exact goes.closing.trans (hcloser.resolve_left fun hi => goes.role hi rfl)
  · rfl
  · exact hc

theorem Inv.still (h : Inv c) {u} (hu : u ∉ c.shared.moved) : c.loc u = .idle := by
  by_contra hne
  exact hu (h.moved u hne)

section Step

variable (h : Inv c)
  (hm : Move t { c.shared with moved := t :: c.shared.moved } a (c.loc t) pc' sh')

include h hm

theorem Inv.taken_step : sh'.taken = c.shared.taken ∧ pc'.past = (c.loc t).past ∨
      t = .closer ∧ a = .next ∧ c.loc t = .take ∧ sh'.taken = true ∧ pc' = .takeBeat c.shared.active ∧
        sh'.active = [] := by
  rcases hm.taken with hsame | ⟨ha, hpc, htaken, hpc', hactive⟩
  · exact .inl hsame
  refine .inr ⟨?_, ha, hpc, htaken, hpc', hactive⟩
  by_contra ht
  have hclosing := h.roles t ht
  rw [hpc] at hclosing
  cases hclosing

theorem Inv.before_step (ha : a ≠ .lost ∧ a ≠ .giveUp) (hbefore : c.shared.taken = false) :
    ∀ x ∈ sh'.undeleted, (∃ u, u ≠ t ∧ x ∈ (c.loc u).holds) ∨ Owned sh' pc' x := by
  intro x hx
  have h0 : x ≠ 0 := fun heq => hm.nonzero h.nonzero (heq ▸ hx)
  by_cases hother : ∃ u, u ≠ t ∧ x ∈ (c.loc u).holds
  · exact .inl hother
  refine .inr (hm.owned ha h0 hx fun hold => ?_)
  obtain ⟨u, hu⟩ := h.before hbefore x hold
  rcases hu with hact | hb | hh
  · exact .inl hact
  · exact .inr (.inl hb)
  by_cases hut : u = t
  · exact .inr (.inr (hut ▸ hh))
  · exact absurd ⟨u, hut, hh⟩ hother

/-- After the take: the other goroutines leave the handles alone, and `Close` loses none. -/
theorem Inv.after_step (hpast : Over c) (htaken : c.shared.taken = true) (hopens : a.opens = false)
    (hlost : a ≠ .lost) (hgive : t = .closer → a ≠ .giveUp) : Over ⟨sh', Function.update c.loc t pc'⟩ := by
  have hclosed : c.shared.closedCh = true := h.marked (.inr htaken)
  obtain ⟨hactive, hsub, hbeat⟩ := hm.calm_of_free (hpast.free t) hpast.active
  refine ⟨hactive, fun hne => ?_, fun u => ?_, fun x hx => ?_⟩
  · by_cases ht : t = .closer
    · subst ht
      rcases hbeat with ⟨hsame, hpc⟩ | ⟨hzero, -⟩
      · obtain ⟨hs, hhs⟩ := hpast.beat (hsame ▸ hne)
        exact absurd hhs (hpc hs)
      · exact absurd hzero hne
    rw [loc_of_ne (Ne.symm ht)]
    apply hpast.beat
    rcases hbeat with ⟨hsame, -⟩ | ⟨-, hclosing⟩
    · exact hsame ▸ hne
    · rw [h.roles t ht] at hclosing
      cases hclosing
  · exact forall_loc (P := fun _ (pc : Pc) => pc.busy = false) (hm.busy (hpast.free t) hopens hclosed)
      (fun u _ => hpast.free u) u
  have h0 : x ≠ 0 := fun heq => hm.nonzero h.nonzero (heq ▸ hx)
  have hold := hpast.owned x (hsub hx)
  by_cases ht : t = .closer
  · subst ht
    rw [loc_self]
    exact hm.owned ⟨hlost, hgive rfl⟩ h0 hx fun _ => hold
  rw [loc_of_ne (Ne.symm ht)]
  rcases hold with hact | hb | hh
  · rw [hpast.active] at hact
    exact absurd hact not_mem_nil
  · rcases hbeat with ⟨hsame, -⟩ | ⟨-, hclosing⟩
    · exact .inr (.inl (hb.trans hsame.symm))
    · rw [h.roles t ht] at hclosing
      cases hclosing
  · exact .inr (.inr hh)

theorem Inv.take_step (ht : t = .closer) (hpc : c.loc t = .take) (hpc' : pc' = .takeBeat c.shared.active)
    (hactive : sh'.active = []) (ha : a ≠ .lost ∧ a ≠ .giveUp)
    (hquiet : ∀ u ∈ c.shared.moved, (c.loc u).busy = false ∧ (c.loc u).holds = []) :
    Over ⟨sh', Function.update c.loc t pc'⟩ := by
  have hall : ∀ u, (c.loc u).busy = false ∧ (c.loc u).holds = [] := by
    intro u
    by_cases hu : u ∈ c.shared.moved
    · exact hquiet u hu
    · rw [h.still hu]
      exact ⟨rfl, rfl⟩
  have hbefore : c.shared.taken = false := by
    rw [h.taken, ← ht, hpc]
    rfl
  subst ht
  refine ⟨hactive, fun _ => ⟨_, (loc_self ..).trans hpc'⟩, fun u => ?_, fun x hx => ?_⟩
  · exact forall_loc (P := fun _ (pc : Pc) => pc.busy = false) (by rw [hpc']; rfl) (fun u _ => (hall u).1) u
  rw [loc_self]
  rcases h.before_step hm ha hbefore x hx with ⟨u, -, hh⟩ | hown
  · rw [(hall u).2] at hh
    exact absurd hh not_mem_nil
  · exact hown

end Step

theorem Inv.step {c' x} (h : Inv c) (hq : Quiet c x)
    (hs : step c x = some c') : Inv c' := by
  obtain ⟨t, a⟩ := x
  obtain ⟨pc', sh', hact, rfl⟩ := exec_eq_some.1 hs
  have hm := advance_moves hact
  obtain ⟨hrole, hcloser⟩ := h.closing_step hm
  have htaken := h.taken_step hm
  have hlost : a ≠ .lost := by
    rintro rfl
    exact hq
  refine ⟨fun u hu => ?_, ?_, ?_, fun hmark => ?_, hm.nonzero h.nonzero, fun u hu => ?_,
    fun hb x hx => ?_, fun ho => ?_⟩
  · exact forall_loc (P := fun u (pc : Pc) => u ≠ .closer → pc.closing = false) hrole
      (fun u _ => h.roles u) u hu
  · by_cases ht : t = .closer
    · subst ht
      rw [loc_self]
      exact .inr (hcloser rfl)
    · rw [loc_of_ne (Ne.symm ht)]
      exact h.closer
  · by_cases ht : t = .closer
    · subst ht
      rw [loc_self]
      rcases htaken with ⟨hsame, hpast⟩ | ⟨-, -, -, htrue, hpc', -⟩
      · exact (hsame.trans h.taken).trans hpast.symm
      · rw [hpc']
        exact htrue
    rw [loc_of_ne (Ne.symm ht)]
    rcases htaken with ⟨hsame, -⟩ | ⟨heq, -⟩
    · exact hsame.trans h.taken
    · exact absurd heq ht
  · -- `closedCh` is closed before the take
    by_cases ht : t = .closer
    · subst ht
      rw [loc_self] at hmark
      rcases hmark with rfl | htrue
      · exact hm.closedCh_of_take
      rcases htaken with ⟨hsame, -⟩ | ⟨-, -, hpc, -⟩
      · exact hm.closedCh (h.marked (.inr (hsame ▸ htrue)))
      · exact hm.closedCh (h.marked (.inl hpc))
    rw [loc_of_ne (Ne.symm ht)] at hmark
    rcases htaken with ⟨hsame, -⟩ | ⟨heq, -⟩
    · exact hm.closedCh (h.marked (hmark.imp_right fun htrue => hsame ▸ htrue))
    · exact absurd heq ht
  · show u ∈ sh'.moved
    rw [hm.moved]
    by_cases hut : u = t
    · subst hut
      exact mem_cons_self
    · rw [loc_of_ne hut] at hu
      exact mem_cons_of_mem t (h.moved u hu)
  · have hbefore : c.shared.taken = false := by
      rcases htaken with ⟨hsame, -⟩ | ⟨-, -, -, htrue, -⟩
      · exact hsame ▸ hb
      · rw [htrue] at hb
        cases hb
    have hgive : a ≠ .giveUp := by
      rintro rfl
      rw [hq.1] at hbefore
      cases hbefore
    rcases h.before_step hm ⟨hlost, hgive⟩ hbefore x hx with ⟨u, hut, hh⟩ | hown
    · refine ⟨u, .inr (.inr ?_)⟩
      rw [loc_of_ne hut]
      exact hh
    refine ⟨t, ?_⟩
    rw [loc_self]
    exact hown
  · rcases htaken with ⟨hsame, -⟩ | ⟨ht, rfl, hpc, -, hpc', hactive⟩
    · have hold : c.shared.taken = true := hsame ▸ ho
      refine h.after_step hm (h.after hold) hold ?_ hlost fun ht => ?_
      · cases ha : a.opens with
        | false => rfl
        | true =>
          have hfalse : c.shared.taken = false := by
            cases a <;> first | exact hq | cases ha
          rw [hold] at hfalse
          cases hfalse
      · rintro rfl
        exact hq.2 ht
    · exact h.take_step hm ht hpc hpc' hactive ⟨by simp, by simp⟩ (hq hpc)

theorem inv_of_run (hrun : Run step Quiet init c) : Inv c :=
  hrun.invariant (P := Inv) .init fun _ _ _ hi hq hs => hi.step hq hs

end Runs

/-- **Close is terminal for notification handles**, when it takes the map at a moment at which nobody has an
    Add out or an unbound handle, and no Add is sent later: when it returns, a delete was sent for every
    handle the PLC has registered. -/
theorem close_terminal {c : State} (hrun : Run step Quiet init c) (hret : c.loc .closer = .closed) :
    c.shared.undeleted = [] := by
  have hinv := inv_of_run hrun
  have htaken : c.shared.taken = true := by
    rw [hinv.taken, hret]
    rfl
  have hpast := hinv.after htaken
  apply eq_nil_iff_forall_not_mem.2
  intro x hx
  rcases hpast.owned x hx with hact | hb | hh
  · rw [hpast.active] at hact
    exact not_mem_nil hact
  · have hne : c.shared.heartbeatHandle ≠ 0 := fun hz => hinv.nonzero ((hb.trans hz) ▸ hx)
    obtain ⟨hs, hpc⟩ := hpast.beat hne
    rw [hret] at hpc
    cases hpc
  · rw [hret] at hh
    exact not_mem_nil hh

/-- `Close` from its beginning to the return, when it has handles to delete. -/
def closeAll : List (Party × Act) :=
  [(.closer, .close), (.closer, .next), (.closer, .next), (.closer, .next), (.closer, .deleteAll),
   (.closer, .next), (.closer, .next), (.closer, .next), (.watcher, .exit), (.closer, .next)]

/-- A subscribe with its heartbeat, and then `Close`. -/
theorem close_terminal_subscribed :
    ∃ c, Run step Quiet init c ∧ c.loc .closer = .closed ∧ c.shared.undeleted = [] := by
  obtain ⟨c, hrun, hret⟩ := exists_run step Quiet init (fun c => c.loc .closer = .closed)
    ([(.caller 0, .addSymbolNotification), (.caller 0, .registers [7]), (.caller 0, .next),
      (.caller 0, .request), (.caller 0, .registers [8]), (.caller 0, .next), (.caller 0, .next),
      (.caller 0, .next), (.caller 0, .commit true)] ++ closeAll) (by decide +kernel)
  exact ⟨c, hrun, hret, close_terminal hrun hret⟩

/-- The PLC has registered the handle when `Close` takes the map, and the commit comes after it: the handle
    is bound on a closed session, and nobody deletes it. -/
theorem close_leaves_handle :
    ¬ ∀ c, Run step anyStep init c → c.loc .closer = .closed → c.shared.undeleted = [] := by
  intro hall
  exact not_forall_run [(.caller 0, .addSymbolNotification), (.caller 0, .registers [7]), (.closer, .close),
      (.closer, .next), (.closer, .next), (.closer, .next), (.closer, .next), (.caller 0, .next),
      (.caller 0, .skip), (.caller 0, .commit true), (.closer, .next), (.closer, .next),
      (.closer, .next)] (by decide +kernel) hall

end GoAds.Session.Close
