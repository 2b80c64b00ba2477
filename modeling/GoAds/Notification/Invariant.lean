import GoAds.Notification.Sections
import GoAds.Notification.System

/-!
# `Notification.Invariant` — what holds in every state of every run

* the configs on file and their key index are in lockstep,
* at most one goroutine is inside a re-subscribe, and it holds `resubscribeMu`,
* the lists a re-subscribe carries from section to section belong together: what it saved has one
  entry per symbol, what it found valid is part of that, and its batch is about the valid entries.

The first needs the two comparisons of names to agree; nothing here restricts the runs.
-/

namespace GoAds.Notification

open Interleaving List

variable {Name Key : Type}

/-! ## A batch keeps its configs -/

/-- The configs of a batch, in the order of its results. -/
def configs (slots : List (Slot Name)) : List (NotificationConfig Name) := slots.map (·.config)

theorem configs_report (r : SumNotificationResult) (committed : Bool) (slots : List (Slot Name)) :
    configs (report r committed slots) = configs slots := by
  induction slots with
  | nil => rfl
  | cons s rest ih =>
    unfold report
    split
    · rfl
    · simpa [configs] using ih

theorem configs_abandon (slots : List (Slot Name)) : configs (abandon slots) = configs slots := by
  simp [configs, abandon, Function.comp_def]

theorem configs_settle (b : Batch Name) (m : Manager Name Key) :
    configs (b.settle m).slots = configs b.slots := by
  have hc : ∀ s : Slot Name, (if s.stranded m then
      { s with result := some { handle := s.handle, skipped := some .strandedByReload } }
      else s).config = s.config := by
    intro s
    split <;> rfl
  simp [configs, Batch.settle, Function.comp_def, hc]

variable {e : Effect Name Key} {valid : List (PendingNotification Name)} {slots : List (Slot Name)}
  {res : List SumNotificationResult} {t : Nat} {pc pc' : Pc Name Key} {a : ResubAct Name}
  {p p' : ResubPc Name Key} {s : Section Name} {sh : Shared Name Key}

theorem mem_configs_of_nextConfig {cfg}
    (h : nextConfig slots = some cfg) : cfg ∈ configs slots := by
  induction slots with
  | nil => exact absurd h (by simp [nextConfig])
  | cons s rest ih =>
    unfold nextConfig at h
    split at h
    · cases h
      exact mem_cons_self ..
    · exact mem_cons_of_mem _ (ih h)

/-- A slot after a report is one of before, or the one whose turn it was. -/
theorem mem_report {r committed s} (h : s ∈ report r committed slots) :
    s ∈ slots ∨ nextConfig slots = some s.config ∧ s.result = some r ∧ s.committed = committed := by
  induction slots with
  | nil => exact absurd h (by simp [report])
  | cons x rest ih =>
    unfold report at h
    unfold nextConfig
    split at h
    · next hx =>
      rw [if_pos hx]
      rcases mem_cons.1 h with rfl | h
      · exact .inr ⟨rfl, rfl, rfl⟩
      · exact .inl (mem_cons_of_mem _ h)
    next hx =>
    rw [if_neg hx]
    rcases mem_cons.1 h with rfl | h
    · exact .inl (mem_cons_self ..)
    · exact (ih h).imp_left (mem_cons_of_mem _)

theorem exists_waiting {cfg}
    (h : nextConfig slots = some cfg) : ∃ s ∈ slots, s.result = none ∧ s.config = cfg := by
  induction slots with
  | nil => exact absurd h (by simp [nextConfig])
  | cons x rest ih =>
    unfold nextConfig at h
    split at h
    · next hx => exact ⟨x, mem_cons_self .., by simpa using hx, Option.some.inj h⟩
    · obtain ⟨s, hs, h'⟩ := ih h
      exact ⟨s, mem_cons_of_mem _ hs, h'⟩

theorem result_ne_none (h : nextConfig slots = none) {s} (hs : s ∈ slots) : s.result ≠ none := by
  induction slots with
  | nil => exact absurd hs (by simp)
  | cons x rest ih =>
    unfold nextConfig at h
    split at h
    · cases h
    next hx =>
    rcases mem_cons.1 hs with rfl | hs
    · simpa using hx
    · exact ih h hs

theorem exists_slot_of_mem_zip (hc : configs slots = valid.map (·.config)) {p r}
    (hz : (p, r) ∈ valid.zip (results slots)) :
    ∃ s ∈ slots, s.config = p.config ∧ s.result.getD {} = r := by
  induction valid generalizing slots with
  | nil => exact absurd hz (by simp)
  | cons q valid ih =>
    cases slots with
    | nil => exact absurd hz (by simp [results])
    | cons s =>
      simp only [configs, map_cons, cons.injEq] at hc
      simp only [results, map_cons, zip_cons_cons, mem_cons, Prod.mk.injEq] at hz
      rcases hz with ⟨rfl, rfl⟩ | hz
      · exact ⟨s, mem_cons_self .., hc.1, rfl⟩
      · obtain ⟨s', hs', h'⟩ := ih hc.2 hz
        exact ⟨s', mem_cons_of_mem _ hs', h'⟩

theorem exists_mem_zip (hlen : res.length = valid.length) {p} (hp : p ∈ valid) :
    ∃ x, (p, x) ∈ valid.zip res := by
  obtain ⟨i, hi, hpi⟩ := mem_iff_getElem.1 hp
  have hi' : i < res.length := hlen ▸ hi
  refine ⟨res[i], mem_iff_getElem.2 ⟨i, by simp [hi, hi'], ?_⟩⟩
  simp [hpi]

theorem length_results (slots : List (Slot Name)) : (results slots).length = (configs slots).length := by
  simp [results, configs]

variable [DecidableEq Key] {C : Casing Name Key}

theorem configs_resolveLoop (existing : Finset Key) (resolves : Name → Bool) (seen : Finset Key)
    (cs : List (NotificationConfig Name)) : configs (resolveLoop C existing resolves seen cs) = cs := by
  induction cs generalizing seen with
  | nil => rfl
  | cons cfg rest ih =>
    unfold resolveLoop
    split
    · simpa [configs] using ih seen
    · simpa [configs] using ih _

/-- The batch at `p` is about the configs `cs`, whatever it has done so far. -/
def BatchPc.For (cs : List (NotificationConfig Name)) : BatchPc Name Key → Prop
  | .check configs _ | .resolve configs _ _ => configs = cs
  | .client b | .send b => configs b.slots = cs
  | .commit b cfg _ _ => configs b.slots = cs ∧ cfg ∈ cs
  | .settle b _ | .release b _ => configs b.slots = cs
  | .returned res err => res.length = cs.length ∨ res = [] ∧ err = true

theorem BatchStep.for {cs p p' a} (h : BatchStep C sh p a p' s) (hp : p.For cs) :
    p'.For cs := by
  cases h with
  | refused => exact .inr ⟨rfl, rfl⟩
  | empty =>
    have hnil : [] = cs := hp
    exact .inl (hnil ▸ rfl)
  | checked | connected | noClient | finished => exact hp
  | allSkipped cs' =>
    refine .inl ?_
    rw [length_results, configs_resolveLoop, show cs' = cs from hp]
  | resolved cs' =>
    show configs _ = cs
    rw [configs_resolveLoop, show cs' = cs from hp]
  | plcRefused b | zeroHandle b => exact (configs_report _ _ b.slots).trans hp
  | created b cfg handle hn =>
    have hb : configs b.slots = cs := hp
    exact ⟨hb, hb ▸ mem_configs_of_nextConfig hn⟩
  | aborted b => exact (configs_abandon b.slots).trans hp
  | committed b | declined b => exact (configs_report _ _ b.slots).trans hp.1
  | settled b =>
    refine .inl ?_
    rw [length_results, configs_settle, show configs b.slots = cs from hp]
  | amended b => exact (configs_settle b sh.notifications).trans hp
  | released b =>
    refine .inl ?_
    rw [length_results, show configs b.slots = cs from hp]

/-! ## A re-subscribe carries consistent lists -/

/-- What the local variables of a re-subscribe satisfy once it has filtered. -/
structure Resub.WF (C : Casing Name Key) (r : Resub Name) : Prop where
  nodup : (keys C r.savedPending).Nodup
  channel : r.savedChannel.isSome
  sub : r.validPending.Sublist r.savedPending
  nonempty : r.validPending ≠ []

/-- The result loop saw one result per valid entry, unless the batch failed as a whole. -/
def Resub.Triaged (r : Resub Name) (err : Bool) : Prop :=
  ∃ res, r.outcome = triage r.validPending res ∧ (res.length = r.validPending.length ∨ err = true)

/-- What a re-subscribe knows between its sections. -/
def ResubPc.WF (C : Casing Name Key) : ResubPc Name Key → Prop
  | .filter _ saved ch => (keys C saved).Nodup ∧ ch.isSome
  | .lower r | .snapshot r => r.WF C
  | .batch r p => r.WF C ∧ p.For (r.validPending.map (·.config))
  | .orphans r err | .requeue r err | .drop r err => r.WF C ∧ r.Triaged err
  | .rollback r => r.WF C
  | _ => True

theorem ResubStep.wf (h : ResubStep C sh p a (some p') s)
    (hl : ∀ i, p = .take i → (keys C sh.notifications.pending).Nodup) (hp : p.WF C) : p'.WF C := by
  cases h with
  | taken intent hp hc => exact ⟨hl intent rfl, hc⟩
  | filtered intent saved ch hv => exact ⟨hp.1, hp.2, filter_sublist, hv⟩
  | lowered | orphansReleased | requeued => exact hp
  | snapshot => exact ⟨⟨hp.nodup, hp.channel, hp.sub, hp.nonempty⟩, rfl⟩
  | batch r p p' a s hb => exact ⟨hp.1, hb.for hp.2⟩
  | triaged r res =>
    refine ⟨⟨hp.1.nodup, hp.1.channel, hp.1.sub, hp.1.nonempty⟩, res, rfl, ?_⟩
    rcases hp.2 with hlen | ⟨-, he⟩
    · exact .inl (by rw [hlen, length_map])
    · exact .inr he
  | failed => exact hp.1
  | _ => trivial

theorem ResubStep.restores {p'} (h : ResubStep C sh p a p' s)
    (hp : p.WF C) : s.Restores C := by
  cases h with
  | rolledBack => exact hp.nodup
  | lowered r s hs | failed r s hs | succeeded r s hs => rcases hs with rfl | ⟨n, rfl⟩ <;> trivial
  | batch r p p' a s hb => cases hb <;> trivial
  | _ => trivial

/-- The intent heartbeat recovery snapshotted, while it is in use. -/
def ResubPc.intent : ResubPc Name Key → Option (Intent Name)
  | .take i | .filter i _ _ => i
  | .allGone r | .lower r | .snapshot r | .batch r _ | .orphans r _ | .requeue r _ | .drop r _
  | .rollback r | .undo r _ => r.intent
  | .returned i _ _ => i
  | .recheck i | .restore i => some i
  | _ => none

theorem ResubStep.intent (h : ResubStep C sh p a (some p') s) {i} (hi : p'.intent = some i) :
    p.intent = some i ∨
      i = ⟨sh.notifications.pending, sh.notifications.notificationChannel⟩ := by
  cases h with
  | intentTaken => exact .inr (Option.some.inj hi).symm
  | swept | sweptReleased | recovered => exact absurd hi (by simp [ResubPc.intent])
  | _ => exact .inl hi

/-- The entries a re-subscribe took off file and may still put back. -/
def ResubPc.saved : ResubPc Name Key → List (PendingNotification Name)
  | .filter _ saved _ => saved
  | .lower r | .snapshot r | .batch r _ | .orphans r _ | .requeue r _ => r.savedPending
  | .drop r err => if err then r.savedPending else []
  | .rollback r => r.savedPending
  | _ => []

theorem ResubStep.saved
    (h : ResubStep C sh p a (some p') s) : p'.saved ⊆ p.saved ∨ p'.saved = sh.notifications.pending := by
  cases h with
  | taken => exact .inr rfl
  | requeued r err =>
    left
    show (if err then r.savedPending else []) ⊆ r.savedPending
    split <;> simp
  | _ => exact .inl (by simp [ResubPc.saved])

/-- What a re-subscribe works on, once it has filtered its entries. -/
def ResubPc.work : ResubPc Name Key → Option (Resub Name)
  | .allGone r | .lower r | .snapshot r | .batch r _ | .orphans r _ | .requeue r _ | .drop r _
  | .rollback r | .undo r _ => some r
  | .returned _ r _ => r
  | _ => none

theorem ResubStep.work (h : ResubStep C sh p a (some p') s) {r'} (hr : p'.work = some r') :
    (∃ r, p.work = some r ∧ r'.validPending = r.validPending) ∨
      ∃ i saved ch, p = .filter i saved ch ∧ r'.validPending = filterValidPending C sh saved := by
  cases h with
  | noneLeft | filtered => cases hr; exact .inr ⟨_, _, _, rfl, rfl⟩
  | swept | sweptReleased | intentTaken | nothing | taken | recoveryFailed | recoveryReturned
  | boundNothing | recovered =>
    cases hr
  | _ => cases hr; exact .inl ⟨_, rfl, rfl⟩

theorem mem_skippedEntries {q} : q ∈ skippedEntries valid res ↔
      ∃ p r, (p, r) ∈ valid.zip res ∧ r.skipped.isSome = true ∧ q = p.bump := by
  simp only [skippedEntries, mem_map, mem_filter, Prod.exists]
  constructor
  · rintro ⟨p, r, ⟨hz, hs⟩, rfl⟩
    exact ⟨p, r, hz, hs, rfl⟩
  · rintro ⟨p, r, hz, hs, rfl⟩
    exact ⟨p, r, ⟨hz, hs⟩, rfl⟩

omit [DecidableEq Key] in
theorem mem_keys_of_retryEntries {k}
    (h : k ∈ keys C (triage valid res).retryEntries) : k ∈ keys C valid := by
  obtain ⟨q, hq, rfl⟩ := mem_keys.1 h
  obtain ⟨p, r, hz, -, rfl⟩ := mem_skippedEntries.1 (mem_filter.1 hq).1
  exact mem_keys.2 ⟨p, (of_mem_zip hz).1, rfl⟩

/-- **What a re-subscribe files** it took off file itself, or it is in the intent it carries. -/
theorem ResubStep.files {p'} (h : ResubStep C sh p a p' s) (hp : p.WF C)
    {k} (hk : k ∈ s.files C) :
    k ∈ keys C p.saved ∨ ∃ i, p.intent = some i ∧ k ∈ keys C i.pending := by
  cases h with
  | batch r p p' a s hb =>
    left
    cases hb with
    | committed =>
      -- the config being committed is that of a valid entry
      obtain ⟨q, hq, hcfg⟩ := mem_map.1 hp.2.2
      rw [mem_singleton.1 hk, ← hcfg]
      exact mem_keys.2 ⟨q, hp.1.sub.subset hq, rfl⟩
    | _ => exact absurd hk (by simp [Section.files])
  | requeued r =>
    left
    obtain ⟨hr, res, hout, -⟩ := hp
    have hk' : k ∈ keys C r.outcome.retryEntries := hk
    rw [hout] at hk'
    exact keys_subset hr.sub.subset (mem_keys_of_retryEntries hk')
  | rolledBack => exact .inl hk
  | restored i => exact .inr ⟨i, rfl, hk⟩
  | lowered r s hs | failed r s hs | succeeded r s hs =>
    rcases hs with rfl | ⟨n, rfl⟩ <;> exact absurd hk (by simp [Section.files])
  | _ => exact absurd hk (by simp [Section.files])

/-! ## Every state of every run -/

/-- The intent a goroutine carries. -/
def Pc.intent : Pc Name Key → Option (Intent Name)
  | .resub p => p.intent
  | _ => none

theorem PlanStep.intent {a} (h : PlanStep C t sh pc a pc' e) {i}
    (hi : pc'.intent = some i) : pc.intent = some i ∨
      i = ⟨sh.notifications.pending, sh.notifications.notificationChannel⟩ := by
  cases h with
  | startResub recovery => cases recovery <;> exact absurd hi (by simp [Pc.intent, ResubPc.intent])
  | add p p' => cases p' <;> exact absurd hi (by simp [Pc.intent])
  | resub p p' a s hs => exact hs.intent hi
  | _ => exact absurd hi (by simp [Pc.intent])

/-- A goroutine inside a re-subscribe holds the mutex and carries consistent lists. -/
def Pc.WF (C : Casing Name Key) (sh : Shared Name Key) (t : Nat) : Pc Name Key → Prop
  | .resub p => p.WF C ∧ sh.resubscribeMu = some t
  | _ => True

abbrev Inv (C : Casing Name Key) : State Name Key → Prop :=
  Conf.Inv (fun sh => sh.notifications.Lockstep C) (Pc.WF C)

omit [DecidableEq Key] in
theorem inv_init : Inv C (init : State Name Key) :=
  ⟨⟨fun k => by simp [init, Manager.empty, keys], by simp [init, Manager.empty, keys]⟩,
    fun _ => trivial⟩

theorem PlanStep.restores {a} (h : PlanStep C t sh pc a pc' e) (hp : pc.WF C sh t) :
    e.toSection.Restores C := by
  cases h with
  | add p p' a s hs | batch p p' a s hs => cases hs <;> trivial
  | resub p p' a s hs | resubDone p a s hs => exact hs.restores hp.1
  | _ => trivial

/-- The mutex changes hands only through its holder. -/
theorem PlanStep.resubscribeMu {u a} (h : PlanStep C t sh pc a pc' e) (hp : pc.WF C sh t)
    (hu : u ≠ t) (hmu : sh.resubscribeMu = some u) : (e.run C sh).resubscribeMu = some u := by
  cases h with
  | startResub recovery hn => exact absurd hmu (by simp [hn])
  | insertSymbol key fullName =>
    simp only [Effect.run]
    split <;> exact hmu
  | resubDone => exact absurd (hmu.symm.trans hp.2) (by simp [hu])
  | _ => exact hmu

theorem inv_step (hC : C.Agree) {c c' a} (hi : Inv C c)
    (h : step C c a = some c') : Inv C c' := by
  obtain ⟨t, a⟩ := a
  obtain ⟨pc', e, hp, -, rfl⟩ := step_cases h
  have hwf := hi.loc t
  refine ⟨?_, fun u => ?_⟩
  · show (e.run C c.shared).notifications.Lockstep C
    rw [Effect.run_notifications]
    exact hi.shared.run hC (hp.restores hwf)
  show (Function.update c.loc t pc' u).WF C (e.run C c.shared) u
  by_cases hu : u = t
  · subst hu
    rw [Function.update_self]
    revert hp hwf
    generalize c.loc u = pc
    intro hp hwf
    cases hp with
    | startResub recovery => exact ⟨by cases recovery <;> trivial, rfl⟩
    | add p p' => cases p' <;> trivial
    | resub p p' a s hs => exact ⟨hs.wf (fun _ _ => hi.shared.nodup) hwf.1, hwf.2⟩
    | _ => trivial
  · rw [Function.update_of_ne hu]
    have hwu := hi.loc u
    cases hpc : c.loc u with
    | resub =>
      rw [hpc] at hwu
      exact ⟨hwu.1, hp.resubscribeMu hwf hu hwu.2⟩
    | _ => trivial

/-- **Every state of every run**: whoever is in a re-subscribe is alone in it. -/
theorem run_consistent (hC : C.Agree) {c} (hrun : Run (step C) anyStep init c) :
    c.shared.notifications.Lockstep C ∧ (∀ t, (c.loc t).WF C c.shared t) ∧
      ∀ t u p q, c.loc t = .resub p → c.loc u = .resub q → t = u := by
  have hi := hrun.invariant (P := Inv C) inv_init fun _ _ _ hi _ hs => inv_step hC hi hs
  refine ⟨hi.shared, hi.loc, fun t u p q ht hu => ?_⟩
  have hmt := hi.loc t
  have hmu := hi.loc u
  rw [ht] at hmt
  rw [hu] at hmu
  exact Option.some.inj (hmt.2.symm.trans hmu.2)

section Example

/-- A subscription of `MAIN.a` on channel 1 that the PLC gave handle 7. -/
def subscribeA : List (Nat × Act String String) :=
  [(0, .swapSymbols fun k => if k = "main.a" then some "MAIN.a" else none),
    (0, .startAdd ⟨"MAIN.a", 0, 0, .serverOnChange⟩ (some 1)), (0, .add (.check true)),
    (0, .add (.resolve true)), (0, .add (.reply (some 7))), (0, .add .commit)]

/-- After `MAIN.a`, one of `MAIN.b`; then a reconnect, whose re-subscribe has committed `MAIN.a` again and
    waits for the answer about `MAIN.b`. -/
def resubscribeAB : List (Nat × Act String String) :=
  subscribeA ++
    [(0, .swapSymbols fun k =>
        if k = "main.a" then some "MAIN.a" else if k = "main.b" then some "MAIN.b" else none),
      (0, .startAdd ⟨"MAIN.b", 0, 0, .serverOnChange⟩ (some 1)), (0, .add (.check true)),
      (0, .add (.resolve true)), (0, .add (.reply (some 9))), (0, .add .commit),
      (1, .sweep), (1, .release [ReturnCode.noErrors, ReturnCode.noErrors]), (1, .startResub false),
      (1, .resub .next), (1, .resub .next), (1, .resub .next), (1, .resub .next),
      (1, .resub (.batch (.check true))), (1, .resub (.batch (.resolve fun _ => true))),
      (1, .resub (.batch (.client true))), (1, .resub (.batch (.reply ReturnCode.noErrors 8))),
      (1, .resub (.batch .commit))]

/-- One config is on file again, and the batch in hand is about the two that were. -/
theorem run_consistent_batch : ∃ (c : State String String) (r : Resub String) (b : Batch String),
      c.loc 1 = .resub (.batch r (.send b)) ∧ c.shared.notifications.pending.length = 1 ∧
        r.savedPending.length = 2 ∧ c.shared.notifications.Lockstep ascii ∧ r.WF ascii ∧
        configs b.slots = r.validPending.map (·.config) := by
  obtain ⟨c, hrun, hpending, hbatch⟩ := exists_run (step ascii) anyStep init
    (fun c => c.shared.notifications.pending.length = 1 ∧ (match c.loc 1 with
      | .resub (.batch r (.send _)) => r.savedPending.length
      | _ => 0) = 2)
    resubscribeAB (by decide +kernel)
  obtain ⟨hlockstep, hwf, -⟩ := run_consistent ascii_agree hrun
  split at hbatch
  · next r b hloc =>
    have hr := hwf 1
    rw [hloc] at hr
    exact ⟨c, r, b, hloc, hpending, hbatch, hlockstep, hr.1⟩
  · cases hbatch

end Example

end GoAds.Notification
