import GoAds.Notification.Retained

/-!
# `Notification.Forgotten` — exactly which re-subscribes forget a subscription

The converse of `Notification.Retained`.  A history variable lists the configs whose request the PLC
refused with an error code.  Such a config is in none of the places an entry can end up in: the result
loop looks only at skipped results, and the config itself was taken off file at the start.  Since
every symbol is on file once, nothing else can bring it back, so the re-subscribe retains every
declared subscription if and only if the list is empty.
-/

namespace GoAds.Notification

open Interleaving List Manager

variable {Name Key : Type}

/-- The config whose request the PLC refuses with an error code in this step. -/
def BatchPc.refusals (p : BatchPc Name Key) (a : BatchAct Name) : List (NotificationConfig Name) :=
  match p, a with
  | .send b, .reply error _ =>
    if error = ReturnCode.noErrors then [] else (nextConfig b.slots).toList
  | _, _ => []

/-- The history variable: the refused configs of goroutine `t`'s re-subscribe. -/
def refusals (t : Nat) (g : List (NotificationConfig Name)) (c : State Name Key)
    (a : Nat × Act Name Key) : List (NotificationConfig Name) :=
  match c.loc t, a with
  | .resub (.batch _ p), (u, .resub (.batch b)) => (if u = t then p.refusals b else []) ++ g
  | _, _ => g

/-! ## Slots -/

variable {b : Batch Name} {g : List (NotificationConfig Name)} {valid : List (PendingNotification Name)}
  {slots : List (Slot Name)} {m m' : Manager Name Key}

theorem mem_report_of_answered {r committed s} (hs : s ∈ slots) (hr : s.result.isSome = true) :
    s ∈ report r committed slots := by
  induction slots with
  | nil => exact absurd hs (by simp)
  | cons x rest ih =>
    unfold report
    split
    · next hx =>
      rcases mem_cons.1 hs with rfl | hs
      · rw [Option.isNone_iff_eq_none.1 hx] at hr
        cases hr
      · exact mem_cons_of_mem _ hs
    rcases mem_cons.1 hs with rfl | hs
    · exact mem_cons_self ..
    · exact mem_cons_of_mem _ (ih hs)

theorem exists_reported (r : SumNotificationResult) (committed : Bool)
    {cfg} (h : nextConfig slots = some cfg) : ∃ s ∈ report r committed slots,
      s.config = cfg ∧ s.result = some r ∧ s.committed = committed := by
  induction slots with
  | nil => exact absurd h (by simp [nextConfig])
  | cons x rest ih =>
    unfold nextConfig at h
    unfold report
    split at h
    · next hx =>
      rw [if_pos hx]
      exact ⟨_, mem_cons_self .., Option.some.inj h, rfl, rfl⟩
    next hx =>
    rw [if_neg hx]
    obtain ⟨s, hs, h'⟩ := ih h
    exact ⟨s, mem_cons_of_mem _ hs, h'⟩

theorem exists_mem_zip_of_slot (hc : configs slots = valid.map (·.config)) {s} (hs : s ∈ slots) :
    ∃ p, (p, s.result.getD {}) ∈ valid.zip (results slots) ∧ p.config = s.config := by
  induction slots generalizing valid with
  | nil => exact absurd hs (by simp)
  | cons x slots ih =>
    cases valid with
    | nil => simp [configs] at hc
    | cons q =>
      simp only [configs, map_cons, cons.injEq] at hc
      simp only [results, map_cons, zip_cons_cons, mem_cons]
      rcases mem_cons.1 hs with rfl | hs
      · exact ⟨q, .inl rfl, hc.1.symm⟩
      · obtain ⟨p, hp, hcfg⟩ := ih hc.2 hs
        exact ⟨p, .inr hp, hcfg⟩

variable {C : Casing Name Key}

theorem zip_unique {res : List SumNotificationResult}
    (hn : (keys C valid).Nodup) {p q : PendingNotification Name} {x y : SumNotificationResult}
    (hp : (p, x) ∈ valid.zip res) (hq : (q, y) ∈ valid.zip res) (hk : p.key C = q.key C) : x = y := by
  induction valid generalizing res with
  | nil => exact absurd hp (by simp)
  | cons v valid ih =>
    cases res with
    | nil => exact absurd hp (by simp)
    | cons z res =>
      obtain ⟨hv, hn⟩ := nodup_cons.1 hn
      have hnot : ∀ {r w}, (r, w) ∈ valid.zip res → r.key C ≠ v.key C := by
        intro r w hr heq
        exact hv (mem_keys.2 ⟨r, (of_mem_zip hr).1, heq⟩)
      simp only [zip_cons_cons, mem_cons, Prod.mk.injEq] at hp hq
      rcases hp with ⟨rfl, rfl⟩ | hp <;> rcases hq with ⟨rfl, rfl⟩ | hq
      · rfl
      · exact absurd hk.symm (hnot hq)
      · exact absurd hk (hnot hp)
      · exact ih hn hp hq

/-! ## The batch -/

/-- The refused configs `g` are in answered slots that were neither skipped nor committed, and
    what is on file was committed by this batch. -/
structure Batch.Loses (C : Casing Name Key) (m : Manager Name Key)
    (g : List (NotificationConfig Name)) (b : Batch Name) : Prop where
  refused : ∀ cfg ∈ g, ∃ s ∈ b.slots, s.config = cfg ∧ s.result.isSome = true ∧
    s.skipped = false ∧ s.committed = false
  filed : ∀ k ∈ keys C m.pending, ∃ s ∈ b.slots, s.result.isSome = true ∧ s.committed = true ∧
    C.symbolKey s.config.symbolName = k

/-- What the batch of a re-subscribe has lost so far. -/
def BatchPc.Loses (C : Casing Name Key) (m : Manager Name Key)
    (valid : List (PendingNotification Name)) (g : List (NotificationConfig Name)) : BatchPc Name Key → Prop
  | .check _ _ | .resolve _ _ _ => g = [] ∧ m.pending = []
  | .client b | .send b => b.Loses C m g
  | .commit b cfg _ _ => b.Loses C m g ∧ nextConfig b.slots = some cfg
  | .settle b err | .release b err => err = true ∨ b.Loses C m g
  | .returned res err => err = true ∨ ∀ cfg ∈ g, ∃ p x, (p, x) ∈ valid.zip res ∧
      x.skipped = none ∧ p.config = cfg ∧ p.key C ∉ keys C m.pending

section

variable (h : b.Loses C m g)

include h

/-- A report keeps what is lost; a commit files its config. -/
theorem Batch.Loses.report {r committed refused} (hfile : ∀ k ∈ keys C m'.pending, k ∈ keys C m.pending ∨
      committed = true ∧ ∃ cfg, nextConfig b.slots = some cfg ∧ k = C.symbolKey cfg.symbolName) :
    Batch.Loses C m' g { b with slots := Notification.report r committed b.slots, refused := refused } := by
  refine ⟨fun cfg hcfg => ?_, fun k hk => ?_⟩
  · obtain ⟨s, hs, hc, hr, hrest⟩ := h.refused cfg hcfg
    exact ⟨s, mem_report_of_answered hs hr, hc, hr, hrest⟩
  rcases hfile k hk with hk | ⟨hcom, cfg, hnext, rfl⟩
  · obtain ⟨s, hs, hr, hrest⟩ := h.filed k hk
    exact ⟨s, mem_report_of_answered hs hr, hr, hrest⟩
  · obtain ⟨s, hs, hc, hr, hcs⟩ := exists_reported r committed hnext
    exact ⟨s, hs, by simp [hr], hcs.trans hcom, by rw [hc]⟩

theorem Batch.Loses.mono (hsub : m'.pending ⊆ m.pending) : b.Loses C m' g :=
  ⟨h.refused, fun k hk => h.filed k (keys_subset hsub hk)⟩

theorem Batch.Loses.settle : (b.settle m').Loses C m g := by
  refine ⟨fun cfg hcfg => ?_, fun k hk => ?_⟩
  · obtain ⟨s, hs, hc, hr, hskip, hcom⟩ := h.refused cfg hcfg
    refine ⟨s, mem_map.2 ⟨s, hs, ?_⟩, hc, hr, hskip, hcom⟩
    simp [Slot.stranded, hcom]
  obtain ⟨s, hs, hr, hcom, hk⟩ := h.filed k hk
  refine ⟨_, mem_map.2 ⟨s, hs, rfl⟩, ?_⟩
  split
  · exact ⟨rfl, hcom, hk⟩
  · exact ⟨hr, hcom, hk⟩

/-- A refused entry is off file: the file holds committed configs, and each symbol has one slot. -/
theorem Batch.Loses.results (hc : configs b.slots = valid.map (·.config)) (hn : (keys C valid).Nodup) :
    ∀ cfg ∈ g, ∃ p x, (p, x) ∈ valid.zip (Notification.results b.slots) ∧ x.skipped = none ∧
      p.config = cfg ∧ p.key C ∉ keys C m.pending := by
  intro cfg hcfg
  obtain ⟨s, hs, hconf, -, hskip, hcom⟩ := h.refused cfg hcfg
  obtain ⟨p, hp, hpc⟩ := exists_mem_zip_of_slot hc hs
  have hslots : (b.slots.map fun s => C.symbolKey s.config.symbolName).Nodup := by
    have heq : b.slots.map (fun s => C.symbolKey s.config.symbolName) = keys C valid := by
      have hmap := congrArg (List.map fun cfg => C.symbolKey cfg.symbolName) hc
      rw [configs, map_map, map_map] at hmap
      exact hmap
    rw [heq]
    exact hn
  refine ⟨p, _, hp, ?_, hpc.trans hconf, fun hk => ?_⟩
  · simpa [Slot.skipped] using hskip
  obtain ⟨s', hs', -, hcom', hk'⟩ := h.filed _ hk
  have hsame : s' = s := by
    refine inj_on_of_nodup_map hslots hs' hs ?_
    rw [hk', PendingNotification.key, hpc]
  rw [hsame, hcom] at hcom'
  cases hcom'

end

section

variable [DecidableEq Key]

theorem Manager.pending_sumDelete_subset (m : Manager Name Key) (user : Bool) (hs : List Handle)
    (codes : List ReturnCode) : (m.sumDeleteDeviceNotification C user hs codes).pending ⊆ m.pending := by
  have hone : ∀ (m : Manager Name Key) h code, (m.sumDeleteOne C user h code).pending ⊆ m.pending := by
    intro m h code
    by_cases hok : isBestEffortDeleteSuccess code = true
    · rw [(sumDeleteOne_eq (m := m) (C := C) hok user h).2.1]
      exact pending_removeSymbol_subset _
    · rw [sumDeleteOne_of_failure hok]
      exact fun _ hp => hp
  have hloop : ∀ (l : List (Handle × ReturnCode)) (m : Manager Name Key),
      (m.sumDeleteLoop C user l).pending ⊆ m.pending := by
    intro l
    induction l with
    | nil => exact fun _ _ hp => hp
    | cons x l ih => exact fun m _ hp => hone m x.1 x.2 (ih _ hp)
  unfold Manager.sumDeleteDeviceNotification
  split
  · exact fun _ hp => hp
  · dsimp only
    split <;> exact hloop _ m

/-- **One step of the batch** loses exactly what the PLC refuses in it. -/
theorem BatchStep.loses {sh valid g p p' a s} (h : BatchStep C sh p a p' s)
    (hfor : p.For (valid.map (·.config)))
    (hn : (keys C valid).Nodup) (hp : p.Loses C sh.notifications valid g) :
    p'.Loses C (s.run C sh.notifications) valid (p.refusals a ++ g) := by
  cases h with
  | refused | noClient | aborted => exact .inl rfl
  | empty | allSkipped =>
    obtain ⟨rfl, -⟩ := hp
    exact .inr fun cfg hcfg => absurd hcfg (by simp [BatchPc.refusals])
  | checked | connected => exact hp
  | resolved =>
    obtain ⟨rfl, hnil⟩ := hp
    refine ⟨fun cfg hcfg => absurd hcfg (by simp [BatchPc.refusals]), fun k hk => ?_⟩
    have hk' : k ∈ keys C sh.notifications.pending := hk
    rw [hnil] at hk'
    exact absurd hk' (by simp [keys])
  | plcRefused b error handle he cfg hnext =>
    have hreport : Batch.Loses C sh.notifications g
        { b with slots := report { handle := handle, error := error } false b.slots } :=
      hp.report fun k hk => .inl hk
    have href : BatchPc.refusals (.send b : BatchPc Name Key) (.reply error handle) = [cfg] := by
      simp [BatchPc.refusals, he, hnext]
    rw [href]
    refine ⟨fun x hx => ?_, hreport.filed⟩
    rcases mem_cons.1 hx with rfl | hx
    · obtain ⟨s, hs, hc, hr, hcom⟩ := exists_reported { handle := handle, error := error } false hnext
      exact ⟨s, hs, hc, by simp [hr], by simp [Slot.skipped, hr], hcom⟩
    · exact hreport.refused x hx
  | zeroHandle => exact hp.report fun k hk => .inl hk
  | created b cfg handle hnext =>
    have href : BatchPc.refusals (.send b : BatchPc Name Key) (.reply ReturnCode.noErrors handle) = [] := rfl
    rw [href]
    exact ⟨hp, hnext⟩
  | finished => exact .inr hp
  | committed b cfg handle fresh sym =>
    refine hp.1.report fun k hk => ?_
    rw [Section.run, (bind_eq cfg handle sym b.ch).2.1, Manager.addConfig,
      mem_keys_setPending] at hk
    exact hk.symm.imp_right fun hk => ⟨rfl, cfg, hp.2, hk⟩
  | declined => exact hp.1.report fun k hk => .inl hk
  | settled b =>
    rcases hp with herr | hb
    · exact .inl herr
    · refine .inr ((hb.settle.mono ?_).results ((configs_settle b _).trans hfor) hn)
      exact pending_removeConfigs_subset _
  | amended =>
    exact hp.imp_right fun hb => hb.settle.mono (pending_removeConfigs_subset _)
  | released =>
    refine hp.imp_right fun hb => (hb.mono ?_).results hfor hn
    exact pending_sumDelete_subset _ _ _ _

/-! ## The re-subscribe -/

/-- The entry is in none of the places an entry can be in after the batch. -/
def Resub.Forgot (C : Casing Name Key) (m : Manager Name Key) (r : Resub Name)
    (p : PendingNotification Name) : Prop :=
  p ∈ r.validPending ∧ p.key C ∉ keys C m.pending ∧
    p.config.symbolName ∉ r.outcome.droppedConfigs

/-- What a re-subscribe of the entries `ps` has lost so far. -/
def ResubPc.Loses (C : Casing Name Key) (m : Manager Name Key)
    (ps : List (PendingNotification Name)) (g : List (NotificationConfig Name)) : ResubPc Name Key → Prop
  | .take _ => g = [] ∧ m.pending = ps ∧ (keys C ps).Nodup
  | .filter _ saved _ => g = [] ∧ m.pending = [] ∧ saved = ps
  | .allGone _ => g = []
  | .lower r | .snapshot r => g = [] ∧ m.pending = [] ∧ r.savedPending = ps
  | .batch r p => p.Loses C m r.validPending g ∧ r.savedPending = ps
  | .orphans r err => err = true ∨ ∀ cfg ∈ g, ∃ p ∈ ps, r.Forgot C m p ∧
      p.key C ∉ keys C r.outcome.retryEntries
  | .requeue r err => err = true ∨ ∀ cfg ∈ g, ∃ p ∈ ps, r.Forgot C m p ∧
      p.key C ∉ keys C r.outcome.retryEntries
  | .drop r err => err = true ∨ ∀ cfg ∈ g, ∃ p ∈ ps, r.Forgot C m p
  | .returned _ none _ => g = []
  | .returned _ (some r) err => err = true ∨ ∀ cfg ∈ g, ∃ p ∈ ps, r.Forgot C m p
  | .rollback _ | .undo _ _ => True
  | .recoverSweep | .recoverRelease _ | .recoverIntent | .recheck _ | .restore _ | .raise => False

omit [DecidableEq Key] in
/-- The result loop passes over a result that is not skipped. -/
theorem not_mem_triage {valid : List (PendingNotification Name)} {res : List SumNotificationResult}
    (hn : (keys C valid).Nodup) {p : PendingNotification Name} {x : SumNotificationResult}
    (hp : (p, x) ∈ valid.zip res) (hx : x.skipped = none) :
    p.key C ∉ keys C (triage valid res).retryEntries ∧
      p.config.symbolName ∉ (triage valid res).droppedConfigs := by
  have hskip : ∀ q ∈ skippedEntries valid res, q.key C ≠ p.key C := by
    intro q hq heq
    obtain ⟨q', y, hz, hy, rfl⟩ := mem_skippedEntries.1 hq
    have hxy : y = x := zip_unique hn hz hp heq
    rw [hxy, hx] at hy
    cases hy
  refine ⟨fun hk => ?_, fun hd => ?_⟩
  · obtain ⟨q, hq, heq⟩ := mem_keys.1 hk
    exact hskip q (mem_filter.1 hq).1 heq
  obtain ⟨q, hq, heq⟩ := mem_map.1 hd
  refine hskip q (mem_filter.1 hq).1 ?_
  rw [PendingNotification.key, heq, PendingNotification.key]

/-- The config refused in this step of the re-subscribe. -/
def ResubPc.refusals (p : ResubPc Name Key) (a : ResubAct Name) : List (NotificationConfig Name) :=
  match p, a with
  | .batch _ p, .batch a => p.refusals a
  | _, _ => []

variable {p : ResubPc Name Key}

/-- **One step of the re-subscribe** loses what the PLC refuses in it, and finds nothing again. -/
theorem ResubStep.loses {sh ps g p' a s} (h : ResubStep C sh p a (some p') s) (hwf : p.WF C)
    (hret : ∀ i out err, p ≠ .returned i out err) (hp : p.Loses C sh.notifications ps g) :
    p'.Loses C (s.run C sh.notifications) ps (p.refusals a ++ g) := by
  cases h with
  | swept | sweptReleased | intentTaken | boundNothing | recovered => exact hp.elim
  | nothing | noneLeft => exact hp.1
  | taken => exact ⟨hp.1, rfl, hp.2.1⟩
  | filtered => exact hp
  | channelReleased =>
    have hnil : g = [] := hp
    exact .inr fun cfg hcfg => absurd hcfg (by simp [ResubPc.refusals, hnil])
  | lowered r s hs =>
    refine ⟨hp.1, ?_, hp.2.2⟩
    rw [(hs.run (C := C)).1]
    exact hp.2.1
  | snapshot => exact ⟨⟨hp.1, hp.2.1⟩, hp.2.2⟩
  | batch r p p' a s hb =>
    have hn : (keys C r.validPending).Nodup := hwf.1.nodup.sublist (hwf.1.sub.map _)
    exact ⟨hb.loses hwf.2 hn hp.1, hp.2⟩
  | triaged r =>
    have hn : (keys C r.validPending).Nodup := hwf.1.nodup.sublist (hwf.1.sub.map _)
    refine hp.1.imp_right fun hlost cfg hcfg => ?_
    obtain ⟨q, x, hz, hx, -, hk⟩ := hlost cfg hcfg
    obtain ⟨hretry, hdrop⟩ := not_mem_triage (C := C) hn hz hx
    have hq : q ∈ r.validPending := (of_mem_zip hz).1
    exact ⟨q, hp.2 ▸ hwf.1.sub.subset hq, ⟨hq, hk, hdrop⟩, hretry⟩
  | orphansReleased =>
    refine hp.imp_right fun hlost cfg hcfg => ?_
    obtain ⟨q, hq, ⟨hv, hk, hdrop⟩, hretry⟩ := hlost cfg hcfg
    refine ⟨q, hq, ⟨hv, fun hmem => hk ?_, hdrop⟩, hretry⟩
    exact keys_subset (pending_sumDelete_subset _ _ _ _) hmem
  | requeued =>
    refine hp.imp_right fun hlost cfg hcfg => ?_
    obtain ⟨q, hq, ⟨hv, hk, hdrop⟩, hretry⟩ := hlost cfg hcfg
    refine ⟨q, hq, hv, fun hmem => ?_, hdrop⟩
    exact ((mem_keys_addPendings _).1 hmem).elim hretry hk
  | failed | rolledBack => trivial
  | succeeded r s hs =>
    refine .inr fun cfg hcfg => ?_
    obtain ⟨q, hq, hv, hk, hdrop⟩ := hp.resolve_left (by simp) cfg hcfg
    refine ⟨q, hq, hv, ?_, hdrop⟩
    rw [(hs.run (C := C)).1]
    exact hk
  | undone => exact .inl rfl
  | recoveryFailed | recoveryReturned => exact absurd rfl (hret _ _ _)

/-! ## Runs -/

/-- One re-subscribe of goroutine `t` and the requests of it that the PLC refused. -/
abbrev resubscribing (C : Casing Name Key) (t : Nat) :
    State Name Key × List (NotificationConfig Name) → Nat × Act Name Key →
      Option (State Name Key × List (NotificationConfig Name)) :=
  observe (step C) (refusals t)

abbrev Alone (C : Casing Name Key) (t : Nat)
    (x : State Name Key × List (NotificationConfig Name)) (a : Nat × Act Name Key) : Prop :=
  Undisturbed C t x.1 a

/-- The entries the re-subscribe worked on are those whose symbol the cache had, at a moment of the
    run from `x₀` to `x`. -/
def Resub.Filtered (C : Casing Name Key) (t : Nat)
    (x₀ x : State Name Key × List (NotificationConfig Name)) (r : Resub Name) : Prop :=
  ∃ x₁, Run (resubscribing C t) (Alone C t) x₀ x₁ ∧ Run (resubscribing C t) (Alone C t) x₁ x ∧
    r.validPending = filterValidPending C x₁.1.shared x₀.1.shared.notifications.pending

/-- The re-subscribe of goroutine `t` that began in `x₀` has come to `p`. -/
structure Loses (C : Casing Name Key) (t : Nat)
    (x₀ x : State Name Key × List (NotificationConfig Name)) (p : ResubPc Name Key) : Prop where
  run : Run (resubscribing C t) (Alone C t) x₀ x
  loc : x.1.loc t = .resub p
  wf : p.WF C
  loses : p.Loses C x.1.shared.notifications x₀.1.shared.notifications.pending x.2
  work : ∀ r, p.work = some r → r.Filtered C t x₀ x

variable {t : Nat} {x₀ x x' : State Name Key × List (NotificationConfig Name)}

theorem Resub.Filtered.snoc {r : Resub Name} (h : r.Filtered C t x₀ x) {a : Nat × Act Name Key}
    (hok : Alone C t x a) (hs : resubscribing C t x a = some x') : r.Filtered C t x₀ x' := by
  obtain ⟨x₁, h₁, h₂, hv⟩ := h
  exact ⟨x₁, h₁, .snoc a h₂ hok hs, hv⟩

theorem Loses.own (h : Loses C t x₀ x p) {a : Act Name Key}
    (hok : Alone C t x (t, a)) (hs : resubscribing C t x (t, a) = some x') : ∃ p', Loses C t x₀ x' p' := by
  obtain ⟨hstep, hg⟩ := observe_eq_some.1 hs
  obtain ⟨hret, hstep⟩ := Undisturbed.own hok h.loc hstep
  rcases hstep with ⟨s, i, hend⟩ | ⟨p', s, i, rfl, hstep, hloc', hm⟩
  · have hloses := h.loses
    rcases hend.end_cases with ⟨_, _, _, rfl⟩ | ⟨_, rfl⟩ | rfl
    · exact absurd rfl (hret _ _ _)
    · exact hloses.elim
    · exact hloses.elim
  have hrefusals : x'.2 = p.refusals i ++ x.2 := by
    rw [hg]
    unfold refusals
    rw [h.loc]
    cases p <;> cases i <;> simp [ResubPc.refusals]
  refine ⟨p', .snoc _ h.run hok hs, hloc', hstep.wf (fun i hi => ?_) h.wf, ?_, fun r hr => ?_⟩
  · have hloses := h.loses
    rw [hi] at hloses
    rw [hloses.2.1]
    exact hloses.2.2
  · rw [hm, hrefusals]
    exact hstep.loses h.wf hret h.loses
  rcases hstep.work hr with ⟨r₀, hr₀, hv⟩ | ⟨i, saved, ch, rfl, hv⟩
  · obtain ⟨x₁, h₁, h₂, hv₁⟩ := (h.work r₀ hr₀).snoc hok hs
    exact ⟨x₁, h₁, h₂, hv.trans hv₁⟩
  · exact ⟨x, h.run, .snoc _ .refl hok hs, h.loses.2.2 ▸ hv⟩

theorem Loses.step (h : Loses C t x₀ x p) {a : Nat × Act Name Key}
    (hok : Alone C t x a) (hs : resubscribing C t x a = some x') : ∃ p', Loses C t x₀ x' p' := by
  obtain ⟨u, a⟩ := a
  by_cases hu : u = t
  · subst hu
    exact h.own hok hs
  obtain ⟨hstep, hg⟩ := observe_eq_some.1 hs
  obtain ⟨hm, hloc⟩ := Undisturbed.other hok hu hstep
  have hsame : x'.2 = x.2 := by
    rw [hg]
    unfold refusals
    split
    · next r q v b hloc heq =>
      cases heq
      rw [if_neg hu]
      rfl
    · rfl
  refine ⟨p, .snoc _ h.run hok hs, hloc.trans h.loc, h.wf, ?_, fun r hr => (h.work r hr).snoc hok hs⟩
  rw [hm, hsame]
  exact h.loses

/-- A run in which the PLC refused nothing is a run in which it served every request. -/
theorem served_of_refusals {c₀}
    (h : Run (resubscribing C t) (Alone C t) (c₀, []) x) (hx : x.2 = []) :
    Run (Notification.step C) (Served C t) c₀ x.1 := by
  induction h with
  | refl => exact .refl
  | @snoc y z a hrun hok hs ih =>
    obtain ⟨hstep, hg⟩ := observe_eq_some.1 hs
    rw [hx] at hg
    obtain ⟨u, a⟩ := a
    refine .snoc (u, a) (ih ?_) ⟨hok, ?_⟩ hstep
    · unfold refusals at hg
      split at hg
      · exact (append_eq_nil_iff.1 hg.symm).2
      · exact hg.symm
    -- a refusal would be on the list
    unfold Accepts
    split
    · next error handle heq =>
      rintro rfl
      cases heq
      by_contra he
      obtain ⟨pc', e, hp, -, -⟩ := step_cases hstep
      generalize hpc : y.1.loc _ = pc at hp
      cases hp with
      | resub p p' i s hr =>
        cases hr with
        | batch r p p' b s hb =>
          cases hb with
          | plcRefused b _ _ _ cfg hn =>
            unfold refusals at hg
            rw [hpc] at hg
            simp [BatchPc.refusals, he, hn] at hg
          | zeroHandle | created => exact he rfl
      | resubDone p i s hr => cases hr
    · trivial

omit [DecidableEq Key] in
/-- A forgotten entry is neither on file nor dropped for a reason. -/
theorem Resub.Forgot.not_retained {m : Manager Name Key} {r : Resub Name}
    {p : PendingNotification Name} (h : r.Forgot C m p) :
    ¬ (m.OnFile C (p.key C) ∨ ∃ r', some r = some r' ∧ (p ∉ r'.validPending ∨ r'.GaveUp p)) := by
  obtain ⟨hv, hk, hd⟩ := h
  rintro (hf | ⟨r', hr, hno | hg⟩)
  · exact hk hf.2
  · cases hr
    exact hno hv
  · cases hr
    exact hd hg.1

/-- **Exactly the refused requests are forgotten.**  Goroutine `t` re-subscribes from `c₀` and returns
    without an error in `x`.  It worked on the entries whose symbol the cache had at some moment; and
    every config that was on file in `c₀` is on file now, or was dropped because its symbol was gone
    then, or because it had been skipped `resubscribeMaxAttempts` times, if and only if the PLC
    refused none of its requests with an error code. -/
theorem resubscribe_retains {c₀ : State Name Key} {intent intent' : Option (Intent Name)}
    {out : Option (Resub Name)} (h0 : c₀.loc t = .resub (.take intent))
    (hl : c₀.shared.notifications.Lockstep C) (hrun : Run (resubscribing C t) (Alone C t) (c₀, []) x)
    (hret : x.1.loc t = .resub (.returned intent' out false)) :
    (∀ r, out = some r → r.Filtered C t (c₀, []) x) ∧
      ((∀ p ∈ c₀.shared.notifications.pending, x.1.shared.notifications.OnFile C (p.key C) ∨
        ∃ r, out = some r ∧ (p ∉ r.validPending ∨ r.GaveUp p)) ↔ x.2 = []) := by
  have hstart : Loses C t (c₀, []) (c₀, []) (.take intent) :=
    ⟨.refl, h0, trivial, ⟨rfl, rfl, hl.nodup⟩, fun r hr => absurd hr (by simp [ResubPc.work])⟩
  obtain ⟨q, hq⟩ := hrun.invariant (P := fun x => ∃ q, Loses C t (c₀, []) x q) ⟨_, hstart⟩
    fun x a x' ⟨q, hq⟩ hok hs => hq.step hok hs
  have hloc := hq.loc
  rw [hret] at hloc
  cases hloc
  refine ⟨fun r hr => hq.work r hr, fun hkept => ?_, fun hnil => ?_⟩
  · cases out with
    | none => exact hq.loses
    | some =>
      -- a refused config is that of a forgotten entry
      cases hx : x.2 with
      | nil => rfl
      | cons cfg =>
        have hmem : cfg ∈ x.2 := by rw [hx]; exact mem_cons_self ..
        obtain ⟨p, hp, hforgot⟩ := hq.loses.resolve_left (by simp) cfg hmem
        exact absurd (hkept p hp) hforgot.not_retained
  · exact retains_of_served h0 hl (served_of_refusals hrun hnil) hret

instance (x : State Name Key × List (NotificationConfig Name)) (a : Nat × Act Name Key) :
    Decidable (Alone C t x a) :=
  decidable_of_iff
    ((if a.1 = t then
      match x.1.loc t, a.2 with
      | .resub (.returned _ _ _), _ => false
      | .resub (.batch _ (.send b)), .resub (.batch (.reply _ handle)) =>
        decide (handle ∉ x.1.shared.notifications.activeNotifications.keys ∧ handle ∉ b.refused)
      | _, _ => true
    else
      match sectionOf C x.1 a with
      | .skip => true
      | _ => false) = true) <| by
    unfold Alone Undisturbed
    split <;> split <;> simp_all

end

/-- `MAIN.a` is on file and swept, and goroutine 1 begins to re-subscribe it. -/
def sweptA : State String String :=
  { shared :=
      { notifications :=
          { activeNotifications := ∅
            pending := [⟨⟨"MAIN.a", 0, 0, .serverOnChange⟩, 0⟩]
            configsByKey := {"main.a"}
            notificationChannel := some 1
            registered := 1 }
        symbols := fun k => if k = "main.a" then some "MAIN.a" else none
        onDemandSymbols := ∅
        epoch := 1
        resubscribeMu := some 1 }
    loc := fun t => if t = 1 then .resub (.take none) else .idle }

theorem sweptA_lockstep : sweptA.shared.notifications.Lockstep ascii := by
  refine ⟨fun k => ?_, ?_⟩
  · have hkey : ascii.symbolKey "MAIN.a" = "main.a" := by decide +kernel
    simp [sweptA, keys, PendingNotification.key, hkey]
  · simp [sweptA, keys]

/-- The re-subscribe of `MAIN.a` up to its request. -/
def resubscribeA : List (Nat × Act String String) :=
  [(1, .resub .next), (1, .resub .next), (1, .resub .next), (1, .resub .next),
    (1, .resub (.batch (.check true))), (1, .resub (.batch (.resolve fun _ => true))),
    (1, .resub (.batch (.client true)))]

/-- The re-subscribe of `MAIN.a` after the batch has settled. -/
def resubscribeATail : List (Nat × Act String String) :=
  [(1, .resub (.batch .finish)), (1, .resub (.batch .settle)), (1, .resub .next),
    (1, .resub (.codes [])), (1, .resub .next), (1, .resub .next)]

/-- The work of goroutine 1's re-subscribe when it has returned without an error. -/
def returnedOk (c : State String String) : Option (Resub String) :=
  match c.loc 1 with
  | .resub (.returned none (some r) false) => some r
  | _ => none

theorem loc_of_returnedOk {c r}
    (h : returnedOk c = some r) : c.loc 1 = .resub (.returned none (some r) false) := by
  unfold returnedOk at h
  split at h
  · next r' hloc => rw [hloc, Option.some.inj h]
  · cases h

/-- The PLC gives `MAIN.a` handle 8: nothing is refused, and it is on file. -/
theorem resubscribe_retains_swept : ∃ x r, Run (resubscribing ascii 1) (Alone ascii 1) (sweptA, []) x ∧
      returnedOk x.1 = some r ∧ x.2 = [] ∧
      ∀ p ∈ sweptA.shared.notifications.pending,
        x.1.shared.notifications.OnFile ascii (p.key ascii) ∨
        ∃ r', some r = some r' ∧ (p ∉ r'.validPending ∨ r'.GaveUp p) := by
  obtain ⟨x, hrun, hret, hnil⟩ := exists_run (resubscribing ascii 1) (Alone ascii 1) (sweptA, [])
    (fun x => (returnedOk x.1).isSome ∧ x.2 = [])
    (resubscribeA ++ [(1, .resub (.batch (.reply ReturnCode.noErrors 8))),
      (1, .resub (.batch .commit))] ++ resubscribeATail) (by decide +kernel)
  obtain ⟨r, hr⟩ := Option.isSome_iff_exists.1 hret
  exact ⟨x, r, hrun, hr, hnil, (resubscribe_retains rfl sweptA_lockstep hrun (loc_of_returnedOk hr)).2.2 hnil⟩

/-- The PLC refuses the request for `MAIN.a` (no memory): the re-subscribe succeeds, and the config is
    neither on file nor dropped for one of the two reasons. -/
theorem refused_forgotten :
    ¬ ∀ x (r : Resub String), Run (resubscribing ascii 1) (Alone ascii 1) (sweptA, []) x →
      x.1.loc 1 = .resub (.returned none (some r) false) →
      ∀ p ∈ sweptA.shared.notifications.pending,
        x.1.shared.notifications.OnFile ascii (p.key ascii) ∨ p ∉ r.validPending ∨ r.GaveUp p := by
  intro hall
  obtain ⟨x, hrun, hpend, hp⟩ := exists_run (resubscribing ascii 1) (Alone ascii 1) (sweptA, [])
    (fun x => x.1.shared.notifications.pending = [] ∧ (returnedOk x.1).any fun r =>
      decide (r.validPending = sweptA.shared.notifications.pending ∧ r.outcome.droppedConfigs = []))
    (resubscribeA ++ [(1, .resub (.batch (.reply 0x70A 0)))] ++ resubscribeATail) (by decide +kernel)
  rw [Option.any_eq_true] at hp
  obtain ⟨r, hr, hp⟩ := hp
  obtain ⟨hvalid, hdropped⟩ := of_decide_eq_true hp
  rcases hall x r hrun (loc_of_returnedOk hr) _ (mem_cons_self ..) with hf | hv | hg
  · have hkeys := hf.2
    rw [hpend] at hkeys
    exact absurd hkeys (by simp [keys])
  · rw [hvalid] at hv
    exact hv (mem_cons_self ..)
  have hd := hg.1
  rw [hdropped] at hd
  exact absurd hd (by simp)

end GoAds.Notification
