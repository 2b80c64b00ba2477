import GoAds.Notification.OnFile

/-!
# `Notification.Retained` — a successful re-subscribe forgets no declared subscription

One re-subscribe, from the section that takes the configs off file to its return, while nobody else
changes the manager.  The symbol cache and the epoch may change under it at any point, a name may
resolve or not, and the PLC may answer each request as it likes: so an entry can be bound, refused by
the PLC, or skipped for any of the library's reasons.

Every entry is followed through the four places it can be: filtered out, committed by the batch,
queued again, given up after `resubscribeMaxAttempts`.  One outcome is in none of them: an entry that
the PLC refuses with an error code is not skipped, so it is not queued again either.
-/

namespace GoAds.Notification

open Interleaving List Manager

variable {Name Key : Type} [DecidableEq Key] {C : Casing Name Key}

/-- The runs of one re-subscribe of goroutine `t`, up to its return: others leave the manager alone,
    and the PLC gives out handles that are not in use. -/
def Undisturbed (C : Casing Name Key) (t : Nat) (c : State Name Key) (a : Nat × Act Name Key) : Prop :=
  if a.1 = t then
    match c.loc t, a.2 with
    | .resub (.returned _ _ _), _ => False
    | .resub (.batch _ (.send b)), .resub (.batch (.reply _ handle)) =>
      handle ∉ c.shared.notifications.activeNotifications.keys ∧ handle ∉ b.refused
    | _, _ => True
  else
    match sectionOf C c a with
    | .skip => True
    | _ => False

/-- The PLC refuses no request of goroutine `t` with an error code. -/
def Accepts (t : Nat) (a : Nat × Act Name Key) : Prop :=
  match a with
  | (u, .resub (.batch (.reply error _))) => u = t → error = ReturnCode.noErrors
  | _ => True

/-! ## The batch -/

/-- Where the slots of a batch are: unanswered, skipped, or committed, bound and on file.  The
    handles the batch refused are unbound, and they are the handles of its skipped slots. -/
structure Batch.Accounts (C : Casing Name Key) (m : Manager Name Key) (b : Batch Name) : Prop where
  each : ∀ s ∈ b.slots, s.result = none ∨ s.skipped = true ∨
    m.OnFile C (C.symbolKey s.config.symbolName)
  committed : ∀ s ∈ b.slots, s.committed = true → s.handle ∈ m.activeNotifications
  refused : ∀ h ∈ b.refused, h ∉ m.activeNotifications
  handles : ∀ s ∈ b.slots, s.skipped = true → s.handle ≠ 0 → s.handle ∈ b.refused

/-- The results of a batch that returned without an error: each entry was skipped or is on file, and
    the handle of a skipped one is unbound. -/
structure Accounted (C : Casing Name Key) (m : Manager Name Key)
    (valid : List (PendingNotification Name)) (res : List SumNotificationResult) : Prop where
  each : ∀ x ∈ valid.zip res, x.2.skipped.isSome = true ∨ m.OnFile C (x.1.key C)
  unbound : ∀ r ∈ res, r.skipped.isSome = true → r.handle ≠ 0 → r.handle ∉ m.activeNotifications

/-- What the batch of a re-subscribe has done so far. -/
def BatchPc.Accounts (C : Casing Name Key) (m : Manager Name Key)
    (valid : List (PendingNotification Name)) : BatchPc Name Key → Prop
  | .check _ _ | .resolve _ _ _ => True
  | .client b | .send b => b.Accounts C m
  | .commit b cfg handle _ => b.Accounts C m ∧ nextConfig b.slots = some cfg ∧
      handle ∉ m.activeNotifications ∧ handle ∉ b.refused
  | .settle b err | .release b err => err = true ∨ b.Accounts C m ∧ nextConfig b.slots = none
  | .returned res err => err = true ∨ Accounted C m valid res

variable {existing : Finset Key} {handle : Handle} {cs : List (NotificationConfig Name)}
  {valid : List (PendingNotification Name)} {resolves : Name → Bool} {ch : Option Chan}
  {sh : Shared Name Key}

theorem accounts_resolveLoop {seen} : ∀ s ∈ resolveLoop C existing resolves seen cs,
      (s.result = none ∨ s.skipped = true) ∧ s.committed = false ∧ s.handle = 0 := by
  induction cs generalizing seen with
  | nil => intro s hs; exact absurd hs (by simp [resolveLoop])
  | cons cfg rest ih =>
    intro s hs
    unfold resolveLoop at hs
    split at hs
    · rcases mem_cons.1 hs with rfl | hs
      · exact ⟨.inr rfl, rfl, rfl⟩
      · exact ih s hs
    rcases mem_cons.1 hs with rfl | hs
    · cases hr : resolves cfg.symbolName
      · exact ⟨.inr (by simp [Slot.skipped]), rfl, by simp [Slot.handle]⟩
      · exact ⟨.inl (by simp), rfl, by simp [Slot.handle]⟩
    · exact ih s hs

variable {b : Batch Name} {m : Manager Name Key} {s : Section Name}

theorem Batch.accounts_resolved {epoch} :
    Batch.Accounts C m ⟨resolveLoop C existing resolves ∅ cs, ch, epoch, []⟩ := by
  refine ⟨fun s hs => ?_, fun s hs hc => ?_, fun h hh => ?_, fun s hs _ h0 => ?_⟩
  · exact (accounts_resolveLoop s hs).1.imp_right .inl
  · rw [(accounts_resolveLoop s hs).2.1] at hc
    cases hc
  · exact absurd hh (by simp)
  · exact absurd (accounts_resolveLoop s hs).2.2 h0

omit [DecidableEq Key] in
theorem accounted_of_slots (hc : configs b.slots = valid.map (·.config))
    (h : b.Accounts C m) (hn : nextConfig b.slots = none) : Accounted C m valid (results b.slots) := by
  refine ⟨fun x hx => ?_, fun r hr hskip h0 => ?_⟩
  · obtain ⟨s, hs, hcfg, hres⟩ := exists_slot_of_mem_zip hc (show (x.1, x.2) ∈ _ from hx)
    rcases h.each s hs with hnone | hskip | hfile
    · exact absurd hnone (result_ne_none hn hs)
    · rw [Slot.skipped, hres] at hskip
      exact .inl hskip
    · rw [hcfg] at hfile
      exact .inr hfile
  · obtain ⟨s, hs, rfl⟩ := mem_map.1 hr
    exact h.refused _ (h.handles s hs hskip h0)

omit [DecidableEq Key] in
/-- Nobody swept the map, so `settle` amends nothing. -/
theorem Batch.Accounts.settle (h : b.Accounts C m) : b.strandedSlots m = [] ∧ b.settle m = b := by
  have hnot : ∀ s ∈ b.slots, s.stranded m = false := by
    intro s hs
    cases hc : s.committed with
    | false => simp [Slot.stranded, hc]
    | true => simpa [Slot.stranded, hc] using h.committed s hs hc
  have hnil : b.strandedSlots m = [] :=
    filter_eq_nil_iff.2 fun s hs => by simp [hnot s hs]
  refine ⟨hnil, ?_⟩
  have hmap : (b.slots.map fun s => if s.stranded m then
      { s with result := some { handle := s.handle, skipped := some .strandedByReload } }
      else s) = b.slots := by
    refine (map_congr_left fun s hs => ?_).trans (map_id _)
    rw [hnot s hs]
    rfl
  simp only [Batch.settle, hmap, hnil, map_nil, filter_nil, append_nil]

omit [DecidableEq Key] in
/-- A skipped answer is accounted for; its handle, if any, joins the refused ones. -/
theorem Batch.Accounts.skip (h : b.Accounts C m) (e : SkipReason) {refused}
    (hsub : b.refused ⊆ refused) (hnew : ∀ x ∈ refused, x ∉ m.activeNotifications)
    (hmem : handle ≠ 0 → handle ∈ refused) : Batch.Accounts C m { b with
      slots := report { handle := handle, skipped := some e } false b.slots, refused := refused } := by
  refine ⟨fun s hs => ?_, fun s hs hc => ?_, hnew, fun s hs hskip h0 => ?_⟩
  · rcases mem_report hs with hs | ⟨-, hres, -⟩
    · exact h.each s hs
    · exact .inr (.inl (by simp [Slot.skipped, hres]))
  · rcases mem_report hs with hs | ⟨-, -, hcom⟩
    · exact h.committed s hs hc
    · rw [hcom] at hc
      cases hc
  rcases mem_report hs with hs | ⟨-, hres, -⟩
  · exact hsub (h.handles s hs hskip h0)
  have hh : s.handle = handle := by simp [Slot.handle, hres]
  rw [hh] at h0 ⊢
  exact hmem h0

/-- A committed answer is accounted for: its symbol is on file and its handle bound. -/
theorem Batch.Accounts.bind (h : b.Accounts C m) {cfg fresh}
    (hturn : nextConfig b.slots = some cfg) (href : handle ∉ b.refused) :
    Batch.Accounts C (m.bind C cfg handle fresh ch)
      { b with slots := report { handle := handle } true b.slots } := by
  obtain ⟨ha, hp, hk, -⟩ := bind_eq (m := m) (C := C) cfg handle fresh ch
  have hfile : ∀ {k}, m.OnFile C k ∨ k = C.symbolKey cfg.symbolName →
      (m.bind C cfg handle fresh ch).OnFile C k := by
    intro k hk'
    have : (m.addConfig C cfg).OnFile C k := onFile_setPending hk'
    exact this.of_eq hp hk
  refine ⟨fun s hs => ?_, fun s hs hc => ?_, fun x hx hmem => ?_, fun s hs hskip h0 => ?_⟩
  · rcases mem_report hs with hs | ⟨hcfg, -, -⟩
    · exact (h.each s hs).imp_right (.imp_right fun hf => hfile (.inl hf))
    · rw [hturn] at hcfg
      exact .inr (.inr (hfile (.inr (by rw [Option.some.inj hcfg]))))
  · rw [ha, AList.mem_insert]
    rcases mem_report hs with hs | ⟨-, hres, -⟩
    · exact .inr (h.committed s hs hc)
    · exact .inl (by simp [Slot.handle, hres])
  · rw [ha, AList.mem_insert] at hmem
    rcases hmem with rfl | hmem
    · exact href hx
    · exact h.refused x hx hmem
  rcases mem_report hs with hs | ⟨-, hres, -⟩
  · exact h.handles s hs hskip h0
  · simp [Slot.skipped, hres] at hskip

/-- **One step of the batch** accounts for every slot, when the PLC refuses none. -/
theorem BatchStep.accounts {p p' a} (h : BatchStep C sh p a p' s)
    (hfor : p.For (valid.map (·.config))) (hplc : ∀ b error handle, p = .send b → a = .reply error handle →
      error = ReturnCode.noErrors ∧ handle ∉ sh.notifications.activeNotifications.keys ∧ handle ∉ b.refused)
    (hp : p.Accounts C sh.notifications valid) : p'.Accounts C (s.run C sh.notifications) valid := by
  cases h with
  | refused | noClient | aborted => exact .inl rfl
  | empty => exact .inr ⟨by simp, by simp⟩
  | checked => trivial
  | allSkipped cs ch existing resolves hn =>
    exact .inr (accounted_of_slots (b := ⟨_, ch, sh.epoch, []⟩)
      ((configs_resolveLoop ..).trans hfor) Batch.accounts_resolved hn)
  | resolved => exact Batch.accounts_resolved
  | connected => exact hp
  | plcRefused b error handle he => exact absurd (hplc b error handle rfl rfl).1 he
  | zeroHandle => exact hp.skip _ (fun _ hx => hx) hp.refused (fun h0 => absurd rfl h0)
  | created b cfg handle hn =>
    obtain ⟨-, hfresh, href⟩ := hplc b _ handle rfl rfl
    exact ⟨hp, hn, fun hmem => hfresh (AList.mem_keys.1 hmem), href⟩
  | finished b hn => exact .inr ⟨hp, hn⟩
  | committed => exact hp.1.bind hp.2.1 hp.2.2.2
  | declined b cfg handle fresh e =>
    refine hp.1.skip e (subset_append_left ..) (fun x hx => ?_) (fun _ => by simp)
    rcases mem_append.1 hx with hx | hx
    · exact hp.1.refused x hx
    · rw [mem_singleton.1 hx]
      exact hp.2.2.1
  | settled =>
    rcases hp with herr | ⟨hb, hn⟩
    · exact .inl herr
    obtain ⟨hnil, hset⟩ := hb.settle
    rw [hset, hnil]
    exact .inr (accounted_of_slots hfor hb hn)
  | amended =>
    rcases hp with herr | ⟨hb, hn⟩
    · exact .inl herr
    obtain ⟨hnil, hset⟩ := hb.settle
    rw [hset, hnil]
    exact .inr ⟨hb, hn⟩
  | released b err codes =>
    rcases hp with herr | ⟨hb, hn⟩
    · exact .inl herr
    show (BatchPc.returned (results b.slots) err).Accounts C
      (sh.notifications.sumDeleteDeviceNotification C false b.refused codes) valid
    rw [sumDeleteDeviceNotification_of_notMem hb.refused]
    exact .inr (accounted_of_slots hfor hb hn)

/-! ## The re-subscribe -/

/-- The entry was given up: it had been skipped too often. -/
def Resub.GaveUp (r : Resub Name) (p : PendingNotification Name) : Prop :=
  p.config.symbolName ∈ r.outcome.droppedConfigs ∧
    resubscribeMaxAttempts ≤ p.resubscribeAttempts + 1

/-- What the re-subscribe has done so far for the entries `ps` that were on file when it began.  The
    last two lines are the places a re-subscribe does not come to before it returns. -/
def ResubPc.Accounts (C : Casing Name Key) (m : Manager Name Key)
    (ps : List (PendingNotification Name)) : ResubPc Name Key → Prop
  | .take _ => m.Lockstep C ∧ m.pending = ps
  | .filter _ saved _ => saved = ps
  | .allGone r => r.savedPending = ps ∧ r.validPending = []
  | .lower r | .snapshot r => r.savedPending = ps
  | .batch r p => r.savedPending = ps ∧ p.Accounts C m r.validPending
  | .orphans r err => r.savedPending = ps ∧ (err = true ∨
      (∀ p ∈ r.validPending, m.OnFile C (p.key C) ∨ p.key C ∈ keys C r.outcome.retryEntries ∨
        r.GaveUp p) ∧ ∀ h ∈ r.outcome.orphanHandles, h ∉ m.activeNotifications)
  | .requeue r err => r.savedPending = ps ∧ (err = true ∨
      ∀ p ∈ r.validPending, m.OnFile C (p.key C) ∨ p.key C ∈ keys C r.outcome.retryEntries ∨
        r.GaveUp p)
  | .drop r err => r.savedPending = ps ∧ (err = true ∨
      ∀ p ∈ r.validPending, m.OnFile C (p.key C) ∨ r.GaveUp p)
  | .rollback _ | .undo _ _ => True
  | .returned _ none err => err = true ∨ ∀ p ∈ ps, m.OnFile C (p.key C)
  | .returned _ (some r) err => err = true ∨ r.savedPending = ps ∧
      ∀ p ∈ r.validPending, m.OnFile C (p.key C) ∨ r.GaveUp p
  | .recoverSweep | .recoverRelease _ | .recoverIntent | .recheck _ | .restore _ | .raise => False

omit [DecidableEq Key] in
/-- The result loop: a skipped entry is queued again or given up. -/
theorem accounts_triaged {r : Resub Name} {res : List SumNotificationResult}
    (h : Accounted C m r.validPending res) (hlen : res.length = r.validPending.length) :
    (∀ p ∈ r.validPending, m.OnFile C (p.key C) ∨
        p.key C ∈ keys C (triage r.validPending res).retryEntries ∨
        Resub.GaveUp { r with outcome := triage r.validPending res } p) ∧
      ∀ x ∈ (triage r.validPending res).orphanHandles, x ∉ m.activeNotifications := by
  refine ⟨fun p hp => ?_, fun x hx => ?_⟩
  · obtain ⟨y, hy⟩ := exists_mem_zip hlen hp
    rcases h.each _ hy with hskip | hfile
    · have hmem : p.bump ∈ skippedEntries r.validPending res :=
        mem_skippedEntries.2 ⟨p, y, hy, hskip, rfl⟩
      by_cases hcap : resubscribeMaxAttempts ≤ p.bump.resubscribeAttempts
      · refine .inr (.inr ⟨?_, hcap⟩)
        exact mem_map.2 ⟨p.bump, mem_filter.2 ⟨hmem, by simpa using hcap⟩, rfl⟩
      · exact .inr (.inl (mem_keys.2 ⟨p.bump, mem_filter.2 ⟨hmem, by simpa using hcap⟩, rfl⟩))
    · exact .inl hfile
  · obtain ⟨y, hy, rfl⟩ := mem_map.1 hx
    obtain ⟨hy, hcond⟩ := mem_filter.1 hy
    simp only [Bool.and_eq_true, bne_iff_ne, ne_eq] at hcond
    exact h.unbound y hy hcond.1 hcond.2

theorem Section.Lowers.run (hs : s.Lowers) :
    (s.run C m).pending = m.pending ∧ (s.run C m).configsByKey = m.configsByKey := by
  rcases hs with rfl | ⟨n, rfl⟩ <;> exact ⟨rfl, rfl⟩

/-- **One step of the re-subscribe** accounts for every entry, when the PLC refuses none. -/
theorem ResubStep.accounts {ps : List (PendingNotification Name)}
    {p p' : ResubPc Name Key} {a : ResubAct Name} (h : ResubStep C sh p a (some p') s) (hwf : p.WF C)
    (hplc : ∀ r b error handle, p = .batch r (.send b) → a = .batch (.reply error handle) →
      error = ReturnCode.noErrors ∧ handle ∉ sh.notifications.activeNotifications.keys ∧ handle ∉ b.refused)
    (hret : ∀ i out err, p ≠ .returned i out err) (hp : p.Accounts C sh.notifications ps) :
    p'.Accounts C (s.run C sh.notifications) ps := by
  cases h with
  | swept | sweptReleased | intentTaken | boundNothing | recovered => exact hp.elim
  | nothing =>
    refine .inr fun q hq => hp.1.onFile_iff.2 (mem_keys.2 ⟨q, ?_, rfl⟩)
    rw [hp.2]
    exact hq
  | taken => exact hp.2
  | noneLeft intent saved ch hv => exact ⟨hp, hv⟩
  | filtered | lowered => exact hp
  | channelReleased => exact .inr ⟨hp.1, by simp [hp.2]⟩
  | snapshot => exact ⟨hp, trivial⟩
  | batch r p p' a s hb =>
    refine ⟨hp.1, hb.accounts hwf.2 (fun b error handle hpb hab => ?_) hp.2⟩
    exact hplc r b error handle (by rw [hpb]) (by rw [hab])
  | triaged =>
    refine ⟨hp.1, ?_⟩
    rcases hp.2 with herr | hacc
    · exact .inl herr
    rcases hwf.2 with hlen | ⟨-, herr⟩
    · exact .inr (accounts_triaged hacc (by simpa using hlen))
    · exact .inl herr
  | orphansReleased r err codes =>
    refine ⟨hp.1, hp.2.imp_right fun hacc => ?_⟩
    show ∀ q ∈ r.validPending,
      (sh.notifications.sumDeleteDeviceNotification C false r.outcome.orphanHandles codes).OnFile C
        (q.key C) ∨ _
    rw [sumDeleteDeviceNotification_of_notMem hacc.2]
    exact hacc.1
  | requeued =>
    refine ⟨hp.1, hp.2.imp_right fun hacc q hq => ?_⟩
    rcases hacc q hq with hfile | hretry | hgave
    · exact .inl (hfile.addPendings _)
    · exact .inl (onFile_addPendings_of_mem hretry)
    · exact .inr hgave
  | failed | rolledBack => trivial
  | succeeded r s hs =>
    refine .inr ⟨hp.1, fun q hq => ?_⟩
    obtain ⟨hpend, hkeys⟩ := hs.run (C := C) (m := sh.notifications)
    exact (hp.2.resolve_left (by simp) q hq).imp_left fun hf => hf.of_eq hpend hkeys
  | undone => exact .inl rfl
  | recoveryFailed | recoveryReturned => exact absurd rfl (hret _ _ _)

section Run

variable {t : Nat} {ps : List (PendingNotification Name)}

/-- The re-subscribe of goroutine `t`, which began with the entries `ps` on file, has come to `p`. -/
structure Retains (C : Casing Name Key) (t : Nat) (ps : List (PendingNotification Name))
    (c : State Name Key) (p : ResubPc Name Key) : Prop where
  loc : c.loc t = .resub p
  wf : p.WF C
  accounts : p.Accounts C c.shared.notifications ps

variable {a : Act Name Key} {p : ResubPc Name Key} {c c' : State Name Key}

/-- Another goroutine's step leaves the manager alone. -/
theorem Undisturbed.other {u}
    (h : Undisturbed C t c (u, a)) (hu : u ≠ t) (hs : step C c (u, a) = some c') :
    c'.shared.notifications = c.shared.notifications ∧ c'.loc t = c.loc t := by
  have hskip : sectionOf C c (u, a) = .skip := by
    simp only [Undisturbed, if_neg hu] at h
    split at h
    · next hsec => exact hsec
    · exact h.elim
  obtain ⟨pc', e, -, he, rfl⟩ := step_cases hs
  refine ⟨?_, Conf.loc_of_ne (Ne.symm hu)⟩
  rw [Effect.run_notifications, ← he, hskip]
  rfl

theorem Undisturbed.own
    (h : Undisturbed C t c (t, a)) (hloc : c.loc t = .resub p) (hs : step C c (t, a) = some c') :
    (∀ i out err, p ≠ .returned i out err) ∧
      ((∃ s i, ResubStep C c.shared p i none s) ∨ ∃ p' s i, a = .resub i ∧
        ResubStep C c.shared p i (some p') s ∧ c'.loc t = .resub p' ∧
        c'.shared.notifications = s.run C c.shared.notifications) := by
  have hret : ∀ i out err, p ≠ .returned i out err := by
    rintro i out err rfl
    simp [Undisturbed, hloc] at h
  refine ⟨hret, ?_⟩
  obtain ⟨pc', e, hp, -, rfl⟩ := step_cases hs
  rw [hloc] at hp
  cases hp with
  | resubDone p a s hstep => exact .inl ⟨s, a, hstep⟩
  | resub p p' a s hstep => exact .inr ⟨p', s, a, rfl, hstep, Conf.loc_self, rfl⟩

/-- The re-subscribe ends only from its return, or from what recovery does after it. -/
theorem ResubStep.end_cases {sh a s} (h : ResubStep C sh p a none s) :
    (∃ i out err, p = .returned i out err) ∨ (∃ i, p = .restore i) ∨ p = .raise := by
  cases h with
  | finished => exact .inl ⟨_, _, _, rfl⟩
  | restored i => exact .inr (.inl ⟨i, rfl⟩)
  | raised => exact .inr (.inr rfl)

/-- The runs of one re-subscribe whose requests the PLC accepts. -/
def Served (C : Casing Name Key) (t : Nat) (c : State Name Key) (a : Nat × Act Name Key) : Prop :=
  Undisturbed C t c a ∧ Accepts t a

theorem Retains.own (h : Retains C t ps c p) (hok : Served C t c (t, a)) (hs : step C c (t, a) = some c') :
    ∃ p', Retains C t ps c' p' := by
  obtain ⟨hret, hstep⟩ := hok.1.own h.loc hs
  rcases hstep with ⟨s, i, hend⟩ | ⟨p', s, i, rfl, hstep, hloc', hm⟩
  · have hacc := h.accounts
    rcases hend.end_cases with ⟨_, _, _, rfl⟩ | ⟨_, rfl⟩ | rfl
    · exact absurd rfl (hret _ _ _)
    · exact hacc.elim
    · exact hacc.elim
  refine ⟨p', hloc', hstep.wf (fun i hi => ?_) h.wf, ?_⟩
  · have hacc := h.accounts
    rw [hi] at hacc
    exact hacc.1.nodup
  rw [hm]
  refine hstep.accounts h.wf (fun r b error handle hpb hab => ?_) hret h.accounts
  have hfresh := hok.1
  subst hab hpb
  simp only [Undisturbed, h.loc, if_true] at hfresh
  exact ⟨hok.2 rfl, hfresh⟩

theorem Retains.step (h : Retains C t ps c p)
    {a} (hok : Served C t c a) (hs : step C c a = some c') :
    ∃ p', Retains C t ps c' p' := by
  obtain ⟨u, a⟩ := a
  by_cases hu : u = t
  · subst hu
    exact h.own hok hs
  · obtain ⟨hm, hloc⟩ := hok.1.other hu hs
    exact ⟨p, hloc.trans h.loc, h.wf, by rw [hm]; exact h.accounts⟩

end Run

/-- **A re-subscribe that the PLC serves forgets nothing.**  Goroutine `t` re-subscribes from `c₀`,
    the PLC refuses none of its requests, and it returns without an error in `c`.  Then every config
    that was on file in `c₀` is on file in `c`, or was filtered out, or was given up after
    `resubscribeMaxAttempts`. -/
theorem retains_of_served {t c₀ c intent intent' out} (h0 : c₀.loc t = .resub (.take intent))
    (hl : c₀.shared.notifications.Lockstep C) (hrun : Run (step C) (Served C t) c₀ c)
    (hret : c.loc t = .resub (.returned intent' out false)) :
    ∀ p ∈ c₀.shared.notifications.pending, c.shared.notifications.OnFile C (p.key C) ∨
      ∃ r, out = some r ∧ (p ∉ r.validPending ∨ r.GaveUp p) := by
  have hstart : Retains C t c₀.shared.notifications.pending c₀ (.take intent) :=
    ⟨h0, trivial, hl, rfl⟩
  obtain ⟨q, hq⟩ := hrun.invariant (P := fun c => ∃ q, Retains C t c₀.shared.notifications.pending c q)
    ⟨_, hstart⟩ fun c a c' ⟨q, hq⟩ hok hs => hq.step hok hs
  have hloc := hq.loc
  rw [hret] at hloc
  cases hloc
  intro p hp
  cases out with
  | none => exact .inl (hq.accounts.resolve_left (by simp) p hp)
  | some r =>
    by_cases hv : p ∈ r.validPending
    · exact ((hq.accounts.resolve_left (by simp)).2 p hv).imp_right fun hg => ⟨r, rfl, .inr hg⟩
    · exact .inr ⟨r, rfl, .inl hv⟩

end GoAds.Notification
