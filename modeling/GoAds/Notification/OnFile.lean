import GoAds.Notification.Durable

/-!
# `Notification.OnFile` — every live subscription is on file

A handle in the map belongs to a symbol whose config is on file, so that the next reconnect restores
it.  While a re-subscribe runs this fails on purpose: it takes every config off file first.  So the
invariant is that a live symbol is on file *or in the hands of the re-subscribe in progress*
(`ResubPc.Keeps`): it saved the entry, found it valid, sees it skipped as a duplicate of the live
handle, and queues it again.

The config of a live symbol can be lost where a section decides by name or from a snapshot:
`KeepsLive` lists the five places and what has to hold there.
-/

namespace GoAds.Notification

open Interleaving List Manager

variable {Name Key : Type} [DecidableEq Key] {C : Casing Name Key}

/-! ## One section -/

/-- The condition on one section, in the state before it.  A commit binds a symbol cached under its
    own name.  The symbols a batch un-registers because their handles were swept are not live again;
    a delete finds no other handle of its symbol; and every handle a rollback leaves in the map
    belongs to a symbol it puts back on file. -/
def Section.KeepsLive (C : Casing Name Key) (m : Manager Name Key) : Section Name → Prop
  | .bind cfg _ fresh _ => C.symbolKey fresh = C.symbolKey cfg.symbolName
  | .removeConfigs names => ∀ n ∈ names, C.symbolKey n ∉ m.liveNotificationNames C
  | .delete handle (some n) => ∀ h ∈ m.activeNotifications.keys, ∀ e ∈ m.activeNotifications.lookup h,
      C.symbolKey e.fullName = C.symbolKey n → h = handle
  | .rollback preHandles savedPending _ => ∀ h ∈ preHandles, ∀ e ∈ m.activeNotifications.lookup h,
      C.symbolKey e.fullName ∈ keys C savedPending
  | _ => True

namespace Manager

variable {m : Manager Name Key} {k : Key}

variable {h : Handle}

omit [DecidableEq Key] in
theorem lookup_dropHandles {hs} (hmem : h ∈ hs) :
    (m.dropHandles hs).activeNotifications.lookup h = none := by
  induction hs generalizing m with
  | nil => exact absurd hmem (by simp)
  | cons x hs ih =>
    by_cases hx : h ∈ hs
    · exact ih hx
    have hxe : h = x := (mem_cons.1 hmem).resolve_right hx
    cases hlook : (m.dropHandles (x :: hs)).activeNotifications.lookup h with
    | none => rfl
    | some e =>
      -- what the rest of the loop leaves bound was bound after this iteration
      have := fewer_dropHandles { m with activeNotifications := m.activeNotifications.erase x } hs h e hlook
      rw [hxe, AList.lookup_erase] at this
      cases this

/-- What a rollback leaves bound was bound when the re-subscribe looked. -/
theorem mem_of_lookup_rollback {pre saved ch e}
    (hl : (m.rollback C pre saved ch).activeNotifications.lookup h = some e) :
    h ∈ pre ∧ m.activeNotifications.lookup h = some e := by
  have hl' : (m.dropHandles (m.newHandles pre)).activeNotifications.lookup h = some e := hl
  have hm := fewer_dropHandles m _ h e hl'
  refine ⟨?_, hm⟩
  by_contra hpre
  have hnew : h ∈ m.newHandles pre := by
    have hkey : h ∈ m.activeNotifications.keys :=
      AList.mem_keys.1 (AList.lookup_isSome.1 (by rw [hm]; rfl))
    exact mem_filter.2 ⟨hkey, by simpa using hpre⟩
  rw [lookup_dropHandles hnew] at hl'
  cases hl'

theorem OnFile.removeConfigs (hC : C.Agree) (hl : m.Lockstep C) (hk : m.OnFile C k)
    {ns} (hn : ∀ n ∈ ns, k ≠ C.symbolKey n) : (m.removeConfigs C ns).OnFile C k := by
  induction ns generalizing m with
  | nil => exact hk
  | cons n ns ih =>
    refine ih (hl.removeNotificationConfig hC n) ?_ fun x hx => hn x (mem_cons_of_mem n hx)
    exact onFile_removeNotificationConfig hC hl hk (hn n (mem_cons_self ..))

theorem OnFile.addPendings (hk : m.OnFile C k) (ps : List (PendingNotification Name)) :
    (m.addPendings C ps).OnFile C k := by
  induction ps generalizing m with
  | nil => exact hk
  | cons p ps ih => exact ih (onFile_setPending (.inl hk))

theorem onFile_addPendings_of_mem {ps} (hk : k ∈ keys C ps) :
    (m.addPendings C ps).OnFile C k := by
  induction ps generalizing m with
  | nil => exact absurd hk (by simp [keys])
  | cons p ps ih =>
    rcases mem_cons.1 hk with rfl | hk
    · exact OnFile.addPendings (onFile_setPending (.inr rfl)) ps
    · exact ih hk

theorem OnFile.restoreConfigs (hk : m.OnFile C k) (ps : List (PendingNotification Name)) :
    (m.restoreConfigs C ps).OnFile C k := by
  induction ps generalizing m with
  | nil => exact hk
  | cons p ps ih =>
    unfold Manager.restoreConfigs
    split
    · exact ih hk
    · exact ih (onFile_setPending (.inl hk))

omit [DecidableEq Key] in
theorem OnFile.of_eq {m' : Manager Name Key} (hk : m.OnFile C k) (hp : m'.pending = m.pending)
    (hc : m'.configsByKey = m.configsByKey) : m'.OnFile C k := by
  rw [OnFile, hp, hc]
  exact hk

end Manager

variable {a : Act Name Key} {e : Effect Name Key} {k : Key} {slots : List (Slot Name)}
  {m : Manager Name Key} {t : Nat} {pc' : Pc Name Key} {s : Section Name} {sh : Shared Name Key}
  {c : State Name Key}

section

variable (hC : C.Agree) (hl : m.Lockstep C)

include hC hl

/-- **One section.**  A symbol on file that is live after the section is still on file, unless the
    section takes every config off file. -/
theorem Section.onFile_run (h1 : m.OneEach C) (hs : s.KeepsLive C m) (hclear : s ≠ .clearConfigs)
    (hk : m.OnFile C k) (hlive : (s.run C m).Live C k) : (s.run C m).OnFile C k := by
  cases s with
  | bind cfg handle fresh ch =>
    obtain ⟨-, hp, hc, -⟩ := bind_eq (m := m) (C := C) cfg handle fresh ch
    have hfile : (m.addConfig C cfg).OnFile C k := onFile_setPending (.inl hk)
    exact hfile.of_eq hp hc
  | removeConfigs names =>
    refine hk.removeConfigs hC hl fun n hn hkn => hs n hn (mem_liveNotificationNames.2 ?_)
    exact hkn ▸ (Manager.Fewer.of_eq (activeNotifications_removeConfigs names)).live hlive
  | delete handle symbol =>
    obtain ⟨ha, hp, hc⟩ := deleteDeviceNotification_eq (m := m) (C := C) handle symbol
    cases symbol with
    | none => exact hk.of_eq hp hc
    | some n =>
      have hne : k ≠ C.symbolKey n := by
        -- a handle of `k` survives the delete, so it is not the deleted one
        rintro rfl
        obtain ⟨x, e, hx, hkx⟩ := hlive
        have hx' : (m.activeNotifications.erase handle).lookup x = some e := ha ▸ hx
        have hm := fewer_erase m handle x e hx'
        have hxh := hs x (AList.mem_keys.1 (AList.lookup_isSome.1 (by rw [hm]; rfl))) e hm hkx
        rw [hxh] at hx'
        simp at hx'
      exact (onFile_removeNotificationConfig hC hl hk hne).of_eq hp hc
  | sumDelete user handles codes =>
    exact onFile_sumDeleteDeviceNotification hC hl h1 user handles codes hk hlive
  | sweep =>
    obtain ⟨x, e, hx, -⟩ := hlive
    exact absurd hx (by simp [Section.run, Manager.takeNotificationHandles])
  | clearConfigs => exact absurd rfl hclear
  | addPendings ps => exact hk.addPendings ps
  | rollback =>
    obtain ⟨x, e, hx, rfl⟩ := hlive
    obtain ⟨hpre, hm⟩ := mem_of_lookup_rollback hx
    have hmem := hs x hpre e hm
    exact ⟨mem_toFinset.2 hmem, hmem⟩
  | restoreIntent intent ch =>
    simp only [Section.run, Manager.restoreIntent]
    split
    · exact (hk.restoreConfigs intent).of_eq rfl rfl
    · exact hk.restoreConfigs intent
  | _ => exact hk

theorem Section.fewer_run
    (hs : ∀ cfg handle fresh ch, s ≠ .bind cfg handle fresh ch) : Manager.Fewer (s.run C m) m := by
  cases s with
  | bind cfg handle fresh ch => exact absurd rfl (hs cfg handle fresh ch)
  | removeConfigs names => exact .of_eq (activeNotifications_removeConfigs names)
  | delete handle symbol =>
    have ha := (deleteDeviceNotification_eq (m := m) (C := C) handle symbol).1
    exact (Manager.Fewer.of_eq ha).trans (fewer_erase m handle)
  | sumDelete user handles codes =>
    exact (sumDeleteDeviceNotification_spec hC hl user handles codes).2.1
  | sweep =>
    intro x e hx
    exact absurd hx (by simp [Section.run, Manager.takeNotificationHandles])
  | addPendings ps => exact .of_eq (activeNotifications_addPendings ps)
  | rollback => exact fun x e hx => (mem_of_lookup_rollback hx).2
  | restoreIntent intent ch =>
    refine .of_eq ?_
    rw [← (restoreConfigs_frame (m := m) (C := C) intent).1]
    simp only [Section.run, Manager.restoreIntent]
    split <;> rfl
  | _ => exact .refl m

/-- A symbol that becomes live is filed by the same section. -/
theorem Section.live_run
    (hs : s.KeepsLive C m) (hlive : (s.run C m).Live C k) : m.Live C k ∨ (s.run C m).OnFile C k := by
  by_cases hb : ∃ cfg handle fresh ch, s = .bind cfg handle fresh ch
  · obtain ⟨cfg, handle, fresh, ch, rfl⟩ := hb
    obtain ⟨ha, hp, hc, -⟩ := bind_eq (m := m) (C := C) cfg handle fresh ch
    obtain ⟨x, e, hx, rfl⟩ := hlive
    have hx' : (m.activeNotifications.insert handle ⟨fresh, ch⟩).lookup x = some e := ha ▸ hx
    by_cases hxh : x = handle
    · subst hxh
      rw [AList.lookup_insert] at hx'
      cases hx'
      have hfile : (m.addConfig C cfg).OnFile C (C.symbolKey fresh) :=
        onFile_setPending (.inr hs)
      exact .inr (hfile.of_eq hp hc)
    · rw [AList.lookup_insert_ne hxh] at hx'
      exact .inl ⟨x, e, hx', rfl⟩
  · push Not at hb
    exact .inl ((Section.fewer_run hC hl hb).live hlive)

end

/-! ## The re-subscribe in progress -/

/-- The batch of a re-subscribe has skipped the live symbol `k`, or will. -/
def BatchPc.Skips (C : Casing Name Key) (valid : List (PendingNotification Name)) (k : Key) :
    BatchPc Name Key → Prop
  | .check _ _ => True
  | .resolve _ _ existing => k ∈ existing
  | .client b | .send b | .commit b _ _ _ | .settle b _ | .release b _ =>
      ∀ s ∈ b.slots, C.symbolKey s.config.symbolName = k → s.skipped = true
  | .returned res err => err = true ∨ ∀ x ∈ valid.zip res, x.1.key C = k → x.2.skipped.isSome = true

/-- The re-subscribe at `p` is going to put the live symbol `k` back on file. -/
def ResubPc.Keeps (C : Casing Name Key) (k : Key) : ResubPc Name Key → Prop
  | .filter _ saved _ => k ∈ keys C saved
  | .lower r | .snapshot r => k ∈ keys C r.validPending
  | .batch r p => k ∈ keys C r.validPending ∧ p.Skips C r.validPending k
  | .orphans r err =>
    k ∈ keys C r.validPending ∧ (err = true ∨ k ∈ keys C r.outcome.retryEntries)
  | .requeue r err =>
    k ∈ keys C r.validPending ∧ (err = true ∨ k ∈ keys C r.outcome.retryEntries)
  | .drop r err => err = true ∧ k ∈ keys C r.validPending
  | .rollback r => k ∈ keys C r.validPending
  | _ => False

section

variable (h : ∀ s ∈ slots, C.symbolKey s.config.symbolName = k → s.skipped = true)

include h

omit [DecidableEq Key] in
theorem skipped_report {r committed} :
    ∀ s ∈ report r committed slots, C.symbolKey s.config.symbolName = k → s.skipped = true := by
  intro s hs hk
  rcases mem_report hs with hs | ⟨hturn, -, -⟩
  · exact h s hs hk
  -- the slot whose turn it was has no result, so it is not one of `k`
  obtain ⟨s₀, h₀, hnone, hcfg⟩ := exists_waiting hturn
  have := h s₀ h₀ (hcfg ▸ hk)
  simp [Slot.skipped, hnone] at this

omit [DecidableEq Key] in
theorem skipped_abandon : ∀ s ∈ abandon slots, C.symbolKey s.config.symbolName = k → s.skipped = true := by
  intro s hs hk
  obtain ⟨s₀, h₀, rfl⟩ := mem_map.1 hs
  have := h s₀ h₀ hk
  cases hres : s₀.result with
  | none => simp [Slot.skipped]
  | some => simpa [Slot.skipped, hres] using this

end

omit [DecidableEq Key] in
theorem skipped_settle {b : Batch Name}
    (h : ∀ s ∈ b.slots, C.symbolKey s.config.symbolName = k → s.skipped = true) :
    ∀ s ∈ (b.settle m).slots, C.symbolKey s.config.symbolName = k → s.skipped = true := by
  intro s hs hk
  obtain ⟨s₀, h₀, rfl⟩ := mem_map.1 hs
  split
  · rfl
  next hn =>
  rw [if_neg hn] at hk
  exact h s₀ h₀ hk

/-- A symbol that was live when the batch looked is skipped as a duplicate. -/
theorem skipped_resolveLoop {existing seen} {resolves : Name → Bool} {cs} (hk : k ∈ existing) :
    ∀ s ∈ resolveLoop C existing resolves seen cs,
      C.symbolKey s.config.symbolName = k → s.skipped = true := by
  induction cs generalizing seen with
  | nil => intro s hs; exact absurd hs (by simp [resolveLoop])
  | cons cfg rest ih =>
    intro s hs hsk
    unfold resolveLoop at hs
    split at hs
    · rcases mem_cons.1 hs with rfl | hs
      · rfl
      · exact ih s hs hsk
    next hn =>
    rcases mem_cons.1 hs with rfl | hs
    · exact absurd (.inl (hsk ▸ hk)) hn
    · exact ih s hs hsk

variable {handle : Handle} {valid : List (PendingNotification Name)} {fresh : Name}
  {cfg : NotificationConfig Name} {ch : Option Chan} {pc : Pc Name Key}

omit [DecidableEq Key] in
theorem skips_returned {err} (hc : configs slots = valid.map (·.config))
    (h : ∀ s ∈ slots, C.symbolKey s.config.symbolName = k → s.skipped = true) :
    (BatchPc.returned (results slots) err : BatchPc Name Key).Skips C valid k := by
  refine .inr fun x hx hk => ?_
  obtain ⟨s, hs, hcfg, hres⟩ := exists_slot_of_mem_zip hc (show (x.1, x.2) ∈ _ from hx)
  have := h s hs (by rw [hcfg]; exact hk)
  rwa [Slot.skipped, hres] at this

theorem BatchStep.skips {p p' : BatchPc Name Key} {a : BatchAct Name} (h : BatchStep C sh p a p' s)
    (hfor : p.For (valid.map (·.config))) (hlive : sh.notifications.Live C k)
    (hp : p.Skips C valid k) : p'.Skips C valid k := by
  cases h with
  | refused => exact .inl rfl
  | empty => exact .inr fun x hx => absurd hx (by simp)
  | checked => exact mem_liveNotificationNames.2 hlive
  | allSkipped =>
    exact skips_returned ((configs_resolveLoop ..).trans hfor) (skipped_resolveLoop hp)
  | resolved => exact skipped_resolveLoop hp
  | plcRefused | zeroHandle | committed | declined => exact skipped_report hp
  | aborted => exact skipped_abandon hp
  | settled b => exact skips_returned ((configs_settle b _).trans hfor) (skipped_settle hp)
  | amended => exact skipped_settle hp
  | released => exact skips_returned hfor hp
  | _ => exact hp

/-- The condition on a step of a re-subscribe, in the state before it: the entries it drops because
    their symbol is gone, or because they were skipped too often, are not those of live symbols. -/
def ResubPc.DropsDead (C : Casing Name Key) (sh : Shared Name Key) : ResubPc Name Key → Prop
  | .filter _ saved _ => ∀ p ∈ saved, p ∉ filterValidPending C sh saved →
      p.key C ∉ sh.notifications.liveNotificationNames C
  | .batch r (.returned res false) => ∀ q ∈ skippedEntries r.validPending res,
      resubscribeMaxAttempts ≤ q.resubscribeAttempts →
        q.key C ∉ sh.notifications.liveNotificationNames C
  | _ => True

/-- A live entry that was skipped is queued again. -/
theorem mem_keys_retryEntries {r res} (hk : k ∈ keys C r.validPending)
    (hlen : res.length = r.validPending.length)
    (hskip : ∀ x ∈ r.validPending.zip res, x.1.key C = k → x.2.skipped.isSome = true)
    (hlive : sh.notifications.Live C k)
    (hdead : (ResubPc.batch r (.returned res false) : ResubPc Name Key).DropsDead C sh) :
    k ∈ keys C (triage r.validPending res).retryEntries := by
  obtain ⟨p, hp, hpk⟩ := mem_keys.1 hk
  obtain ⟨x, hx⟩ := exists_mem_zip hlen hp
  have hmem : p.bump ∈ skippedEntries r.validPending res :=
    mem_skippedEntries.2 ⟨p, x, hx, hskip _ hx hpk, rfl⟩
  have hbump : p.bump.key C = k := hpk
  refine mem_keys.2 ⟨p.bump, mem_filter.2 ⟨hmem, ?_⟩, hbump⟩
  have hcap : ¬ resubscribeMaxAttempts ≤ p.bump.resubscribeAttempts := by
    intro hge
    have hnot := hdead p.bump hmem hge
    rw [hbump] at hnot
    exact hnot (mem_liveNotificationNames.2 hlive)
  simpa using hcap

/-- **One step of the re-subscribe.**  It goes on keeping a live symbol, or files it. -/
theorem ResubStep.keeps {p p' a}
    (h : ResubStep C sh p a p' s) (hwf : p.WF C) (hs : s.KeepsLive C sh.notifications)
    (hdead : p.DropsDead C sh) (hlive : sh.notifications.Live C k)
    (hlive' : (s.run C sh.notifications).Live C k) (hk : p.Keeps C k) :
    (s.run C sh.notifications).OnFile C k ∨ ∃ q, p' = some q ∧ q.Keeps C k := by
  have hname := mem_liveNotificationNames.2 hlive
  cases h with
  | noneLeft intent saved ch hv =>
    obtain ⟨q, hq, hqk⟩ := mem_keys.1 hk
    exact absurd (hqk ▸ hname) (hdead q hq (by simp [hv]))
  | filtered =>
    obtain ⟨q, hq, hqk⟩ := mem_keys.1 hk
    refine .inr ⟨_, rfl, mem_keys.2 ⟨q, ?_, hqk⟩⟩
    by_contra hn
    exact hdead q hq hn (hqk ▸ hname)
  | lowered | orphansReleased => exact .inr ⟨_, rfl, hk⟩
  | snapshot => exact .inr ⟨_, rfl, hk, trivial⟩
  | batch r p p' a s hb => exact .inr ⟨_, rfl, hk.1, hb.skips hwf.2 hlive hk.2⟩
  | triaged r res err =>
    refine .inr ⟨_, rfl, hk.1, ?_⟩
    cases err with
    | true => exact .inl rfl
    | false =>
      have hlen : res.length = r.validPending.length := by
        simpa [BatchPc.For] using hwf.2
      have hskip := hk.2.resolve_left (by simp)
      exact .inr (mem_keys_retryEntries hk.1 hlen hskip hlive hdead)
  | requeued =>
    rcases hk with ⟨hv, rfl | hretry⟩
    · exact .inr ⟨_, rfl, rfl, hv⟩
    · exact .inl (onFile_addPendings_of_mem hretry)
  | failed => exact .inr ⟨_, rfl, hk.2⟩
  | succeeded => exact absurd hk.1 (by simp)
  | rolledBack =>
    obtain ⟨x, e, hx, rfl⟩ := hlive'
    obtain ⟨hpre, hm⟩ := mem_of_lookup_rollback hx
    have hmem := hs x hpre e hm
    exact .inl ⟨mem_toFinset.2 hmem, hmem⟩
  | _ => exact absurd hk (by simp [ResubPc.Keeps])

/-! ## Every run -/

def KeepsLive (C : Casing Name Key) (c : State Name Key) (a : Nat × Act Name Key) : Prop :=
  (sectionOf C c a).KeepsLive C c.shared.notifications ∧
    match c.loc a.1 with
    | .resub p => p.DropsDead C c.shared
    | _ => True

structure LiveInv (C : Casing Name Key) (c : State Name Key) : Prop where
  base : Inv C c
  oneEach : c.shared.notifications.OneEach C
  kept : ∀ k, c.shared.notifications.Live C k →
    c.shared.notifications.OnFile C k ∨ ∃ t p, c.loc t = .resub p ∧ p.Keeps C k

theorem PlanStep.not_live (h : PlanStep C t sh pc a pc' e) (he : e.toSection = .bind cfg handle fresh ch) :
    ¬ sh.notifications.Live C (C.symbolKey cfg.symbolName) := by
  have hbatch : ∀ {p p' : BatchPc Name Key} {a : BatchAct Name} {s : Section Name}, BatchStep C sh p a p' s →
      s = .bind cfg handle fresh ch → ¬ sh.notifications.Live C (C.symbolKey cfg.symbolName) := by
    intro p p' a s hs hb
    cases hs with
    | committed b cfg' handle' fresh' sym hc =>
      cases hb
      rw [← hasLiveNotification_iff, (commitCheck_ok C hc).2.2.2]
      simp
    | _ => cases hb
  have hresub : ∀ {p : ResubPc Name Key} {p' : Option (ResubPc Name Key)} {a : ResubAct Name}
      {s : Section Name}, ResubStep C sh p a p' s → s = .bind cfg handle fresh ch →
        ¬ sh.notifications.Live C (C.symbolKey cfg.symbolName) := by
    intro p p' a s hs hb
    cases hs with
    | batch r p p' a s hs => exact hbatch hs hb
    | lowered r s hs | failed r s hs | succeeded r s hs => rcases hs with rfl | ⟨n, rfl⟩ <;> cases hb
    | _ => cases hb
  cases h with
  | add p p' a s hs =>
    cases hs with
    | committed cfg' ch' h' sym fresh' gen hc =>
      cases he
      rw [← hasLiveNotification_iff, (commitCheck_ok C hc).2.2.2]
      simp
    | _ => cases he
  | batch p p' a s hs => exact hbatch hs he
  | resub p p' a s hs | resubDone p a s hs => exact hresub hs he
  | _ => cases he

/-- Only a re-subscribe takes every config off file, and it keeps them. -/
theorem PlanStep.clearConfigs (h : PlanStep C t sh pc a pc' e) (he : e.toSection = .clearConfigs) :
    ∃ intent ch, pc' = .resub (.filter intent sh.notifications.pending ch) := by
  cases h with
  | add p p' a s hs | batch p p' a s hs | resubDone p a s hs => cases hs <;> cases he
  | resub p p' a s hs =>
    cases hs with
    | taken => exact ⟨_, _, rfl⟩
    | batch r p p' a s hs => cases hs <;> cases he
    | lowered r s hs | failed r s hs | succeeded r s hs => rcases hs with rfl | ⟨n, rfl⟩ <;> cases he
    | _ => cases he
  | _ => cases he

theorem Manager.OneEach.bind (h : m.OneEach C) (hown : C.symbolKey fresh = C.symbolKey cfg.symbolName)
    (hn : ¬ m.Live C (C.symbolKey cfg.symbolName)) : (m.bind C cfg handle fresh ch).OneEach C := by
  have ha := (bind_eq (m := m) (C := C) cfg handle fresh ch).1
  intro x y e e' hx hy hk
  rw [ha] at hx hy
  by_cases hxh : x = handle <;> by_cases hyh : y = handle
  · rw [hxh, hyh]
  · -- `x` is the handle just bound, so `y` would make its symbol live already
    rw [hxh, AList.lookup_insert] at hx
    rw [AList.lookup_insert_ne hyh] at hy
    cases hx
    exact absurd ⟨y, e', hy, hk ▸ hown⟩ hn
  · rw [hyh, AList.lookup_insert] at hy
    rw [AList.lookup_insert_ne hxh] at hx
    cases hy
    exact absurd ⟨x, e, hx, hk.trans hown⟩ hn
  rw [AList.lookup_insert_ne hxh] at hx
  rw [AList.lookup_insert_ne hyh] at hy
  exact h x y e e' hx hy hk

theorem oneEach_step (hC : C.Agree) (hi : Inv C c)
    (h1 : c.shared.notifications.OneEach C) (hp : PlanStep C t c.shared (c.loc t) a pc' e)
    (hk : e.toSection.KeepsLive C c.shared.notifications) :
    (e.toSection.run C c.shared.notifications).OneEach C := by
  by_cases hb : ∃ cfg handle fresh ch, e.toSection = .bind cfg handle fresh ch
  · obtain ⟨cfg, handle, fresh, ch, hb⟩ := hb
    rw [hb] at hk ⊢
    exact h1.bind hk (hp.not_live hb)
  · push Not at hb
    exact h1.fewer (Section.fewer_run hC hi.shared hb)

theorem liveInv_step (hC : C.Agree) {c' a}
    (hx : LiveInv C c) (hk : KeepsLive C c a) (h : step C c a = some c') : LiveInv C c' := by
  have hbase := inv_step hC hx.base h
  obtain ⟨t, a⟩ := a
  obtain ⟨pc', e, hp, hsec, rfl⟩ := step_cases h
  obtain ⟨hlv, hdead⟩ := hk
  rw [hsec] at hlv
  have hnot : (e.run C c.shared).notifications = e.toSection.run C c.shared.notifications :=
    Effect.run_notifications c.shared e
  refine ⟨hbase, ?_, fun k hlive => ?_⟩
  · show (e.run C c.shared).notifications.OneEach C
    rw [hnot]
    exact oneEach_step hC hx.base hx.oneEach hp hlv
  show (e.run C c.shared).notifications.OnFile C k ∨
    ∃ u p, Function.update c.loc t pc' u = .resub p ∧ p.Keeps C k
  have hlive' : (e.run C c.shared).notifications.Live C k := hlive
  rw [hnot] at hlive' ⊢
  rcases Section.live_run hC hx.base.shared hlv hlive' with hold | hfile
  swap
  · exact .inl hfile
  rcases hx.kept k hold with hfile | ⟨u, p, hu, hkeep⟩
  · by_cases hclear : e.toSection = .clearConfigs
    · -- taken off file by a re-subscribe, which now keeps it
      obtain ⟨intent, ch, rfl⟩ := hp.clearConfigs hclear
      exact .inr ⟨t, _, Function.update_self .., hfile.2⟩
    · exact .inl (Section.onFile_run hC hx.base.shared hx.oneEach hlv hclear hfile hlive')
  by_cases hut : u = t
  · -- the re-subscribe itself moves
    subst hut
    have hwf := hx.base.loc u
    simp only [hu] at hp hdead hwf
    cases hp with
    | resub p p' a s hs =>
      rcases hs.keeps hwf.1 hlv hdead hold hlive' hkeep with hf | ⟨q, hq, hqk⟩
      · exact .inl hf
      · cases hq
        exact .inr ⟨u, _, Function.update_self .., hqk⟩
    | resubDone p a s hs =>
      rcases hs.keeps hwf.1 hlv hdead hold hlive' hkeep with hf | ⟨q, hq, -⟩
      · exact .inl hf
      · cases hq
  · exact .inr ⟨u, p, by rw [Function.update_of_ne hut]; exact hu, hkeep⟩

theorem liveInv_run (hC : C.Agree) (h : Run (step C) (KeepsLive C) init c) : LiveInv C c := by
  refine h.invariant ⟨inv_init, ?_, ?_⟩ fun _ _ _ hx hk hs => liveInv_step hC hx hk hs
  · intro x y e e' hx
    exact absurd hx (by simp [init, Manager.empty])
  · rintro k ⟨x, e, hx, -⟩
    exact absurd hx (by simp [init, Manager.empty])

/-- No subscribe, delete or re-subscribe is in progress: a goroutine is idle, or releases what a
    sweep took. -/
def Pc.quiet : Pc Name Key → Bool
  | .idle | .release _ => true
  | _ => false

/-- **Every live subscription is on file** when no subscribe, delete or re-subscribe is in progress,
    and no symbol ever has two handles, in every run whose steps keep the live symbols. -/
theorem live_on_file (hC : C.Agree) {c : State Name Key} (h : Run (step C) (KeepsLive C) init c) :
    ((∀ t, (c.loc t).quiet = true) → ∀ handle e,
      c.shared.notifications.activeNotifications.lookup handle = some e →
        c.shared.notifications.OnFile C (C.symbolKey e.fullName)) ∧
      c.shared.notifications.OneEach C := by
  have hinv := liveInv_run hC h
  refine ⟨fun hquiet handle e he => ?_, hinv.oneEach⟩
  rcases hinv.kept _ ⟨handle, e, he, rfl⟩ with hfile | ⟨t, p, ht, -⟩
  · exact hfile
  have := hquiet t
  rw [ht] at this
  cases this

/-! ## A run that keeps the subscriptions on file, and one that does not -/

instance (m : Manager Name Key) (s : Section Name) : Decidable (s.KeepsLive C m) := by
  unfold Section.KeepsLive
  induction s using Section.casesOn with
  | delete handle symbol => cases symbol <;> infer_instance
  | _ => infer_instance

instance [DecidableEq Name] (sh : Shared Name Key) (p : ResubPc Name Key) :
    Decidable (p.DropsDead C sh) := by
  unfold ResubPc.DropsDead
  split <;> infer_instance

instance [DecidableEq Name] (c : State Name Key) (a : Nat × Act Name Key) :
    Decidable (KeepsLive C c a) := by
  unfold KeepsLive
  refine @instDecidableAnd _ _ inferInstance ?_
  split <;> infer_instance

/-- A batch of one symbol that the PLC gave handle 7, up to the end of its commits. -/
def batchA : List (Nat × Act String String) :=
  [(0, .swapSymbols fun k => if k = "main.a" then some "MAIN.a" else none),
    (0, .startBatch [⟨"MAIN.a", 0, 0, .serverOnChange⟩] (some 1)), (0, .batch (.check true)),
    (0, .batch (.resolve fun _ => true)), (0, .batch (.client true)),
    (0, .batch (.reply ReturnCode.noErrors 7)), (0, .batch .commit)]

def batchATail : List (Nat × Act String String) :=
  [(0, .batch .finish), (0, .batch .settle), (0, .batch (.release [ReturnCode.noErrors])), (0, .ret)]

/-- A reconnect on another goroutine: sweep, release, and a re-subscribe that the PLC gives
    handle 8. -/
def reconnectA : List (Nat × Act String String) :=
  [(1, .sweep), (1, .release [ReturnCode.noErrors]), (1, .startResub false), (1, .resub .next),
    (1, .resub .next), (1, .resub .next), (1, .resub .next), (1, .resub (.batch (.check true))),
    (1, .resub (.batch (.resolve fun _ => true))), (1, .resub (.batch (.client true))),
    (1, .resub (.batch (.reply ReturnCode.noErrors 8))), (1, .resub (.batch .commit)),
    (1, .resub (.batch .finish)), (1, .resub (.batch .settle)), (1, .resub .next),
    (1, .resub (.codes [])), (1, .resub .next), (1, .resub .next), (1, .resub .next)]

/-- When only goroutines 0 and 1 moved, and rest, every goroutine rests. -/
theorem quiet_of_two {c : State String String} {as : List (Nat × Act String String)}
    (has : ∀ a ∈ as, a.1 = 0 ∨ a.1 = 1)
    (hloc : ∀ t, (∀ a ∈ as, a.1 ≠ t) → c.loc t = (init : State String String).loc t)
    (h0 : (c.loc 0).quiet = true) (h1 : (c.loc 1).quiet = true) (t : Nat) : (c.loc t).quiet = true := by
  by_cases ht : t = 0 ∨ t = 1
  · rcases ht with rfl | rfl
    · exact h0
    · exact h1
  have : c.loc t = .idle := hloc t fun a ha hat => ht (hat ▸ has a ha)
  rw [this]
  rfl

/-- Subscribed, swept and re-subscribed, `MAIN.a` is live under its new handle and on file. -/
theorem live_on_file_reconnect : ∃ c : State String String, Run (step ascii) (KeepsLive ascii) init c ∧
      (∀ t, (c.loc t).quiet = true) ∧
      ∃ e, c.shared.notifications.activeNotifications.lookup 8 = some e ∧
        c.shared.notifications.OnFile ascii (ascii.symbolKey e.fullName) := by
  obtain ⟨c, hrun, ⟨hlive, h0, h1⟩, hloc⟩ := Conf.exists_run (act ascii) (KeepsLive ascii) init
    (fun c => (c.shared.notifications.activeNotifications.lookup 8).isSome ∧ (c.loc 0).quiet ∧ (c.loc 1).quiet)
    (subscribeA ++ reconnectA) (by decide +kernel)
  obtain ⟨e, he⟩ := Option.isSome_iff_exists.1 hlive
  have hquiet := quiet_of_two (by decide) hloc h0 h1
  exact ⟨c, hrun, hquiet, e, he, (live_on_file ascii_agree hrun).1 hquiet 8 e he⟩

/-- The sweep and the re-subscribe of a reconnect fall between the commit of a batch and its settle:
    the settle finds its handle swept and takes the config off file, under the handle the reconnect
    has bound meanwhile. -/
theorem live_off_file :
    ¬ ∀ c : State String String, Run (step ascii) anyStep init c → (∀ t, (c.loc t).quiet = true) →
      ∀ handle e, c.shared.notifications.activeNotifications.lookup handle = some e →
        c.shared.notifications.OnFile ascii (ascii.symbolKey e.fullName) := by
  intro hall
  obtain ⟨c, hrun, ⟨hlive, hpend, h0, h1⟩, hloc⟩ := Conf.exists_run (act ascii) anyStep init
    (fun c => (c.shared.notifications.activeNotifications.lookup 8).isSome ∧
      c.shared.notifications.pending = [] ∧ (c.loc 0).quiet ∧ (c.loc 1).quiet)
    (batchA ++ reconnectA ++ batchATail) (by decide +kernel)
  obtain ⟨e, he⟩ := Option.isSome_iff_exists.1 hlive
  have hquiet := quiet_of_two (by decide) hloc h0 h1
  have hfile := (hall c hrun hquiet 8 e he).2
  rw [hpend] at hfile
  exact absurd hfile (by simp [keys])

end GoAds.Notification
