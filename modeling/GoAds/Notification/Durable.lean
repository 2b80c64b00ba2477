import GoAds.Notification.Channel

/-!
# `Notification.Durable` — a deleted subscription stays deleted

A history variable records the symbols whose delete returned success: for `DeleteDeviceNotification`
the symbol its first section read, for `SumDeleteDeviceNotification` the symbols its handles had when
it was called (the source itself learns them only after the request).  A caller's commit takes its
symbol out of the record again.

A delete can be undone from three sides.  A re-subscribe that took the config off file before the
delete may file it again (commit, queued retry, rollback), heartbeat recovery may restore it from the
intent it snapshotted, and a batch delete whose handle was swept meanwhile no longer knows the symbol
and leaves the config on file.  `DeletesCleanly` excludes the three, and then nothing brings a
deleted symbol back.
-/

namespace GoAds.Notification

open Interleaving
open ReturnCode (noErrors)

variable {Name Key : Type} [DecidableEq Key] {C : Casing Name Key}

/-! ## The record of deletes -/

/-- The deleted symbols, and what the handles stood for when a batch delete was called. -/
structure Deletes (Name Key : Type) where
  gone : Finset Key
  atCall : Nat → Handle → Option Name

def Pc.isLibrary : Pc Name Key → Bool
  | .resub _ => true
  | _ => false

/-- The symbols a batch delete reports as deleted: the PLC answered no error, and the handle was in
    the map when the delete was called. -/
def reported (C : Casing Name Key) (atCall : Handle → Option Name) (handles : List Handle)
    (codes : List ReturnCode) : List Key :=
  (handles.zip codes).filterMap fun x =>
    if x.2 = noErrors then (atCall x.1).map C.symbolKey else none

def Deletes.watch (C : Casing Name Key) (g : Deletes Name Key) (c : State Name Key)
    (a : Nat × Act Name Key) : Deletes Name Key :=
  match c.loc a.1, a.2 with
  | .idle, .startSumDelete _ =>
    { g with atCall := Function.update g.atCall a.1 fun h =>
        (c.shared.notifications.activeNotifications.lookup h).map (·.fullName) }
  | .delete _ (some symbol), .deleteReply .ok =>
    { g with gone := insert (C.symbolKey symbol) g.gone }
  | .sumDelete handles, .sumDeleteReply codes =>
    { g with gone := (reported C (g.atCall a.1) handles codes).toFinset ∪ g.gone }
  | pc, _ =>
    match sectionOf C c a with
    | .bind cfg _ _ _ =>
      if pc.isLibrary then g else { g with gone := g.gone.erase (C.symbolKey cfg.symbolName) }
    | _ => g

/-- The session with its record of deletes. -/
abbrev watched (C : Casing Name Key) :=
  observe (step C) (Deletes.watch C)

def watchedInit : State Name Key × Deletes Name Key := (init, ⟨∅, fun _ _ => none⟩)

/-! ## What a re-subscribe holds -/

/-- The symbols a re-subscribe in progress may file or subscribe: what it took off file, and the
    intent it carries. -/
def Pc.held (C : Casing Name Key) : Pc Name Key → List Key
  | .resub p => keys C p.saved ++ keys C (p.intent.elim [] (·.pending))
  | _ => []

variable {a : Act Name Key} {k : Key} {t : Nat} {c c' : State Name Key}

omit [DecidableEq Key] in
theorem Pc.mem_held_resub {p} : k ∈ (Pc.resub p).held C ↔
      k ∈ keys C p.saved ∨ ∃ i, p.intent = some i ∧ k ∈ keys C i.pending := by
  rw [Pc.held, List.mem_append]
  cases p.intent with
  | none => simp [keys]
  | some => simp

variable {e : Effect Name Key} {handles : List Handle} {codes : List ReturnCode} {pc pc' : Pc Name Key}
  {sh : Shared Name Key} {x : State Name Key × Deletes Name Key}

theorem PlanStep.held (h : PlanStep C t sh pc a pc' e) (hk : k ∈ pc'.held C) :
    k ∈ pc.held C ∨ k ∈ keys C sh.notifications.pending := by
  cases h with
  | startResub recovery =>
    cases recovery <;> exact absurd hk (by simp [Pc.held, ResubPc.saved, ResubPc.intent, keys])
  | add p p' => cases p' <;> exact absurd hk (by simp [Pc.held])
  | resub p p' a s hs =>
    rw [Pc.mem_held_resub] at hk ⊢
    rcases hk with hk | ⟨i, hi, hk⟩
    · rcases hs.saved with hsub | heq
      · exact .inl (.inl (keys_subset hsub hk))
      · exact .inr (heq ▸ hk)
    rcases hs.intent hi with hold | rfl
    · exact .inl (.inr ⟨i, hold, hk⟩)
    · exact .inr hk
  | _ => exact absurd hk (by simp [Pc.held])

theorem PlanStep.files (h : PlanStep C t sh pc a pc' e) (hp : pc.WF C sh t) (hk : k ∈ e.toSection.files C) :
    k ∈ pc.held C ∨ pc.isLibrary = false ∧
      ∃ cfg handle fresh ch, e.toSection = .bind cfg handle fresh ch ∧
        k = C.symbolKey cfg.symbolName := by
  cases h with
  | add p p' a s hs =>
    cases hs with
    | committed cfg ch h sym fresh =>
      exact .inr ⟨rfl, cfg, h, fresh, ch, rfl, List.mem_singleton.1 hk⟩
    | _ => exact absurd hk (by simp [Effect.toSection, Section.files])
  | batch p p' a s hs =>
    cases hs with
    | committed b cfg handle fresh sym =>
      exact .inr ⟨rfl, cfg, handle, sym, b.ch, rfl, List.mem_singleton.1 hk⟩
    | _ => exact absurd hk (by simp [Effect.toSection, Section.files])
  | resub p p' a s hs | resubDone p a s hs => exact .inl (Pc.mem_held_resub.2 (hs.files hp.1 hk))
  | _ => exact absurd hk (by simp [Effect.toSection, Section.files])

/-! ## Deletes that last -/

/-- The re-subscribe in progress, if there is one, does not hold the symbol. -/
def NotHeld (C : Casing Name Key) (c : State Name Key) (k : Key) : Prop :=
  ∀ t ∈ c.shared.resubscribeMu, k ∉ (c.loc t).held C

/-- The condition on a step.  When a delete returns success no re-subscribe in progress holds its
    symbol, and each handle of a batch delete is still bound to the symbol it had at the call.  A
    commit binds a symbol that is cached under its own name. -/
def DeletesCleanly (C : Casing Name Key) (x : State Name Key × Deletes Name Key)
    (a : Nat × Act Name Key) : Prop :=
  match x.1.loc a.1, a.2 with
  | .delete _ (some symbol), .deleteReply .ok => NotHeld C x.1 (C.symbolKey symbol)
  | .sumDelete handles, .sumDeleteReply codes =>
    ∀ y ∈ handles.zip codes, y.2 = noErrors → ∀ n ∈ x.2.atCall a.1 y.1,
      NotHeld C x.1 (C.symbolKey n) ∧
        ∃ e ∈ x.1.shared.notifications.activeNotifications.lookup y.1,
          C.symbolKey e.fullName = C.symbolKey n
  | _, _ =>
    match sectionOf C x.1 a with
    | .bind cfg _ fresh _ => C.symbolKey fresh = C.symbolKey cfg.symbolName
    | _ => True

/-- A recorded symbol was recorded before and is not committed by a caller now, or its delete
    returns success now. -/
theorem Deletes.mem_watch {g : Deletes Name Key} (h : k ∈ (g.watch C c (t, a)).gone) :
    (k ∈ g.gone ∧ ((c.loc t).isLibrary = false → ∀ cfg handle fresh ch,
        sectionOf C c (t, a) = .bind cfg handle fresh ch → k ≠ C.symbolKey cfg.symbolName)) ∨
      (∃ handle n, c.loc t = .delete handle (some n) ∧ a = .deleteReply .ok ∧ k = C.symbolKey n) ∨
      ∃ handles codes, c.loc t = .sumDelete handles ∧ a = .sumDeleteReply codes ∧
        k ∈ reported C (g.atCall t) handles codes := by
  unfold Deletes.watch at h
  split at h
  · next hloc hact =>
    refine .inl ⟨h, fun _ cfg handle fresh ch hsec => ?_⟩
    simp only at hloc hact
    subst hact
    simp [sectionOf, hloc, plan, idleAct, Effect.toSection] at hsec
  · next handle n hloc hact =>
    simp only at hloc hact
    rcases Finset.mem_insert.1 h with hk | hk
    · exact .inr (.inl ⟨handle, n, hloc, hact, hk⟩)
    refine .inl ⟨hk, fun _ cfg handle fresh ch hsec => ?_⟩
    subst hact
    simp [sectionOf, hloc, plan, Effect.toSection] at hsec
  · next handles codes hloc hact =>
    simp only at hloc hact
    rcases Finset.mem_union.1 h with hk | hk
    · exact .inr (.inr ⟨handles, codes, hloc, hact, List.mem_toFinset.1 hk⟩)
    refine .inl ⟨hk, fun _ cfg handle fresh ch hsec => ?_⟩
    subst hact
    simp [sectionOf, hloc, plan, Effect.toSection] at hsec
  split at h
  · next cfg handle fresh ch hsec =>
    split at h
    · next hlib => exact .inl ⟨h, fun hn => absurd (hlib.symm.trans hn) (by simp)⟩
    refine .inl ⟨Finset.mem_of_mem_erase h, fun _ cfg' handle' fresh' ch' hsec' => ?_⟩
    have hcfg : cfg = cfg' := by
      have := hsec.symm.trans hsec'
      cases this
      rfl
    exact hcfg ▸ Finset.ne_of_mem_erase h
  · next hsec => exact .inl ⟨h, fun _ cfg handle fresh ch hs => absurd hs (hsec cfg handle fresh ch)⟩

/-- What holds in every state of the runs whose deletes are clean. -/
structure DurableInv (C : Casing Name Key) (x : State Name Key × Deletes Name Key) : Prop where
  base : Inv C x.1
  offFile : ∀ k ∈ x.2.gone, k ∉ keys C x.1.shared.notifications.pending
  notHeld : ∀ k ∈ x.2.gone, ∀ t, k ∉ (x.1.loc t).held C

omit [DecidableEq Key] in
/-- With the mutex, what the re-subscribe in progress does not hold nobody holds. -/
theorem NotHeld.all (hi : Inv C c) (h : NotHeld C c k) (t : Nat) : k ∉ (c.loc t).held C := by
  cases hpc : c.loc t with
  | resub =>
    have hwf := hi.loc t
    rw [hpc] at hwf
    have := h t hwf.2
    rwa [hpc] at this
  | _ => simp [Pc.held]

omit [DecidableEq Key] in
theorem NotHeld.idle (hi : Inv C c) (h : NotHeld C c k) (t u : Nat) :
    k ∉ (Function.update c.loc t .idle u).held C := by
  by_cases hu : u = t
  · subst hu
    simp [Pc.held]
  · rw [Function.update_of_ne hu]
    exact h.all hi u

/-- A symbol that is off file and held by nobody before a step is so after it, unless a caller
    commits it. -/
theorem stays_gone (hC : C.Agree) (hi : Inv C c) (hstep : step C c (t, a) = some c')
    (hoff : k ∉ keys C c.shared.notifications.pending) (hheld : ∀ u, k ∉ (c.loc u).held C)
    (hcaller : (c.loc t).isLibrary = false → ∀ cfg handle fresh ch,
      sectionOf C c (t, a) = .bind cfg handle fresh ch → k ≠ C.symbolKey cfg.symbolName) :
    k ∉ keys C c'.shared.notifications.pending ∧ ∀ u, k ∉ (c'.loc u).held C := by
  obtain ⟨pc', e, hp, hsec, rfl⟩ := step_cases hstep
  constructor
  · show k ∉ keys C (e.run C c.shared).notifications.pending
    rw [Effect.run_notifications]
    intro hk
    rcases Section.mem_keys_run hC hi.shared hk with hk | hk
    · exact hoff hk
    rcases hp.files (hi.loc t) hk with hk | ⟨hlib, cfg, handle, fresh, ch, hs, hk⟩
    · exact hheld t hk
    · exact hcaller hlib cfg handle fresh ch (hsec.trans hs) hk
  · exact Conf.forall_loc (P := fun _ pc => k ∉ Pc.held C pc) (fun hk => (hp.held hk).elim (hheld t) hoff)
      fun u _ => hheld u

theorem off_file_of_deleted (hC : C.Agree) {handle n} (hi : Inv C c) (hloc : c.loc t = .delete handle (some n))
    (hstep : step C c (t, .deleteReply .ok) = some c') :
    C.symbolKey n ∉ keys C c'.shared.notifications.pending := by
  obtain ⟨pc', e, hp, -, rfl⟩ := step_cases hstep
  rw [hloc] at hp
  cases hp with
  | deleted _ _ _ =>
    show C.symbolKey n ∉ keys C (c.shared.notifications.deleteDeviceNotification C handle _).pending
    rw [(Manager.deleteDeviceNotification_eq handle (some n)).2.1]
    exact Manager.not_mem_keys_removeNotificationConfig hC hi.shared n

/-- So is each symbol a batch delete reports, when its handle is still bound to it. -/
theorem off_file_of_sumDeleted (hC : C.Agree) {y e} (hi : Inv C c) (hloc : c.loc t = .sumDelete handles)
    (hstep : step C c (t, .sumDeleteReply codes) = some c') (hy : y ∈ handles.zip codes)
    (hok : y.2 = noErrors) (he : c.shared.notifications.activeNotifications.lookup y.1 = some e) :
    C.symbolKey e.fullName ∉ keys C c'.shared.notifications.pending := by
  obtain ⟨pc', ef, hp, -, rfl⟩ := step_cases hstep
  rw [hloc] at hp
  cases hp with
  | sumDeleted _ _ =>
    refine Manager.not_mem_keys_sumDeleteDeviceNotification hC hi.shared true hy ?_ he
    rw [hok]
    rfl

omit [DecidableEq Key] in
theorem mem_reported {atCall : Handle → Option Name} (h : k ∈ reported C atCall handles codes) :
    ∃ y ∈ handles.zip codes, y.2 = noErrors ∧ ∃ n ∈ atCall y.1, k = C.symbolKey n := by
  obtain ⟨y, hy, hk⟩ := List.mem_filterMap.1 h
  split at hk
  · next hok =>
    obtain ⟨n, hn, hk⟩ := Option.map_eq_some_iff.1 hk
    exact ⟨y, hy, hok, n, hn, hk.symm⟩
  · exact absurd hk (by simp)

theorem durableInv_step (hC : C.Agree) {x' : State Name Key × Deletes Name Key}
    {a : Nat × Act Name Key} (hx : DurableInv C x) (hk : DeletesCleanly C x a)
    (h : watched C x a = some x') : DurableInv C x' := by
  obtain ⟨t, a⟩ := a
  obtain ⟨c, g⟩ := x
  obtain ⟨c', g'⟩ := x'
  obtain ⟨hstep, hg⟩ := observe_eq_some.1 h
  simp only at hstep hg
  subst hg
  -- what is recorded after the step is off file and held by nobody after it
  have key : ∀ k ∈ (g.watch C c (t, a)).gone,
      k ∉ keys C c'.shared.notifications.pending ∧ ∀ u, k ∉ (c'.loc u).held C := by
    intro k hmem
    rcases Deletes.mem_watch hmem with ⟨hold, hcaller⟩ | ⟨handle, n, hloc, rfl, rfl⟩ |
      ⟨handles, codes, hloc, rfl, hrep⟩
    · exact stays_gone hC hx.base hstep (hx.offFile k hold) (hx.notHeld k hold) hcaller
    · have hnot : NotHeld C c (C.symbolKey n) := by
        simpa only [DeletesCleanly, hloc] using hk
      have hoff := off_file_of_deleted hC hx.base hloc hstep
      refine ⟨hoff, fun u => ?_⟩
      obtain ⟨pc', e, hp, -, rfl⟩ := step_cases hstep
      rw [hloc] at hp
      cases hp with
      | deleted => exact hnot.idle hx.base t u
    obtain ⟨y, hy, hok, n, hn, rfl⟩ := mem_reported hrep
    have hclean : NotHeld C c (C.symbolKey n) ∧ ∃ e ∈ c.shared.notifications.activeNotifications.lookup y.1,
          C.symbolKey e.fullName = C.symbolKey n := by
      simp only [DeletesCleanly, hloc] at hk
      exact hk y hy hok n hn
    obtain ⟨hnot, e, he, hen⟩ := hclean
    refine ⟨hen ▸ off_file_of_sumDeleted hC hx.base hloc hstep hy hok he, fun u => ?_⟩
    obtain ⟨pc', ef, hp, -, rfl⟩ := step_cases hstep
    rw [hloc] at hp
    cases hp with
    | sumDeleted => exact hnot.idle hx.base t u
  exact ⟨inv_step hC hx.base hstep, fun k hmem => (key k hmem).1, fun k hmem => (key k hmem).2⟩

theorem durableInv_run (hC : C.Agree)
    (h : Run (watched C) (DeletesCleanly C) watchedInit x) : DurableInv C x :=
  h.invariant ⟨inv_init, by simp [watchedInit], by simp [watchedInit]⟩
    fun _ _ _ hx hk hs => durableInv_step hC hx hk hs

/-- **A delete is durable.**  In every state of every run whose deletes are clean, a symbol whose
    delete returned success, and that no caller committed since, is not on file, no re-subscribe in
    progress holds it, and no re-subscribe is about to bind it. -/
theorem delete_durable (hC : C.Agree) {c : State Name Key} {g : Deletes Name Key}
    (h : Run (watched C) (DeletesCleanly C) watchedInit (c, g)) {k : Key} (hk : k ∈ g.gone) :
    (k ∉ keys C c.shared.notifications.pending ∧ k ∉ c.shared.notifications.configsByKey) ∧
      (∀ t, k ∉ (c.loc t).held C) ∧
      ∀ t a cfg handle fresh ch, (c.loc t).isLibrary = true → DeletesCleanly C (c, g) (t, a) →
        sectionOf C c (t, a) = .bind cfg handle fresh ch → C.symbolKey fresh ≠ k := by
  have hinv := durableInv_run hC h
  have hoff := hinv.offFile k hk
  refine ⟨⟨hoff, fun hkey => hoff ((hinv.base.shared.mirror k).1 hkey)⟩, hinv.notHeld k hk, ?_⟩
  intro t a cfg handle fresh ch hlib hclean hsec
  obtain ⟨pc', e, hp, he⟩ := planStep_of_sectionOf hsec (by simp)
  have hown : C.symbolKey fresh = C.symbolKey cfg.symbolName := by
    cases hloc : c.loc t with
    | resub => simpa only [DeletesCleanly, hloc, hsec] using hclean
    | _ => exact absurd hlib (by simp [hloc, Pc.isLibrary])
  rcases hp.files (hinv.base.loc t) (k := C.symbolKey cfg.symbolName) (by simp [he, Section.files])
    with hheld | ⟨hcaller, -⟩
  · intro hfresh
    exact hinv.notHeld k hk t (hfresh ▸ hown ▸ hheld)
  · exact absurd (hlib.symm.trans hcaller) (by simp)

/-! ## A delete that lasts, and one that does not -/

instance (c : State Name Key) (k : Key) : Decidable (NotHeld C c k) :=
  inferInstanceAs (Decidable (∀ t ∈ c.shared.resubscribeMu, k ∉ (c.loc t).held C))

instance (x : State Name Key × Deletes Name Key) (a : Nat × Act Name Key) :
    Decidable (DeletesCleanly C x a) := by
  unfold DeletesCleanly
  split
  · infer_instance
  · infer_instance
  · split <;> infer_instance

/-- Deleted between a reconnect's sweep and its re-subscribe, `MAIN.a` stays off file. -/
theorem delete_durable_across_reconnect : ∃ (c : State String String) (g : Deletes String String),
      Run (watched ascii) (DeletesCleanly ascii) watchedInit (c, g) ∧ "main.a" ∈ g.gone ∧
        "main.a" ∉ keys ascii c.shared.notifications.pending := by
  obtain ⟨⟨c, g⟩, hrun, hgone⟩ := exists_run (watched ascii) (DeletesCleanly ascii)
    watchedInit (fun x => "main.a" ∈ x.2.gone)
    (subscribeA ++ [(0, .startDelete 7), (1, .sweep), (0, .deleteReply .ok),
      (1, .release [ReturnCode.deviceNotifyHandleInvalid]), (1, .startResub false),
      (1, .resub .next)])
    (by decide +kernel)
  exact ⟨c, g, hrun, hgone, (delete_durable ascii_agree hrun hgone).1.1⟩

/-- A sweep between the request of a batch delete and its bookkeeping: the PLC deleted the handle,
    the delete returns success, and the config is still on file. -/
theorem delete_undone : ¬ ∀ (c : State String String) (g : Deletes String String) (k : String),
      Run (watched ascii) anyStep watchedInit (c, g) → k ∈ g.gone →
        k ∉ keys ascii c.shared.notifications.pending := by
  intro hall
  exact not_forall_run (subscribeA ++ [(0, .startSumDelete [7]), (1, .sweep),
    (0, .sumDeleteReply [noErrors])]) (by decide +kernel) fun (x : _ × _) hrun =>
      hall x.1 x.2 "main.a" hrun

end GoAds.Notification
