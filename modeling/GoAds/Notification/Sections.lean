import GoAds.Notification.Manager

/-!
# `Notification.Sections` — what each critical section keeps

Two facts about the manager hold between any two sections of any run: the key index mirrors the
configs on file (`Manager.Lockstep`), and no symbol has two handles (`Manager.OneEach`).  Here is the
part of that which concerns a single section, together with what the deletes remove.  The programs
that perform the sections do not appear.
-/

namespace GoAds.Notification

open List Manager

variable {Name Key : Type} {C : Casing Name Key}

namespace Manager

/-! ## Live symbols -/

section

variable {m m' : Manager Name Key} {k : Key} {h : Handle}

/-- The symbol `k` has a handle in the map. -/
def Live (C : Casing Name Key) (m : Manager Name Key) (k : Key) : Prop :=
  ∃ h e, m.activeNotifications.lookup h = some e ∧ C.symbolKey e.fullName = k

def OneEach (C : Casing Name Key) (m : Manager Name Key) : Prop :=
  ∀ h h' e e', m.activeNotifications.lookup h = some e → m.activeNotifications.lookup h' = some e' →
    C.symbolKey e.fullName = C.symbolKey e'.fullName → h = h'

/-- `m'` binds no handle that `m` does not bind to the same symbol. -/
def Fewer (m' m : Manager Name Key) : Prop :=
  ∀ h e, m'.activeNotifications.lookup h = some e → m.activeNotifications.lookup h = some e

theorem Fewer.refl (m : Manager Name Key) : Fewer m m := fun _ _ h => h

theorem Fewer.trans {m₁ m₂ m₃ : Manager Name Key} (h : Fewer m₁ m₂) (h' : Fewer m₂ m₃) :
    Fewer m₁ m₃ := fun x e hx => h' x e (h x e hx)

theorem Fewer.of_eq (h : m'.activeNotifications = m.activeNotifications) : Fewer m' m := by
  intro x e hx
  rwa [h] at hx

theorem Fewer.live (h : Fewer m' m) (hk : m'.Live C k) : m.Live C k := by
  obtain ⟨x, e, hx, hk⟩ := hk
  exact ⟨x, e, h x e hx, hk⟩

theorem OneEach.fewer (h : m.OneEach C) (hf : Fewer m' m) : m'.OneEach C :=
  fun x y e e' hx hy hk => h x y e e' (hf x e hx) (hf y e' hy) hk

theorem fewer_erase (m : Manager Name Key) (h : Handle) :
    Fewer { m with activeNotifications := m.activeNotifications.erase h } m := by
  intro x e hx
  by_cases hxh : x = h
  · subst hxh
    simp at hx
  · simpa [AList.lookup_erase_ne hxh] using hx

theorem fewer_dropHandles (m : Manager Name Key) (hs : List Handle) : Fewer (m.dropHandles hs) m := by
  induction hs generalizing m with
  | nil => exact .refl m
  | cons h hs ih => exact (ih _).trans (fewer_erase m h)

end

variable [DecidableEq Key] {m m' : Manager Name Key} {k : Key} {h : Handle}

variable {e : ActiveNotification Name} {handle : Handle} {hs : List Handle} {n : Name}

theorem hasLiveNotification_iff : m.hasLiveNotification C n = true ↔ m.Live C (C.symbolKey n) := by
  simp only [hasLiveNotification, any_eq_true, decide_eq_true_eq, Live]
  constructor
  · rintro ⟨⟨h, e⟩, he, hk⟩
    exact ⟨h, e, AList.mem_lookup_iff.2 he, hk⟩
  · rintro ⟨h, e, he, hk⟩
    exact ⟨⟨h, e⟩, AList.mem_lookup_iff.1 he, hk⟩

theorem mem_liveNotificationNames : k ∈ m.liveNotificationNames C ↔ m.Live C k := by
  simp only [liveNotificationNames, mem_toFinset, mem_map, Live]
  constructor
  · rintro ⟨⟨h, e⟩, he, hk⟩
    exact ⟨h, e, AList.mem_lookup_iff.2 he, hk⟩
  · rintro ⟨h, e, he, hk⟩
    exact ⟨⟨h, e⟩, AList.mem_lookup_iff.1 he, hk⟩

/-! ## The configs, section by section -/

theorem Lockstep.addPendings (h : m.Lockstep C) (ps : List (PendingNotification Name)) :
    (m.addPendings C ps).Lockstep C := by
  induction ps generalizing m with
  | nil => exact h
  | cons p ps ih => exact ih h.setPending

theorem Lockstep.restoreConfigs (h : m.Lockstep C) (ps : List (PendingNotification Name)) :
    (m.restoreConfigs C ps).Lockstep C := by
  induction ps generalizing m with
  | nil => exact h
  | cons p ps ih =>
    unfold Manager.restoreConfigs
    split
    · exact ih h
    · exact ih h.setPending

theorem Lockstep.removeConfigs (hC : C.Agree) (h : m.Lockstep C) (ns : List Name) :
    (m.removeConfigs C ns).Lockstep C := by
  induction ns generalizing m with
  | nil => exact h
  | cons n ns ih => exact ih (h.removeNotificationConfig hC n)

theorem activeNotifications_removeConfigs (ns : List Name) :
    (m.removeConfigs C ns).activeNotifications = m.activeNotifications := by
  induction ns generalizing m with
  | nil => rfl
  | cons n ns ih =>
    rw [Manager.removeConfigs, ih, activeNotifications_removeNotificationConfig]

theorem notificationChannel_removeConfigs (ns : List Name) :
    (m.removeConfigs C ns).notificationChannel = m.notificationChannel := by
  induction ns generalizing m with
  | nil => rfl
  | cons n ns ih =>
    rw [Manager.removeConfigs, ih, notificationChannel_removeNotificationConfig]

theorem pending_removeConfigs_subset (ns : List Name) : (m.removeConfigs C ns).pending ⊆ m.pending := by
  induction ns generalizing m with
  | nil => exact fun _ h => h
  | cons n ns ih => exact fun p hp => pending_removeNotificationConfig_subset (ih hp)

theorem activeNotifications_addPendings (ps : List (PendingNotification Name)) :
    (m.addPendings C ps).activeNotifications = m.activeNotifications := by
  induction ps generalizing m with
  | nil => rfl
  | cons p ps ih =>
    rw [Manager.addPendings, ih, Manager.addPending, activeNotifications_setPending]

theorem notificationChannel_addPendings (ps : List (PendingNotification Name)) :
    (m.addPendings C ps).notificationChannel = m.notificationChannel := by
  induction ps generalizing m with
  | nil => rfl
  | cons p ps ih =>
    rw [Manager.addPendings, ih, Manager.addPending, notificationChannel_setPending]

/-- **The commit.**  The handle is bound, the config is filed as `addConfig` files it, and the
    channel is the caller's. -/
theorem bind_eq (cfg : NotificationConfig Name) (handle : Handle) (fresh : Name) (ch : Option Chan) :
    (m.bind C cfg handle fresh ch).activeNotifications =
        m.activeNotifications.insert handle { fullName := fresh, ch := ch } ∧
      (m.bind C cfg handle fresh ch).pending = (m.addConfig C cfg).pending ∧
      (m.bind C cfg handle fresh ch).configsByKey = (m.addConfig C cfg).configsByKey ∧
      (m.bind C cfg handle fresh ch).notificationChannel = ch := by
  have hfile : ∀ m₁ m₂ : Manager Name Key, m₁.pending = m₂.pending → m₁.configsByKey = m₂.configsByKey →
      (m₁.addConfig C cfg).pending = (m₂.addConfig C cfg).pending := by
    intro m₁ m₂ hp hk
    unfold addConfig setPending
    rw [hp, hk]
    split <;> rfl
  refine ⟨?_, hfile _ m rfl rfl, ?_, rfl⟩
  · exact activeNotifications_setPending
  show (addConfig C _ cfg).configsByKey = _
  simp only [addConfig, configsByKey_setPending]
  rfl

/-! ## The deletes -/

theorem Lockstep.removeSymbol (hC : C.Agree) (h : m.Lockstep C) (symbol : Option Name) :
    (m.removeSymbol C symbol).Lockstep C := by
  cases symbol with
  | none => exact h
  | some n => exact h.removeNotificationConfig hC n

variable (symbol : Option Name)

theorem activeNotifications_removeSymbol :
    (m.removeSymbol C symbol).activeNotifications = m.activeNotifications := by
  cases symbol with
  | none => rfl
  | some => exact activeNotifications_removeNotificationConfig

theorem pending_removeSymbol_subset : (m.removeSymbol C symbol).pending ⊆ m.pending := by
  cases symbol with
  | none => exact fun _ hp => hp
  | some => exact pending_removeNotificationConfig_subset

theorem notificationChannel_removeSymbol :
    (m.removeSymbol C symbol).notificationChannel = m.notificationChannel := by
  cases symbol with
  | none => rfl
  | some => exact notificationChannel_removeNotificationConfig

theorem deleteDeviceNotification_eq (handle : Handle) (symbol : Option Name) :
    (m.deleteDeviceNotification C handle symbol).activeNotifications =
        m.activeNotifications.erase handle ∧
      (m.deleteDeviceNotification C handle symbol).pending = (m.removeSymbol C symbol).pending ∧
      (m.deleteDeviceNotification C handle symbol).configsByKey =
        (m.removeSymbol C symbol).configsByKey := by
  unfold deleteDeviceNotification
  dsimp only
  split <;> simp [activeNotifications_removeSymbol]

variable {l : List (Handle × ReturnCode)} {code : ReturnCode}

theorem sumDeleteOne_eq (hs : isBestEffortDeleteSuccess code = true) (user : Bool) (handle : Handle) :
    (m.sumDeleteOne C user handle code).activeNotifications = m.activeNotifications.erase handle ∧
      (m.sumDeleteOne C user handle code).pending =
        (m.removeSymbol C ((m.activeNotifications.lookup handle).map (·.fullName))).pending ∧
      (m.sumDeleteOne C user handle code).configsByKey =
        (m.removeSymbol C ((m.activeNotifications.lookup handle).map (·.fullName))).configsByKey ∧
      (m.sumDeleteOne C user handle code).notificationChannel = m.notificationChannel := by
  unfold sumDeleteOne
  rw [if_pos hs]
  cases user <;>
    simp [activeNotifications_removeSymbol, notificationChannel_removeSymbol]

theorem sumDeleteOne_of_failure (hs : isBestEffortDeleteSuccess code ≠ true)
    (user : Bool) (handle : Handle) : m.sumDeleteOne C user handle code = m := by
  unfold sumDeleteOne
  rw [if_neg hs]

omit [DecidableEq Key] in
theorem Lockstep.of_eq (h : m.Lockstep C) (hp : m'.pending = m.pending)
    (hk : m'.configsByKey = m.configsByKey) : m'.Lockstep C := by
  refine ⟨fun k => ?_, ?_⟩
  · rw [hp, hk]
    exact h.mirror k
  · rw [hp]
    exact h.nodup

section

variable (hC : C.Agree) (hl : m.Lockstep C)

include hC hl

/-- **One iteration of the batch delete.**  It keeps lockstep, unbinds at most the handle, takes no
    other symbol's config off file, and leaves the channel alone. -/
theorem sumDeleteOne_spec (user : Bool) (handle : Handle)
    (code : ReturnCode) : (m.sumDeleteOne C user handle code).Lockstep C ∧
      Fewer (m.sumDeleteOne C user handle code) m ∧ (m.sumDeleteOne C user handle code).pending ⊆ m.pending ∧
      (m.sumDeleteOne C user handle code).notificationChannel = m.notificationChannel := by
  by_cases hs : isBestEffortDeleteSuccess code = true
  · obtain ⟨ha, hp, hk, hc⟩ := sumDeleteOne_eq (m := m) (C := C) hs user handle
    refine ⟨(hl.removeSymbol hC _).of_eq hp hk, ?_, ?_, hc⟩
    · exact (Fewer.of_eq ha).trans (fewer_erase m handle)
    · rw [hp]
      exact pending_removeSymbol_subset _
  · rw [sumDeleteOne_of_failure hs]
    exact ⟨hl, .refl m, fun _ hp => hp, rfl⟩

theorem onFile_removeNotificationConfig
    (hk : m.OnFile C k) (hne : k ≠ C.symbolKey n) : (m.removeNotificationConfig C n).OnFile C k := by
  rw [(hl.removeNotificationConfig hC n).onFile_iff, keys_removeNotificationConfig hC hl]
  exact (mem_erase_of_ne hne).2 hk.2

theorem not_mem_keys_removeNotificationConfig (n : Name) :
    C.symbolKey n ∉ keys C (m.removeNotificationConfig C n).pending := by
  rw [keys_removeNotificationConfig hC hl]
  exact hl.nodup.not_mem_erase

/-- A config is taken off file only together with the handle of its symbol. -/
theorem onFile_sumDeleteOne (h1 : m.OneEach C) (user : Bool)
    (handle : Handle) (code : ReturnCode) (hk : m.OnFile C k)
    (hlive : (m.sumDeleteOne C user handle code).Live C k) :
    (m.sumDeleteOne C user handle code).OnFile C k := by
  by_cases hs : isBestEffortDeleteSuccess code = true
  · obtain ⟨ha, hp, hc, -⟩ := sumDeleteOne_eq (m := m) (C := C) hs user handle
    rw [OnFile, hp, hc]
    cases he : m.activeNotifications.lookup handle with
    | none => exact hk
    | some e =>
      refine onFile_removeNotificationConfig hC hl hk ?_
      -- the handle still bound to `k` is not the one deleted, so by `OneEach` `k` is another symbol
      rintro rfl
      obtain ⟨x, e', hx, hk'⟩ := hlive
      rw [ha] at hx
      have hx' := fewer_erase m handle x e' hx
      have : x = handle := h1 x handle e' e hx' he hk'
      subst this
      simp at hx
  · rw [sumDeleteOne_of_failure hs]
    exact hk

theorem sumDeleteLoop_spec (user : Bool) (l : List (Handle × ReturnCode)) :
    (m.sumDeleteLoop C user l).Lockstep C ∧ Fewer (m.sumDeleteLoop C user l) m ∧
      (m.sumDeleteLoop C user l).pending ⊆ m.pending ∧
      (m.sumDeleteLoop C user l).notificationChannel = m.notificationChannel := by
  induction l generalizing m with
  | nil => exact ⟨hl, .refl m, fun _ hp => hp, rfl⟩
  | cons x l ih =>
    obtain ⟨hl₁, hf₁, hp₁, hc₁⟩ := sumDeleteOne_spec hC hl user x.1 x.2
    obtain ⟨hl₂, hf₂, hp₂, hc₂⟩ := ih hl₁
    exact ⟨hl₂, hf₂.trans hf₁, fun _ hp => hp₁ (hp₂ hp), hc₂.trans hc₁⟩

theorem onFile_sumDeleteLoop (h1 : m.OneEach C) (user : Bool)
    (l : List (Handle × ReturnCode)) (hk : m.OnFile C k)
    (hlive : (m.sumDeleteLoop C user l).Live C k) : (m.sumDeleteLoop C user l).OnFile C k := by
  induction l generalizing m with
  | nil => exact hk
  | cons x l ih =>
    obtain ⟨hl₁, hf₁, -, -⟩ := sumDeleteOne_spec hC hl user x.1 x.2
    have hlive₁ := (sumDeleteLoop_spec hC hl₁ user l).2.1.live hlive
    exact ih hl₁ (h1.fewer hf₁) (onFile_sumDeleteOne hC hl h1 user x.1 x.2 hk hlive₁) hlive

/-- The batch delete takes the config of every bound handle it deletes off file. -/
theorem not_mem_keys_sumDeleteLoop (user : Bool)
    (hmem : (handle, code) ∈ l) (hs : isBestEffortDeleteSuccess code = true)
    (he : m.activeNotifications.lookup handle = some e) :
    C.symbolKey e.fullName ∉ keys C (m.sumDeleteLoop C user l).pending := by
  induction l generalizing m with
  | nil => exact absurd hmem (by simp)
  | cons x l ih =>
    obtain ⟨y, c⟩ := x
    obtain ⟨hl₁, -, -, -⟩ := sumDeleteOne_spec hC hl user y c
    have hsub := (sumDeleteLoop_spec hC hl₁ user l).2.2.1
    by_cases hy : y = handle ∧ isBestEffortDeleteSuccess c = true
    · -- this iteration deletes the handle; what follows files nothing
      obtain ⟨rfl, hc⟩ := hy
      intro hk
      obtain ⟨p, hp, hpk⟩ := mem_keys.1 hk
      have hp₁ := hsub hp
      rw [(sumDeleteOne_eq (C := C) hc user y).2.1, he] at hp₁
      exact not_mem_keys_removeNotificationConfig hC hl e.fullName (mem_keys.2 ⟨p, hp₁, hpk⟩)
    have he₁ : (m.sumDeleteOne C user y c).activeNotifications.lookup handle = some e := by
      by_cases hc : isBestEffortDeleteSuccess c = true
      · rw [(sumDeleteOne_eq (C := C) hc user y).1, AList.lookup_erase_ne, he]
        rintro rfl
        exact hy ⟨rfl, hc⟩
      · rwa [sumDeleteOne_of_failure hc]
    refine ih hl₁ ?_ he₁
    rcases mem_cons.1 hmem with hx | hx
    · cases hx
      exact absurd ⟨rfl, hs⟩ hy
    · exact hx

end

/-- Every bound handle is one that the batch delete deletes. -/
def DeletesAll (m : Manager Name Key) (l : List (Handle × ReturnCode)) : Prop :=
  ∀ h ∈ m.activeNotifications.keys, ∃ x ∈ l, x.1 = h ∧ isBestEffortDeleteSuccess x.2 = true

/-- A handle outside the batch, or whose deletion failed, stays bound. -/
theorem lookup_sumDeleteLoop (user : Bool) (hn : ∀ x ∈ l, x.1 = h → isBestEffortDeleteSuccess x.2 ≠ true) :
    (m.sumDeleteLoop C user l).activeNotifications.lookup h = m.activeNotifications.lookup h := by
  induction l generalizing m with
  | nil => rfl
  | cons x l ih =>
    rw [sumDeleteLoop, ih fun y hy => hn y (mem_cons_of_mem x hy)]
    by_cases hc : isBestEffortDeleteSuccess x.2 = true
    · rw [(sumDeleteOne_eq (C := C) hc user x.1).1, AList.lookup_erase_ne]
      rintro rfl
      exact hn x (mem_cons_self ..) rfl hc
    · rw [sumDeleteOne_of_failure hc]

theorem deletesAll_of_keys_nil (user : Bool)
    (hnil : (m.sumDeleteLoop C user l).activeNotifications.keys = []) : m.DeletesAll l := by
  intro x hx
  by_contra hn
  push Not at hn
  have hlook := lookup_sumDeleteLoop (C := C) (m := m) user hn
  have hsome := AList.lookup_isSome.2 (AList.mem_keys.2 hx)
  rw [← hlook] at hsome
  have hmem := AList.mem_keys.1 (AList.lookup_isSome.1 hsome)
  rw [hnil] at hmem
  exact absurd hmem (by simp)

/-- **The batch delete.**  Lockstep is kept, nothing is bound or filed, and the channel is kept
    unless a caller's delete took every handle. -/
theorem sumDeleteDeviceNotification_spec (hC : C.Agree) (hl : m.Lockstep C) (user : Bool)
    (hs : List Handle) (codes : List ReturnCode) :
    (m.sumDeleteDeviceNotification C user hs codes).Lockstep C ∧
      Fewer (m.sumDeleteDeviceNotification C user hs codes) m ∧
      (m.sumDeleteDeviceNotification C user hs codes).pending ⊆ m.pending ∧
      ((m.sumDeleteDeviceNotification C user hs codes).notificationChannel = m.notificationChannel ∨
        user = true ∧ m.DeletesAll (hs.zip codes)) := by
  unfold sumDeleteDeviceNotification
  split
  · exact ⟨hl, .refl m, fun _ hp => hp, .inl rfl⟩
  obtain ⟨hl₁, hf₁, hp₁, hc₁⟩ := sumDeleteLoop_spec hC hl user (hs.zip codes)
  dsimp only
  split
  · next hu =>
    exact ⟨hl₁.of_eq rfl rfl, hf₁, hp₁, .inr ⟨hu.1, deletesAll_of_keys_nil user hu.2⟩⟩
  · exact ⟨hl₁, hf₁, hp₁, .inl hc₁⟩

omit [DecidableEq Key] in
theorem erase_of_notMem {h} (hn : h ∉ m.activeNotifications) :
    { m with activeNotifications := m.activeNotifications.erase h } = m := by
  have : m.activeNotifications.erase h = m.activeNotifications :=
    AList.ext (kerase_of_notMem_keys fun hk => hn (AList.mem_keys.2 hk))
  rw [this]

theorem sumDeleteDeviceNotification_of_notMem
    (hn : ∀ h ∈ hs, h ∉ m.activeNotifications) (codes : List ReturnCode) :
    m.sumDeleteDeviceNotification C false hs codes = m := by
  have hone : ∀ h code, h ∉ m.activeNotifications → m.sumDeleteOne C false h code = m := by
    intro h code hh
    unfold sumDeleteOne
    split
    · rw [AList.lookup_eq_none.2 hh]
      exact erase_of_notMem hh
    · rfl
  have hloop : ∀ l : List (Handle × ReturnCode), (∀ x ∈ l, x.1 ∉ m.activeNotifications) →
      m.sumDeleteLoop C false l = m := by
    intro l
    induction l with
    | nil => exact fun _ => rfl
    | cons x l ih =>
      intro hl
      rw [sumDeleteLoop, hone x.1 x.2 (hl x (mem_cons_self ..))]
      exact ih fun y hy => hl y (mem_cons_of_mem x hy)
  have := hloop (hs.zip codes) fun x hx => hn x.1 (of_mem_zip hx).1
  unfold sumDeleteDeviceNotification
  split
  · rfl
  · simp [this]

theorem onFile_sumDeleteDeviceNotification (hC : C.Agree) (hl : m.Lockstep C) (h1 : m.OneEach C)
    (user : Bool) (hs : List Handle) (codes : List ReturnCode) (hk : m.OnFile C k)
    (hlive : (m.sumDeleteDeviceNotification C user hs codes).Live C k) :
    (m.sumDeleteDeviceNotification C user hs codes).OnFile C k := by
  unfold sumDeleteDeviceNotification at hlive ⊢
  split at hlive
  · next hc => rw [if_pos hc]; exact hk
  next hc =>
  rw [if_neg hc]
  dsimp only at hlive ⊢
  split at hlive
  · next hu => rw [if_pos hu]; exact onFile_sumDeleteLoop hC hl h1 user _ hk hlive
  · next hu => rw [if_neg hu]; exact onFile_sumDeleteLoop hC hl h1 user _ hk hlive

theorem not_mem_keys_sumDeleteDeviceNotification (hC : C.Agree) (hl : m.Lockstep C) (user : Bool)
    {codes} (hmem : (handle, code) ∈ hs.zip codes)
    (hsucc : isBestEffortDeleteSuccess code = true) (he : m.activeNotifications.lookup handle = some e) :
    C.symbolKey e.fullName ∉ keys C (m.sumDeleteDeviceNotification C user hs codes).pending := by
  unfold sumDeleteDeviceNotification
  split
  · next hc => simp [hc] at hmem
  dsimp only
  split
  · exact not_mem_keys_sumDeleteLoop hC hl user hmem hsucc he
  · exact not_mem_keys_sumDeleteLoop hC hl user hmem hsucc he

end Manager

/-! ## Every section -/

variable [DecidableEq Key]

/-- The symbols a section may put on file. -/
def Section.files (C : Casing Name Key) : Section Name → List Key
  | .bind cfg _ _ _ => [C.symbolKey cfg.symbolName]
  | .addPendings ps => keys C ps
  | .rollback _ savedPending _ => keys C savedPending
  | .restoreIntent intent _ => keys C intent
  | _ => []

variable {k : Key} {m : Manager Name Key}

theorem Manager.mem_keys_addPendings (ps : List (PendingNotification Name)) :
    k ∈ keys C (m.addPendings C ps).pending ↔ k ∈ keys C ps ∨ k ∈ keys C m.pending := by
  induction ps generalizing m with
  | nil => simp [Manager.addPendings, keys]
  | cons p ps ih =>
    rw [Manager.addPendings, ih, Manager.addPending, mem_keys_setPending]
    simp only [keys, map_cons, mem_cons]
    tauto

variable {ps : List (PendingNotification Name)} {s : Section Name}

theorem Manager.mem_keys_of_restoreConfigs (h : k ∈ keys C (m.restoreConfigs C ps).pending) :
    k ∈ keys C ps ∨ k ∈ keys C m.pending := by
  induction ps generalizing m with
  | nil => exact .inr h
  | cons p ps ih =>
    have hcons : ∀ {l}, k ∈ keys C l → k ∈ keys C (p :: l) := fun hl => mem_cons_of_mem _ hl
    unfold Manager.restoreConfigs at h
    split at h
    · exact (ih h).imp_left hcons
    rcases ih h with hps | hm
    · exact .inl (hcons hps)
    rcases mem_keys_setPending.1 hm with rfl | hm
    · exact .inl (mem_cons_self ..)
    · exact .inr hm

omit [DecidableEq Key] in
theorem keys_subset {qs} (h : ps ⊆ qs) :
    keys C ps ⊆ keys C qs := map_subset _ h

/-- **What is on file after a section** was on file before it, or is one of the symbols it files. -/
theorem Section.mem_keys_run (hC : C.Agree) (hl : m.Lockstep C) (h : k ∈ keys C (s.run C m).pending) :
    k ∈ keys C m.pending ∨ k ∈ s.files C := by
  cases s with
  | bind cfg handle fresh ch =>
    have hp : ((Section.bind cfg handle fresh ch).run C m).pending = (m.addConfig C cfg).pending :=
      (bind_eq cfg handle fresh ch).2.1
    rw [hp, Manager.addConfig, mem_keys_setPending] at h
    exact h.symm.imp_right fun hk => mem_singleton.2 hk
  | removeConfigs names => exact .inl (keys_subset (pending_removeConfigs_subset names) h)
  | delete handle symbol =>
    have hp : ((Section.delete handle symbol).run C m).pending = (m.removeSymbol C symbol).pending :=
      (deleteDeviceNotification_eq handle symbol).2.1
    rw [hp] at h
    exact .inl (keys_subset (pending_removeSymbol_subset symbol) h)
  | sumDelete user handles codes =>
    exact .inl (keys_subset (sumDeleteDeviceNotification_spec hC hl user handles codes).2.2.1 h)
  | clearConfigs => exact absurd h (by simp [Section.run, Manager.resetConfigs, keys])
  | addPendings ps => exact ((mem_keys_addPendings ps).1 h).symm
  | rollback => exact .inr h
  | restoreIntent intent ch =>
    have hp : ((Section.restoreIntent intent ch).run C m).pending = (m.restoreConfigs C intent).pending := by
      simp only [Section.run, Manager.restoreIntent]
      split <;> rfl
    rw [hp] at h
    exact (mem_keys_of_restoreConfigs h).symm
  | _ => exact .inl h

/-- A rollback restores a list with one entry per symbol. -/
def Section.Restores (C : Casing Name Key) : Section Name → Prop
  | .rollback _ savedPending _ => (keys C savedPending).Nodup
  | _ => True

/-- **Lockstep is kept** by every section, when a rollback restores one entry per symbol. -/
theorem Manager.Lockstep.run (hC : C.Agree) (h : m.Lockstep C)
    (hs : s.Restores C) : (s.run C m).Lockstep C := by
  cases s with
  | skip => exact h
  | bind cfg handle fresh ch =>
    obtain ⟨-, hp, hk, -⟩ := bind_eq (m := m) (C := C) cfg handle fresh ch
    exact h.setPending.of_eq hp hk
  | removeConfigs names => exact h.removeConfigs hC names
  | delete handle symbol =>
    obtain ⟨-, hp, hk⟩ := deleteDeviceNotification_eq (m := m) (C := C) handle symbol
    exact (h.removeSymbol hC symbol).of_eq hp hk
  | sumDelete user handles codes =>
    exact (sumDeleteDeviceNotification_spec hC h user handles codes).1
  | sweep | releaseChannel | lowerRegistered | raiseRegistered => exact h.of_eq rfl rfl
  | clearConfigs => exact .resetConfigs (by simp [keys])
  | addPendings ps => exact h.addPendings ps
  | rollback => exact (Manager.Lockstep.resetConfigs (m := m) hs).of_eq rfl rfl
  | restoreIntent intent channel =>
    simp only [Section.run, Manager.restoreIntent]
    split
    · exact (h.restoreConfigs intent).of_eq rfl rfl
    · exact h.restoreConfigs intent

/-! ## Sequences of config operations -/

/-- What is done to the configs on file, one call after the other. -/
inductive ConfigOp (Name : Type)
  | addConfig (cfg : NotificationConfig Name)
  | addPending (p : PendingNotification Name)
  | removeNotificationConfig (symbolName : Name)
  | restoreConfigs (snapshot : List (PendingNotification Name))
  | resetConfigs (ps : List (PendingNotification Name))

def ConfigOp.run (C : Casing Name Key) (m : Manager Name Key) : ConfigOp Name → Manager Name Key
  | .addConfig cfg => m.addConfig C cfg
  | .addPending p => m.addPending C p
  | .removeNotificationConfig symbolName => m.removeNotificationConfig C symbolName
  | .restoreConfigs snapshot => m.restoreConfigs C snapshot
  | .resetConfigs ps => m.resetConfigs C ps

/-- The lists that are passed in have one entry per symbol. -/
def ConfigOp.Distinct (C : Casing Name Key) : ConfigOp Name → Prop
  | .restoreConfigs ps | .resetConfigs ps => (keys C ps).Nodup
  | _ => True

theorem Manager.Lockstep.configOp (hC : C.Agree) (h : m.Lockstep C) {op : ConfigOp Name}
    (hop : op.Distinct C) : (op.run C m).Lockstep C := by
  cases op with
  | addConfig | addPending => exact h.setPending
  | removeNotificationConfig n => exact h.removeNotificationConfig hC n
  | restoreConfigs ps => exact h.restoreConfigs ps
  | resetConfigs => exact .resetConfigs hop

theorem Manager.Lockstep.configOps (hC : C.Agree) (h : m.Lockstep C) {ops : List (ConfigOp Name)}
    (hops : ∀ op ∈ ops, op.Distinct C) : (ops.foldl (ConfigOp.run C) m).Lockstep C := by
  induction ops generalizing m with
  | nil => exact h
  | cons op ops ih =>
    obtain ⟨hop, hops⟩ := forall_mem_cons.1 hops
    exact ih (h.configOp hC hop) hops

/-- **The configs on file and their index stay in lockstep**, and a removal takes exactly the entry of its
    key, over every sequence of operations, if and only if the two comparisons of names agree. -/
theorem configs_lockstep_iff (C : Casing Name Key) :
    (∀ ops : List (ConfigOp Name), (∀ op ∈ ops, op.Distinct C) →
      (ops.foldl (ConfigOp.run C) .empty).Lockstep C ∧
        ∀ n, ((ops.foldl (ConfigOp.run C) .empty).removeNotificationConfig C n).pending =
          (ops.foldl (ConfigOp.run C) .empty).pending.filter fun e => e.key C ≠ C.symbolKey n) ↔ C.Agree := by
  constructor
  · intro h a b
    let cfg (n : Name) : NotificationConfig Name := ⟨n, 0, 0, .noTransmission⟩
    by_cases hk : C.symbolKey a = C.symbolKey b
    · -- the removal of `b` is to take the entry of `a`
      have hone := (h [.addConfig (cfg a)] (by simp [ConfigOp.Distinct])).2 b
      refine ⟨fun _ => hk, fun _ => ?_⟩
      by_contra hf
      simp [ConfigOp.run, Manager.addConfig, Manager.setPending, Manager.removeNotificationConfig,
        Manager.empty, PendingNotification.key, keys, cfg, hk, hf] at hone
    · -- the removal of `b` is to leave the entry of `a`, which comes first
      have htwo := (h [.addConfig (cfg a), .addConfig (cfg b)] (by simp [ConfigOp.Distinct])).2 b
      refine ⟨fun hf => ?_, fun heq => absurd heq hk⟩
      simp [ConfigOp.run, Manager.addConfig, Manager.setPending, Manager.removeNotificationConfig,
        Manager.empty, PendingNotification.key, keys, cfg, hk, Ne.symm hk, hf] at htwo
      exact congrArg C.symbolKey htwo.symm
  · intro hC ops hops
    have hl : (ops.foldl (ConfigOp.run C) .empty).Lockstep C :=
      .configOps hC ⟨by simp [Manager.empty, keys], by simp [Manager.empty, keys]⟩ hops
    exact ⟨hl, hl.pending_removeNotificationConfig hC⟩

/-- Names in ASCII letters and `ſ` (U+017F), which `strings.ToLower` leaves alone and `strings.EqualFold`
    takes for an `s`. -/
def longS : Casing (List Char) (List Char) where
  symbolKey name := name.map Char.toLower
  equalFold a b := a.map fold == b.map fold
where
  fold (c : Char) : Char := if c = 'ſ' then 's' else c.toLower

/-- `mas` and `maſ` are two symbols: removing the second removes the first, and takes the second off the
    index. -/
theorem longS_removes_other :
    let add (name : String) : ConfigOp (List Char) := .addConfig ⟨name.toList, 0, 0, .serverOnChange⟩
    let m := [add "mas", add "maſ", .removeNotificationConfig "maſ".toList].foldl (ConfigOp.run longS) .empty
    m.pending.map (·.config.symbolName) = ["maſ".toList] ∧ m.configsByKey = {"mas".toList} := by
  decide

end GoAds.Notification
