import GoAds.Notification.Invariant

/-!
# `Notification.Channel` — declared subscriptions have a channel to return to

`notificationChannel` is cleared when the handle map runs empty under a caller's delete, or when a
re-subscribe finds that no symbol is left.  The configs on file are not consulted, and the map is
also empty after every sweep.  So a run can rest with configs on file and no channel, in which state
a re-subscribe returns success and restores nothing.

`KeepsChannel` says what has to hold at the sections that clear the channel, or file a config without
looking at it; in the runs that meet it, configs on file always have a channel.
-/

namespace GoAds.Notification

open Interleaving

variable {Name Key : Type} [DecidableEq Key] {C : Casing Name Key}

/-- Configs on file have a channel to return to. -/
def Manager.HasChannel (m : Manager Name Key) : Prop :=
  m.pending ≠ [] → m.notificationChannel.isSome = true

/-- The condition on one section, in the state before it: a caller subscribes with a channel; a
    caller's delete that takes every bound handle leaves no symbol on file that is not the symbol of
    a handle it takes; a re-subscribe that finds no symbol left finds nothing filed meanwhile; and
    skipped entries are queued again while a channel is bound. -/
def Section.KeepsChannel (C : Casing Name Key) (m : Manager Name Key) : Section Name → Prop
  | .bind _ _ _ ch => ch.isSome = true
  | .delete handle (some symbol) =>
    (∀ h ∈ m.activeNotifications.keys, h = handle) → ∀ k ∈ keys C m.pending, k = C.symbolKey symbol
  | .sumDelete true handles codes =>
    codes ≠ [] → m.DeletesAll (handles.zip codes) → ∀ k ∈ keys C m.pending,
      ∃ x ∈ handles.zip codes, isBestEffortDeleteSuccess x.2 = true ∧
        ∃ e ∈ m.activeNotifications.lookup x.1, C.symbolKey e.fullName = k
  | .releaseChannel => m.pending = []
  | .addPendings ps => ps ≠ [] → m.notificationChannel.isSome = true
  | _ => True

/-- What a re-subscribe puts back comes with a channel. -/
def Section.CarriesChannel : Section Name → Prop
  | .rollback _ _ ch => ch.isSome = true
  | .restoreIntent intent ch => intent ≠ [] → ch.isSome = true
  | _ => True

namespace Manager

variable {m : Manager Name Key}

omit [DecidableEq Key] in
theorem HasChannel.mono {m' : Manager Name Key} (h : m.HasChannel) (hp : m'.pending ⊆ m.pending)
    (hc : m'.notificationChannel = m.notificationChannel) : m'.HasChannel := by
  intro hne
  rw [hc]
  refine h fun hnil => hne (List.eq_nil_iff_forall_not_mem.2 fun p hmem => ?_)
  exact absurd (hp hmem) (by simp [hnil])

/-- The last delete of a caller: what is on file belongs to the handle deleted, so nothing is left
    on file when the channel goes. -/
theorem hasChannel_delete (hC : C.Agree) (hl : m.Lockstep C) (h : m.HasChannel) (handle : Handle)
    (symbol : Option Name) (hk : (Section.delete handle symbol).KeepsChannel C m) :
    (m.deleteDeviceNotification C handle symbol).HasChannel := by
  have hsub := pending_removeSymbol_subset (m := m) (C := C) symbol
  have hch := notificationChannel_removeSymbol (m := m) (C := C) symbol
  unfold deleteDeviceNotification
  dsimp only
  split
  · next hlast =>
    obtain ⟨hsome, hnil⟩ := hlast
    obtain ⟨n, rfl⟩ := Option.isSome_iff_exists.1 hsome
    have hall : ∀ x ∈ m.activeNotifications.keys, x = handle := by
      intro x hx
      by_contra hne
      have hmem : x ∈ (m.activeNotifications.erase handle).keys :=
        AList.mem_keys.1 (AList.mem_erase.2 ⟨hne, AList.mem_keys.2 hx⟩)
      rw [activeNotifications_removeSymbol] at hnil
      rw [hnil] at hmem
      exact absurd hmem (by simp)
    intro hne
    refine absurd (List.eq_nil_iff_forall_not_mem.2 fun p hp => ?_) hne
    have hpk := hk hall (p.key C) (mem_keys.2 ⟨p, hsub hp, rfl⟩)
    exact not_mem_keys_removeNotificationConfig hC hl n (mem_keys.2 ⟨p, hp, hpk⟩)
  · exact h.mono hsub hch

theorem hasChannel_sumDelete (hC : C.Agree) (hl : m.Lockstep C) (h : m.HasChannel) (user : Bool)
    (handles : List Handle) (codes : List ReturnCode)
    (hk : (Section.sumDelete user handles codes).KeepsChannel C m) :
    (m.sumDeleteDeviceNotification C user handles codes).HasChannel := by
  obtain ⟨-, -, hsub, hch⟩ := sumDeleteDeviceNotification_spec hC hl user handles codes
  rcases hch with hch | ⟨rfl, hall⟩
  · exact h.mono hsub hch
  by_cases hcodes : codes = []
  · subst hcodes
    exact h
  intro hne
  refine absurd (List.eq_nil_iff_forall_not_mem.2 fun p hp => ?_) hne
  obtain ⟨⟨x, code⟩, hx, hs, e, he, hek⟩ :=
    hk hcodes hall (p.key C) (mem_keys.2 ⟨p, hsub hp, rfl⟩)
  have hgone := not_mem_keys_sumDeleteDeviceNotification hC hl true hx hs he
  exact hgone (hek ▸ mem_keys.2 ⟨p, hp, rfl⟩)

theorem hasChannel_restoreIntent (h : m.HasChannel) (intent : List (PendingNotification Name))
    (ch : Option Chan) (hi : intent ≠ [] → ch.isSome = true) :
    (m.restoreIntent C intent ch).HasChannel := by
  have hch := (restoreConfigs_frame (m := m) (C := C) intent).2
  unfold restoreIntent
  dsimp only
  split
  · next hnone =>
    intro hne
    by_cases hint : intent = []
    · -- nothing is restored, so what is on file had a channel
      subst hint
      exact absurd (h hne) (by simpa [restoreConfigs] using hnone)
    · exact hi hint
  next hsome =>
  intro _
  cases hc : (m.restoreConfigs C intent).notificationChannel with
  | none => simp [hc] at hsome
  | some => rfl

theorem HasChannel.run (hC : C.Agree) (hl : m.Lockstep C) (h : m.HasChannel) {s : Section Name}
    (hk : s.KeepsChannel C m) (hs : s.CarriesChannel) : (s.run C m).HasChannel := by
  cases s with
  | bind cfg handle fresh ch =>
    intro _
    exact (congrArg Option.isSome (bind_eq (m := m) (C := C) cfg handle fresh ch).2.2.2).trans hk
  | removeConfigs names =>
    exact h.mono (pending_removeConfigs_subset names) (notificationChannel_removeConfigs names)
  | delete handle symbol => exact hasChannel_delete hC hl h handle symbol hk
  | sumDelete user handles codes => exact hasChannel_sumDelete hC hl h user handles codes hk
  | clearConfigs => exact fun hne => absurd rfl hne
  | releaseChannel => exact fun hne => absurd hk hne
  | addPendings ps =>
    intro hne
    have hch : (m.addPendings C ps).notificationChannel = m.notificationChannel :=
      notificationChannel_addPendings ps
    show (m.addPendings C ps).notificationChannel.isSome = true
    rw [hch]
    by_cases hps : ps = []
    · subst hps
      exact h hne
    · exact hk hps
  | rollback => exact fun _ => hs
  | restoreIntent intent ch => exact hasChannel_restoreIntent h intent ch hs
  | _ => exact h

end Manager

/-! ## Every run -/

def KeepsChannel (C : Casing Name Key) (c : State Name Key) (a : Nat × Act Name Key) : Prop :=
  (sectionOf C c a).KeepsChannel C c.shared.notifications

/-- A snapshot of the intent was taken with its channel. -/
def Pc.IntentHasChannel (_ : Shared Name Key) (_ : Nat) (pc : Pc Name Key) : Prop :=
  ∀ i, pc.intent = some i → i.pending ≠ [] → i.channel.isSome = true

theorem PlanStep.carriesChannel {t sh pc pc' a e} (h : PlanStep C t sh pc a pc' e) (hp : pc.WF C sh t)
    (hi : pc.IntentHasChannel sh t) : e.toSection.CarriesChannel := by
  have hresub : ∀ {p : ResubPc Name Key} {p' : Option (ResubPc Name Key)} {a : ResubAct Name}
      {s : Section Name}, ResubStep C sh p a p' s → p.WF C → (∀ i, p.intent = some i → i.pending ≠ [] →
        i.channel.isSome = true) → s.CarriesChannel := by
    intro p p' a s hs hwf hint
    cases hs with
    | rolledBack => exact hwf.channel
    | restored i => exact hint i rfl
    | lowered r s hs | failed r s hs | succeeded r s hs => rcases hs with rfl | ⟨n, rfl⟩ <;> trivial
    | batch r p p' a s hb => cases hb <;> trivial
    | _ => trivial
  cases h with
  | add p p' a s hs | batch p p' a s hs => cases hs <;> trivial
  | resub p p' a s hs | resubDone p a s hs => exact hresub hs hp.1 hi
  | _ => trivial

/-- The invariant of the runs that keep the channel. -/
abbrev ChannelInv : State Name Key → Prop :=
  Conf.Inv (fun sh => sh.notifications.HasChannel) Pc.IntentHasChannel

theorem channelInv_step (hC : C.Agree) {c c' : State Name Key} {a : Nat × Act Name Key}
    (hi : Inv C c) (hc : ChannelInv c) (hk : KeepsChannel C c a) (h : step C c a = some c') :
    ChannelInv c' := by
  obtain ⟨t, a⟩ := a
  obtain ⟨pc', e, hp, hsec, rfl⟩ := step_cases h
  rw [KeepsChannel, hsec] at hk
  refine ⟨?_, fun u => ?_⟩
  · show (e.run C c.shared).notifications.HasChannel
    rw [Effect.run_notifications]
    exact hc.shared.run hC hi.shared hk (hp.carriesChannel (hi.loc t) (hc.loc t))
  show (Function.update c.loc t pc' u).IntentHasChannel _ u
  by_cases hu : u = t
  · subst hu
    rw [Function.update_self]
    intro i hint hne
    rcases hp.intent hint with hold | rfl
    · exact hc.loc u i hold hne
    · exact hc.shared hne
  · rw [Function.update_of_ne hu]
    exact hc.loc u

theorem channelInv_run (hC : C.Agree) {c}
    (h : Run (step C) (KeepsChannel C) init c) : Inv C c ∧ ChannelInv c := by
  refine h.invariant (P := fun c => Inv C c ∧ ChannelInv c) ⟨inv_init, ?_, ?_⟩ ?_
  · exact fun hne => absurd rfl hne
  · exact fun _ i hi => absurd hi (by simp [init, Pc.intent])
  · exact fun c a c' hi hk hs => ⟨inv_step hC hi.1 hs, channelInv_step hC hi.1 hi.2 hk hs⟩

/-- **Declared subscriptions have a channel to return to** in every state of every run whose steps
    keep it; so the section that takes the configs off file returns early only when none is on
    file. -/
theorem pending_has_channel (hC : C.Agree) {c : State Name Key} (h : Run (step C) (KeepsChannel C) init c) :
    (c.shared.notifications.pending ≠ [] → c.shared.notifications.notificationChannel ≠ none) ∧
      ∀ t intent c', c.loc t = .resub (.take intent) → step C c (t, .resub .next) = some c' →
        c'.loc t = .resub (.returned intent none false) → c.shared.notifications.pending = [] := by
  have hch := (channelInv_run hC h).2.shared
  refine ⟨fun hne => Option.isSome_iff_ne_none.1 (hch hne), ?_⟩
  intro t intent c' hloc hstep hret
  by_contra hne
  obtain ⟨pc', e, hp, -, rfl⟩ := step_cases hstep
  have hpc : pc' = .resub (.returned intent none false) := by simpa using hret
  rw [hloc, hpc] at hp
  cases hp with
  | resub p p' a s hs =>
    cases hs with
    | nothing _ hn => exact hn.elim hne (Option.isSome_iff_ne_none.1 (hch hne))

/-! ## A run that keeps the channel, and one that loses it -/

instance (m : Manager Name Key) (l : List (Handle × ReturnCode)) : Decidable (m.DeletesAll l) :=
  inferInstanceAs (Decidable (∀ h ∈ m.activeNotifications.keys, ∃ x ∈ l, x.1 = h ∧ _))

instance (m : Manager Name Key) (s : Section Name) : Decidable (s.KeepsChannel C m) := by
  unfold Section.KeepsChannel
  split <;> infer_instance

instance (c : State Name Key) (a : Nat × Act Name Key) : Decidable (KeepsChannel C c a) :=
  inferInstanceAs (Decidable ((sectionOf C c a).KeepsChannel C c.shared.notifications))

section Example

/-- A reconnect that sweeps the map and re-subscribes keeps the channel throughout. -/
theorem pending_has_channel_reconnect :
    ∃ c : State String String, Run (step ascii) (KeepsChannel ascii) init c ∧
      c.shared.notifications.pending ≠ [] ∧ c.shared.notifications.notificationChannel ≠ none := by
  obtain ⟨c, hrun, hne⟩ := exists_run (step ascii) (KeepsChannel ascii) init
    (fun c => c.shared.notifications.pending ≠ [])
    (subscribeA ++ [(1, .sweep), (1, .release [ReturnCode.noErrors]), (1, .startResub false),
      (1, .resub .next), (1, .resub .next), (1, .resub .next), (1, .resub .next),
      (1, .resub (.batch (.check true))), (1, .resub (.batch (.resolve fun _ => true))),
      (1, .resub (.batch (.client true))), (1, .resub (.batch (.reply ReturnCode.noErrors 8))),
      (1, .resub (.batch .commit))])
    (by decide +kernel)
  exact ⟨c, hrun, hne, (pending_has_channel ascii_agree hrun).1 hne⟩

/-- A reconnect sweeps the map, and the caller then deletes the swept handle: the PLC no longer
    knows it, the map is empty, and the channel is cleared under a config that is still on file. -/
theorem channel_lost : ¬ ∀ c : State String String, Run (step ascii) anyStep init c →
      c.shared.notifications.pending ≠ [] → c.shared.notifications.notificationChannel ≠ none := by
  intro hall
  exact not_forall_run (subscribeA ++ [(1, .sweep), (0, .startSumDelete [7]),
    (0, .sumDeleteReply [ReturnCode.deviceNotifyHandleInvalid])]) (by decide +kernel) hall

end Example

end GoAds.Notification
