import GoAds.Notification.Handles

/-!
# `Notification.Rollback` — a failed re-subscribe and the subscribers beside it

A history variable follows the re-subscribe in flight: what was on file when it took the configs,
which subscriptions other goroutines committed since, and for which handles a delete went out.

The rollback tells its own handles by a set difference against the snapshot it took before its batch,
and puts back the configs it had saved.  So a subscription committed beside it survives only when the
snapshot already has its handle and the saved configs its symbol; `SparesOthers` says so of the state
before the rollback.  Everything else a re-subscribe and its batch do is confined to handles nobody
has bound, by `HandlesInv`.
-/

namespace GoAds.Notification

open Interleaving List Manager

variable {Name Key : Type}

/-! ## The re-subscribe in flight -/

/-- From the section that takes the configs off file to the return. -/
def ResubPc.inFlight : ResubPc Name Key → Bool
  | .filter _ _ _ => true
  | p => p.work.isSome

def ResubPc.took : ResubPc Name Key → List (PendingNotification Name)
  | .filter _ saved _ => saved
  | p => p.work.elim [] (·.savedPending)

def ResubPc.rolledBack : ResubPc Name Key → Bool
  | .undo _ _ => true
  | .returned _ _ err => err
  | _ => false

/-- The goroutine whose re-subscribe is in flight, and where it is. -/
def attempt (c : State Name Key) : Option (Nat × ResubPc Name Key) :=
  match c.shared.resubscribeMu with
  | none => none
  | some t =>
    match c.loc t with
    | .resub p => if p.inFlight then some (t, p) else none
    | _ => none

variable {a : Act Name Key} {e : Effect Name Key} {m : Manager Name Key} {t : Nat} {pc pc' : Pc Name Key}
  {p : ResubPc Name Key} {s : Section Name} {sh : Shared Name Key}

theorem attempt_eq_some {c} : attempt c = some (t, p) ↔
      c.shared.resubscribeMu = some t ∧ c.loc t = .resub p ∧ p.inFlight = true := by
  unfold attempt
  constructor
  · intro h
    split at h
    · cases h
    next u hmu =>
    split at h
    · next q hloc =>
      split at h
      · next hq =>
        cases h
        exact ⟨hmu, hloc, hq⟩
      · cases h
    · cases h
  · rintro ⟨hmu, hloc, hp⟩
    simp [hmu, hloc, hp]

/-- The handles for which the goroutine has sent, or is about to send, a delete. -/
def Pc.requests : Pc Name Key → List Handle
  | .add (.release handle) => [handle]
  | .batch (.release b _) => b.refused
  | .delete handle _ => [handle]
  | .sumDelete handles | .release handles | .resub (.recoverRelease handles) => handles
  | .resub (.batch _ (.release b _)) => b.refused
  | .resub (.orphans r _) => r.outcome.orphanHandles
  | .resub (.undo _ newHandles) => newHandles
  | _ => []

/-- A step of a subscribe, or a change of what the subscribes read. -/
def Act.adds : Act Name Key → Bool
  | .startAdd _ _ | .startBatch _ _ | .swapSymbols _ | .insertSymbol _ _ | .clearOnDemand
  | .bumpEpoch | .add _ | .batch _ | .ret => true
  | _ => false

section

variable (C : Casing Name Key)

/-- The subscription a section commits. -/
def Section.commits : Section Name → List (Key × Handle)
  | .bind cfg handle _ _ => [(C.symbolKey cfg.symbolName, handle)]
  | _ => []

variable [DecidableEq Key]

/-- The deletes that go out with a step. -/
def requestsOf (c : State Name Key) (a : Nat × Act Name Key) : List Handle :=
  match plan C a.1 (c.loc a.1) c.shared a.2 with
  | some r => r.1.requests
  | none => []

/-- The record of the re-subscribe in flight, and the handles the PLC has given out. -/
structure Episode (Name Key : Type) where
  issued : List Handle
  before : List (PendingNotification Name)
  others : List (Key × Handle)
  sent : List Handle

def Episode.watch (g : Episode Name Key) (c : State Name Key) (a : Nat × Act Name Key) : Episode Name Key :=
  match c.loc a.1, sectionOf C c a with
  | .resub (.take _), .clearConfigs =>
    { issued := a.2.replied.toList ++ g.issued
      before := c.shared.notifications.pending
      others := []
      sent := [] }
  | _, s =>
    match attempt c with
    | none => { g with issued := a.2.replied.toList ++ g.issued }
    | some (t, _) =>
      { g with
        issued := a.2.replied.toList ++ g.issued
        others := (if a.1 = t then [] else s.commits C) ++ g.others
        sent := requestsOf C c a ++ g.sent }

/-- The session with its record. -/
abbrev recorded := observe (step C) (Episode.watch C)

def recordedInit : State Name Key × Episode Name Key := (init, ⟨[], [], [], []⟩)

/-- The runs in question: the PLC gives out no handle twice, and while a re-subscribe is in flight the
    other goroutines only subscribe. -/
def Concurrent (x : State Name Key × Episode Name Key) (a : Nat × Act Name Key) : Prop :=
  (∀ h ∈ a.2.replied, h ∉ x.2.issued) ∧ ∀ y ∈ attempt x.1, a.1 ≠ y.1 → a.2.adds = true

/-- The condition on a step.  When the re-subscribe rolls back, every subscription that others
    committed since it began was there when it took its snapshot of the handles, and its symbol was
    on file when it began.  A batch whose handles were swept un-registers none of these symbols, and,
    once the re-subscribe has rolled back, none that was on file when it began. -/
def SparesOthers (x : State Name Key × Episode Name Key) (a : Nat × Act Name Key) : Prop :=
  match attempt x.1, sectionOf C x.1 a with
  | some _, .rollback preHandles savedPending _ =>
    ∀ y ∈ x.2.others, y.2 ∈ preHandles ∧ y.1 ∈ keys C savedPending
  | some (_, p), .removeConfigs names =>
    ∀ n ∈ names, (∀ y ∈ x.2.others, y.1 ≠ C.symbolKey n) ∧
      (p.rolledBack = true → C.symbolKey n ∉ keys C x.2.before)
  | _, _ => True

end

variable [DecidableEq Key] {C : Casing Name Key}

/-! ## Sections that leave subscriptions alone -/

/-- The sections of a subscribe and of a re-subscribe in flight, when the handles they release are
    not bound. -/
def Section.Mild (m : Manager Name Key) : Section Name → Prop
  | .sumDelete userTeardown handles _ =>
    userTeardown = false ∧ ∀ h ∈ handles, h ∉ m.activeNotifications
  | .delete _ _ | .sweep | .clearConfigs | .restoreIntent _ _ => False
  | _ => True

omit [DecidableEq Key] in
theorem Manager.mem_dropHandles {hs h}
    (hm : h ∈ m.activeNotifications) (hn : h ∉ hs) : h ∈ (m.dropHandles hs).activeNotifications := by
  induction hs generalizing m with
  | nil => exact hm
  | cons x hs ih =>
    refine ih (AList.mem_erase.2 ⟨?_, hm⟩) fun hx => hn (mem_cons_of_mem x hx)
    rintro rfl
    exact hn (mem_cons_self ..)

/-- A bound handle stays bound, a rollback apart that does not know it. -/
theorem Section.Mild.mem_run {h}
    (hs : s.Mild m) (hr : ∀ pre saved ch, s = .rollback pre saved ch → h ∈ pre)
    (hm : h ∈ m.activeNotifications) : h ∈ (s.run C m).activeNotifications := by
  cases s with
  | skip | releaseChannel | lowerRegistered | raiseRegistered => exact hm
  | bind cfg x fresh ch =>
    rw [Section.run, (bind_eq cfg x fresh ch).1, AList.mem_insert]
    exact .inr hm
  | removeConfigs => rwa [Section.run, activeNotifications_removeConfigs]
  | delete | sweep | clearConfigs | restoreIntent => exact hs.elim
  | sumDelete =>
    obtain ⟨rfl, hn⟩ := hs
    rwa [Section.run, sumDeleteDeviceNotification_of_notMem hn]
  | addPendings => rwa [Section.run, activeNotifications_addPendings]
  | rollback pre saved ch =>
    have hpre := hr pre saved ch rfl
    exact mem_dropHandles hm fun hnew => by
      have := (mem_filter.1 hnew).2
      simp [hpre] at this

/-- A symbol on file stays on file, unless it is un-registered or a rollback does not know it. -/
theorem Section.Mild.onFile_run (hC : C.Agree) (hl : m.Lockstep C) {k} (hs : s.Mild m)
    (hr : ∀ pre saved ch, s = .rollback pre saved ch → k ∈ keys C saved)
    (hn : ∀ names, s = .removeConfigs names → ∀ n ∈ names, k ≠ C.symbolKey n)
    (hk : m.OnFile C k) : (s.run C m).OnFile C k := by
  cases s with
  | skip | releaseChannel | lowerRegistered | raiseRegistered => exact hk
  | bind cfg x fresh ch =>
    obtain ⟨-, hp, hc, -⟩ := bind_eq (m := m) (C := C) cfg x fresh ch
    have hfile : (m.addConfig C cfg).OnFile C k := onFile_setPending (.inl hk)
    exact hfile.of_eq hp hc
  | removeConfigs names => exact hk.removeConfigs hC hl (hn names rfl)
  | delete | sweep | clearConfigs | restoreIntent => exact hs.elim
  | sumDelete =>
    obtain ⟨rfl, hno⟩ := hs
    rwa [Section.run, sumDeleteDeviceNotification_of_notMem hno]
  | addPendings ps => exact hk.addPendings ps
  | rollback pre saved ch =>
    have hsaved := hr pre saved ch rfl
    exact ⟨mem_toFinset.2 hsaved, hsaved⟩

theorem Section.commits_run {y}
    (hy : y ∈ s.commits C) : y.2 ∈ (s.run C m).activeNotifications ∧ (s.run C m).OnFile C y.1 := by
  cases s with
  | bind cfg x fresh ch =>
    rw [mem_singleton.1 hy]
    obtain ⟨ha, hp, hc, -⟩ := bind_eq (m := m) (C := C) cfg x fresh ch
    refine ⟨?_, ?_⟩
    · rw [Section.run, ha]
      exact (AList.mem_insert _).2 (.inl rfl)
    have hfile : (m.addConfig C cfg).OnFile C (C.symbolKey cfg.symbolName) :=
      onFile_setPending (.inr rfl)
    exact hfile.of_eq hp hc
  | _ => exact absurd hy (by simp [Section.commits])

/-! ## The steps of an episode -/

theorem BatchStep.mild {p p' a} (h : BatchStep C sh p a p' s)
    (hl : ∀ x ∈ p.grip.loose, x ∉ sh.notifications.activeNotifications) : s.Mild sh.notifications := by
  cases h with
  | released => exact ⟨rfl, fun x hx => hl x (mem_append_left _ hx)⟩
  | _ => trivial

theorem ResubStep.mild {p' a}
    (h : ResubStep C sh p a p' s) (hp : p.inFlight = true)
    (hl : ∀ x ∈ p.grip.loose, x ∉ sh.notifications.activeNotifications) : s.Mild sh.notifications := by
  cases h with
  | swept | sweptReleased | taken | restored => cases hp
  | lowered r s hs | failed r s hs | succeeded r s hs => rcases hs with rfl | ⟨n, rfl⟩ <;> trivial
  | batch r p p' a s hb => exact hb.mild hl
  | orphansReleased | undone => exact ⟨rfl, hl⟩
  | _ => trivial

/-- In an episode a goroutine subscribes, or it is the one that re-subscribes. -/
def InEpisode (pc : Pc Name Key) (a : Act Name Key) : Prop :=
  a.adds = true ∨ ∃ p, pc = .resub p ∧ p.inFlight = true

section

variable (h : PlanStep C t sh pc a pc' e)

include h

theorem PlanStep.mild (ha : InEpisode pc a)
    (hl : ∀ x ∈ pc.grip.loose, x ∉ sh.notifications.activeNotifications) :
    e.toSection.Mild sh.notifications := by
  cases h with
  | add p p' a s hs => cases hs <;> trivial
  | batch p p' a s hs => exact hs.mild hl
  | resub p p' a s hs | resubDone p a s hs =>
    obtain ha | ⟨q, hq, hf⟩ := ha
    · cases ha
    · cases hq
      exact hs.mild hf hl
  | sweep | deleted | sumDeleted | released =>
    obtain ha | ⟨q, hq, -⟩ := ha
    · cases ha
    · cases hq
  | _ => trivial

/-- The deletes that go out are of loose handles. -/
theorem PlanStep.requests (ha : InEpisode pc a) : pc'.requests ⊆ pc'.grip.loose := by
  have hbatch : ∀ p : BatchPc Name Key, (Pc.batch p).requests ⊆ (Pc.batch p).grip.loose := by
    intro p x hx
    cases p <;> first | exact mem_append_left _ hx | exact absurd hx (by simp [Pc.requests])
  cases h with
  | add p p' a s hs =>
    cases hs <;> first | exact nil_subset _ | exact fun _ hx => hx
  | batch p p' => exact hbatch p'
  | resub p p' a s hs =>
    obtain ha | ⟨q, hq, hf⟩ := ha
    · cases ha
    cases hq
    cases hs with
    | swept => cases hf
    | batch r p p' =>
      have := hbatch p'
      cases p' <;> exact this
    | triaged | rolledBack => exact fun _ hx => hx
    | _ => exact nil_subset _
  | startDelete | startSumDelete | sweep =>
    obtain ha | ⟨q, hq, -⟩ := ha
    · cases ha
    · cases hq
  | startResub recovery => cases recovery <;> exact nil_subset _
  | _ => exact nil_subset _

theorem PlanStep.rollback {pre saved ch} (hs : e.toSection = .rollback pre saved ch) :
    ∃ r, pc = .resub (.rollback r) ∧ saved = r.savedPending := by
  cases h with
  | add p p' a s hstep | batch p p' a s hstep | resubDone p a s hstep => cases hstep <;> cases hs
  | resub p p' a s hstep =>
    cases hstep with
    | rolledBack r => cases hs; exact ⟨r, rfl, rfl⟩
    | batch r p p' a s hb => cases hb <;> cases hs
    | lowered r s hl | failed r s hl | succeeded r s hl => rcases hl with rfl | ⟨n, rfl⟩ <;> cases hs
    | _ => cases hs
  | _ => cases hs

end

/-- A step of the re-subscribe in flight keeps what it took, and it has rolled back only after its
    rollback; or it takes the configs now. -/
theorem ResubStep.took {p' a}
    (h : ResubStep C sh p a (some p') s) (hf : p'.inFlight = true) :
    (p.inFlight = true ∧ p'.took = p.took ∧ (p'.rolledBack = true → p.rolledBack = true ∨
        ∃ pre ch, s = .rollback pre p.took ch)) ∨
      ∃ i, p = .take i ∧ s = .clearConfigs ∧ p'.took = sh.notifications.pending ∧
        p'.rolledBack = false := by
  cases h with
  | taken intent => exact .inr ⟨intent, rfl, rfl, rfl, rfl⟩
  | swept | sweptReleased | intentTaken | nothing | recoveryFailed | recoveryReturned | boundNothing
  | recovered => cases hf
  | rolledBack => exact .inl ⟨rfl, rfl, fun _ => .inr ⟨_, _, rfl⟩⟩
  | undone => exact .inl ⟨rfl, rfl, fun _ => .inl rfl⟩
  | _ => exact .inl ⟨rfl, rfl, fun hr => by cases hr⟩

/-! ## The record -/

section Watch

variable {g : Episode Name Key} {c : State Name Key} {a : Nat × Act Name Key}

theorem Episode.issued_watch : (g.watch C c a).issued = a.2.replied.toList ++ g.issued := by
  unfold Episode.watch
  split
  · rfl
  · split <;> rfl

theorem Episode.watch_of_take {i} (hloc : c.loc a.1 = .resub (.take i))
    (hs : sectionOf C c a = .clearConfigs) :
    g.watch C c a = ⟨a.2.replied.toList ++ g.issued, c.shared.notifications.pending, [], []⟩ := by
  simp only [Episode.watch, hloc, hs]

theorem Episode.watch_of_attempt {t p} (ha : attempt c = some (t, p))
    (hi : InEpisode (c.loc a.1) a.2) : g.watch C c a =
      { g with
        issued := a.2.replied.toList ++ g.issued
        others := (if a.1 = t then [] else (sectionOf C c a).commits C) ++ g.others
        sent := requestsOf C c a ++ g.sent } := by
  unfold Episode.watch
  split
  · next i hloc hs =>
    -- a goroutine that takes the configs neither subscribes nor is in flight
    exfalso
    obtain ⟨u, b⟩ := a
    obtain ⟨pc', e, hp, he⟩ := planStep_of_sectionOf hs (by simp)
    simp only [hloc] at hp hi
    obtain hadds | ⟨q, hq, hf⟩ := hi
    · cases hp <;> cases hadds
    · cases hq
      cases hf
  · simp only [ha]

/-- The record of deletes: as before, or emptied, or with the deletes of this step. -/
theorem Episode.mem_sent_watch {x} (hx : x ∈ (g.watch C c a).sent) :
    x ∈ g.sent ∨ (attempt c).isSome = true ∧ x ∈ requestsOf C c a := by
  unfold Episode.watch at hx
  split at hx
  · exact absurd hx (by simp)
  split at hx
  · exact .inl hx
  next t p ha =>
  rcases mem_append.1 hx with hx | hx
  · exact .inr ⟨by rw [ha]; rfl, hx⟩
  · exact .inl hx

end Watch

/-! ## Runs -/

/-- What holds in every state of the runs in question.  `others` and `restored` are about the
    re-subscribe in flight. -/
structure EpisodeInv (C : Casing Name Key) (x : State Name Key × Episode Name Key) : Prop where
  base : Inv C x.1
  handles : HandlesInv x.2.issued x.1
  sent : ∀ h ∈ x.2.sent, h ∈ x.2.issued ∧ ∀ t, (x.1.loc t).grip.hand ≠ some h
  took : ∀ t p, attempt x.1 = some (t, p) → p.took = x.2.before
  others : ∀ t p, attempt x.1 = some (t, p) → ∀ y ∈ x.2.others,
    y.2 ∈ x.1.shared.notifications.activeNotifications ∧
      x.1.shared.notifications.OnFile C y.1 ∧ y.2 ∉ x.2.sent
  restored : ∀ t p, attempt x.1 = some (t, p) → p.rolledBack = true →
    ∀ q ∈ x.2.before, x.1.shared.notifications.OnFile C (q.key C)

omit [DecidableEq Key] in
theorem episodeInv_init : EpisodeInv C (recordedInit : State Name Key × Episode Name Key) := by
  have hno : ∀ t p, attempt (init : State Name Key) ≠ some (t, p) := by
    intro t p h
    cases h
  exact ⟨inv_init, handlesInv_init, fun h hh => absurd hh (by simp [recordedInit]),
    fun t p h => absurd h (hno t p), fun t p h => absurd h (hno t p),
    fun t p h => absurd h (hno t p)⟩

section Step

variable {c : State Name Key} {g : Episode Name Key} {u : Nat}

omit [DecidableEq Key] in
/-- The goroutine that moves in an episode subscribes, or it is the one that re-subscribes. -/
theorem Concurrent.inEpisode (hc : Concurrent (c, g) (u, a)) {t p}
    (ha : attempt c = some (t, p)) : InEpisode (c.loc u) a := by
  by_cases hu : u = t
  · obtain ⟨-, hloc, hf⟩ := attempt_eq_some.1 ha
    exact .inr ⟨p, hu ▸ hloc, hf⟩
  · exact .inl (hc.2 _ ha hu)

/-- A rollback in an episode puts back what was on file before. -/
theorem EpisodeInv.saved_eq (hi : EpisodeInv C (c, g))
    (hp : PlanStep C u c.shared (c.loc u) a pc' e) {pre saved ch}
    (hs : e.toSection = .rollback pre saved ch) : saved = g.before := by
  obtain ⟨r, hloc, rfl⟩ := hp.rollback hs
  have hmu := hi.base.loc u
  simp only [hloc] at hmu
  exact hi.took u _ (attempt_eq_some.2 ⟨hmu.2, hloc, rfl⟩)

section

variable (hC : C.Agree) (hi : EpisodeInv C (c, g)) (hp : PlanStep C u c.shared (c.loc u) a pc' e)
  (hsec : sectionOf C c (u, a) = e.toSection) (ha : attempt c = some (t, p))
  (hin : InEpisode (c.loc u) a) (hok : SparesOthers C (c, g) (u, a))

include hC hi hp hsec ha hin hok

/-- **The other subscriptions survive a step.** -/
theorem EpisodeInv.others_step {y} (hy : y ∈ g.others) :
    y.2 ∈ (e.run C c.shared).notifications.activeNotifications ∧
      (e.run C c.shared).notifications.OnFile C y.1 := by
  obtain ⟨hact, hfile, -⟩ := hi.others t p ha y hy
  have hmild := hp.mild hin fun x hx => (hi.handles.loose u x hx).2
  have hroll : ∀ pre saved ch, e.toSection = .rollback pre saved ch → y.2 ∈ pre ∧ y.1 ∈ keys C saved := by
    intro pre saved ch hs
    simp only [SparesOthers, ha, hsec, hs] at hok
    exact hok y hy
  rw [Effect.run_notifications]
  refine ⟨hmild.mem_run (fun pre saved ch hs => (hroll pre saved ch hs).1) hact, ?_⟩
  refine hmild.onFile_run hC hi.base.shared (fun pre saved ch hs => (hroll pre saved ch hs).2)
    (fun names hs n hn => ?_) hfile
  simp only [SparesOthers, ha, hsec, hs] at hok
  exact (hok n hn).1 y hy

/-- **The restored configs survive a step.** -/
theorem EpisodeInv.restored_step (hr : p.rolledBack = true) {q}
    (hq : q ∈ g.before) : (e.run C c.shared).notifications.OnFile C (q.key C) := by
  have hmild := hp.mild hin fun x hx => (hi.handles.loose u x hx).2
  rw [Effect.run_notifications]
  refine hmild.onFile_run hC hi.base.shared (fun pre saved ch hs => ?_) (fun names hs n hn => ?_)
    (hi.restored t p ha hr q hq)
  · rw [hi.saved_eq hp hs]
    exact mem_keys.2 ⟨q, hq, rfl⟩
  simp only [SparesOthers, ha, hsec, hs] at hok
  rintro heq
  exact (hok n hn).2 hr (mem_keys.2 ⟨q, hq, heq⟩)

end

/-- After a step the re-subscribe in flight is the one that was, further on, or one that takes the
    configs in this step. -/
theorem EpisodeInv.attempt_step (hi : EpisodeInv C (c, g)) (hp : PlanStep C u c.shared (c.loc u) a pc' e)
    (ha : attempt ⟨e.run C c.shared, Function.update c.loc u pc'⟩ = some (t, p)) :
    (∃ p₀, attempt c = some (t, p₀) ∧ p.took = p₀.took ∧ (p.rolledBack = true →
        p₀.rolledBack = true ∨ ∃ pre ch, e.toSection = .rollback pre p₀.took ch)) ∨
      u = t ∧ p.took = c.shared.notifications.pending ∧ p.rolledBack = false ∧
        e.toSection = .clearConfigs ∧ ∃ i, c.loc u = .resub (.take i) := by
  obtain ⟨-, hloc, hf⟩ := attempt_eq_some.1 ha
  by_cases hu : t = u
  · subst hu
    rw [Conf.loc_self] at hloc
    have hwf := hi.base.loc t
    generalize hpc : c.loc t = pc at hp hwf
    cases hp with
    | resub q p' b s hstep =>
      cases hloc
      rcases hstep.took hf with ⟨hf₀, htook, hroll⟩ | ⟨i, rfl, hs, htook, hroll⟩
      · exact .inl ⟨q, attempt_eq_some.2 ⟨hwf.2, hpc, hf₀⟩, htook, hroll⟩
      · exact .inr ⟨rfl, htook, hroll, hs, i, rfl⟩
    | startResub recovery =>
      cases recovery <;> cases hloc <;> cases hf
    | add q q' b s hstep => cases hstep <;> cases hloc
    | _ => cases hloc
  · rw [Conf.loc_of_ne hu] at hloc
    have hwf := hi.base.loc t
    simp only [hloc] at hwf
    exact .inl ⟨p, attempt_eq_some.2 ⟨hwf.2, hloc, hf⟩, rfl, .inl⟩

omit [DecidableEq Key] in
theorem Section.eq_bind_of_commits {s : Section Name} {y : Key × Handle} (hy : y ∈ s.commits C) :
    ∃ cfg fresh ch, s = .bind cfg y.2 fresh ch := by
  cases s with
  | bind cfg x fresh ch =>
    rw [mem_singleton.1 hy]
    exact ⟨cfg, fresh, ch, rfl⟩
  | _ => exact absurd hy (by simp [Section.commits])

/-- A bound handle is not among the deletes of this step; and a handle this step binds is not among
    the earlier ones. -/
theorem EpisodeInv.not_sent (hi : EpisodeInv C (c, g))
    (hp : PlanStep C u c.shared (c.loc u) a pc' e) {issued : List Handle} (hin : InEpisode (c.loc u) a)
    (hh : HandlesInv issued ⟨e.run C c.shared, Function.update c.loc u pc'⟩) :
    (∀ x ∈ (e.run C c.shared).notifications.activeNotifications, x ∉ pc'.requests) ∧
      ∀ y ∈ e.toSection.commits C, y.2 ∉ g.sent := by
  refine ⟨fun x hx hreq => ?_, fun y hy hsent => ?_⟩
  · have hloose := hh.loose u x
    rw [Conf.loc_self] at hloose
    exact (hloose (hp.requests hin hreq)).2 hx
  · obtain ⟨cfg, fresh, ch, hs⟩ := Section.eq_bind_of_commits hy
    exact (hi.sent y.2 hsent).2 u (hp.grip.binds _ _ _ _ hs)

end Step

theorem episodeInv_step (hC : C.Agree) {x x' a} (hi : EpisodeInv C x) (hc : Concurrent x a)
    (hok : SparesOthers C x a)
    (hs : recorded C x a = some x') : EpisodeInv C x' := by
  obtain ⟨c, g⟩ := x
  obtain ⟨c', g'⟩ := x'
  obtain ⟨u, a⟩ := a
  obtain ⟨hstep, hg⟩ := observe_eq_some.1 hs
  simp only at hstep hg
  have hbase : Inv C c' := inv_step hC hi.base hstep
  have hhandles : HandlesInv g'.issued c' := by
    rw [hg, Episode.issued_watch]
    exact handlesInv_step hC hi.base.shared hi.handles hc.1 hstep
  obtain ⟨pc', e, hplan, rfl⟩ := (step_eq_some C).1 hstep
  have hp := plan_cases C hplan
  have hsec : sectionOf C c (u, a) = e.toSection := by simp only [sectionOf, hplan]
  have hreq : requestsOf C c (u, a) = pc'.requests := by simp only [requestsOf, hplan]
  have hissued : ∀ h ∈ g.issued, h ∈ g'.issued := by
    intro h hh
    rw [hg, Episode.issued_watch]
    exact mem_append_right _ hh
  have hold : ∀ {t p}, attempt c = some (t, p) → InEpisode (c.loc u) a := fun ha => hc.inEpisode ha
  refine ⟨hbase, hhandles, fun h hh => ?_, fun t p ha => ?_, fun t p ha y hy => ?_, fun t p ha hr q hq => ?_⟩
  · rw [hg] at hh
    rcases Episode.mem_sent_watch hh with hsent | ⟨hsome, hh⟩
    · refine ⟨hissued h (hi.sent h hsent).1, fun t ht => ?_⟩
      by_cases hu : t = u
      · subst hu
        rw [Conf.loc_self] at ht
        exact hc.1 h (hp.grip.hand h ht) (hi.sent h hsent).1
      · rw [Conf.loc_of_ne hu] at ht
        exact (hi.sent h hsent).2 t ht
    obtain ⟨⟨t, p⟩, ha⟩ := Option.isSome_iff_exists.1 hsome
    rw [hreq] at hh
    have hmem : h ∈ ((⟨e.run C c.shared, Function.update c.loc u pc'⟩ : State Name Key).loc
        u).grip.loose := by
      rw [Conf.loc_self]
      exact hp.requests (hold ha) hh
    refine ⟨(hhandles.loose u h hmem).1, fun t ht => ?_⟩
    exact ((hhandles.hand t h ht).2.2 u).2.1 hmem
  · rcases hi.attempt_step hp ha with ⟨p₀, ha₀, htook, -⟩ | ⟨rfl, htook, -, hclear, i, hloc⟩
    · rw [htook, hi.took t p₀ ha₀, hg, Episode.watch_of_attempt ha₀ (hold ha₀)]
    · rw [htook, hg, Episode.watch_of_take hloc (hsec.trans hclear)]
  · rcases hi.attempt_step hp ha with ⟨p₀, ha₀, -, -⟩ | ⟨rfl, -, -, hclear, i, hloc⟩
    · obtain ⟨hnreq, hnsent⟩ := hi.not_sent hp (hold ha₀) hhandles
      rw [hg, Episode.watch_of_attempt ha₀ (hold ha₀)] at hy ⊢
      simp only [hsec, hreq, mem_append, not_or] at hy ⊢
      rcases hy with hy | hy
      · split at hy
        · exact absurd hy (by simp)
        obtain ⟨hact, hfile⟩ := Section.commits_run (m := c.shared.notifications) hy
        rw [← Effect.run_notifications] at hact hfile
        exact ⟨hact, hfile, hnreq _ hact, hnsent y hy⟩
      · obtain ⟨hact, hfile⟩ := hi.others_step hC hp hsec ha₀ (hold ha₀) hok hy
        exact ⟨hact, hfile, hnreq _ hact, (hi.others t p₀ ha₀ y hy).2.2⟩
    · rw [hg, Episode.watch_of_take hloc (hsec.trans hclear)] at hy
      exact absurd hy (by simp)
  · rcases hi.attempt_step hp ha with ⟨p₀, ha₀, -, hroll⟩ | ⟨-, -, hroll, -⟩
    · rw [hg, Episode.watch_of_attempt ha₀ (hold ha₀)] at hq
      rcases hroll hr with hr₀ | ⟨pre, ch, hs⟩
      · exact hi.restored_step hC hp hsec ha₀ (hold ha₀) hok hr₀ hq
      -- the rollback itself
      have hsaved : q.key C ∈ keys C p₀.took := by
        rw [hi.took t p₀ ha₀]
        exact mem_keys.2 ⟨q, hq, rfl⟩
      show (e.run C c.shared).notifications.OnFile C (q.key C)
      rw [Effect.run_notifications, hs]
      exact ⟨mem_toFinset.2 hsaved, hsaved⟩
    · rw [hroll] at hr
      cases hr

/-- **A failed re-subscribe disturbs only its own work.**  In every run in which each rollback finds
    the subscriptions of others in its snapshot: when a re-subscribe returns an error, every config
    that was on file when it began is on file again, and every subscription that another goroutine
    committed since is bound, on file, and was not deleted on the PLC. -/
theorem rollback_spares (hC : C.Agree) {x : State Name Key × Episode Name Key}
    (h : Run (recorded C) (fun x a => Concurrent x a ∧ SparesOthers C x a) recordedInit x) {t : Nat}
    {i : Option (Intent Name)} {r : Resub Name} (hret : x.1.loc t = .resub (.returned i (some r) true)) :
    (∀ q ∈ x.2.before, x.1.shared.notifications.OnFile C (q.key C)) ∧
      ∀ y ∈ x.2.others, y.2 ∈ x.1.shared.notifications.activeNotifications ∧
        x.1.shared.notifications.OnFile C y.1 ∧ y.2 ∉ x.2.sent := by
  have hi : EpisodeInv C x :=
    h.invariant episodeInv_init fun _ _ _ hi hok hs => episodeInv_step hC hi hok.1 hok.2 hs
  have hwf := hi.base.loc t
  rw [hret] at hwf
  have ha : attempt x.1 = some (t, .returned i (some r) true) :=
    attempt_eq_some.2 ⟨hwf.2, hret, rfl⟩
  exact ⟨hi.restored t _ ha rfl, hi.others t _ ha⟩

instance (x : State Name Key × Episode Name Key) (a : Nat × Act Name Key) : Decidable (Concurrent x a) :=
  inferInstanceAs (Decidable ((∀ h ∈ a.2.replied, h ∉ x.2.issued) ∧
    ∀ y ∈ attempt x.1, a.1 ≠ y.1 → a.2.adds = true))

instance (x : State Name Key × Episode Name Key) (a : Nat × Act Name Key) :
    Decidable (SparesOthers C x a) := by
  unfold SparesOthers
  split <;> infer_instance

/-- `MAIN.a` is subscribed and swept, and goroutine 1 takes the configs off file. -/
def takeA : List (Nat × Act String String) :=
  [(0, .swapSymbols fun k =>
      if k = "main.a" then some "MAIN.a" else if k = "main.b" then some "MAIN.b" else none),
    (0, .startAdd ⟨"MAIN.a", 0, 0, .serverOnChange⟩ (some 1)), (0, .add (.check true)),
    (0, .add (.resolve true)), (0, .add (.reply (some 7))), (0, .add .commit),
    (1, .sweep), (1, .release [ReturnCode.noErrors]), (1, .startResub false), (1, .resub .next)]

/-- Goroutine 2 subscribes a symbol that the PLC gives handle 9. -/
def subscribeBeside (symbolName : String) : List (Nat × Act String String) :=
  [(2, .startAdd ⟨symbolName, 0, 0, .serverOnChange⟩ (some 1)), (2, .add (.check true)),
    (2, .add (.resolve true)), (2, .add (.reply (some 9))), (2, .add .commit)]

/-- The batch of the re-subscribe fails, and it rolls back and returns. -/
def failA : List (Nat × Act String String) :=
  [(1, .resub (.batch (.check false))), (1, .resub .next), (1, .resub (.codes [])),
    (1, .resub .next), (1, .resub .next), (1, .resub .next), (1, .resub (.codes []))]

/-- The error return of goroutine 1's re-subscribe. -/
def returnedErr (c : State String String) : Bool :=
  match c.loc 1 with
  | .resub (.returned _ (some _) true) => true
  | _ => false

theorem loc_of_returnedErr {c} (h : returnedErr c = true) :
    ∃ i r, c.loc 1 = .resub (.returned i (some r) true) := by
  unfold returnedErr at h
  split at h
  · next i r hloc => exact ⟨i, r, hloc⟩
  · cases h

/-- A caller subscribes `MAIN.a` after it was taken off file and before the snapshot. -/
theorem rollback_spares_early :
    ∃ x, Run (recorded ascii) (fun x a => Concurrent x a ∧ SparesOthers ascii x a) recordedInit x ∧
      ("main.a", 9) ∈ x.2.others ∧ 9 ∈ x.1.shared.notifications.activeNotifications ∧
        x.1.shared.notifications.OnFile ascii "main.a" ∧ 9 ∉ x.2.sent := by
  obtain ⟨x, hrun, herr, hother⟩ := exists_run (recorded ascii)
    (fun x a => Concurrent x a ∧ SparesOthers ascii x a) recordedInit
    (fun x => returnedErr x.1 ∧ ("main.a", 9) ∈ x.2.others)
    (takeA ++ subscribeBeside "MAIN.a" ++ [(1, .resub .next), (1, .resub .next), (1, .resub .next)] ++
      failA) (by decide +kernel)
  obtain ⟨i, r, hloc⟩ := loc_of_returnedErr herr
  exact ⟨x, hrun, hother, (rollback_spares ascii_agree hrun hloc).2 _ hother⟩

/-- A caller subscribes `MAIN.b` between the snapshot and the rollback: the rollback takes its handle
    for one of its own. -/
theorem rollback_disturbs : ¬ ∀ x, Run (recorded ascii) Concurrent recordedInit x →
      ∀ i r, x.1.loc 1 = .resub (.returned i (some r) true) →
      ∀ y ∈ x.2.others, y.2 ∈ x.1.shared.notifications.activeNotifications ∧
        x.1.shared.notifications.OnFile ascii y.1 ∧ y.2 ∉ x.2.sent := by
  intro hall
  obtain ⟨x, hrun, herr, hother, hgone⟩ := exists_run (recorded ascii) Concurrent recordedInit
    (fun x => returnedErr x.1 ∧ ("main.b", 9) ∈ x.2.others ∧ 9 ∉ x.1.shared.notifications.activeNotifications)
    (takeA ++ [(1, .resub .next), (1, .resub .next), (1, .resub .next)] ++ subscribeBeside "MAIN.b" ++
      failA) (by decide +kernel)
  obtain ⟨i, r, hloc⟩ := loc_of_returnedErr herr
  exact hgone (hall x hrun i r hloc _ hother).1

end GoAds.Notification
