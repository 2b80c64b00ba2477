import GoAds.Dispatch.Buffer

/-!
# `Dispatch.Reaper` — the orphan reaper spares the session's own registrations

A sample of a handle that nobody knows sends a reaper goroutine after its registration.  The reaper
looks at the map once more, then at the count of open subscribes, and then sends its delete.  Neither
look is at `heartbeatHandle`, and the two are not one: this module finds what must not happen between
them, and what must not happen while a heartbeat is being established, for no delete to go out for a
handle that is in the map or is the heartbeat's, then or later.
-/

namespace GoAds.Dispatch

open Interleaving List Effect
open Function (update)
open Notification (Handle)

/-! ## The handles a goroutine goes after -/

/-- The handle that `tryOrphanDelete` or its goroutine is about. -/
def Frame.suspects : Frame → List Handle
  | .orphan h | .throttle h | .sem h _ | .record h _ | .spawn h | .reapCheck h | .reapInFlight h
  | .reapAbort h | .reapClient h | .reapSend h => [h]
  | _ => []

/-- The reaper has looked at the map, and not at the subscribes yet. -/
def Frame.rechecks : Frame → List Handle
  | .reapInFlight h => [h]
  | _ => []

/-- The reaper has made both checks. -/
def Frame.cleared : Frame → List Handle
  | .reapClient h | .reapSend h => [h]
  | _ => []

/-- The handles of the samples a function has in hand. -/
def Frame.sampled : Frame → List Handle
  | .beat s _ | .lookup s _ | .missed s _ | .window s | .race s _ | .tail s _ | .unknown s
  | .park s => [s.handle]
  | .replayDispatch pending => pending.map Sample.handle
  | _ => []

/-! ## The history -/

/-- What has been on the wire, and who has moved. -/
structure Traffic where
  /-- The handles that samples have carried. -/
  seen : List Handle
  /-- The handles that reapers have sent a delete for. -/
  sent : List Handle
  moved : List Party

def Traffic.watch (g : Traffic) (c : State) (x : Party × Act) : Traffic :=
  { seen :=
      match c.loc x.1, x.2 with
      | [], .sample handle _ _ => handle :: g.seen
      | _, _ => g.seen
    sent :=
      match c.loc x.1 with
      | .reapSend handle :: _ => handle :: g.sent
      | _ => g.sent
    moved := x.1 :: g.moved }

/-- The session with its traffic. -/
abbrev reaped : State × Traffic → Party × Act → Option (State × Traffic) := observe step Traffic.watch

/-- The PLC gives out handles that no sample has carried before. -/
def PlcFresh (g : Traffic) (x : Party × Act) : Prop :=
  match x.2 with
  | .create items => ∀ h ∈ items.reduceOption, h ∉ g.seen
  | _ => True

variable (x : State × Traffic)

/-- No sample is taken for an orphan's whose registration is the heartbeat or is being made it. -/
def BeatStored (a : Party × Act) : Prop :=
  match x.1.loc a.1 with
  | .unknown s :: _ =>
    x.1.shared.reconnecting = false → (s.handle = x.1.shared.heartbeatHandle → s.handle = 0) ∧
      ∀ q ∈ x.2.moved, ∀ f ∈ x.1.loc q, s.handle ∉ f.beatHands
  | _ => True

/-- The last open subscribe ends while no reaper stands between its two checks for a handle that is in
    the map. -/
def EndsApart (a : Party × Act) : Prop :=
  match x.1.loc a.1 with
  | .closing sub :: _ =>
    (∀ t ∈ x.1.shared.tokens, t = sub.token) → ∀ q ∈ x.2.moved, ∀ f ∈ x.1.loc q, ∀ h ∈ f.rechecks,
      h ∉ x.1.shared.activeNotifications
  | _ => True

def Careful (a : Party × Act) : Prop :=
  PlcFresh x.2 a ∧ BeatStored x a ∧ EndsApart x a

instance (g : Traffic) (x : Party × Act) : Decidable (PlcFresh g x) := by
  obtain ⟨p, a⟩ := x
  unfold PlcFresh
  cases a <;> infer_instance

instance (x : State × Traffic) (a : Party × Act) : Decidable (BeatStored x a) := by
  unfold BeatStored
  split <;> infer_instance

instance (x : State × Traffic) (a : Party × Act) : Decidable (EndsApart x a) := by
  unfold EndsApart
  split <;> infer_instance

instance (x : State × Traffic) (a : Party × Act) : Decidable (Careful x a) := by
  unfold Careful
  infer_instance

/-! ## One step of one function -/

section Frames

variable {sh : Shared} {f g : Frame} {a : Act} {gs : List Frame} {e : Effect} {h : Handle}

/-- A function that goes after a handle comes from one that does, or from a sample that nobody
    knows. -/
theorem FrameStep.orphan_cases (hs : FrameStep sh f a gs e) (hg : g ∈ gs) (hne : g.suspects ≠ []) :
    OrphanStep sh f a gs e ∨
      ∃ s, f = .unknown s ∧ g = .orphan s.handle ∧ sh.reconnecting = false := by
  cases hs with
  | orphan hs => exact .inl hs
  | dispatch hs =>
    cases hs with
    | orphan s hr => exact .inr ⟨s, rfl, mem_singleton.1 hg, hr⟩
    | beat | hit | closed | stale | full | boundNil | replayNil => exact absurd hg (by simp)
    | replay =>
      rcases mem_cons.1 hg with rfl | hg
      · exact absurd rfl hne
      · rw [mem_singleton.1 hg] at hne
        exact absurd rfl hne
    | _ =>
      rw [mem_singleton.1 hg] at hne
      exact absurd rfl hne
  | heartbeat hs =>
    cases hs with
    | skip | fail | store | release => exact absurd hg (by simp)
    | _ =>
      rw [mem_singleton.1 hg] at hne
      exact absurd rfl hne
  | subscribe hs =>
    cases hs with
    | closing => exact absurd hg (by simp)
    | finishBeat | single | bindItem | ending =>
      rcases mem_cons.1 hg with rfl | hg
      · exact absurd rfl hne
      · rw [mem_singleton.1 hg] at hne
        exact absurd rfl hne
    | _ =>
      rw [mem_singleton.1 hg] at hne
      exact absurd rfl hne

/-- A suspect was one before, or nobody knows its sample.  The first check finds it absent from the map;
    with the second no subscribe is under way. -/
theorem FrameStep.suspects (hs : FrameStep sh f a gs e) (hg : g ∈ gs) (hh : h ∈ g.suspects) :
    (h ∈ f.suspects ∨ ∃ s, f = .unknown s ∧ s.handle = h ∧ sh.reconnecting = false) ∧
      (h ∈ g.rechecks → h ∉ sh.activeNotifications ∧ e = .none) ∧
      (h ∈ g.cleared → h ∈ f.cleared ∨ (h ∈ f.rechecks ∧ sh.subscribeInFlight = 0)) := by
  rcases hs.orphan_cases hg (ne_nil_of_mem hh) with hs | ⟨s, rfl, rfl, hr⟩
  · cases hs with
    | skip | throttled | busy | notStarted | started | abort | noClient | send =>
      exact absurd hg (by simp)
    | absent handle hm =>
      rw [mem_singleton.1 hg] at hh ⊢
      refine ⟨.inl hh, fun hr => ?_, nofun⟩
      rw [mem_singleton.1 hr]
      exact ⟨hm, rfl⟩
    | clear handle hz =>
      rw [mem_singleton.1 hg] at hh ⊢
      exact ⟨.inl hh, nofun, fun hc => .inr ⟨hc, hz⟩⟩
    | client =>
      rw [mem_singleton.1 hg] at hh ⊢
      exact ⟨.inl hh, nofun, .inl⟩
    | _ =>
      rw [mem_singleton.1 hg] at hh ⊢
      exact ⟨.inl hh, nofun, nofun⟩
  · exact ⟨.inr ⟨s, rfl, (mem_singleton.1 hh).symm, hr⟩, nofun, nofun⟩

theorem Frame.suspects_of_rechecks (hh : h ∈ f.rechecks) : h ∈ f.suspects := by
  cases f <;> first | exact hh | cases hh

theorem Frame.suspects_of_cleared (hh : h ∈ f.cleared) : h ∈ f.suspects := by
  cases f <;> first | exact hh | cases hh

theorem Effect.of_mem_scheduled_run (hm : h ∈ (e.run sh).scheduled) :
    h ∈ sh.scheduled ∨ e = .schedule h := by
  cases e with
  | schedule =>
    rcases mem_cons.1 hm with rfl | hm
    · exact .inr rfl
    · exact .inl hm
  | unschedule => exact .inl (mem_of_mem_erase hm)
  | close t =>
    have hm : h ∈ (sh.close t).scheduled := hm
    unfold Shared.close at hm
    dsimp only at hm
    split at hm <;> exact .inl hm
  | _ => exact .inl hm

/-- A sample in hand was in hand before, or has been taken from the buffer. -/
theorem FrameStep.sampled (hs : FrameStep sh f a gs e) (hg : g ∈ gs) (hh : h ∈ g.sampled) :
    h ∈ f.sampled ∨ ∃ s ∈ sh.earlySamples, s.handle = h := by
  have hsample : g.onSample = true := by
    cases g <;> first | rfl | cases hh
  cases hs.of_onSample hg hsample with
  | beat | hit | closed | stale | full | boundNil | replayNil => exact absurd hg (by simp)
  | take =>
    rw [mem_singleton.1 hg] at hh
    obtain ⟨s, hs, heq⟩ := mem_map.1 hh
    exact .inr ⟨s, (of_mem_takeSamples hs).1, heq⟩
  | replay =>
    left
    rcases mem_cons.1 hg with rfl | hg
    · rw [mem_singleton.1 hh]
      exact mem_cons_self ..
    · rw [mem_singleton.1 hg] at hh
      exact mem_cons_of_mem _ hh
  | orphan | park | bound =>
    rw [mem_singleton.1 hg] at hh
    cases hh
  | _ =>
    rw [mem_singleton.1 hg] at hh
    exact .inl hh

theorem Frame.sub_of_hands (hh : h ∈ f.hands) : ∃ sub, f.sub = some sub := by
  cases f <;> first | exact ⟨_, rfl⟩ | cases hh

end Frames

/-! ## All goroutines -/

/-- Somebody goes after the handle, is going to, or has. -/
def Suspect (h : Handle) : Prop :=
  (∃ p, ∃ f ∈ x.1.loc p, h ∈ f.suspects) ∨ h ∈ x.1.shared.scheduled ∨ h ∈ x.2.sent

/-- A reaper has made both checks for the handle. -/
def Cleared (h : Handle) : Prop :=
  (∃ p, ∃ f ∈ x.1.loc p, h ∈ f.cleared) ∨ h ∈ x.2.sent

/-- The handle is not the heartbeat's, nor being made it. -/
def NotBeat (c : State) (h : Handle) : Prop :=
  (h = c.shared.heartbeatHandle → h = 0) ∧ ∀ p, ∀ f ∈ c.loc p, h ∉ f.beatHands

/-- The handle is not in the map, nor on its way there. -/
def NotSubscribed (c : State) (h : Handle) : Prop :=
  h ∉ c.shared.activeNotifications ∧ ∀ p, ∀ f ∈ c.loc p, h ∉ f.hands

structure ReaperInv (x : State × Traffic) : Prop where
  window : WindowInv x.1
  moved : ∀ p, x.1.loc p ≠ [] → p ∈ x.2.moved
  sampled : ∀ p, ∀ f ∈ x.1.loc p, ∀ h ∈ f.sampled, h ∈ x.2.seen
  parked : ∀ s ∈ x.1.shared.earlySamples, s.handle ∈ x.2.seen
  suspect : ∀ h, Suspect x h → h ∈ x.2.seen ∧ NotBeat x.1 h
  recheck : ∀ p, ∀ f ∈ x.1.loc p, ∀ h ∈ f.rechecks,
    h ∉ x.1.shared.activeNotifications ∨ x.1.shared.tokens ≠ []
  cleared : ∀ h, Cleared x h → NotSubscribed x.1 h

theorem reaperInv_init (now : Nat) : ReaperInv (initAt now, ⟨[], [], []⟩) where
  window := windowInv_init now
  moved := fun _ h => absurd rfl h
  sampled := fun _ _ hf => absurd hf (by simp [initAt])
  parked := fun _ hs => absurd hs (by simp [initAt])
  suspect := fun h hs => by rcases hs with ⟨_, _, hf, -⟩ | hs | hs <;> simp_all [initAt]
  recheck := fun _ _ hf => absurd hf (by simp [initAt])
  cleared := fun h hs => by rcases hs with ⟨_, _, hf, -⟩ | hs <;> simp_all [initAt]

section Step

variable {c : State} {g : Traffic} {p : Party} {a : Act} {stack : List Frame} {e : Effect}
  {h : Handle}

theorem Traffic.seen_watch (hs : h ∈ g.seen) : h ∈ (g.watch c (p, a)).seen := by
  unfold Traffic.watch
  dsimp only
  split
  · exact mem_cons_of_mem _ hs
  · exact hs

theorem Traffic.of_mem_sent (hs : h ∈ (g.watch c (p, a)).sent) :
    h ∈ g.sent ∨ ∃ rest, c.loc p = .reapSend h :: rest := by
  unfold Traffic.watch at hs
  dsimp only at hs
  split at hs
  · next handle rest hloc =>
    rcases mem_cons.1 hs with rfl | hs
    · exact .inr ⟨rest, hloc⟩
    · exact .inl hs
  · exact .inl hs

theorem mem_of_loc_eq {top rest} (hloc : c.loc p = top :: rest) : top ∈ c.loc p := by
  rw [hloc]
  exact mem_cons_self ..

theorem NotBeat.step (hn : NotBeat c h) (hseen : h ∈ g.seen) (hfresh : PlcFresh g (p, a))
    (hp : PlanStep c.shared p (c.loc p) a stack e) :
    NotBeat ⟨e.run c.shared, update c.loc p stack⟩ h := by
  refine ⟨fun heq => ?_, fun q f hf hh => ?_⟩
  · rcases heartbeatHandle_run c.shared e with hsame | hzero | he
    · exact hn.1 (heq.trans hsame)
    · exact heq.trans hzero
    have heq : h = (e.run c.shared).heartbeatHandle := heq
    obtain ⟨f, rest, gs, hloc, hf, -⟩ := hp.of_inner (by rw [he]; rfl)
    obtain rfl := hf.doneBy he
    rw [← heq] at hloc
    exact absurd (mem_singleton.2 rfl) (hn.2 p _ (mem_of_loc_eq hloc))
  · rcases hp.mem_loc hf with hold | ⟨top, htop, gs, hs, hg, -⟩ | ⟨-, hstart⟩
    · exact hn.2 q f hold hh
    · rcases (hs.inHand hg).2 hh with hold | ⟨rfl, rfl⟩
      · exact hn.2 p top htop hold
      · exact hfresh h (mem_singleton.2 rfl) hseen
    · rw [hstart.plain.2.2] at hh
      cases hh

/-- A handle that samples have carried does not come into the hand of a subscribe. -/
theorem NotSubscribed.step (hn : NotSubscribed c h) (hseen : h ∈ g.seen) (hfresh : PlcFresh g (p, a))
    (hp : PlanStep c.shared p (c.loc p) a stack e) :
    NotSubscribed ⟨e.run c.shared, update c.loc p stack⟩ h := by
  refine ⟨fun hm => ?_, fun q f hf hh => ?_⟩
  · rcases of_mem_active_run hm with hold | he
    · exact hn.1 hold
    obtain ⟨f, rest, gs, hloc, hf, -⟩ := hp.of_inner (by rw [he]; rfl)
    obtain ⟨sub, items, rfl, -⟩ := hf.doneBy he
    exact hn.2 p _ (mem_of_loc_eq hloc) (mem_cons_self ..)
  rcases hp.mem_loc hf with hold | ⟨top, htop, gs, hs, hg, -⟩ | ⟨-, hstart⟩
  · exact hn.2 q f hold hh
  · rcases (hs.inHand hg).1 hh with hold | ⟨sub, items, rfl, rfl, hin⟩
    · exact hn.2 p top htop hold
    · exact hfresh h hin hseen
  · rw [hstart.plain.2.1] at hh
    cases hh

/-- The handles under suspicion were so before, or a sample has just been taken for an orphan's. -/
theorem Suspect.cases_step (hp : PlanStep c.shared p (c.loc p) a stack e)
    (hs : Suspect (⟨e.run c.shared, update c.loc p stack⟩, g.watch c (p, a)) h) :
    Suspect (c, g) h ∨ ∃ s rest, c.loc p = .unknown s :: rest ∧ s.handle = h ∧
      c.shared.reconnecting = false := by
  rcases hs with ⟨q, f, hf, hh⟩ | hsched | hsent
  · rcases hp.mem_loc hf with hold | ⟨top, htop, gs, hs, hg, rest, hloc⟩ | ⟨-, hstart⟩
    · exact .inl (.inl ⟨q, f, hold, hh⟩)
    · rcases (hs.suspects hg hh).1 with hold | ⟨s, rfl, heq, hr⟩
      · exact .inl (.inl ⟨p, top, htop, hold⟩)
      · exact .inr ⟨s, rest, hloc, heq, hr⟩
    left
    cases hstart with
    | reap handle hm =>
      rw [mem_singleton.1 hh]
      exact .inr (.inl hm)
    | _ => cases hh
  · rcases of_mem_scheduled_run hsched with hold | he
    · exact .inl (.inr (.inl hold))
    left
    cases hloc : c.loc p with
    | nil =>
      rw [hloc, he] at hp
      cases hp
    | cons top =>
      rw [hloc] at hp
      obtain ⟨gs, hs, -⟩ := hp.of_cons
      obtain rfl := hs.doneBy he
      exact .inl ⟨p, _, mem_of_loc_eq hloc, mem_singleton.2 rfl⟩
  · rcases Traffic.of_mem_sent hsent with hold | ⟨rest, hloc⟩
    · exact .inl (.inr (.inr hold))
    · exact .inl (.inl ⟨p, _, mem_of_loc_eq hloc, mem_singleton.2 rfl⟩)

/-- The handles both checks have been made for were so before, or the second has just been made. -/
theorem Cleared.cases_step (hp : PlanStep c.shared p (c.loc p) a stack e)
    (hc : Cleared (⟨e.run c.shared, update c.loc p stack⟩, g.watch c (p, a)) h) :
    Cleared (c, g) h ∨ ∃ f ∈ c.loc p, h ∈ f.rechecks ∧ c.shared.subscribeInFlight = 0 := by
  rcases hc with ⟨q, f, hf, hh⟩ | hsent
  · rcases hp.mem_loc hf with hold | ⟨top, htop, gs, hs, hg, -⟩ | ⟨-, hstart⟩
    · exact .inl (.inl ⟨q, f, hold, hh⟩)
    · rcases (hs.suspects hg (Frame.suspects_of_cleared hh)).2.2 hh with hold | hnew
      · exact .inl (.inl ⟨p, top, htop, hold⟩)
      · exact .inr ⟨top, htop, hnew⟩
    · cases hstart <;> cases hh
  rcases Traffic.of_mem_sent hsent with hold | ⟨rest, hloc⟩
  · exact .inl (.inr hold)
  · exact .inl (.inl ⟨p, _, mem_of_loc_eq hloc, mem_singleton.2 rfl⟩)

theorem Suspect.of_cleared {x} (h' : Cleared x h) : Suspect x h := by
  rcases h' with ⟨q, f, hf, hh⟩ | hsent
  · exact .inl ⟨q, f, hf, Frame.suspects_of_cleared hh⟩
  · exact .inr (.inr hsent)

/-- A reaper between its checks: its handle is still not in the map, or a subscribe is open. -/
theorem ReaperInv.recheck_step (hi : ReaperInv (c, g)) (hends : EndsApart (c, g) (p, a))
    (hp : PlanStep c.shared p (c.loc p) a stack e) {q f} (hf : f ∈ c.loc q)
    (hh : h ∈ f.rechecks) : h ∉ (e.run c.shared).activeNotifications ∨ (e.run c.shared).tokens ≠ [] := by
  by_cases hact : h ∈ (e.run c.shared).activeNotifications
  · right
    rcases of_mem_active_run hact with hold | he
    · -- it is in the map, so a subscribe is open; the last one does not close now
      have htok := (hi.recheck q f hf h hh).resolve_left (not_not.2 hold)
      obtain ⟨t, ht⟩ := exists_mem_of_ne_nil _ htok
      by_cases hclose : ∃ t', e = .close t'
      · obtain ⟨t', rfl⟩ := hclose
        obtain ⟨sub, rest, hloc, rfl, -⟩ := hp.closing rfl
        by_cases hlast : ∀ t ∈ c.shared.tokens, t = sub.token
        · unfold EndsApart at hends
          have hloc' : (c, g).1.loc (p, a).1 = .closing sub :: rest := hloc
          rw [hloc'] at hends
          have hmoved : q ∈ g.moved := hi.moved q (ne_nil_of_mem hf)
          exact absurd hold (hends hlast q hmoved f hf h hh)
        push Not at hlast
        obtain ⟨t₂, ht₂, hne⟩ := hlast
        refine ne_nil_of_mem (mem_tokens_run ht₂ fun heq => hne ?_)
        cases heq
        rfl
      · exact ne_nil_of_mem (mem_tokens_run ht fun he => hclose ⟨t, he⟩)
    · -- it is bound in this step, by a subscribe that is open
      obtain ⟨top, rest, gs, hloc, hs, -⟩ := hp.of_inner (by rw [he]; rfl)
      obtain ⟨sub, items, rfl, -⟩ := hs.doneBy he
      have hopen := hi.window.opened p _ (mem_of_loc_eq hloc) sub rfl
      refine ne_nil_of_mem (mem_tokens_run hopen fun hc => ?_)
      rw [he] at hc
      cases hc
  · exact .inl hact

/-- The second check finds no subscribe open: the handle is in nobody's hand. -/
theorem ReaperInv.not_subscribed (hi : ReaperInv (c, g)) {f} (hf : f ∈ c.loc p)
    (hh : h ∈ f.rechecks) (hz : c.shared.subscribeInFlight = 0) : NotSubscribed c h := by
  have hnil : c.shared.tokens = [] := by
    have hlen : c.shared.openSubscribes.length = 0 := by
      rw [← hi.window.inFlight]
      exact hz
    unfold Shared.tokens
    rw [length_eq_zero_iff.1 hlen]
    rfl
  refine ⟨(hi.recheck p f hf h hh).resolve_right (not_not.2 hnil), fun q f' hf' hhand => ?_⟩
  obtain ⟨sub, hsub⟩ := Frame.sub_of_hands hhand
  have hopen := hi.window.opened q f' hf' sub hsub
  have hopen : sub.token ∈ c.shared.tokens := hopen
  rw [hnil] at hopen
  cases hopen

end Step

theorem reaperInv_step {x x' a} (hi : ReaperInv x)
    (hok : Careful x a) (hs : reaped x a = some x') : ReaperInv x' := by
  obtain ⟨c, g⟩ := x
  obtain ⟨p, a⟩ := a
  obtain ⟨c', g'⟩ := x'
  obtain ⟨hstep, rfl⟩ := observe_eq_some.1 hs
  have hwindow := windowInv_step hi.window hstep
  obtain ⟨stack, e, hp, rfl⟩ := step_cases hstep
  obtain ⟨hfresh, hbeat, hends⟩ := hok
  -- what is under suspicion after the step was carried by a sample, and is not a heartbeat's before it
  have hsuspect : ∀ h, Suspect (⟨e.run c.shared, update c.loc p stack⟩, g.watch c (p, a)) h →
      h ∈ g.seen ∧ NotBeat c h := by
    intro h hsus
    rcases hsus.cases_step hp with hold | ⟨s, rest, hloc, rfl, hr⟩
    · exact hi.suspect h hold
    unfold BeatStored at hbeat
    have hloc' : (c, g).1.loc (p, a).1 = .unknown s :: rest := hloc
    rw [hloc'] at hbeat
    obtain ⟨hstored, hhands⟩ := hbeat hr
    refine ⟨hi.sampled p _ (mem_of_loc_eq hloc) _ (mem_singleton.2 rfl), hstored, ?_⟩
    intro q f hf
    exact hhands q (hi.moved q (ne_nil_of_mem hf)) f hf
  refine ⟨hwindow, fun q hne => ?_, fun q f hf h hh => ?_, fun s hs => ?_, fun h hsus => ?_,
    fun q f hf h hh => ?_, fun h hcl => ?_⟩
  · by_cases hq : q = p
    · rw [hq]
      exact mem_cons_self ..
    · rw [Conf.loc_of_ne hq] at hne
      exact mem_cons_of_mem _ (hi.moved q hne)
  · rcases hp.mem_loc hf with hold | ⟨top, htop, gs, hs, hg, -⟩ | ⟨hnil, hstart⟩
    · exact Traffic.seen_watch (hi.sampled q f hold h hh)
    · rcases hs.sampled hg hh with hold | ⟨s, hs, rfl⟩
      · exact Traffic.seen_watch (hi.sampled p top htop h hold)
      · exact Traffic.seen_watch (hi.parked s hs)
    cases hstart with
    | sample handle timestamp content =>
      rw [mem_singleton.1 hh]
      show handle ∈ (g.watch c (p, .sample handle timestamp content)).seen
      unfold Traffic.watch
      dsimp only
      rw [hnil]
      exact mem_cons_self ..
    | _ => cases hh
  · rcases of_mem_earlySamples_run hs with ⟨hold, -, -⟩ | he
    · exact Traffic.seen_watch (hi.parked s hold)
    · obtain ⟨top, rest, gs, hloc, hs, -⟩ := hp.of_inner (by rw [he]; rfl)
      obtain ⟨rfl, -⟩ := hs.doneBy he
      exact Traffic.seen_watch (hi.sampled p _ (mem_of_loc_eq hloc) _ (mem_singleton.2 rfl))
  · obtain ⟨hseen, hnot⟩ := hsuspect h hsus
    exact ⟨Traffic.seen_watch hseen, hnot.step hseen hfresh hp⟩
  · rcases hp.mem_loc hf with hold | ⟨top, htop, gs, hs, hg, -⟩ | ⟨-, hstart⟩
    · exact hi.recheck_step hends hp hold hh
    · obtain ⟨hnot, rfl⟩ := (hs.suspects hg (Frame.suspects_of_rechecks hh)).2.1 hh
      exact .inl hnot
    · cases hstart <;> cases hh
  obtain ⟨hseen, -⟩ := hsuspect h (.of_cleared hcl)
  rcases hcl.cases_step hp with hold | ⟨f, hf, hh, hz⟩
  · exact (hi.cleared h hold).step hseen hfresh hp
  · exact (hi.not_subscribed hf hh hz).step hseen hfresh hp

/-- **The reaper spares the session's own registrations.**  In every run whose steps are careful: a
    handle that a reaper has sent a delete for is not in the map and is not the heartbeat's, when it
    sends it and ever after. -/
theorem reaper_spares {now : Nat} {x : State × Traffic}
    (hrun : Run reaped Careful (initAt now, ⟨[], [], []⟩) x) {h : Handle} (hsent : h ∈ x.2.sent) :
    h ∉ x.1.shared.activeNotifications ∧ (h = x.1.shared.heartbeatHandle → h = 0) := by
  have hi : ReaperInv x := hrun.invariant (reaperInv_init now) fun _ _ _ hi hok hs =>
    reaperInv_step hi hok hs
  exact ⟨(hi.cleared h (.inr hsent)).1, (hi.suspect h (.inr (.inr hsent))).2.1⟩

/-- The worker takes up a sample of a handle that nobody knows, and schedules a reaper for it. -/
def unknownSample (handle : Handle) : List (Party × Act) :=
  (shardOf handle, .sample handle 0 []) :: replicate 12 (shardOf handle, .next)

/-- The reaper runs to its end. -/
def reapAll (handle : Handle) : List (Party × Act) :=
  [(.caller 1, .reap handle), (.caller 1, .next), (.caller 1, .next), (.caller 1, .client true),
    (.caller 1, .next)]

/-- A caller subscribes one symbol and establishes the heartbeat. -/
def subscribe16 : List (Party × Act) :=
  ([(.caller 0, .subscribe false), (.caller 0, .next), (.caller 0, .next), (.caller 0, .next),
    (.caller 0, .create [some 16]), (.caller 0, .next), (.caller 0, .client true),
    (.caller 0, .create [some 17]), (.caller 0, .next), (.caller 0, .next),
    (.caller 0, .accept true)] : List (Party × Act)) ++
    replicate 5 (Party.caller 0, Act.next)

/-- Handle 24 is another process's: the reaper deletes it, and only it. -/
theorem reaper_spares_subscribed :
    ∃ x : State × Traffic, Run reaped Careful (initAt (10 ^ 12), ⟨[], [], []⟩) x ∧
      24 ∈ x.2.sent ∧ 16 ∈ x.1.shared.activeNotifications ∧ x.1.shared.heartbeatHandle = 17 ∧
      24 ∉ x.1.shared.activeNotifications ∧ (24 = x.1.shared.heartbeatHandle → 24 = 0) := by
  obtain ⟨x, hrun, hsent, hact, hbeat⟩ := exists_run reaped Careful (initAt (10 ^ 12), ⟨[], [], []⟩)
    (fun x => 24 ∈ x.2.sent ∧ 16 ∈ x.1.shared.activeNotifications ∧
      x.1.shared.heartbeatHandle = 17)
    (subscribe16 ++ [(.caller 1, .tick (10 ^ 9))] ++ unknownSample 24 ++ reapAll 24) (by decide +kernel)
  exact ⟨x, hrun, hsent, hact, hbeat, reaper_spares hrun hsent⟩

/-- The watcher establishes the heartbeat and no subscribe is open; a sample comes before the handle is
    stored. -/
def heartbeat16 : List (Party × Act) :=
  ([(.caller 0, .heartbeat), (.caller 0, .client true), (.caller 0, .create [some 16])] :
    List (Party × Act)) ++ unknownSample 16 ++ ([(.caller 0, .next), (.caller 0, .next)] :
    List (Party × Act)) ++ reapAll 16

/-- A sample comes for a subscribe that has made no progress for half a minute; the subscribe commits
    and ends between the two checks of the reaper. -/
def commit16 : List (Party × Act) :=
  ([(.caller 0, .subscribe false), (.caller 0, .next), (.caller 0, .next), (.caller 0, .next),
    (.caller 0, .create [some 16]), (.caller 1, .tick (31 * 10 ^ 9))] : List (Party × Act)) ++
    (shardOf 16, Act.sample 16 0 []) :: replicate 11 (shardOf 16, Act.next) ++
    ([(.caller 1, .reap 16), (.caller 1, .next), (.caller 0, .next), (.caller 0, .client false),
      (.caller 0, .accept true)] : List (Party × Act)) ++ replicate 5 (Party.caller 0, Act.next) ++
    ([(.caller 1, .next), (.caller 1, .client true), (.caller 1, .next)] : List (Party × Act))

/-- The runs in which the PLC gives out no handle twice. -/
abbrev FreshHandles (a : Party × Act) : Prop := PlcFresh x.2 a

/-- The reaper deletes the session's heartbeat, and a subscription the session has committed. -/
theorem reaper_deletes_own :
    (¬ ∀ (x : State × Traffic) (h : Handle), Run reaped FreshHandles (initAt (10 ^ 12), ⟨[], [], []⟩) x →
      h ∈ x.2.sent → (h = x.1.shared.heartbeatHandle → h = 0)) ∧
    ¬ ∀ (x : State × Traffic) (h : Handle), Run reaped FreshHandles (initAt (10 ^ 12), ⟨[], [], []⟩) x →
      h ∈ x.2.sent → h ∉ x.1.shared.activeNotifications := by
  constructor
  · intro hall
    exact not_forall_run heartbeat16 (by decide +kernel) fun x hrun => hall x 16 hrun
  · intro hall
    exact not_forall_run commit16 (by decide +kernel) fun x hrun => hall x 16 hrun

end GoAds.Dispatch
