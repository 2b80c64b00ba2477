import GoAds.Dispatch.Ledger

/-!
# `Dispatch.EarlySamples` — no early sample of a committed subscription is lost

A sample of a handle can come before the handle is in the map.  Its worker parks it, and whoever
commits the handle replays it; because the commit can come between the worker's lookup and its insert,
the worker also replays its own handle once it has parked.  A sample can be lost in two places.  The
end of the last open subscribe throws away what is parked; and a worker that has missed a sample does not
park it if it then finds the session closed or the window of the subscribes over.  This module follows every
sample from its arrival with a history variable (`Ledger`), and finds it delivered, superseded or on its
way in every run in which that end does not come between a worker's insert and the worker's own replay, and
no worker finds the window over for a sample that a subscribe was open for.
-/

namespace GoAds.Dispatch

open Interleaving List Conf Ledger
open Function (update update_self)
open Notification (Handle)

/-- The last open subscribe ends while no shard worker stands between its insert and the take of its
    own replay, for a handle that is bound by now and has a sample parked. -/
def DiscardsSafely (c : State) (x : Party × Act) : Prop :=
  match c.loc x.1 with
  | .closing sub :: _ =>
    (∀ t ∈ c.shared.tokens, t = sub.token) → ∀ i < notifShardCount, ∀ f ∈ c.loc (.shard i),
      ∀ h ∈ f.claims, h ∈ c.shared.activeNotifications → parked c.shared.earlySamples h = none
  | _ => True

/-- A subscribe that was open when the sample arrived is open still, or has committed its handle. -/
def Expected (x : State × Ledger) (s : Sample) : Prop :=
  ∃ y ∈ x.2.arrived, y.1 = s ∧ ∃ t ∈ y.2, t ∈ x.1.shared.tokens ∨ (s.handle, t) ∈ x.2.committed

/-- A worker that has missed such a sample finds the session open; the newest open subscribe has begun or
    made progress less than 30 s ago; and with none open, the last one began or ended less than 100 ms ago.
    `now` is the clock as this worker has read it. -/
def FindsWindow (x : State × Ledger) (a : Party × Act) : Prop :=
  match x.1.loc a.1 with
  | .missed s true :: _ => Expected x s → x.1.shared.closed = false
  | .race s now :: _ =>
    Expected x s → ∀ newest ∈ x.1.shared.newestOpenSubscribe, now - newest < subscribeRaceMaxOpen
  | .tail s now :: _ => Expected x s → now - x.1.shared.lastSubscribeNs < subscribeRaceWindow
  | _ => True

def Orderly (x : State × Ledger) (a : Party × Act) : Prop :=
  IssuesFresh x.2 a ∧ DiscardsSafely x.1 a ∧ FindsWindow x a

instance (c : State) (x : Party × Act) : Decidable (DiscardsSafely c x) := by
  unfold DiscardsSafely
  split <;> infer_instance

instance (x : State × Ledger) (s : Sample) : Decidable (Expected x s) := by
  unfold Expected
  infer_instance

instance (x : State × Ledger) (a : Party × Act) : Decidable (FindsWindow x a) := by
  unfold FindsWindow
  split <;> infer_instance

instance (x : State × Ledger) (a : Party × Act) : Decidable (Orderly x a) := by
  unfold Orderly
  infer_instance

/-! ## Samples on their way -/

/-- The samples a function has in hand and has still to look up or park. -/
def Frame.holds : Frame → List Sample
  | .beat s _ | .lookup s _ | .missed s _ | .window s | .race s _ | .tail s _ | .park s => [s]
  | .replayDispatch pending => pending
  | _ => []

/-- The handles that a replay has found bound. -/
def Frame.replays : Frame → List Handle
  | .replayTake bound => bound
  | .replayDispatch pending => pending.map Sample.handle
  | .beat s false | .lookup s false | .missed s false => [s.handle]
  | _ => []

section Frames

variable {sh : Shared} {f g : Frame} {a : Act} {gs : List Frame} {e : Effect} {h : Handle}

section

variable (hs : FrameStep sh f a gs e)

include hs

/-- A replay goes for handles that it has found in the map. -/
theorem FrameStep.replays (hg : g ∈ gs) (hh : h ∈ g.replays) :
    h ∈ f.replays ∨ h ∈ sh.activeNotifications := by
  have hsample : g.onSample = true := by
    cases g <;> first | rfl | cases hh
  cases hs.of_onSample hg hsample with
  | beat | hit | closed | stale | full | boundNil | replayNil => exact absurd hg (by simp)
  | notBeat s buffer | miss s buffer =>
    rw [mem_singleton.1 hg] at hh
    cases buffer with
    | true => cases hh
    | false => exact .inl hh
  | bound =>
    rw [mem_singleton.1 hg] at hh
    have hmem := (mem_filter.1 hh).2
    exact .inr (by simpa using hmem)
  | take =>
    rw [mem_singleton.1 hg] at hh
    obtain ⟨s, hs, rfl⟩ := mem_map.1 hh
    exact .inl (of_mem_takeSamples hs).2
  | replay =>
    left
    rcases mem_cons.1 hg with rfl | hg
    · rw [mem_singleton.1 hh]
      exact mem_cons_self ..
    · rw [mem_singleton.1 hg] at hh
      exact mem_cons_of_mem _ hh
  | _ =>
    rw [mem_singleton.1 hg] at hh
    cases hh

theorem FrameStep.missed {s} (hg : .missed s false ∈ gs) :
    f = .lookup s false ∧ s.handle ∉ sh.activeNotifications := by
  cases hs with
  | dispatch hs =>
    cases hs with
    | miss s' buffer hm =>
      cases mem_singleton.1 hg
      exact ⟨rfl, hm⟩
    | _ => simp at hg
  | orphan hs | heartbeat hs | subscribe hs => cases hs <;> simp at hg

/-- Who is going to take the samples of a bound handle still is, or takes them. -/
theorem FrameStep.claims (hh : h ∈ f.claims) (ha : h ∈ sh.activeNotifications) :
    (∃ g ∈ gs, h ∈ g.claims) ∨ ∃ bound, e = .take bound ∧ h ∈ bound := by
  cases hs with
  | dispatch hs =>
    cases hs with
    | bound =>
      exact .inl ⟨_, mem_singleton.2 rfl, mem_filter.2 ⟨hh, by simpa using ha⟩⟩
    | take bound => exact .inr ⟨bound, rfl, hh⟩
    | _ => cases hh
  | orphan hs | heartbeat hs =>
    rw [hs.quiet.1.2.2] at hh
    cases hh
  | subscribe hs =>
    left
    cases hs with
    | begin | opening | closing => cases hh
    | ending => exact ⟨_, mem_cons_self .., hh⟩
    | bindItem =>
      exact ⟨_, mem_cons_of_mem _ (mem_singleton.2 rfl), mem_append_left _ hh⟩
    | bindSingle =>
      exact ⟨_, mem_singleton.2 rfl, mem_append_left _ hh⟩
    | finishBeat | single => exact ⟨_, mem_cons_of_mem _ (mem_singleton.2 rfl), hh⟩
    | _ => exact ⟨_, mem_singleton.2 rfl, hh⟩

end

end Frames

/-! ## What holds of the parked samples -/

/-- A replay goes for handles that were bound, and misses only those that no longer are. -/
structure ReplayInv (x : State × Ledger) : Prop where
  owned : ∀ p, ∀ f ∈ x.1.loc p, ∀ h ∈ f.replays, Owned x h
  missed : ∀ p s, .missed s false ∈ x.1.loc p → s.handle ∈ x.2.removed

/-- One sample is parked for a handle, and it is older than the one on its live path. -/
structure OrderInv (x : State × Ledger) : Prop where
  nodup : (x.1.shared.earlySamples.map Sample.handle).Nodup
  parked : ∀ s ∈ x.1.shared.earlySamples, s.arrival < x.1.shared.arrivals
  live : ∀ p, ∀ f ∈ x.1.loc p, ∀ s', f.live = some s' → s'.arrival < x.1.shared.arrivals ∧
    ∀ s ∈ x.1.shared.earlySamples, s.handle = s'.handle → s.arrival < s'.arrival
  superseded : ∀ y ∈ x.2.superseded, y.2.handle = y.1.handle ∧ y.1.arrival < y.2.arrival

/-- Somebody is going to take what is parked for a bound handle. -/
def ClaimInv (c : State) : Prop :=
  ∀ s ∈ c.shared.earlySamples, s.handle ∈ c.shared.activeNotifications →
    ∃ p, ∃ f ∈ c.loc p, s.handle ∈ f.claims

theorem replayInv_step {x x' a} (hi : ReplayInv x)
    (hs : followed x a = some x') : ReplayInv x' := by
  obtain ⟨c, l⟩ := x
  obtain ⟨p, a⟩ := a
  obtain ⟨c', l'⟩ := x'
  obtain ⟨hstep, rfl⟩ := observe_eq_some.1 hs
  obtain ⟨stack, e, hp, rfl⟩ := step_cases hstep
  refine ⟨fun q g hg h hh => owned_step hp ?_, fun q s hg => ?_⟩
  · rcases hp.mem_loc hg with hold | ⟨f, hf, gs, hs, hg, -⟩ | ⟨-, hstart⟩
    · exact hi.owned q g hold h hh
    · rcases hs.replays hg hh with hh | hact
      · exact hi.owned p f hf h hh
      · exact .inl hact
    · cases hstart <;> cases hh
  have hle := (l.le_watch c (p, a)).removed
  rcases hp.mem_loc hg with hold | ⟨f, hf, gs, hs, hg, -⟩ | ⟨-, hstart⟩
  · exact hle (hi.missed q s hold)
  · -- the lookup found a handle that had been bound no longer in the map
    obtain ⟨rfl, hnot⟩ := hs.missed hg
    have howned := hi.owned p (.lookup s false) hf s.handle (mem_singleton.2 rfl)
    exact hle (howned.resolve_left hnot)
  · cases hstart

theorem claimInv_step {c c' x} (hi : ClaimInv c)
    (hs : step c x = some c') : ClaimInv c' := by
  obtain ⟨p, a⟩ := x
  obtain ⟨stack, e, hp, rfl⟩ := step_cases hs
  intro s hs hact
  -- whoever left a claim in the moving goroutine
  have hmine : (∃ g ∈ stack, s.handle ∈ g.claims) →
      ∃ q, ∃ g ∈ (update c.loc p stack) q, s.handle ∈ g.claims := by
    rintro ⟨g, hg, hh⟩
    exact ⟨p, g, by rw [update_self]; exact hg, hh⟩
  rcases Effect.of_mem_earlySamples_run hs with ⟨hold, htake, -⟩ | he
  · rcases Effect.of_mem_active_run hact with hbound | he
    · obtain ⟨q, f, hf, hh⟩ := hi s hold hbound
      by_cases hq : q = p
      · subst hq
        refine hmine ?_
        cases hloc : c.loc q with
        | nil =>
          rw [hloc] at hf
          cases hf
        | cons =>
          rw [hloc] at hf hp
          obtain ⟨gs, hstep, rfl⟩ := hp.of_cons
          rcases mem_cons.1 hf with rfl | hf
          · rcases hstep.claims hh hbound with ⟨g, hg, hh⟩ | ⟨bound, he, hb⟩
            · exact ⟨g, mem_append_left _ hg, hh⟩
            · exact absurd hb (htake bound he)
          · exact ⟨f, mem_append_right _ hf, hh⟩
      · exact ⟨q, f, by rw [loc_of_ne hq]; exact hf, hh⟩
    · -- the handle is bound in this step
      obtain ⟨top, rest, gs, -, hstep, rfl⟩ := hp.of_inner (by rw [he]; rfl)
      obtain ⟨sub, rest', -, -, g, hg, -, hh⟩ := hstep.doneBy he
      exact hmine ⟨g, mem_append_left _ hg, hh⟩
  · -- the sample is parked in this step: its worker replays it next
    obtain ⟨top, rest, gs, -, hstep, rfl⟩ := hp.of_inner (by rw [he]; rfl)
    obtain ⟨-, -, rfl⟩ := hstep.doneBy he
    exact hmine ⟨_, mem_cons_self .., mem_singleton.2 rfl⟩

theorem Effect.arrivals_run (sh : Shared) (e : Effect) :
    (e.run sh).arrivals = sh.arrivals ∨ (e = .arrive ∧ (e.run sh).arrivals = sh.arrivals + 1) := by
  cases e with
  | arrive => exact .inr ⟨rfl, rfl⟩
  | close t =>
    left
    show (sh.close t).arrivals = _
    unfold Shared.close
    dsimp only
    split <;> rfl
  | _ => exact .inl rfl

/-- A sample comes onto its live path when its worker takes it up. -/
theorem PlanStep.live_cases {sh p stack stack' a e} (h : PlanStep sh p stack a stack' e) {g} (hg : g ∈ stack')
    {s}
    (hs : g.live = some s) : (∃ f ∈ stack, f.live = some s) ∨ (s.arrival = sh.arrivals ∧ e = .arrive) := by
  cases h with
  | frame rest h =>
    rcases mem_append.1 hg with hg | hg
    · exact .inl ⟨_, mem_cons_self .., h.live hg hs⟩
    · exact .inl ⟨g, mem_cons_of_mem _ hg, hs⟩
  | sample =>
    rw [mem_singleton.1 hg] at hs
    cases hs
    exact .inr ⟨rfl, rfl⟩
  | subscribe | heartbeat | reap =>
    rw [mem_singleton.1 hg] at hs
    cases hs
  | _ => exact absurd hg (by simp)

theorem orderInv_step {x x' a} (hw : WindowInv x.1)
    (hi : OrderInv x) (hs : followed x a = some x') : OrderInv x' := by
  obtain ⟨c, l⟩ := x
  obtain ⟨p, a⟩ := a
  obtain ⟨c', l'⟩ := x'
  obtain ⟨hstep, rfl⟩ := observe_eq_some.1 hs
  obtain ⟨stack, e, hp, rfl⟩ := step_cases hstep
  have hcount : c.shared.arrivals ≤ (e.run c.shared).arrivals := by
    rcases Effect.arrivals_run c.shared e with h | ⟨-, h⟩ <;> omega
  -- a sample that is parked in this step was on its live path, and leaves nobody on one
  have hpark : ∀ {s : Sample}, e = .park s → stack = [.replayBound [s.handle]] ∧ .park s ∈ c.loc p := by
    intro s he
    obtain ⟨f, rest, gs, hloc, hf, rfl⟩ := hp.of_inner (by rw [he]; rfl)
    obtain ⟨rfl, -, rfl⟩ := hf.doneBy he
    have hgr := hw.grounded p
    rw [hloc] at hgr ⊢
    have hrest : rest = [] := hgr.1 rfl
    rw [hrest]
    exact ⟨rfl, mem_cons_self ..⟩
  refine ⟨Effect.nodup_earlySamples_run hi.nodup, fun s hs => ?_, fun q g hg s' hlive => ?_, fun y hy => ?_⟩
  · rcases Effect.of_mem_earlySamples_run hs with ⟨hold, -, -⟩ | he
    · exact Nat.lt_of_lt_of_le (hi.parked s hold) hcount
    · exact Nat.lt_of_lt_of_le (hi.live p _ (hpark he).2 s rfl).1 hcount
  · -- the sample on its live path came before this step, or it is the last to arrive
    have hcases : (∃ f ∈ c.loc q, f.live = some s') ∨ (s'.arrival = c.shared.arrivals ∧ e = .arrive) := by
      by_cases hq : q = p
      · subst hq
        rw [loc_self] at hg
        exact hp.live_cases hg hlive
      · rw [loc_of_ne hq] at hg
        exact .inl ⟨g, hg, hlive⟩
    rcases hcases with ⟨f, hf, hlive'⟩ | ⟨harr, rfl⟩
    · obtain ⟨hlt, hafter⟩ := hi.live q f hf s' hlive'
      refine ⟨Nat.lt_of_lt_of_le hlt hcount, fun s hs hh => ?_⟩
      rcases Effect.of_mem_earlySamples_run hs with ⟨hold, -, -⟩ | he
      · exact hafter s hold hh
      -- only the worker of the handle parks its samples, and it has none on a live path now
      obtain ⟨hstack, hmem⟩ := hpark he
      have hqp : q = p := by
        rw [← hw.live q f hf s' hlive', ← hw.live p _ hmem s rfl, hh]
      subst hqp
      rw [loc_self, hstack] at hg
      rw [mem_singleton.1 hg] at hlive
      cases hlive
    · refine ⟨?_, fun s hs hh => ?_⟩
      · show s'.arrival < c.shared.arrivals + 1
        omega
      have hs : s ∈ c.shared.earlySamples := hs
      have hlt : s.arrival < c.shared.arrivals := hi.parked s hs
      omega
  · cases hloc : c.loc p with
    | nil =>
      have hy : y ∈ (l.watch c (p, a)).superseded := hy
      rw [(watch_nil (l := l) (a := a) hloc).2.2.2] at hy
      exact hi.superseded y hy
    | cons f =>
      have hnoted := l.noted c.shared f a
      rw [← watch_cons hloc] at hnoted
      rcases hnoted.of_mem_superseded hy with hy | ⟨rfl, hfound⟩
      · exact hi.superseded y hy
      obtain ⟨hmem, hh⟩ := parked_eq_some hfound
      refine ⟨hh.symm, ?_⟩
      have htop : Frame.park y.2 ∈ c.loc p := by
        rw [hloc]
        exact mem_cons_self ..
      exact (hi.live p _ htop y.2 rfl).2 y.1 hmem hh

/-! ## The fate of a sample -/

/-- What has become of a sample that arrived while the subscribes `ts` were open. -/
inductive Fate (x : State × Ledger) (s : Sample) (ts : List Nat) : Prop
  | delivered (h : s ∈ x.2.delivered)
  | superseded (s' : Sample) (h : (s, s') ∈ x.2.superseded)
  | refused (h : s ∈ x.2.refused)
  | held (p : Party) (f : Frame) (hf : f ∈ x.1.loc p) (h : s ∈ f.holds)
  | parked (h : s ∈ x.1.shared.earlySamples)
  /-- Its handle is not in the map any more. -/
  | removed (h : s.handle ∈ x.2.removed)
  /-- Its handle is the heartbeat's. -/
  | beat (h : s.handle ∈ x.2.beats)
  /-- All these subscribes are over, and none of them has committed its handle. -/
  | uncommitted (h : ∀ t ∈ ts, t ∉ x.1.shared.tokens ∧ (s.handle, t) ∉ x.2.committed)

structure EarlyInv (x : State × Ledger) : Prop where
  window : WindowInv x.1
  issued : IssuedInv x
  replay : ReplayInv x
  order : OrderInv x
  claim : ClaimInv x.1
  tokens : ∀ y ∈ x.2.arrived, ∀ t ∈ y.2, t ≤ x.1.shared.nextSubscribeToken
  fate : ∀ y ∈ x.2.arrived, Fate x y.1 y.2

section Fate

variable {c : State} {l : Ledger} {p : Party} {a : Act} {stack : List Frame} {e : Effect} {s : Sample}
  {ts : List Nat}

section

variable (hi : EarlyInv (c, l))

include hi

/-- A subscribe that is over commits nothing more. -/
theorem EarlyInv.fate_uncommitted (hts : ∀ t ∈ ts, t ≤ c.shared.nextSubscribeToken)
    (hun : ∀ t ∈ ts, t ∉ c.shared.tokens ∧ (s.handle, t) ∉ l.committed) :
    Fate (⟨e.run c.shared, update c.loc p stack⟩, l.watch c (p, a)) s ts := by
  refine .uncommitted fun t ht => ⟨fun hopen => ?_, fun hcomm => ?_⟩
  · rcases Effect.of_mem_tokens_run hopen with ⟨hmem, -⟩ | ⟨heq, -⟩
    · exact (hun t ht).1 hmem
    · have := hts t ht
      omega
  have hcomm : (s.handle, t) ∈ (l.watch c (p, a)).committed := hcomm
  cases hloc : c.loc p with
  | nil =>
    rw [(watch_nil (l := l) (a := a) hloc).2.2.1] at hcomm
    exact (hun t ht).2 hcomm
  | cons f =>
    rw [watch_cons hloc] at hcomm
    rcases (l.noted c.shared f a).of_mem_committed hcomm with hold | ⟨sub, items, rfl, -, heq⟩
    · exact (hun t ht).2 hold
    -- the subscribe that commits is open
    have htop : Frame.commit sub s.handle items ∈ c.loc p := by
      rw [hloc]
      exact mem_cons_self ..
    have hopen := hi.window.opened p _ htop sub rfl
    rw [← heq] at hopen
    exact (hun t ht).1 hopen

/-- A sample that is not expected any more has its fate. -/
theorem EarlyInv.fate_unexpected (harr : (s, ts) ∈ l.arrived) (hnot : ¬Expected (c, l) s) :
    Fate (⟨e.run c.shared, update c.loc p stack⟩, l.watch c (p, a)) s ts := by
  apply hi.fate_uncommitted (hi.tokens _ harr)
  intro t ht
  exact ⟨fun hopen => hnot ⟨_, harr, rfl, t, ht, .inl hopen⟩,
    fun hcomm => hnot ⟨_, harr, rfl, t, ht, .inr hcomm⟩⟩

/-- The innermost function has the sample in hand, and moves. -/
theorem EarlyInv.fate_held {f rest gs} (hok : FindsWindow (c, l) (p, a)) (harr : (s, ts) ∈ l.arrived)
    (hloc : c.loc p = f :: rest) (hf : FrameStep c.shared f a gs e) (hs : s ∈ f.holds) :
    Fate (⟨e.run c.shared, update c.loc p (gs ++ rest)⟩, l.watch c (p, a)) s ts := by
  have hkeep : ∀ {g : Frame}, g ∈ gs → s ∈ g.holds →
      Fate (⟨e.run c.shared, update c.loc p (gs ++ rest)⟩, l.watch c (p, a)) s ts := by
    intro g hg hh
    refine .held p g ?_ hh
    rw [loc_self]
    exact mem_append_left _ hg
  have htop : f ∈ c.loc p := by
    rw [hloc]
    exact mem_cons_self ..
  have hle := l.le_watch c (p, a)
  have hwatch : l.watch c (p, a) = l.note c.shared f a := watch_cons hloc
  unfold FindsWindow at hok
  rw [hloc] at hok
  cases hf with
  | dispatch hf =>
    cases hf with
    | beat s' buffer hz hb =>
      rw [mem_singleton.1 hs]
      rcases hi.issued.heartbeat with hzero | hbeat
      · exact absurd (hb.trans hzero) hz
      refine .beat (hle.beats ?_)
      rw [hb]
      exact hbeat
    | hit s' buffer hm =>
      rw [mem_singleton.1 hs]
      refine .delivered ?_
      show s' ∈ (l.watch c (p, .next)).delivered
      rw [hwatch]
      simp [Ledger.note, hm]
    | closed s' buffer hc =>
      obtain rfl := mem_singleton.1 hs
      cases buffer with
      | true =>
        refine hi.fate_unexpected harr fun hexp => ?_
        rw [hok hexp] at hc
        cases hc
      | false => exact .removed (hle.removed (hi.replay.missed p s htop))
    | replayed s' =>
      rw [mem_singleton.1 hs]
      exact .removed (hle.removed (hi.replay.missed p s' htop))
    | raceWedged s' now newest hn hlt =>
      obtain rfl := mem_singleton.1 hs
      exact hi.fate_unexpected harr fun hexp => hlt (hok hexp newest hn)
    | tailOver s' now hlt =>
      obtain rfl := mem_singleton.1 hs
      exact hi.fate_unexpected harr fun hexp => hlt (hok hexp)
    | full s' hfull =>
      rw [mem_singleton.1 hs]
      refine .refused ?_
      show s' ∈ (l.watch c (p, .next)).refused
      rw [hwatch]
      simp [Ledger.note, hfull]
    | park =>
      rw [mem_singleton.1 hs]
      exact .parked (mem_cons_self ..)
    | replay =>
      rcases mem_cons.1 hs with rfl | hs
      · exact hkeep (mem_cons_self ..) (mem_singleton.2 rfl)
      · exact hkeep (mem_cons_of_mem _ (mem_singleton.2 rfl)) hs
    | stale | orphan | boundNil | bound | take | replayNil => cases hs
    | _ => exact hkeep (mem_singleton.2 rfl) hs
  | orphan hf | subscribe hf | heartbeat hf => cases hf <;> cases hs

/-- Nobody is going to take a sample that the end of the last open subscribe finds parked. -/
theorem EarlyInv.not_bound (hok : DiscardsSafely c (p, a)) {sub rest} (hloc : c.loc p = .closing sub :: rest)
    (hlast : ∀ t ∈ c.shared.tokens, t = sub.token) (hs : s ∈ c.shared.earlySamples) :
    s.handle ∉ c.shared.activeNotifications := by
  intro hact
  have htop : Frame.closing sub ∈ c.loc p := by
    rw [hloc]
    exact mem_cons_self ..
  obtain ⟨q, f, hf, hh⟩ := hi.claim s hs hact
  rcases hi.window.claimed q f hf (ne_nil_of_mem hh) with ⟨h, rfl⟩ | ⟨g, hg, hsub⟩
  · -- a worker between its insert and its own replay: the condition excludes it
    unfold DiscardsSafely at hok
    rw [hloc] at hok
    have hlt : h % notifShardCount < notifShardCount := Nat.mod_lt _ (by decide)
    have hnone := hok hlast (h % notifShardCount) hlt f hf s.handle hh hact
    exact parked_eq_none hnone hs rfl
  -- a subscribe that is open: it is this one, and it has replayed
  obtain ⟨sub', hsub'⟩ := Option.isSome_iff_exists.1 hsub
  have htok := hlast _ (hi.window.opened q g hg sub' hsub')
  have hqp : q = p := hi.window.unique q p g hg _ htop sub' sub hsub' rfl htok
  subst hqp
  have hgr := hi.window.grounded q
  rw [hloc] at hgr hf
  rw [hgr.1 rfl] at hf
  rw [mem_singleton.1 hf] at hh
  cases hh

/-- A parked sample stays, is superseded or taken, or is discarded for good reason. -/
theorem EarlyInv.fate_parked (hok : DiscardsSafely c (p, a))
    (hp : PlanStep c.shared p (c.loc p) a stack e) (hs : s ∈ c.shared.earlySamples) :
    Fate (⟨e.run c.shared, update c.loc p stack⟩, l.watch c (p, a)) s ts := by
  rcases Effect.mem_earlySamples_run (e := e) hs with hstay | ⟨s', rfl, hh⟩ | ⟨bound, rfl, hb⟩ | hclose
  · exact .parked hstay
  · obtain ⟨f, rest, gs, hloc, hf, rfl⟩ := hp.of_inner rfl
    obtain ⟨rfl, hfull, rfl⟩ := hf.doneBy rfl
    have hfound := parked_of_mem hi.order.nodup hs
    rw [hh] at hfound
    refine .superseded s' ?_
    show (s, s') ∈ (l.watch c (p, a)).superseded
    rw [watch_cons hloc]
    simp [Ledger.note, hfull, hfound]
  · obtain ⟨f, rest, gs, hloc, hf, rfl⟩ := hp.of_inner rfl
    obtain rfl := hf.doneBy rfl
    refine .held p (.replayDispatch (takeSamples bound c.shared.earlySamples).1) ?_ ?_
    · rw [loc_self]
      exact mem_cons_self ..
    · exact mem_takeSamples hi.order.nodup hs hb
  obtain ⟨t, rfl, hlast⟩ := hclose
  obtain ⟨sub, rest, hloc, rfl, rfl⟩ := hp.closing rfl
  have hnot := hi.not_bound hok hloc hlast hs
  have hwatch : l.watch c (p, a) = l := watch_cons hloc
  rw [hwatch]
  by_cases hex : ∃ t ∈ ts, (s.handle, t) ∈ l.committed
  · obtain ⟨t, -, hcomm⟩ := hex
    exact .removed ((hi.issued.committed _ hcomm).2.resolve_left hnot)
  refine .uncommitted fun t ht => ⟨fun hopen => ?_, fun hcomm => hex ⟨t, ht, hcomm⟩⟩
  rcases Effect.of_mem_tokens_run hopen with ⟨hmem, hne⟩ | ⟨-, now, he⟩
  · exact hne (by rw [hlast t hmem])
  · cases he

theorem EarlyInv.fate_step (hok : Orderly (c, l) (p, a))
    (hp : PlanStep c.shared p (c.loc p) a stack e) (harr : (s, ts) ∈ l.arrived) (h : Fate (c, l) s ts) :
    Fate (⟨e.run c.shared, update c.loc p stack⟩, l.watch c (p, a)) s ts := by
  have hle := l.le_watch c (p, a)
  cases h with
  | delivered h => exact .delivered (hle.delivered h)
  | superseded s' h => exact .superseded s' (hle.superseded h)
  | refused h => exact .refused (hle.refused h)
  | removed h => exact .removed (hle.removed h)
  | beat h => exact .beat (hle.beats h)
  | parked h => exact hi.fate_parked hok.2.1 hp h
  | uncommitted h => exact hi.fate_uncommitted (hi.tokens _ harr) h
  | held q f hf h =>
    by_cases hq : q = p
    · subst hq
      have hf : f ∈ c.loc q := hf
      cases hloc : c.loc q with
      | nil =>
        rw [hloc] at hf
        cases hf
      | cons =>
        rw [hloc] at hf hp
        obtain ⟨gs, hstep, rfl⟩ := hp.of_cons
        rcases mem_cons.1 hf with rfl | hf
        · exact hi.fate_held hok.2.2 harr hloc hstep h
        refine .held q f ?_ h
        rw [loc_self]
        exact mem_append_right _ hf
    · refine .held q f ?_ h
      rw [loc_of_ne hq]
      exact hf

end

theorem of_mem_arrived (hp : PlanStep c.shared p (c.loc p) a stack e) {y}
    (hy : y ∈ (l.watch c (p, a)).arrived) :
    y ∈ l.arrived ∨ (y.2 = c.shared.tokens ∧ stack = [.beat y.1 true]) := by
  cases hloc : c.loc p with
  | cons f =>
    rw [watch_cons hloc, (l.noted c.shared f a).eq.1] at hy
    exact .inl hy
  | nil =>
    rw [hloc] at hp
    unfold Ledger.watch at hy
    rw [hloc] at hy
    dsimp only at hy
    split at hy
    · next heq => cases heq
    · rcases mem_cons.1 hy with rfl | hy
      · cases hp
        exact .inr ⟨rfl, rfl⟩
      · exact .inl hy
    · exact .inl hy
    · split at hy <;> exact .inl hy
    · exact .inl hy

end Fate

theorem earlyInv_init (now : Nat) : EarlyInv (initAt now, .empty) where
  window := windowInv_init now
  issued := issuedInv_init now
  replay := ⟨fun _ _ hf => absurd hf (by simp [initAt]), fun _ _ hf => absurd hf (by simp [initAt])⟩
  order :=
    ⟨nodup_nil, fun _ hs => absurd hs (by simp [initAt]),
      fun _ _ hf => absurd hf (by simp [initAt]), fun _ hy => absurd hy (by simp [Ledger.empty])⟩
  claim := fun _ hs => absurd hs (by simp [initAt])
  tokens := fun _ hy => absurd hy (by simp [Ledger.empty])
  fate := fun _ hy => absurd hy (by simp [Ledger.empty])

theorem earlyInv_step {x x' a} (hi : EarlyInv x)
    (hok : Orderly x a) (hs : followed x a = some x') : EarlyInv x' := by
  have hissued := issuedInv_step hi.issued hok.1 hs
  have hreplay := replayInv_step hi.replay hs
  have horder := orderInv_step hi.window hi.order hs
  obtain ⟨c, l⟩ := x
  obtain ⟨p, a⟩ := a
  obtain ⟨c', l'⟩ := x'
  obtain ⟨hstep, rfl⟩ := observe_eq_some.1 hs
  have hwindow := windowInv_step hi.window hstep
  have hclaim := claimInv_step hi.claim hstep
  obtain ⟨stack, e, hp, rfl⟩ := step_cases hstep
  have hnext : c.shared.nextSubscribeToken ≤ (e.run c.shared).nextSubscribeToken := by
    rcases Effect.nextSubscribeToken_run c.shared e with h | ⟨h, -⟩ <;> omega
  refine ⟨hwindow, hissued, hreplay, horder, hclaim, fun y hy t ht => ?_, fun y hy => ?_⟩
  · rcases of_mem_arrived hp hy with hold | ⟨htok, -⟩
    · exact Nat.le_trans (hi.tokens y hold t ht) hnext
    · rw [htok] at ht
      exact Nat.le_trans (hi.window.old t ht) hnext
  rcases of_mem_arrived hp hy with hold | ⟨-, rfl⟩
  · exact hi.fate_step hok hp hold (hi.fate y hold)
  refine .held p (.beat y.1 true) ?_ (mem_singleton.2 rfl)
  rw [loc_self]
  exact mem_singleton.2 rfl

/-- A goroutine that has the sample in hand, or is going to take it from the buffer. -/
def OnItsWay (c : State) (s : Sample) : Prop :=
  ∃ p, ∃ f ∈ c.loc p, s ∈ f.holds ∨ (s ∈ c.shared.earlySamples ∧ s.handle ∈ f.claims)

/-- **No early sample of a committed subscription is lost.**  In every run whose steps are orderly,
    take a sample that arrived while the subscribe `t` was open, which has committed its handle, and
    which is still in the map; it was not refused by a cap of the buffer.  It has been delivered, or superseded
    by a later sample of its handle, or a goroutine is about to dispatch it; when no goroutine is at work,
    one of the first two. -/
theorem early_sample_kept {now : Nat} {x : State × Ledger}
    (h : Run followed Orderly (initAt now, .empty) x) {s : Sample} {ts : List Nat} {t : Nat}
    (harrived : (s, ts) ∈ x.2.arrived) (hopen : t ∈ ts) (hcommitted : (s.handle, t) ∈ x.2.committed)
    (hstays : s.handle ∉ x.2.removed) (hcaps : s ∉ x.2.refused) :
    (s ∈ x.2.delivered ∨
        (∃ s', (s, s') ∈ x.2.superseded ∧ s'.handle = s.handle ∧ s.arrival < s'.arrival) ∨
        OnItsWay x.1 s) ∧
      ((∀ p, x.1.loc p = []) → s ∈ x.2.delivered ∨
        ∃ s', (s, s') ∈ x.2.superseded ∧ s'.handle = s.handle ∧ s.arrival < s'.arrival) := by
  have hi : EarlyInv x := h.invariant (earlyInv_init now) fun _ _ _ hi hok hs => earlyInv_step hi hok hs
  have hmain : s ∈ x.2.delivered ∨
      (∃ s', (s, s') ∈ x.2.superseded ∧ s'.handle = s.handle ∧ s.arrival < s'.arrival) ∨
      OnItsWay x.1 s := by
    have hcomm := hi.issued.committed _ hcommitted
    rcases hi.fate _ harrived with h | ⟨s', h⟩ | h | ⟨p, f, hf, h⟩ | h | h | h | h
    · exact .inl h
    · exact .inr (.inl ⟨s', h, hi.order.superseded _ h⟩)
    · exact absurd h hcaps
    · exact .inr (.inr ⟨p, f, hf, .inl h⟩)
    · -- parked, and its handle is bound: somebody is going to take it
      obtain ⟨p, f, hf, hclaim⟩ := hi.claim s h (hcomm.2.resolve_right hstays)
      exact .inr (.inr ⟨p, f, hf, .inr ⟨h, hclaim⟩⟩)
    · exact absurd h hstays
    · exact absurd h (hi.issued.apart _ hcomm.1)
    · exact absurd hcommitted (h t hopen).2
  refine ⟨hmain, fun hidle => ?_⟩
  rcases hmain with h | h | ⟨p, f, hf, -⟩
  · exact .inl h
  · exact .inr h
  · rw [hidle p] at hf
    cases hf

/-- A caller subscribes one symbol and gets handle 16.  Its worker takes up a sample of the handle and
    misses it, the caller commits, the worker finds the window active, and the caller replays and has
    only to close. -/
def early16 : List (Party × Act) :=
  [(.caller 0, .subscribe false), (.caller 0, .next), (.caller 0, .next), (.caller 0, .next),
    (.caller 0, .create [some 16]),
    (.shard 0, .sample 16 0 [1]), (.shard 0, .next), (.shard 0, .next),
    (.caller 0, .next), (.caller 0, .client false), (.caller 0, .accept true),
    (.shard 0, .next), (.shard 0, .next), (.shard 0, .next),
    (.caller 0, .next), (.caller 0, .next), (.caller 0, .next), (.caller 0, .next)]

def sample16 : Sample := ⟨16, 0, [1], 0⟩

theorem idle_of_two {c : State} {as : List (Party × Act)}
    (hrest : ∀ p, (∀ a ∈ as, a.1 ≠ p) → c.loc p = []) (hshard : c.loc (.shard 0) = [])
    (hcaller : c.loc (.caller 0) = []) (has : ∀ a ∈ as, a.1 = .shard 0 ∨ a.1 = .caller 0) (p : Party) :
    c.loc p = [] := by
  by_cases hs : p = .shard 0
  · rw [hs, hshard]
  by_cases hc : p = .caller 0
  · rw [hc, hcaller]
  refine hrest p fun a ha heq => ?_
  rcases has a ha with h | h
  · exact hs (heq.symm.trans h)
  · exact hc (heq.symm.trans h)

/-- The worker parks and replays before the caller closes: the sample is delivered. -/
theorem early_sample_kept_replayed :
    ∃ x : State × Ledger, Run followed Orderly (initAt (10 ^ 12), .empty) x ∧
      (sample16, [1]) ∈ x.2.arrived ∧ (16, 1) ∈ x.2.committed ∧
      (sample16 ∈ x.2.delivered ∨ ∃ s', (sample16, s') ∈ x.2.superseded ∧
        s'.handle = sample16.handle ∧ sample16.arrival < s'.arrival) := by
  obtain ⟨x, hrun, ⟨harr, hcomm, hstays, hcaps, hshard, hcaller⟩, hrest⟩ :=
    exists_run_observe act Ledger.watch Orderly (initAt (10 ^ 12), .empty)
    (fun x => (sample16, [1]) ∈ x.2.arrived ∧ (sample16.handle, 1) ∈ x.2.committed ∧
      sample16.handle ∉ x.2.removed ∧ sample16 ∉ x.2.refused ∧
      x.1.loc (.shard 0) = [] ∧ x.1.loc (.caller 0) = [])
    (early16 ++ replicate 7 (.shard 0, .next) ++ [(.caller 0, .next)]) (by decide +kernel)
  refine ⟨x, hrun, harr, hcomm, ?_⟩
  exact (early_sample_kept hrun harr (mem_singleton.2 rfl) hcomm hstays hcaps).2
    (idle_of_two hrest hshard hcaller (by decide))

/-- The caller closes between the worker's insert and the worker's own replay: the sample is discarded,
    though its handle has been committed by the subscribe in which it arrived. -/
theorem early_sample_discarded : ¬ ∀ (x : State × Ledger) (s : Sample) (ts : List Nat) (t : Nat),
      Run followed anyStep (initAt (10 ^ 12), .empty) x → (s, ts) ∈ x.2.arrived → t ∈ ts →
      (s.handle, t) ∈ x.2.committed → s.handle ∉ x.2.removed → s ∉ x.2.refused →
      (∀ p, x.1.loc p = []) →
      s ∈ x.2.delivered ∨ ∃ s', (s, s') ∈ x.2.superseded := by
  intro hall
  obtain ⟨x, hrun, ⟨harr, hcomm, hstays, hcaps, hshard, hcaller, hdel, hsup⟩, hrest⟩ :=
    exists_run_observe act Ledger.watch anyStep (initAt (10 ^ 12), .empty)
    (fun x => (sample16, [1]) ∈ x.2.arrived ∧ (sample16.handle, 1) ∈ x.2.committed ∧
      sample16.handle ∉ x.2.removed ∧ sample16 ∉ x.2.refused ∧
      x.1.loc (.shard 0) = [] ∧ x.1.loc (.caller 0) = [] ∧ x.2.delivered = [] ∧ x.2.superseded = [])
    (early16 ++ [(.shard 0, .next), (.caller 0, .next)] ++ replicate 3 (.shard 0, .next))
    (by decide +kernel)
  rcases hall x sample16 [1] 1 hrun harr (mem_singleton.2 rfl) hcomm hstays hcaps
    (idle_of_two hrest hshard hcaller (by decide)) with h | ⟨s', h⟩
  · rw [hdel] at h
    cases h
  · rw [hsup] at h
    cases h

end GoAds.Dispatch
