import Mathlib.Data.List.ReduceOption
import GoAds.Dispatch.Steps

/-!
# `Dispatch.Windows` — who is in which subscribe

What holds in every state of `Dispatch.System`, whatever the PLC does: a subscribe in progress has its
token open and shares it with nobody, so `subscribeInFlight` is positive while one runs; the live
path of a sample runs on its own shard worker only; and whoever is going to take parked samples is
such a worker or is inside a subscribe.
-/

namespace GoAds.Dispatch

open Interleaving List Conf
open Notification (Handle)

/-- The tokens of the subscribes that are open. -/
def Shared.tokens (sh : Shared) : List Nat := sh.openSubscribes.map (·.1)

/-- The subscribe a function belongs to, once its token is open. -/
def Frame.sub : Frame → Option Sub
  | .opened sub _ | .add sub | .created sub _ | .commit sub _ _ | .ending sub | .closing sub =>
      some sub
  | _ => none

/-- The sample on its live path, up to `bufferEarlySample`'s insert. -/
def Frame.live : Frame → Option Sample
  | .beat s true | .lookup s true | .missed s true | .window s | .race s _ | .tail s _ | .park s =>
      some s
  | _ => none

/-- The functions that nothing of this model calls. -/
def Frame.isBase : Frame → Bool
  | .begin _ | .opening _ _ => true
  | f => f.sub.isSome || f.live.isSome

/-- The handles whose parked samples a function is going to take, if they are bound by then. -/
def Frame.claims : Frame → List Handle
  | .replayBound handles => handles
  | .replayTake bound => bound
  | .closing _ => []
  | f => (f.sub.map Sub.committed).getD []

/-- The registrations a subscribe has got and not handled yet. -/
def Frame.hands : Frame → List Handle
  | .created _ items => items.reduceOption
  | .commit _ handle rest => handle :: rest.reduceOption
  | _ => []

/-- The registration `establishHeartbeat` has got and not stored yet. -/
def Frame.beatHands : Frame → List Handle
  | .beatCreated handle | .beatStore handle => [handle]
  | _ => []

/-- Only the outermost function is one that nothing calls. -/
def Grounded : List Frame → Prop
  | [] => True
  | f :: rest => (f.isBase = true → rest = []) ∧ Grounded rest

structure WindowInv (c : State) : Prop where
  grounded : ∀ p, Grounded (c.loc p)
  live : ∀ p, ∀ f ∈ c.loc p, ∀ s, f.live = some s → shardOf s.handle = p
  opened : ∀ p, ∀ f ∈ c.loc p, ∀ sub, f.sub = some sub → sub.token ∈ c.shared.tokens
  unique : ∀ p q, ∀ f ∈ c.loc p, ∀ g ∈ c.loc q, ∀ sub sub', f.sub = some sub → g.sub = some sub' →
    sub.token = sub'.token → p = q
  old : ∀ t ∈ c.shared.tokens, t ≤ c.shared.nextSubscribeToken
  inFlight : c.shared.subscribeInFlight = c.shared.openSubscribes.length
  claimed : ∀ p, ∀ f ∈ c.loc p, f.claims ≠ [] →
    (∃ h, p = shardOf h) ∨ ∃ g ∈ c.loc p, g.sub.isSome = true

/-! ## The tokens -/

section Tokens

variable {sh : Shared} {e : Effect} {t : Nat}

theorem Shared.tokens_close (sh : Shared) (t : Nat) :
    (sh.close t).tokens = (sh.openSubscribes.filter fun x => x.1 != t).map (·.1) := by
  unfold Shared.close
  dsimp only
  split <;> rfl

theorem Effect.mem_tokens_run (h : t ∈ sh.tokens) (hc : e ≠ .close t) : t ∈ (e.run sh).tokens := by
  cases e with
  | «open» now => exact mem_cons_of_mem _ h
  | touch token =>
    obtain ⟨x, hx, rfl⟩ := mem_map.1 h
    refine mem_map.2 ⟨_, mem_map_of_mem hx, ?_⟩
    split <;> rfl
  | close token =>
    have hne : t ≠ token := fun heq => hc (by rw [heq])
    show t ∈ (sh.close token).tokens
    rw [Shared.tokens_close]
    obtain ⟨x, hx, rfl⟩ := mem_map.1 h
    exact mem_map_of_mem (mem_filter.2 ⟨hx, by simpa using hne⟩)
  | _ => exact h

theorem Effect.of_mem_tokens_run (h : t ∈ (e.run sh).tokens) :
    (t ∈ sh.tokens ∧ e ≠ .close t) ∨ (t = sh.nextSubscribeToken + 1 ∧ ∃ now, e = .open now) := by
  cases e with
  | «open» now =>
    rcases mem_cons.1 h with heq | h
    · exact .inr ⟨heq, now, rfl⟩
    · exact .inl ⟨h, by simp⟩
  | touch token =>
    obtain ⟨x, hx, rfl⟩ := mem_map.1 h
    obtain ⟨y, hy, rfl⟩ := mem_map.1 hx
    have hfst : (if y.1 = token then (y.1, sh.now) else y).1 = y.1 := by split <;> rfl
    rw [hfst]
    exact .inl ⟨mem_map_of_mem hy, by simp⟩
  | close token =>
    have hm : t ∈ (sh.close token).tokens := h
    rw [Shared.tokens_close] at hm
    obtain ⟨x, hx, rfl⟩ := mem_map.1 hm
    obtain ⟨hx, hne⟩ := mem_filter.1 hx
    have hne : x.1 ≠ token := by simpa using hne
    refine .inl ⟨mem_map_of_mem hx, fun heq => hne ?_⟩
    cases heq
    rfl
  | _ => exact .inl ⟨h, by simp⟩

theorem Effect.nextSubscribeToken_run (sh : Shared) (e : Effect) :
    (e.run sh).nextSubscribeToken = sh.nextSubscribeToken ∨
      ((e.run sh).nextSubscribeToken = sh.nextSubscribeToken + 1 ∧ ∃ now, e = .open now) := by
  cases e with
  | «open» now => exact .inr ⟨rfl, now, rfl⟩
  | close token =>
    left
    show (sh.close token).nextSubscribeToken = _
    unfold Shared.close
    dsimp only
    split <;> rfl
  | _ => exact .inl rfl

theorem Effect.inFlight_run (h : sh.subscribeInFlight = sh.openSubscribes.length) :
    (e.run sh).subscribeInFlight = (e.run sh).openSubscribes.length := by
  cases e with
  | «open» now => rfl
  | touch =>
    show sh.subscribeInFlight = (sh.openSubscribes.map _).length
    rw [length_map]
    exact h
  | close token =>
    show (sh.close token).subscribeInFlight = (sh.close token).openSubscribes.length
    unfold Shared.close
    dsimp only
    split <;> rfl
  | _ => exact h

end Tokens

/-! ## One step of one function -/

section Frames

variable {sh : Shared} {f : Frame} {a : Act} {gs : List Frame} {e : Effect}

/-- What a function leaves is in call order, and a function that nothing calls comes from one. -/
theorem FrameStep.grounded (h : FrameStep sh f a gs e) :
    Grounded gs ∧ ∀ g ∈ gs, g.isBase = true → f.isBase = true := by
  have hone : ∀ {g : Frame}, (g.isBase = true → f.isBase = true) →
      Grounded [g] ∧ ∀ g' ∈ [g], g'.isBase = true → f.isBase = true := by
    intro g hg
    refine ⟨⟨fun _ => rfl, trivial⟩, fun g' hg' => ?_⟩
    rw [mem_singleton.1 hg']
    exact hg
  have htwo : ∀ {g g' : Frame}, g.isBase = false → (g'.isBase = true → f.isBase = true) →
      Grounded [g, g'] ∧ ∀ x ∈ [g, g'], x.isBase = true → f.isBase = true := by
    intro g g' hg hg'
    refine ⟨⟨fun hb => absurd hb (by simp [hg]), (fun _ => rfl), trivial⟩, fun x hx hb => ?_⟩
    rcases mem_cons.1 hx with rfl | hx
    · exact absurd hb (by simp [hg])
    · rw [mem_singleton.1 hx] at hb
      exact hg' hb
  have hnil : Grounded [] ∧ ∀ g ∈ ([] : List Frame), g.isBase = true → f.isBase = true :=
    ⟨trivial, fun g hg => absurd hg (by simp)⟩
  cases h with
  | dispatch h =>
    cases h with
    | beat | hit | closed | stale | full | boundNil | replayNil => exact hnil
    | notBeat s buffer | miss s buffer => cases buffer <;> exact hone fun hb => hb
    | replay => exact htwo rfl fun hb => by cases hb
    | replayed | orphan | bound | take => exact hone fun hb => by cases hb
    | _ => exact hone fun _ => rfl
  | orphan h =>
    cases h with
    | skip | throttled | busy | notStarted | started | abort | noClient | send => exact hnil
    | _ => exact hone fun hb => by cases hb
  | subscribe h =>
    cases h with
    | closing => exact hnil
    | finishBeat | single | bindItem | ending => exact htwo rfl fun _ => rfl
    | _ => exact hone fun _ => rfl
  | heartbeat h =>
    cases h with
    | skip | fail | store | release => exact hnil
    | _ => exact hone fun hb => by cases hb

/-- The functions that have nothing to do with subscribes, and hold no registration. -/
def Frame.Plain (f : Frame) : Prop := f.sub = none ∧ f.hands = [] ∧ f.beatHands = []

/-- Those that have nothing to do with samples either. -/
def Frame.Quiet (f : Frame) : Prop := f.Plain ∧ f.live = none ∧ f.claims = []

theorem DispatchStep.plain (h : DispatchStep sh f gs e) : f.Plain ∧ ∀ g ∈ gs, g.Plain := by
  cases h with
  | beat | hit | closed | stale | full | boundNil | replayNil =>
    exact ⟨⟨rfl, rfl, rfl⟩, fun g hg => absurd hg (by simp)⟩
  | replay =>
    refine ⟨⟨rfl, rfl, rfl⟩, fun g hg => ?_⟩
    rcases mem_cons.1 hg with rfl | hg
    · exact ⟨rfl, rfl, rfl⟩
    · rw [mem_singleton.1 hg]
      exact ⟨rfl, rfl, rfl⟩
  | _ =>
    refine ⟨⟨rfl, rfl, rfl⟩, fun g hg => ?_⟩
    rw [mem_singleton.1 hg]
    exact ⟨rfl, rfl, rfl⟩

theorem OrphanStep.quiet (h : OrphanStep sh f a gs e) : f.Quiet ∧ ∀ g ∈ gs, g.Quiet := by
  have hquiet : ∀ {x : Frame}, x.sub = none → x.hands = [] → x.beatHands = [] → x.live = none →
      x.claims = [] → x.Quiet := fun h₁ h₂ h₃ h₄ h₅ => ⟨⟨h₁, h₂, h₃⟩, h₄, h₅⟩
  cases h with
  | skip | throttled | busy | notStarted | started | abort | noClient | send =>
    exact ⟨hquiet rfl rfl rfl rfl rfl, fun g hg => absurd hg (by simp)⟩
  | _ =>
    refine ⟨hquiet rfl rfl rfl rfl rfl, fun g hg => ?_⟩
    rw [mem_singleton.1 hg]
    exact hquiet rfl rfl rfl rfl rfl

theorem HeartbeatStep.quiet (h : HeartbeatStep sh f a gs e) :
    (f.sub = none ∧ f.live = none ∧ f.claims = []) ∧
      ∀ g ∈ gs, g.sub = none ∧ g.live = none ∧ g.claims = [] ∧ g.hands = [] := by
  cases h with
  | skip | fail | store | release => exact ⟨⟨rfl, rfl, rfl⟩, fun g hg => absurd hg (by simp)⟩
  | _ =>
    refine ⟨⟨rfl, rfl, rfl⟩, fun g hg => ?_⟩
    rw [mem_singleton.1 hg]
    exact ⟨rfl, rfl, rfl, rfl⟩

variable {g : Frame}

theorem DispatchStep.live_eq (h : DispatchStep sh f gs e) (hg : g ∈ gs) {s}
    (hs : g.live = some s) : f.live = some s := by
  cases h with
  | beat | hit | closed | stale | full | boundNil | replayNil => exact absurd hg (by simp)
  | notBeat s buffer h | miss s buffer h =>
    rw [mem_singleton.1 hg] at hs
    cases buffer <;> exact hs
  | live | clock | raceOpen | raceNone | tailOpen =>
    rw [mem_singleton.1 hg] at hs
    exact hs
  | replay =>
    rcases mem_cons.1 hg with rfl | hg
    · cases hs
    · rw [mem_singleton.1 hg] at hs
      cases hs
  | _ =>
    rw [mem_singleton.1 hg] at hs
    cases hs

/-- The functions of `dispatchSample`, and those of a replay that has found its handles bound. -/
def Frame.onSample : Frame → Bool
  | .beat .. | .lookup .. | .missed .. | .window .. | .race .. | .tail .. | .unknown .. | .park ..
  | .replayTake .. | .replayDispatch .. => true
  | _ => false

section

variable (h : FrameStep sh f a gs e)

include h

/-- Only the dispatch goes on with one of them. -/
theorem FrameStep.of_onSample (hg : g ∈ gs) (hs : g.onSample = true) : DispatchStep sh f gs e := by
  cases h with
  | dispatch h => exact h
  | orphan h | subscribe h | heartbeat h =>
    have hnone : ∀ g ∈ gs, g.onSample = false := by
      cases h <;> simp [Frame.onSample]
    rw [hnone g hg] at hs
    cases hs

theorem FrameStep.live (hg : g ∈ gs) {s} (hs : g.live = some s) : f.live = some s := by
  have hsample : g.onSample = true := by
    cases g <;> first | rfl | cases hs
  exact (h.of_onSample hg hsample).live_eq hg hs

/-- A function of a subscribe has the token of the one it comes from, or it opens its own. -/
theorem FrameStep.sub (hg : g ∈ gs) {sub'} (hs : g.sub = some sub') :
    (∃ sub, f.sub = some sub ∧ sub.token = sub'.token ∧ ∀ t, e ≠ .close t) ∨
      (sub'.token = sh.nextSubscribeToken + 1 ∧ ∃ now, e = .open now) := by
  cases h with
  | dispatch h => exact absurd ((h.plain.2 g hg).1.symm.trans hs) (by simp)
  | orphan h => exact absurd ((h.quiet.2 g hg).1.1.symm.trans hs) (by simp)
  | heartbeat h => exact absurd ((h.quiet.2 g hg).1.symm.trans hs) (by simp)
  | subscribe h =>
    cases h with
    | closing => exact absurd hg (by simp)
    | begin =>
      rw [mem_singleton.1 hg] at hs
      cases hs
    | opening batch now =>
      rw [mem_singleton.1 hg] at hs
      cases hs
      exact .inr ⟨rfl, now, rfl⟩
    | finishBeat | single | bindItem | ending =>
      rcases mem_cons.1 hg with rfl | hg
      · cases hs
      rw [mem_singleton.1 hg] at hs
      cases hs
      exact .inl ⟨_, rfl, rfl, by simp⟩
    | _ =>
      rw [mem_singleton.1 hg] at hs
      cases hs
      exact .inl ⟨_, rfl, rfl, by simp⟩

/-- A subscribe leaves its functions only by closing. -/
theorem FrameStep.sub_left (hf : f.sub.isSome = true) (hne : gs ≠ []) : ∃ g ∈ gs, g.sub.isSome = true := by
  cases h with
  | dispatch h => exact absurd hf (by simp [h.plain.1.1])
  | orphan h => exact absurd hf (by simp [h.quiet.1.1.1])
  | heartbeat h => exact absurd hf (by simp [h.quiet.1.1])
  | subscribe h =>
    cases h with
    | closing => exact absurd rfl hne
    | begin | opening => cases hf
    | finishBeat | single | bindItem | ending =>
      exact ⟨_, mem_cons_of_mem _ (mem_singleton.2 rfl), rfl⟩
    | _ => exact ⟨_, mem_singleton.2 rfl, rfl⟩

end

/-- **Which function does what**, and what it leaves: a token is closed by its own subscribe, a commit binds,
    `establishHeartbeat` stores its handle, and a sample is parked only when there is room. -/
def Effect.DoneBy (sh : Shared) (f : Frame) (a : Act) (gs : List Frame) : Effect → Prop
  | .close t => ∃ sub, f = .closing sub ∧ sub.token = t ∧ gs = []
  | .bind h => ∃ sub rest, f = .commit sub h rest ∧ a = .accept true ∧
      ∃ g ∈ gs, g.sub = some (sub.commit h) ∧ h ∈ g.claims
  | .beat h => f = .beatStore h
  | .park s => f = .park s ∧ sh.full s = false ∧ gs = [.replayBound [s.handle]]
  | .take bound => gs = [.replayDispatch (takeSamples bound sh.earlySamples).1]
  | .schedule h => f = .spawn h
  | _ => True

theorem FrameStep.doneBy (hs : FrameStep sh f a gs e) {e'} (he : e = e') : e'.DoneBy sh f a gs := by
  subst he
  cases hs with
  | dispatch hs =>
    cases hs with
    | park s h => exact ⟨rfl, h, rfl⟩
    | take => rfl
    | _ => trivial
  | orphan hs =>
    cases hs with
    | started => rfl
    | _ => trivial
  | heartbeat hs =>
    cases hs with
    | store => rfl
    | _ => trivial
  | subscribe hs =>
    have hmem : ∀ (sub : Sub) h, h ∈ (sub.commit h).committed := fun sub h =>
      mem_append_right _ (mem_singleton.2 rfl)
    cases hs with
    | closing sub => exact ⟨sub, rfl, rfl, rfl⟩
    | bindItem sub h rest =>
      exact ⟨sub, rest, rfl, rfl, _, mem_cons_of_mem _ (mem_singleton.2 rfl), rfl, hmem sub h⟩
    | bindSingle sub h rest => exact ⟨sub, rest, rfl, rfl, _, mem_singleton.2 rfl, rfl, hmem sub h⟩
    | _ => trivial

/-- Who comes to claim parked samples has claimed before, has just parked one, or is subscribing. -/
theorem FrameStep.claimed (h : FrameStep sh f a gs e) (hg : g ∈ gs) (hc : g.claims ≠ []) :
    f.claims ≠ [] ∨ (∃ s, f = .park s) ∨ ∃ g' ∈ gs, g'.sub.isSome = true := by
  cases h with
  | dispatch h =>
    cases h with
    | beat | hit | closed | stale | full | boundNil | replayNil => exact absurd hg (by simp)
    | park s => exact .inr (.inl ⟨s, rfl⟩)
    | bound handles h => exact .inl h
    | replay =>
      rcases mem_cons.1 hg with rfl | hg
      · exact absurd rfl hc
      · rw [mem_singleton.1 hg] at hc
        exact absurd rfl hc
    | _ =>
      rw [mem_singleton.1 hg] at hc
      exact absurd rfl hc
  | orphan h => exact absurd (h.quiet.2 g hg).2.2 hc
  | heartbeat h => exact absurd (h.quiet.2 g hg).2.2.1 hc
  | subscribe h =>
    refine .inr (.inr ?_)
    cases h with
    | closing => exact absurd hg (by simp)
    | begin =>
      rw [mem_singleton.1 hg] at hc
      exact absurd rfl hc
    | finishBeat | single | bindItem | ending =>
      exact ⟨_, mem_cons_of_mem _ (mem_singleton.2 rfl), rfl⟩
    | _ => exact ⟨_, mem_singleton.2 rfl, rfl⟩

end Frames

/-! ## One step of one goroutine -/

theorem Grounded.append {gs rest} (hg : Grounded gs) (hr : Grounded rest)
    (h : rest = [] ∨ ∀ g ∈ gs, g.isBase = false) : Grounded (gs ++ rest) := by
  induction gs with
  | nil => exact hr
  | cons g gs ih =>
    refine ⟨fun hb => ?_, ih hg.2 (h.imp_right fun hall x hx => hall x (mem_cons_of_mem _ hx))⟩
    rcases h with rfl | hall
    · show gs ++ [] = []
      rw [append_nil]
      exact hg.1 hb
    · rw [hall g (mem_cons_self ..)] at hb
      cases hb

variable {a : Act} {e : Effect} {f : Frame} {stack : List Frame} {p : Party} {sh : Shared}

theorem Frame.isBase_of_sub (h : f.sub.isSome = true) : f.isBase = true := by
  cases f <;> first | rfl | cases h

section Plans

variable {stack' : List Frame}

theorem PlanStep.grounded (h : PlanStep sh p stack a stack' e) (hg : Grounded stack) : Grounded stack' := by
  cases h with
  | frame rest h =>
    obtain ⟨hgs, hbase⟩ := h.grounded
    refine hgs.append hg.2 ?_
    by_cases hf : rest = []
    · exact .inl hf
    right
    intro g hmem
    have hnot : ¬ g.isBase = true := fun hb => hf (hg.1 (hbase g hmem hb))
    simpa using hnot
  | sample | subscribe | heartbeat | reap => exact ⟨fun _ => rfl, trivial⟩
  | _ => trivial

variable {g : Frame}

theorem PlanStep.live (h : PlanStep sh p stack a stack' e)
    (hl : ∀ f ∈ stack, ∀ s, f.live = some s → shardOf s.handle = p) (hg : g ∈ stack')
    {s} (hs : g.live = some s) : shardOf s.handle = p := by
  cases h with
  | frame rest h =>
    rcases mem_append.1 hg with hg | hg
    · exact hl _ (mem_cons_self ..) s (h.live hg hs)
    · exact hl g (mem_cons_of_mem _ hg) s hs
  | sample handle timestamp content hp =>
    rw [mem_singleton.1 hg] at hs
    cases hs
    exact hp
  | subscribe | heartbeat | reap =>
    rw [mem_singleton.1 hg] at hs
    cases hs
  | _ => exact absurd hg (by simp)

theorem PlanStep.sub (h : PlanStep sh p stack a stack' e) (hgr : Grounded stack)
    (hg : g ∈ stack') {sub'} (hs : g.sub = some sub') :
    (∃ f ∈ stack, ∃ sub, f.sub = some sub ∧ sub.token = sub'.token ∧ ∀ t, e ≠ .close t) ∨
      (sub'.token = sh.nextSubscribeToken + 1 ∧ ∃ now, e = .open now) := by
  cases h with
  | frame rest h =>
    rcases mem_append.1 hg with hg | hg
    · refine (h.sub hg hs).imp_left ?_
      rintro ⟨sub, hf, htok, he⟩
      exact ⟨_, mem_cons_self .., sub, hf, htok, he⟩
    refine .inl ⟨g, mem_cons_of_mem _ hg, sub', hs, rfl, fun t he => ?_⟩
    -- a close runs in the outermost function
    obtain ⟨sub, rfl, -, -⟩ := h.doneBy he
    rw [hgr.1 rfl] at hg
    cases hg
  | sample | subscribe | heartbeat | reap =>
    rw [mem_singleton.1 hg] at hs
    cases hs
  | _ => exact absurd hg (by simp)

theorem PlanStep.closing (h : PlanStep sh p stack a stack' e) {t} (he : e = .close t) :
    ∃ sub rest, stack = .closing sub :: rest ∧ sub.token = t ∧ stack' = rest := by
  cases h with
  | frame rest h =>
    obtain ⟨sub, rfl, htok, rfl⟩ := h.doneBy he
    exact ⟨sub, rest, rfl, htok, rfl⟩
  | _ => cases he

theorem PlanStep.claimed (h : PlanStep sh p stack a stack' e) (hgr : Grounded stack)
    (hl : ∀ f ∈ stack, ∀ s, f.live = some s → shardOf s.handle = p)
    (hc : ∀ f ∈ stack, f.claims ≠ [] → (∃ h, p = shardOf h) ∨ ∃ g ∈ stack, g.sub.isSome = true)
    (hg : g ∈ stack') (hne : g.claims ≠ []) : (∃ h, p = shardOf h) ∨ ∃ g ∈ stack', g.sub.isSome = true := by
  cases h with
  | @frame f a gs e rest h =>
    -- a subscribe that the goroutine was in is the function it moves in, or one further out
    have hkeep : gs ++ rest ≠ [] → (∃ x ∈ f :: rest, x.sub.isSome = true) →
        ∃ x ∈ gs ++ rest, x.sub.isSome = true := by
      intro hnil hex
      obtain ⟨x, hx, hs⟩ := hex
      rcases mem_cons.1 hx with rfl | hx
      · have hrest : rest = [] := hgr.1 (Frame.isBase_of_sub hs)
        rw [hrest, append_nil] at hnil ⊢
        exact h.sub_left hs hnil
      · exact ⟨x, mem_append_right _ hx, hs⟩
    have hnil : gs ++ rest ≠ [] := ne_nil_of_mem hg
    rcases mem_append.1 hg with hg | hg
    · rcases h.claimed hg hne with hf | ⟨s, rfl⟩ | ⟨g', hg', hs⟩
      · exact (hc f (mem_cons_self ..) hf).imp_right (hkeep hnil)
      · exact .inl ⟨s.handle, (hl _ (mem_cons_self ..) s rfl).symm⟩
      · exact .inr ⟨g', mem_append_left _ hg', hs⟩
    · exact (hc g (mem_cons_of_mem _ hg) hne).imp_right (hkeep hnil)
  | sample | subscribe | heartbeat | reap =>
    rw [mem_singleton.1 hg] at hne
    exact absurd rfl hne
  | _ => exact absurd hg (by simp)

end Plans

/-! ## All goroutines -/

theorem windowInv_init (now : Nat) : WindowInv (initAt now) :=
  ⟨fun _ => trivial, fun _ _ hf => absurd hf (by simp [initAt]),
    fun _ _ hf => absurd hf (by simp [initAt]), fun _ _ _ hf => absurd hf (by simp [initAt]),
    fun _ ht => absurd ht (by simp [initAt, Shared.tokens]), rfl,
    fun _ _ hf => absurd hf (by simp [initAt])⟩

theorem windowInv_step {c c' x} (hi : WindowInv c)
    (hs : step c x = some c') : WindowInv c' := by
  obtain ⟨p, a⟩ := x
  obtain ⟨stack, e, hp, rfl⟩ := step_cases hs
  -- the tokens in use after the step: as before, or the one it has just opened
  have hsub : ∀ q, ∀ f ∈ (Function.update c.loc p stack) q, ∀ sub, f.sub = some sub →
      (sub.token ∈ c.shared.tokens ∧ e ≠ .close sub.token ∧
        ∃ g ∈ c.loc q, ∃ sub', g.sub = some sub' ∧ sub'.token = sub.token) ∨
      (q = p ∧ sub.token = c.shared.nextSubscribeToken + 1 ∧ ∃ now, e = .open now) := by
    intro q f hf sub hsub
    by_cases hq : q = p
    · subst hq
      rw [Function.update_self] at hf
      rcases hp.sub (hi.grounded q) hf hsub with ⟨g, hg, sub', hg', htok, he⟩ | ⟨htok, hopen⟩
      · left
        refine ⟨?_, he _, g, hg, sub', hg', htok⟩
        rw [← htok]
        exact hi.opened q g hg sub' hg'
      · exact .inr ⟨rfl, htok, hopen⟩
    rw [Function.update_of_ne hq] at hf
    refine .inl ⟨hi.opened q f hf sub hsub, fun he => hq ?_, f, hf, sub, hsub, rfl⟩
    obtain ⟨sub₀, rest, hloc, htok, -⟩ := hp.closing he
    refine hi.unique q p f hf (.closing sub₀) ?_ sub sub₀ hsub rfl htok.symm
    rw [hloc]
    exact mem_cons_self ..
  refine ⟨fun q => ?_, fun q f hf s hlive => ?_, fun q f hf sub h => ?_, ?_, fun t ht => ?_,
    Effect.inFlight_run hi.inFlight, fun q f hf hne => ?_⟩
  · by_cases hq : q = p
    · subst hq
      rw [loc_self]
      exact hp.grounded (hi.grounded q)
    · rw [loc_of_ne hq]
      exact hi.grounded q
  · by_cases hq : q = p
    · subst hq
      rw [loc_self] at hf
      exact hp.live (hi.live q) hf hlive
    · rw [loc_of_ne hq] at hf
      exact hi.live q f hf s hlive
  · rcases hsub q f hf sub h with ⟨hmem, he, -⟩ | ⟨-, htok, now, rfl⟩
    · exact Effect.mem_tokens_run hmem he
    · rw [htok]
      exact mem_cons_self ..
  · intro q r f hf g hg sub sub' h h' heq
    rcases hsub q f hf sub h with ⟨hmem, -, f₀, hf₀, s₀, hs₀, ht₀⟩ | ⟨hqp, htok, -⟩
    · rcases hsub r g hg sub' h' with ⟨-, -, g₀, hg₀, s₁, hs₁, ht₁⟩ | ⟨-, htok', -⟩
      · exact hi.unique q r f₀ hf₀ g₀ hg₀ s₀ s₁ hs₀ hs₁ (by rw [ht₀, ht₁, heq])
      · have := hi.old _ hmem
        omega
    rcases hsub r g hg sub' h' with ⟨hmem, -, -⟩ | ⟨hrp, -, -⟩
    · have := hi.old _ hmem
      omega
    · rw [hqp, hrp]
  · show t ≤ (e.run c.shared).nextSubscribeToken
    have hnext := Effect.nextSubscribeToken_run c.shared e
    rcases Effect.of_mem_tokens_run ht with ⟨hold, -⟩ | ⟨htok, now, rfl⟩
    · have := hi.old t hold
      rcases hnext with h | ⟨h, -⟩ <;> omega
    rcases hnext with h | ⟨h, -⟩
    · exact absurd h (by simp [Effect.run])
    · omega
  by_cases hq : q = p
  · subst hq
    rw [loc_self] at hf ⊢
    exact hp.claimed (hi.grounded q) (hi.live q) (hi.claimed q) hf hne
  · rw [loc_of_ne hq] at hf ⊢
    exact hi.claimed q f hf hne

/-! ## The registrations in hand -/

section Hands

variable {g : Frame} {gs : List Frame} {h : Handle}

/-- A registration comes into the hand of a subscribe, or of `establishHeartbeat`, when the PLC creates it. -/
theorem FrameStep.inHand (hs : FrameStep sh f a gs e) (hg : g ∈ gs) :
    (h ∈ g.hands → h ∈ f.hands ∨ ∃ sub items, f = .add sub ∧ a = .create items ∧ h ∈ items.reduceOption) ∧
      (h ∈ g.beatHands → h ∈ f.beatHands ∨ f = .beatAdd ∧ a = .create [some h]) := by
  cases hs with
  | dispatch hs =>
    rw [(hs.plain.2 g hg).2.1, (hs.plain.2 g hg).2.2]
    exact ⟨nofun, nofun⟩
  | orphan hs =>
    rw [(hs.quiet.2 g hg).1.2.1, (hs.quiet.2 g hg).1.2.2]
    exact ⟨nofun, nofun⟩
  | heartbeat hs =>
    rw [(hs.quiet.2 g hg).2.2.2]
    refine ⟨nofun, fun hh => ?_⟩
    cases hs with
    | skip | fail | store | release => exact absurd hg (by simp)
    | create =>
      rw [mem_singleton.1 hg] at hh
      rw [mem_singleton.1 hh]
      exact .inr ⟨rfl, rfl⟩
    | distinct =>
      rw [mem_singleton.1 hg] at hh
      exact .inl hh
    | _ =>
      rw [mem_singleton.1 hg] at hh
      cases hh
  | subscribe hs =>
    cases hs with
    | create sub items =>
      rw [mem_singleton.1 hg]
      exact ⟨fun hh => .inr ⟨sub, items, rfl, rfl, hh⟩, nofun⟩
    | refused sub item =>
      rw [mem_singleton.1 hg]
      refine ⟨fun hh => .inl ?_, nofun⟩
      cases item with
      | none => exact hh
      | some => exact mem_cons_of_mem _ hh
    | item =>
      rw [mem_singleton.1 hg]
      exact ⟨.inl, nofun⟩
    | single =>
      rcases mem_cons.1 hg with rfl | hg
      · exact ⟨nofun, nofun⟩
      · rw [mem_singleton.1 hg]
        exact ⟨.inl, nofun⟩
    | bindItem =>
      rcases mem_cons.1 hg with rfl | hg
      · exact ⟨nofun, nofun⟩
      · rw [mem_singleton.1 hg]
        exact ⟨fun hh => .inl (mem_cons_of_mem _ hh), nofun⟩
    | declineItem =>
      rw [mem_singleton.1 hg]
      exact ⟨fun hh => .inl (mem_cons_of_mem _ hh), nofun⟩
    | closing => exact absurd hg (by simp)
    | finishBeat | ending =>
      rcases mem_cons.1 hg with rfl | hg
      · exact ⟨nofun, nofun⟩
      · rw [mem_singleton.1 hg]
        exact ⟨nofun, nofun⟩
    | _ =>
      rw [mem_singleton.1 hg]
      exact ⟨nofun, nofun⟩

theorem FrameStep.effect_commit {sub rest}
    (hs : FrameStep sh (.commit sub h rest) (.accept true) gs e) : e = .bind h := by
  cases hs with
  | orphan hs | heartbeat hs => cases hs
  | subscribe hs => cases hs <;> rfl

end Hands

section Owned

variable {h : Handle}

theorem Effect.of_mem_active_run (hm : h ∈ (e.run sh).activeNotifications) :
    h ∈ sh.activeNotifications ∨ e = .bind h := by
  cases e with
  | bind =>
    rcases Finset.mem_insert.1 hm with rfl | hm
    · exact .inr rfl
    · exact .inl hm
  | close t =>
    have hm : h ∈ (sh.close t).activeNotifications := hm
    unfold Shared.close at hm
    dsimp only at hm
    split at hm <;> exact .inl hm
  | sweep => exact absurd hm (Finset.notMem_empty h)
  | delete => exact .inl (Finset.mem_of_mem_erase hm)
  | _ => exact .inl hm

theorem Effect.mem_active_run (hm : h ∈ sh.activeNotifications) :
    h ∈ (e.run sh).activeNotifications ∨ e = .sweep ∨ e = .delete h := by
  cases e with
  | bind => exact .inl (Finset.mem_insert_of_mem hm)
  | close t =>
    left
    show h ∈ (sh.close t).activeNotifications
    unfold Shared.close
    dsimp only
    split <;> exact hm
  | sweep => exact .inr (.inl rfl)
  | delete x =>
    by_cases hx : h = x
    · exact .inr (.inr (by rw [hx]))
    · exact .inl (Finset.mem_erase_of_ne_of_mem hx hm)
  | _ => exact .inl hm

theorem Effect.heartbeatHandle_run (sh : Shared) (e : Effect) :
    (e.run sh).heartbeatHandle = sh.heartbeatHandle ∨ (e.run sh).heartbeatHandle = 0 ∨
      e = .beat (e.run sh).heartbeatHandle := by
  cases e with
  | beat => exact .inr (.inr rfl)
  | close t =>
    left
    show (sh.close t).heartbeatHandle = _
    unfold Shared.close
    dsimp only
    split <;> rfl
  | sweep => exact .inr (.inl rfl)
  | _ => exact .inl rfl

end Owned

/-- What an idle goroutine can start. -/
inductive Started (sh : Shared) : Act → Frame → Prop
  | sample (handle : Handle) (timestamp : Nat) (content : List UInt8) :
      Started sh (.sample handle timestamp content)
        (.beat ⟨handle, timestamp, content, sh.arrivals⟩ true)
  | subscribe (batch : Bool) : Started sh (.subscribe batch) (.begin batch)
  | heartbeat : Started sh .heartbeat .beatCheck
  | reap (handle : Handle) (h : handle ∈ sh.scheduled) : Started sh (.reap handle) (.reapCheck handle)

theorem Started.plain (h : Started sh a f) : f.Plain := by
  cases h <;> exact ⟨rfl, rfl, rfl⟩

/-- Where a function that a goroutine is in after the step comes from: the goroutine was in it, its
    innermost function left it, or the idle goroutine has just started it. -/
theorem PlanStep.mem {stack'}
    (h : PlanStep sh p stack a stack' e) {g} (hg : g ∈ stack') :
    g ∈ stack ∨ (∃ f rest gs, stack = f :: rest ∧ FrameStep sh f a gs e ∧ g ∈ gs) ∨
      (stack = [] ∧ Started sh a g) := by
  cases h with
  | @frame f a gs e rest h =>
    rcases mem_append.1 hg with hg | hg
    · exact .inr (.inl ⟨f, rest, gs, rfl, h, hg⟩)
    · exact .inl (mem_cons_of_mem _ hg)
  | sample =>
    rw [mem_singleton.1 hg]
    exact .inr (.inr ⟨rfl, .sample ..⟩)
  | subscribe =>
    rw [mem_singleton.1 hg]
    exact .inr (.inr ⟨rfl, .subscribe _⟩)
  | heartbeat =>
    rw [mem_singleton.1 hg]
    exact .inr (.inr ⟨rfl, .heartbeat⟩)
  | reap handle hm =>
    rw [mem_singleton.1 hg]
    exact .inr (.inr ⟨rfl, .reap handle hm⟩)
  | _ => exact absurd hg (by simp)

/-- The same of any goroutine: those that do not move are in what they were in. -/
theorem PlanStep.mem_loc {c : State} {q : Party} (h : PlanStep c.shared p (c.loc p) a stack e) {g : Frame}
    (hg : g ∈ (Conf.mk (e.run c.shared) (Function.update c.loc p stack)).loc q) :
    g ∈ c.loc q ∨ (∃ f ∈ c.loc p, ∃ gs, FrameStep c.shared f a gs e ∧ g ∈ gs ∧
      ∃ rest, c.loc p = f :: rest) ∨ (c.loc p = [] ∧ Started c.shared a g) := by
  by_cases hq : q = p
  · subst hq
    rw [loc_self] at hg
    rcases h.mem hg with hold | ⟨f, rest, gs, hloc, hs, hg⟩ | hstart
    · exact .inl hold
    · refine .inr (.inl ⟨f, ?_, gs, hs, hg, rest, hloc⟩)
      rw [hloc]
      exact mem_cons_self ..
    · exact .inr (.inr hstart)
  · rw [loc_of_ne hq] at hg
    exact .inl hg

/-- The effects that only a function has, not the start of one. -/
def Effect.inner : Effect → Bool
  | .bind _ | .open _ | .touch _ | .stamp _ | .close _ | .park _ | .take _ | .beat _ => true
  | _ => false

theorem PlanStep.of_inner {stack'} (h : PlanStep sh p stack a stack' e) (he : e.inner = true) :
    ∃ f rest gs, stack = f :: rest ∧ FrameStep sh f a gs e ∧ stack' = gs ++ rest := by
  cases h with
  | frame rest h => exact ⟨_, rest, _, rfl, h, rfl⟩
  | _ => cases he

theorem PlanStep.of_cons {rest} (h : PlanStep sh p (f :: rest) a stack e) :
    ∃ gs, FrameStep sh f a gs e ∧ stack = gs ++ rest := by
  cases h with
  | frame rest h => exact ⟨_, h, rfl⟩

end GoAds.Dispatch
