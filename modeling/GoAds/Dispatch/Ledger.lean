import GoAds.Dispatch.Buffer

/-!
# `Dispatch.Ledger` — what has become of every sample

A history variable that follows the samples from their arrival, and the handles they are of: which the
PLC gave to whom, which were committed by which subscribe, which have left the map again.
-/

namespace GoAds.Dispatch

open Interleaving List
open Notification (Handle)

/-- What has happened to the samples, and to the handles they are of. -/
structure Ledger where
  /-- The samples that arrived, each with the subscribes that were open then. -/
  arrived : List (Sample × List Nat)
  /-- Passed to the delivery part of `dispatchSample`. -/
  delivered : List Sample
  /-- Parked, and replaced by the second sample. -/
  superseded : List (Sample × Sample)
  /-- Not parked: a cap of the buffer is reached. -/
  refused : List Sample
  /-- The handles committed, each by the subscribe with this token. -/
  committed : List (Handle × Nat)
  /-- The handles that were in the map and have been taken out of it. -/
  removed : Finset Handle
  /-- The handles the PLC gave to subscribes, and those it gave to the heartbeat. -/
  subscribed : List Handle
  beats : List Handle

def Ledger.empty : Ledger :=
  { arrived := [], delivered := [], superseded := [], refused := [], committed := [], removed := ∅
    subscribed := [], beats := [] }

/-- What a step of a function adds to the ledger. -/
def Ledger.note (l : Ledger) (sh : Shared) : Frame → Act → Ledger
  | .lookup s _, _ =>
    if s.handle ∈ sh.activeNotifications then { l with delivered := s :: l.delivered } else l
  | .park s, _ =>
    if sh.full s then { l with refused := s :: l.refused }
    else
      match parked sh.earlySamples s.handle with
      | some old => { l with superseded := (old, s) :: l.superseded }
      | none => l
  | .commit sub handle _, .accept true => { l with committed := (handle, sub.token) :: l.committed }
  | .add _, .create items => { l with subscribed := items.reduceOption ++ l.subscribed }
  | .beatAdd, .create items => { l with beats := items.reduceOption ++ l.beats }
  | _, _ => l

def Ledger.watch (l : Ledger) (c : State) (x : Party × Act) : Ledger :=
  match c.loc x.1, x.2 with
  | f :: _, a => l.note c.shared f a
  | [], .sample handle timestamp content =>
    { l with
      arrived := (⟨handle, timestamp, content, c.shared.arrivals⟩, c.shared.tokens) :: l.arrived }
  | [], .sweep => { l with removed := l.removed ∪ c.shared.activeNotifications }
  | [], .delete handle =>
    if handle ∈ c.shared.activeNotifications then { l with removed := insert handle l.removed } else l
  | [], _ => l

/-- The session with its ledger. -/
abbrev followed : State × Ledger → Party × Act → Option (State × Ledger) := observe step Ledger.watch

/-- The PLC gives out handles that it has not given out before. -/
def IssuesFresh (l : Ledger) (x : Party × Act) : Prop :=
  match x.2 with
  | .create items => ∀ h ∈ items.reduceOption, h ∉ l.subscribed ∧ h ∉ l.beats
  | _ => True

instance (l : Ledger) (x : Party × Act) : Decidable (IssuesFresh l x) := by
  unfold IssuesFresh
  split <;> infer_instance

/-! ## The ledger only grows -/

/-- Every entry of `l` is in `l'`. -/
structure Ledger.Le (l l' : Ledger) : Prop where
  arrived : l.arrived ⊆ l'.arrived
  delivered : l.delivered ⊆ l'.delivered
  superseded : l.superseded ⊆ l'.superseded
  refused : l.refused ⊆ l'.refused
  committed : l.committed ⊆ l'.committed
  removed : l.removed ⊆ l'.removed
  subscribed : l.subscribed ⊆ l'.subscribed
  beats : l.beats ⊆ l'.beats

/-- What a step of a function can add: at most one thing. -/
inductive Ledger.Noted (l : Ledger) (sh : Shared) : Frame → Act → Ledger → Prop
  | same (f : Frame) (a : Act) : Noted l sh f a l
  | delivered (f : Frame) (a : Act) (s : Sample) :
      Noted l sh f a { l with delivered := s :: l.delivered }
  | refused (f : Frame) (a : Act) (s : Sample) : Noted l sh f a { l with refused := s :: l.refused }
  | superseded (a : Act) (s old : Sample) (h : parked sh.earlySamples s.handle = some old) :
      Noted l sh (.park s) a { l with superseded := (old, s) :: l.superseded }
  | committed (sub : Sub) (handle : Handle) (rest : List (Option Handle)) :
      Noted l sh (.commit sub handle rest) (.accept true)
        { l with committed := (handle, sub.token) :: l.committed }
  | subscribed (sub : Sub) (items : List (Option Handle)) :
      Noted l sh (.add sub) (.create items)
        { l with subscribed := items.reduceOption ++ l.subscribed }
  | beats (items : List (Option Handle)) :
      Noted l sh .beatAdd (.create items) { l with beats := items.reduceOption ++ l.beats }

namespace Ledger

variable {l l' : Ledger} {sh : Shared} {f : Frame} {a : Act}

theorem noted (l : Ledger) (sh : Shared) (f : Frame) (a : Act) : l.Noted sh f a (l.note sh f a) := by
  unfold note
  split
  · split
    · exact .delivered ..
    · exact .same ..
  · split
    · exact .refused ..
    split
    · next old hold => exact .superseded _ _ old hold
    · exact .same ..
  · exact .committed ..
  · exact .subscribed ..
  · exact .beats ..
  · exact .same ..

theorem Le.refl (l : Ledger) : l.Le l :=
  ⟨fun _ h => h, fun _ h => h, fun _ h => h, fun _ h => h, fun _ h => h, fun _ h => h, fun _ h => h,
    fun _ h => h⟩

theorem Noted.le (h : l.Noted sh f a l') : l.Le l' := by
  cases h with
  | same => exact .refl l
  | delivered => exact { Le.refl l with delivered := subset_cons_self .. }
  | refused => exact { Le.refl l with refused := subset_cons_self .. }
  | superseded => exact { Le.refl l with superseded := subset_cons_self .. }
  | committed => exact { Le.refl l with committed := subset_cons_self .. }
  | subscribed => exact { Le.refl l with subscribed := subset_append_right .. }
  | beats => exact { Le.refl l with beats := subset_append_right .. }

theorem le_watch (l : Ledger) (c : State) (x : Party × Act) : l.Le (l.watch c x) := by
  unfold watch
  split
  · exact (noted ..).le
  · exact { Le.refl l with arrived := subset_cons_self .. }
  · exact { Le.refl l with removed := Finset.subset_union_left }
  · split
    · exact { Le.refl l with removed := Finset.subset_insert .. }
    · exact .refl l
  · exact .refl l

variable {x : Handle}

section

variable (h : l.Noted sh f a l')

include h

/-- A registration is on record because it was, or because the PLC has just created it for this
    function. -/
theorem Noted.of_mem_subscribed (hm : x ∈ l'.subscribed) :
    x ∈ l.subscribed ∨ ∃ items, a = .create items ∧ x ∈ items.reduceOption ∧ l'.beats = l.beats := by
  cases h with
  | subscribed sub items =>
    exact (mem_append.1 hm).symm.imp_right fun hx => ⟨items, rfl, hx, rfl⟩
  | _ => exact .inl hm

theorem Noted.of_mem_beats (hm : x ∈ l'.beats) :
    x ∈ l.beats ∨ ∃ items, a = .create items ∧ x ∈ items.reduceOption ∧ l'.subscribed = l.subscribed := by
  cases h with
  | beats items => exact (mem_append.1 hm).symm.imp_right fun hx => ⟨items, rfl, hx, rfl⟩
  | _ => exact .inl hm

theorem Noted.of_mem_committed {y} (hm : y ∈ l'.committed) :
    y ∈ l.committed ∨ ∃ sub rest, f = .commit sub y.1 rest ∧ a = .accept true ∧ y.2 = sub.token := by
  cases h with
  | committed sub handle rest =>
    rcases mem_cons.1 hm with rfl | hm
    · exact .inr ⟨sub, rest, rfl, rfl, rfl⟩
    · exact .inl hm
  | _ => exact .inl hm

theorem Noted.of_mem_superseded {y} (hm : y ∈ l'.superseded) :
    y ∈ l.superseded ∨ (f = .park y.2 ∧ parked sh.earlySamples y.2.handle = some y.1) := by
  cases h with
  | superseded a s old hold =>
    rcases mem_cons.1 hm with rfl | hm
    · exact .inr ⟨rfl, hold⟩
    · exact .inl hm
  | _ => exact .inl hm

theorem Noted.eq : l'.arrived = l.arrived ∧ l'.removed = l.removed := by
  cases h <;> exact ⟨rfl, rfl⟩

end

end Ledger

theorem Ledger.watch_cons {l : Ledger} {c : State} {p : Party} {a : Act} {f : Frame}
    {rest : List Frame} (h : c.loc p = f :: rest) : l.watch c (p, a) = l.note c.shared f a := by
  unfold Ledger.watch
  rw [h]

/-! ## The handles -/

/-- A handle is bound, or was until the application or a sweep took it out of the map. -/
def Owned (x : State × Ledger) (h : Handle) : Prop :=
  h ∈ x.1.shared.activeNotifications ∨ h ∈ x.2.removed

/-- The handles the PLC has given out, by whom they are held. -/
structure IssuedInv (x : State × Ledger) : Prop where
  apart : ∀ h ∈ x.2.subscribed, h ∉ x.2.beats
  active : ∀ h ∈ x.1.shared.activeNotifications, h ∈ x.2.subscribed
  hands : ∀ p, ∀ f ∈ x.1.loc p, ∀ h ∈ f.hands, h ∈ x.2.subscribed
  beatHands : ∀ p, ∀ f ∈ x.1.loc p, ∀ h ∈ f.beatHands, h ∈ x.2.beats
  heartbeat : x.1.shared.heartbeatHandle = 0 ∨ x.1.shared.heartbeatHandle ∈ x.2.beats
  committed : ∀ y ∈ x.2.committed, y.1 ∈ x.2.subscribed ∧ Owned x y.1

section Step

variable {c : State} {l : Ledger} {p : Party} {a : Act} {stack : List Frame} {e : Effect}

variable {h : Handle} {before : List Frame} {sh : Shared}

theorem PlanStep.sweep_eq (hp : PlanStep sh p before a stack .sweep) : before = [] ∧ a = .sweep := by
  cases hp with
  | frame rest hf => rcases hf with hf | hf | hf | hf <;> cases hf
  | sweep => exact ⟨rfl, rfl⟩

theorem PlanStep.delete_eq (hp : PlanStep sh p before a stack (.delete h)) : before = [] ∧ a = .delete h := by
  cases hp with
  | frame rest hf => rcases hf with hf | hf | hf | hf <;> cases hf
  | delete => exact ⟨rfl, rfl⟩

theorem owned_step (hp : PlanStep c.shared p (c.loc p) a stack e) (ho : Owned (c, l) h) :
    Owned (⟨e.run c.shared, Function.update c.loc p stack⟩, l.watch c (p, a)) h := by
  rcases ho with ha | hr
  · rcases Effect.mem_active_run (e := e) ha with hm | rfl | rfl
    · exact .inl hm
    · right
      obtain ⟨hnil, rfl⟩ := hp.sweep_eq
      show h ∈ (l.watch c (p, .sweep)).removed
      unfold Ledger.watch
      rw [hnil]
      exact Finset.mem_union_right _ ha
    right
    obtain ⟨hnil, rfl⟩ := hp.delete_eq
    show h ∈ (l.watch c (p, .delete h)).removed
    unfold Ledger.watch
    rw [hnil]
    dsimp only
    rw [if_pos ha]
    exact Finset.mem_insert_self ..
  · exact .inr ((l.le_watch c (p, a)).removed hr)

theorem watch_nil (hloc : c.loc p = []) :
    (l.watch c (p, a)).subscribed = l.subscribed ∧ (l.watch c (p, a)).beats = l.beats ∧
      (l.watch c (p, a)).committed = l.committed ∧ (l.watch c (p, a)).superseded = l.superseded := by
  unfold Ledger.watch
  rw [hloc]
  dsimp only
  split
  · next heq => cases heq
  · exact ⟨rfl, rfl, rfl, rfl⟩
  · exact ⟨rfl, rfl, rfl, rfl⟩
  · split <;> exact ⟨rfl, rfl, rfl, rfl⟩
  · exact ⟨rfl, rfl, rfl, rfl⟩

end Step

theorem issuedInv_init (now : Nat) : IssuedInv (initAt now, .empty) :=
  ⟨fun _ h => absurd h (by simp [Ledger.empty]), fun _ h => absurd h (by simp [initAt]),
    fun _ _ h => absurd h (by simp [initAt]), fun _ _ h => absurd h (by simp [initAt]), .inl rfl,
    fun _ h => absurd h (by simp [Ledger.empty])⟩

theorem issuedInv_step {x x' : State × Ledger} {a : Party × Act} (hi : IssuedInv x)
    (hfresh : IssuesFresh x.2 a) (hs : followed x a = some x') : IssuedInv x' := by
  obtain ⟨c, l⟩ := x
  obtain ⟨p, a⟩ := a
  obtain ⟨c', l'⟩ := x'
  obtain ⟨hstep, rfl⟩ := observe_eq_some.1 hs
  obtain ⟨stack, e, hp, rfl⟩ := step_cases hstep
  have hle := l.le_watch c (p, a)
  have hnew : ∀ {items : List (Option Handle)} {h : Handle}, a = .create items →
      h ∈ items.reduceOption → h ∉ l.subscribed ∧ h ∉ l.beats := by
    intro items h ha hh
    subst ha
    exact hfresh h hh
  -- what the goroutine was in, its innermost function moving by `hf`
  have hinner : ∀ {f : Frame} {rest : List Frame}, c.loc p = f :: rest →
      l.Noted c.shared f a (l.watch c (p, a)) := by
    intro f rest hloc
    rw [Ledger.watch_cons hloc]
    exact l.noted c.shared f a
  have htop : ∀ {f : Frame} {rest : List Frame}, c.loc p = f :: rest → f ∈ c.loc p := by
    intro f rest hloc
    rw [hloc]
    exact mem_cons_self ..
  refine ⟨fun h hm hb => ?_, fun h hm => ?_, fun q g hg h hh => ?_, fun q g hg h hh => ?_, ?_, fun y hy => ?_⟩
  · -- the PLC gives a handle to one of the two only
    cases hloc : c.loc p with
    | nil =>
      obtain ⟨hsub, hbeats, -, -⟩ := watch_nil (l := l) (a := a) hloc
      have hm : h ∈ (l.watch c (p, a)).subscribed := hm
      have hb : h ∈ (l.watch c (p, a)).beats := hb
      rw [hsub] at hm
      rw [hbeats] at hb
      exact hi.apart h hm hb
    | cons =>
      rcases (hinner hloc).of_mem_subscribed hm with hm | ⟨items, ha, hh, heq⟩
      · rcases (hinner hloc).of_mem_beats hb with hb | ⟨items, ha, hh, -⟩
        · exact hi.apart h hm hb
        · exact (hnew ha hh).1 hm
      · rw [heq] at hb
        exact (hnew ha hh).2 hb
  · rcases Effect.of_mem_active_run hm with hm | rfl
    · exact hle.subscribed (hi.active h hm)
    obtain ⟨f, rest, gs, hloc, hf, -⟩ := hp.of_inner rfl
    obtain ⟨sub, rest', rfl, -, -⟩ := hf.doneBy rfl
    exact hle.subscribed (hi.hands p _ (htop hloc) h (mem_cons_self ..))
  · rcases hp.mem_loc hg with hold | ⟨f, hf, gs, hs, hg, rest, hloc⟩ | ⟨-, hstart⟩
    · exact hle.subscribed (hi.hands q g hold h hh)
    · rcases (hs.inHand hg).1 hh with hh | ⟨sub, items, rfl, rfl, hh⟩
      · exact hle.subscribed (hi.hands p f hf h hh)
      show h ∈ (l.watch c (p, .create items)).subscribed
      rw [Ledger.watch_cons hloc]
      exact mem_append_left _ hh
    · rw [hstart.plain.2.1] at hh
      cases hh
  · rcases hp.mem_loc hg with hold | ⟨f, hf, gs, hs, hg, rest, hloc⟩ | ⟨-, hstart⟩
    · exact hle.beats (hi.beatHands q g hold h hh)
    · rcases (hs.inHand hg).2 hh with hh | ⟨rfl, rfl⟩
      · exact hle.beats (hi.beatHands p f hf h hh)
      show h ∈ (l.watch c (p, .create [some h])).beats
      rw [Ledger.watch_cons hloc]
      exact mem_cons_self ..
    · rw [hstart.plain.2.2] at hh
      cases hh
  · rcases Effect.heartbeatHandle_run c.shared e with heq | hz | he
    · show (e.run c.shared).heartbeatHandle = 0 ∨ (e.run c.shared).heartbeatHandle ∈ _
      rw [heq]
      exact hi.heartbeat.imp_right fun hb => hle.beats hb
    · exact .inl hz
    right
    obtain ⟨f, rest, gs, hloc, hf, -⟩ := hp.of_inner (by rw [he]; rfl)
    obtain rfl := hf.doneBy he
    exact hle.beats (hi.beatHands p _ (htop hloc) _ (mem_cons_self ..))
  · have hkept : y ∈ l.committed →
        y.1 ∈ (l.watch c (p, a)).subscribed ∧ Owned (_, l.watch c (p, a)) y.1 := fun hy =>
      ⟨hle.subscribed (hi.committed y hy).1, owned_step hp (hi.committed y hy).2⟩
    cases hloc : c.loc p with
    | nil =>
      have hy : y ∈ (l.watch c (p, a)).committed := hy
      rw [(watch_nil (l := l) (a := a) hloc).2.2.1] at hy
      exact hkept hy
    | cons f rest =>
      rcases (hinner hloc).of_mem_committed hy with hy | ⟨sub, rest', rfl, rfl, -⟩
      · exact hkept hy
      rw [hloc] at hp
      obtain ⟨gs, hf, -⟩ := hp.of_cons
      refine ⟨hle.subscribed (hi.hands p _ (htop hloc) _ (mem_cons_self ..)), .inl ?_⟩
      have he := hf.effect_commit
      subst he
      exact Finset.mem_insert_self ..

end GoAds.Dispatch
