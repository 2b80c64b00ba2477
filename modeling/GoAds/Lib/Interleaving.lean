import Mathlib.Logic.Function.Basic
import Mathlib.Tactic.Ring

/-!
# `Lib.Interleaving` — runs of a concurrent program

A concurrent program is a partial step function `f : σ → α → Option σ`.  The label `a : α` names the
party that moves, the critical section it performs and every answer its environment gives, so `f` is
a function; what can happen in a state is the choice of the label.  A run is any sequence of steps.

* `Run f ok` — the runs every step of which is taken in a state that meets `ok`; with `anyStep` they
  are all runs.  `Run.invariant` is the rule of invariants.
* `execAll` — the run a list of labels gives, computed.
* `observe` — the program with a history variable that watches its steps.
* `Conf` — a shared state with one local state per party.  A party's step changes the shared state
  and its own local state; `Conf.inv_of_exec` is the rule of Owicki and Gries for invariants of the form
  "`I` of the shared state, and `L` of each local state".
-/

namespace Interleaving

open Function
open Function (update)

variable {σ α : Type*}

/-! ## Runs -/

/-- **Guarded runs.**  `Run f ok s s'` — `s'` is reached from `s` by steps each of which was taken
    at a state and label satisfying `ok`. -/
inductive Run (f : σ → α → Option σ) (ok : σ → α → Prop) (s : σ) : σ → Prop
  | refl : Run f ok s s
  | snoc {t u : σ} (a : α) (init : Run f ok s t) (guard : ok t a) (last : f t a = some u) :
      Run f ok s u

/-- The guard that every step meets. -/
def anyStep (_ : σ) (_ : α) : Prop := True

variable {f : σ → α → Option σ} {ok ok' : σ → α → Prop}

namespace Run

variable {s t : σ}

/-- **The rule of invariants.**  What holds at the start and is kept by every permitted step holds
    at the end of every run. -/
theorem invariant {P : σ → Prop} (h : Run f ok s t) (h0 : P s)
    (hs : ∀ s a s', P s → ok s a → f s a = some s' → P s') : P t := by
  induction h with
  | refl => exact h0
  | snoc a _ guard last ih => exact hs _ a _ ih guard last

theorem weaken (h : Run f ok s t) (hw : ∀ s a, ok s a → ok' s a) : Run f ok' s t := by
  induction h with
  | refl => exact .refl
  | snoc a _ guard last ih => exact .snoc a ih (hw _ _ guard) last

theorem trans {u} (h : Run f ok s t) (h' : Run f ok t u) : Run f ok s u := by
  induction h' with
  | refl => exact h
  | snoc a _ guard last ih => exact .snoc a ih guard last

end Run

instance (s : σ) (a : α) : Decidable (anyStep s a) := .isTrue trivial

/-- The run of a list of labels, each step of which is checked against the guard. -/
def execAll (f : σ → α → Option σ) (ok : σ → α → Prop) [∀ s a, Decidable (ok s a)] : σ → List α → Option σ
  | s, [] => some s
  | s, a :: as => if ok s a then (f s a).bind fun t => execAll f ok t as else none

theorem run_of_execAll [∀ s a, Decidable (ok s a)] {s t as}
    (h : execAll f ok s as = some t) : Run f ok s t := by
  induction as generalizing s with
  | nil => exact Option.some.inj h ▸ .refl
  | cons a as ih =>
    simp only [execAll] at h
    split at h
    · next hok =>
      obtain ⟨u, hu, h⟩ := Option.bind_eq_some_iff.1 h
      exact (Run.snoc a .refl hok hu).trans (ih h)
    · exact absurd h (by simp)

/-- A list of labels that ends in a state with property `P` is a run to such a state. -/
theorem exists_run (f : σ → α → Option σ) (ok : σ → α → Prop) [∀ s a, Decidable (ok s a)] (s : σ)
    (P : σ → Prop) [DecidablePred P] (as : List α)
    (h : (execAll f ok s as).any (fun t => decide (P t)) = true) :
    ∃ t, Run f ok s t ∧ P t := by
  cases ht : execAll f ok s as with
  | none => simp [ht] at h
  | some t => exact ⟨t, run_of_execAll ht, by simpa [ht] using h⟩

/-- One that ends in a state without the property refutes that every run leads to it. -/
theorem not_forall_run [∀ s a, Decidable (ok s a)] {s} {P : σ → Prop} [DecidablePred P] (as : List α)
    (h : (execAll f ok s as).any (fun t => decide (¬ P t)) = true) : ¬ ∀ t, Run f ok s t → P t := by
  obtain ⟨t, ht, hP⟩ := exists_run f ok s _ as h
  exact fun hall => hP (hall t ht)

/-! ## History variables -/

/-- The program with a history variable: `upd` sees the state before the step and its label. -/
def observe {γ : Type*} (f : σ → α → Option σ) (upd : γ → σ → α → γ) (s : σ × γ) (a : α) : Option (σ × γ) :=
  (f s.1 a).map fun t => (t, upd s.2 s.1 a)

theorem observe_eq_some {γ : Type*} {upd : γ → σ → α → γ} {s t a} :
    observe f upd s a = some t ↔ f s.1 a = some t.1 ∧ t.2 = upd s.2 s.1 a := by
  cases t
  simp only [observe, Option.map_eq_some_iff, Prod.mk.injEq]
  exact ⟨fun ⟨_, h, e, e'⟩ => ⟨e ▸ h, e'.symm⟩, fun ⟨h, e⟩ => ⟨_, h, rfl, e.symm⟩⟩

/-- Without the history variable it is the same run. -/
theorem execAll_of_observe {γ : Type*} {upd : γ → σ → α → γ} {ok : σ × γ → α → Prop}
    [∀ s a, Decidable (ok s a)] {s t as}
    (h : execAll (observe f upd) ok s as = some t) : execAll f anyStep s.1 as = some t.1 := by
  induction as generalizing s with
  | nil => exact Option.some.inj h ▸ rfl
  | cons a as ih =>
    simp only [execAll] at h ⊢
    split at h
    · obtain ⟨u, hu, h⟩ := Option.bind_eq_some_iff.1 h
      rw [if_pos (show anyStep s.1 a from trivial), (observe_eq_some.1 hu).1]
      exact ih h
    · exact absurd h (by simp)

/-! ## Parties with local states -/

theorem update_eq_some {ι β : Type*} [DecidableEq ι] {m : ι → Option β} {i j : ι} {v : Option β} {b : β} :
    update m i v j = some b ↔ j = i ∧ v = some b ∨ j ≠ i ∧ m j = some b := by
  by_cases h : j = i
  · subst h
    simp
  · simp [h]

/-- A shared state, and the local state of every party. -/
structure Conf (ι σ lam : Type*) where
  shared : σ
  loc : ι → lam

namespace Conf

variable {ι lam : Type*} [DecidableEq ι] {act : ι → lam → σ → α → Option (lam × σ)}

/-- Party `a.1` performs `a.2`. -/
def exec (act : ι → lam → σ → α → Option (lam × σ)) (c : Conf ι σ lam) (a : ι × α) :
    Option (Conf ι σ lam) :=
  (act a.1 (c.loc a.1) c.shared a.2).map fun r => ⟨r.2, update c.loc a.1 r.1⟩

variable {c c' : Conf ι σ lam} {l' : lam} {t : ι} {l : ι → lam}

theorem exec_eq_some {a} : exec act c (t, a) = some c' ↔
      ∃ l' sh', act t (c.loc t) c.shared a = some (l', sh') ∧
        c' = ⟨sh', update c.loc t l'⟩ := by
  simp only [exec, Option.map_eq_some_iff, Prod.exists]
  exact ⟨fun ⟨l, sh, h, e⟩ => ⟨l, sh, h, e.symm⟩, fun ⟨l, sh, h, e⟩ => ⟨l, sh, h, e.symm⟩⟩

theorem loc_self {sh : σ} : (mk sh (update l t l')).loc t = l' :=
  update_self ..

theorem loc_of_ne {sh : σ} {u : ι} (h : u ≠ t) : (mk sh (update l t l')).loc u = l u :=
  update_of_ne h ..

/-- What the moving party meets, and every other one still does, all of them meet. -/
theorem forall_loc {P : ι → lam → Prop} (ht : P t l') (ho : ∀ u, u ≠ t → P u (l u)) (u : ι) :
    P u (update l t l' u) :=
  (forall_update_iff l P).2 ⟨ht, ho⟩ u

/-- A party with property `p` is still there after a step, unless it was the moving party and lost it. -/
theorem exists_loc_update (p : lam → Bool) {X : Prop}
    (h : ∃ u, p (l u) = true) (hm : p (l t) = true → p l' = true ∨ X) :
    (∃ u, p (update l t l' u) = true) ∨ X := by
  obtain ⟨u, hu⟩ := h
  by_cases hut : u = t
  · subst hut
    rcases hm hu with hl | hx
    · exact .inl ⟨u, by rwa [update_self]⟩
    · exact .inr hx
  · exact .inl ⟨u, by rwa [update_of_ne hut]⟩

/-- A party with property `p` is still there after a step of a party without it. -/
theorem exists_loc_other (p : lam → Bool) (l' : lam) (h : ∃ u, p (l u) = true) (hn : p (l t) = false) :
    ∃ u, p (update l t l' u) = true := by
  obtain ⟨u, hu⟩ := h
  have hut : u ≠ t := by
    rintro rfl
    exact absurd (hn.symm.trans hu) (by simp)
  exact ⟨u, by rwa [update_of_ne hut]⟩

theorem exists_loc_self (p : lam → Bool) (h : p l' = true) : ∃ u, p (update l t l' u) = true :=
  ⟨t, by rwa [update_self]⟩

/-- `I` of the shared state, and `L` of every local state. -/
structure Inv (I : σ → Prop) (L : σ → ι → lam → Prop) (c : Conf ι σ lam) : Prop where
  shared : I c.shared
  loc : ∀ t, L c.shared t (c.loc t)

/-- **One step.**  The moving party establishes its own assertion, and disturbs nobody else's. -/
theorem inv_of_exec {I : σ → Prop} {L : σ → ι → lam → Prop} {a} (hs : exec act c (t, a) = some c')
    (own : ∀ l' sh', act t (c.loc t) c.shared a = some (l', sh') → I sh' ∧ L sh' t l')
    (others : ∀ l' sh', act t (c.loc t) c.shared a = some (l', sh') →
      ∀ u, u ≠ t → L sh' u (c.loc u)) : c'.Inv I L := by
  obtain ⟨l', sh', ha, rfl⟩ := exec_eq_some.1 hs
  exact ⟨(own l' sh' ha).1, forall_loc (own l' sh' ha).2 (others l' sh' ha)⟩

theorem loc_of_execAll {ok : Conf ι σ lam → ι × α → Prop} [∀ c a, Decidable (ok c a)]
    {as} (h : execAll (exec act) ok c as = some c')
    (ht : ∀ a ∈ as, a.1 ≠ t) : c'.loc t = c.loc t := by
  induction as generalizing c with
  | nil => exact Option.some.inj h ▸ rfl
  | cons a as ih =>
    simp only [execAll] at h
    split at h
    · obtain ⟨u, hu, h⟩ := Option.bind_eq_some_iff.1 h
      obtain ⟨l', sh', -, rfl⟩ := exec_eq_some.1 hu
      have hne : t ≠ a.1 := fun heq => ht a (List.mem_cons_self ..) heq.symm
      rw [ih h fun b hb => ht b (List.mem_cons_of_mem a hb)]
      exact update_of_ne hne ..
    · exact absurd h (by simp)

/-- `exists_run` for parties: those that no label names have not moved. -/
theorem exists_run (act : ι → lam → σ → α → Option (lam × σ)) (ok : Conf ι σ lam → ι × α → Prop)
    [∀ c a, Decidable (ok c a)] (c : Conf ι σ lam) (P : Conf ι σ lam → Prop) [DecidablePred P]
    (as : List (ι × α)) (h : (execAll (exec act) ok c as).any (fun t => decide (P t)) = true) :
    ∃ c', Run (exec act) ok c c' ∧ P c' ∧
      ∀ t, (∀ a ∈ as, a.1 ≠ t) → c'.loc t = c.loc t := by
  cases hc : execAll (exec act) ok c as with
  | none => simp [hc] at h
  | some c' =>
    exact ⟨c', run_of_execAll hc, by simpa [hc] using h, fun t ht => loc_of_execAll hc ht⟩

theorem exists_run_observe {γ : Type*} (act : ι → lam → σ → α → Option (lam × σ))
    (upd : γ → Conf ι σ lam → ι × α → γ) (ok : Conf ι σ lam × γ → ι × α → Prop)
    [∀ x a, Decidable (ok x a)] (x : Conf ι σ lam × γ) (P : Conf ι σ lam × γ → Prop) [DecidablePred P]
    (as : List (ι × α)) (h : (execAll (observe (exec act) upd) ok x as).any (fun t => decide (P t)) = true) :
    ∃ x', Run (observe (exec act) upd) ok x x' ∧ P x' ∧
      ∀ t, (∀ a ∈ as, a.1 ≠ t) → x'.1.loc t = x.1.loc t := by
  cases hc : execAll (observe (exec act) upd) ok x as with
  | none => simp [hc] at h
  | some x' =>
    refine ⟨x', run_of_execAll hc, by simpa [hc] using h, fun t ht => ?_⟩
    exact loc_of_execAll (execAll_of_observe hc) ht

end Conf

end Interleaving
