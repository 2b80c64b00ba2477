import Mathlib.Data.Finmap

/-!
# `Lib.FirstWins` — filing the nodes of a forest, first come first served

A node has a key and children.  To file a forest is to visit its nodes from the roots downwards and to
file each under its key, unless the key is taken: then the node is left out, and so is everything below
it.  The order among siblings is not fixed, so `Fill` is a relation.

* `Exposed m ns n` — some chain from a root of the forest `ns` leads to `n` through keys that `m` does not
  have.  These are the nodes that *can* be filed (`exists_fill_filing`), and no others are
  (`Fill.origin`).
* `lookup_of_exposed` — if exposed nodes of one key are one node, every one of them *is* filed, whatever
  the order.
-/

namespace FirstWins

open List Finmap

/-- A finite map from keys to nodes. -/
abbrev Files (K N : Type*) := Finmap fun _ : K => N

variable {K N : Type*} [DecidableEq K] (key : N → K) (kids : N → List N)

/-- **Filing a forest.** -/
inductive Fill : List N → Files K N → Files K N → Prop
  | nil (m : Files K N) : Fill [] m m
  | taken {n : N} {ns : List N} {m m' : Files K N} (h : key n ∈ m) (rest : Fill ns m m') :
      Fill (n :: ns) m m'
  | file {n : N} {ns order : List N} {m m₁ m₂ : Files K N} (h : key n ∉ m)
      (ho : order.Perm (kids n)) (below : Fill order (m.insert (key n) n) m₁) (rest : Fill ns m₁ m₂) :
      Fill (n :: ns) m m₂

/-- A node that a chain of nodes with free keys leads to. -/
inductive Exposed (m : Files K N) : List N → N → Prop
  | here {ns : List N} {n : N} (hn : n ∈ ns) (h : key n ∉ m) : Exposed m ns n
  | under {ns : List N} {p n : N} (hp : p ∈ ns) (h : key p ∉ m) (hn : Exposed m (kids p) n) :
      Exposed m ns n

variable {key kids} {m m' m'' : Files K N} {ns ns' : List N} {n x : N} {k : K}

namespace Exposed

omit [DecidableEq K]

theorem notMem (h : Exposed key kids m ns n) : key n ∉ m := by
  induction h with
  | here _ h => exact h
  | under _ _ _ ih => exact ih

theorem mono (h : Exposed key kids m ns n) (hns : ns ⊆ ns') : Exposed key kids m ns' n := by
  cases h with
  | here hn h => exact .here (hns hn) h
  | under hp h hn => exact .under (hns hp) h hn

/-- Fewer keys taken, more nodes exposed. -/
theorem anti (h : Exposed key kids m' ns n) (hm : ∀ k, k ∈ m → k ∈ m') : Exposed key kids m ns n := by
  induction h with
  | here hn h => exact .here hn fun hk => h (hm _ hk)
  | under hp h _ ih => exact .under hp (fun hk => h (hm _ hk)) ih

theorem trans (h : Exposed key kids m ns n) (hx : Exposed key kids m (kids n) x) :
    Exposed key kids m ns x := by
  induction h with
  | here hn h => exact .under hn h hx
  | under hp h _ ih => exact .under hp h (ih hx)

/-- What holds of the roots and passes to the children holds of an exposed node. -/
theorem hereditary {G : N → Prop} (h : Exposed key kids m ns n) (hG : ∀ p, G p → ∀ c ∈ kids p, G c)
    (hns : ∀ p ∈ ns, G p) : G n := by
  induction h with
  | here hn _ => exact hns _ hn
  | under hp _ _ ih => exact ih (hG _ (hns _ hp))

end Exposed

namespace Fill

theorem keeps (h : Fill key kids ns m m') (hk : m.lookup k = some x) : m'.lookup k = some x := by
  induction h with
  | nil => exact hk
  | taken _ _ ih => exact ih hk
  | @file n ns order m m₁ m₂ hn _ _ _ ih₁ ih₂ =>
    apply ih₂
    apply ih₁
    have hne : k ≠ key n := by
      rintro rfl
      exact hn (mem_of_lookup_eq_some hk)
    rw [lookup_insert_of_ne _ hne]
    exact hk

theorem mem_of_mem (h : Fill key kids ns m m') (hk : k ∈ m) : k ∈ m' := by
  obtain ⟨x, hx⟩ := mem_iff.1 hk
  exact mem_of_lookup_eq_some (h.keeps hx)

/-- The roots of the forest have their keys taken, by themselves or by others. -/
theorem covers (h : Fill key kids ns m m') : ∀ n ∈ ns, key n ∈ m' := by
  induction h with
  | nil => intro n hn; cases hn
  | taken hk rest ih =>
    intro n hn
    rcases mem_cons.1 hn with rfl | hn
    · exact rest.mem_of_mem hk
    · exact ih n hn
  | file _ _ below rest _ ih =>
    intro n hn
    rcases mem_cons.1 hn with rfl | hn
    · exact rest.mem_of_mem (below.mem_of_mem (mem_insert.2 (.inl rfl)))
    · exact ih n hn

/-- A new entry is an exposed node, under its own key, and the keys of its children are taken. -/
theorem origin (h : Fill key kids ns m m') (hx : m'.lookup k = some x) : m.lookup k = some x ∨
      k ∉ m ∧ key x = k ∧ Exposed key kids m ns x ∧ ∀ y ∈ kids x, key y ∈ m' := by
  induction h with
  | nil => exact .inl hx
  | taken _ _ ih =>
    rcases ih hx with hx | ⟨hk, hkx, hexp, hkids⟩
    · exact .inl hx
    · exact .inr ⟨hk, hkx, hexp.mono (subset_cons_self _ _), hkids⟩
  | @file n ns order m m₁ m₂ hn ho below rest ih₁ ih₂ =>
    have hsub : ∀ k, k ∈ m → k ∈ m.insert (key n) n := fun k hk => mem_insert.2 (.inr hk)
    rcases ih₂ hx with hx | ⟨hk, hkx, hexp, hkids⟩
    · rcases ih₁ hx with hx | ⟨hk, hkx, hexp, hkids⟩
      · by_cases hkn : k = key n
        · subst hkn
          rw [lookup_insert] at hx
          obtain rfl : n = x := Option.some.inj hx
          refine .inr ⟨hn, rfl, .here (mem_cons_self ..) hn, fun y hy => ?_⟩
          exact rest.mem_of_mem (below.covers y (ho.mem_iff.2 hy))
        · rw [lookup_insert_of_ne _ hkn] at hx
          exact .inl hx
      -- below `n`
      refine .inr ⟨fun hm => hk (hsub k hm), hkx, ?_, fun y hy => rest.mem_of_mem (hkids y hy)⟩
      exact .under (mem_cons_self ..) hn ((hexp.anti hsub).mono ho.subset)
    · have hm : ∀ k, k ∈ m → k ∈ m₁ := fun k hk => below.mem_of_mem (hsub k hk)
      exact .inr ⟨fun hm' => hk (hm k hm'), hkx, (hexp.anti hm).mono (subset_cons_self _ _), hkids⟩

end Fill

/-- **Whatever the order.**  Let `m'` have the keys of `m` and new entries, each of which is one of `E`
    under its own key and has its children's keys taken.  If no two of `E` have one key, then every
    exposed node of a forest whose roots' keys are taken is filed. -/
theorem lookup_of_exposed (E : N → Prop) (hE : ∀ n n', E n → E n' → key n = key n' → n = n')
    (hnew : ∀ k x, m'.lookup k = some x → k ∉ m → E x ∧ key x = k)
    (hkids : ∀ k x, m'.lookup k = some x → k ∉ m → ∀ y ∈ kids x, key y ∈ m')
    (hns : ∀ n ∈ ns, key n ∈ m') (hexp : ∀ n, Exposed key kids m ns n → E n)
    (h : Exposed key kids m ns n) : m'.lookup (key n) = some n := by
  -- a node of `E` whose key is taken, and was not in `m`, is what is filed there
  have hfiled : ∀ n, E n → key n ∉ m → key n ∈ m' → m'.lookup (key n) = some n := by
    intro n hn hk hm
    obtain ⟨x, hx⟩ := mem_iff.1 hm
    obtain ⟨hxE, hkx⟩ := hnew _ x hx hk
    rw [hx, hE x n hxE hn hkx]
  induction h with
  | @here ns n hn h => exact hfiled n (hexp n (.here hn h)) h (hns n hn)
  | @under ns p n hp h _ ih =>
    have hp' := hfiled p (hexp p (.here hp h)) h (hns p hp)
    exact ih (hkids _ p hp' h) fun y hy => hexp y (.under hp h hy)

/-- A key below those of a forest, where keys grow from a node to its children, is not in the way. -/
theorem Exposed.insert (rank : K → Nat) (G : N → Prop)
    (hG : ∀ p, G p → ∀ n ∈ kids p, G n ∧ rank (key p) < rank (key n))
    (h : Exposed key kids m ns n) (hns : ∀ y ∈ ns, G y ∧ rank k < rank (key y)) :
    Exposed key kids (m.insert k x) ns n := by
  have hfree : ∀ y : N, rank k < rank (key y) → key y ∉ m → key y ∉ m.insert k x := by
    intro y hlt hy hmem
    rcases mem_insert.1 hmem with heq | hmem
    · rw [heq] at hlt
      exact Nat.lt_irrefl _ hlt
    · exact hy hmem
  induction h with
  | @here ns n hn h => exact .here hn (hfree n (hns n hn).2 h)
  | @under ns p n hp h _ ih =>
    have hp' := hns p hp
    refine .under hp (hfree p hp'.2 h) (ih fun y hy => ?_)
    have hy' := hG p hp'.1 y hy
    exact ⟨hy'.1, Nat.lt_trans hp'.2 hy'.2⟩

/-! ## Which runs there are -/

theorem exists_fill (height : N → Nat) (hh : ∀ p, ∀ n ∈ kids p, height n < height p) (ns : List N)
    (m : Files K N) : ∃ m', Fill key kids ns m m' := by
  -- by induction on a bound of the height, and on the list
  suffices H : ∀ b ns, (∀ n ∈ ns, height n < b) → ∀ m : Files K N, ∃ m', Fill key kids ns m m' by
    obtain ⟨b, hb⟩ : ∃ b, ∀ n ∈ ns, height n < b := by
      induction ns with
      | nil => exact ⟨0, fun n hn => (not_mem_nil hn).elim⟩
      | cons n ns ih =>
        obtain ⟨b, hb⟩ := ih
        refine ⟨max (height n + 1) b, fun x hx => ?_⟩
        rcases mem_cons.1 hx with rfl | hx
        · exact Nat.lt_of_lt_of_le (Nat.lt_succ_self _) (Nat.le_max_left _ _)
        · exact Nat.lt_of_lt_of_le (hb x hx) (Nat.le_max_right _ _)
    exact H b ns hb m
  intro b
  induction b with
  | zero =>
    intro ns hns m
    cases ns with
    | nil => exact ⟨m, .nil m⟩
    | cons n => exact absurd (hns n (mem_cons_self ..)) (Nat.not_lt_zero _)
  | succ b ihb =>
    intro ns
    induction ns with
    | nil => exact fun _ m => ⟨m, .nil m⟩
    | cons n ns ih =>
      intro hns m
      have hrest := ih fun x hx => hns x (mem_cons_of_mem _ hx)
      by_cases hk : key n ∈ m
      · obtain ⟨m', h⟩ := hrest m
        exact ⟨m', .taken hk h⟩
      have hlt : ∀ y ∈ kids n, height y < b := fun y hy =>
        Nat.lt_of_lt_of_le (hh n y hy) (Nat.lt_succ_iff.1 (hns n (mem_cons_self ..)))
      obtain ⟨m₁, h₁⟩ := ihb (kids n) hlt (m.insert (key n) n)
      obtain ⟨m₂, h₂⟩ := hrest m₁
      exact ⟨m₂, .file hk (Perm.refl _) h₁ h₂⟩

/-- **Every exposed node is filed in some order**, in a forest where keys grow from a node to its
    children. -/
theorem exists_fill_filing (height : N → Nat) (hh : ∀ p, ∀ n ∈ kids p, height n < height p)
    (rank : K → Nat) (G : N → Prop) (hG : ∀ p, G p → ∀ n ∈ kids p, G n ∧ rank (key p) < rank (key n))
    (hns : ∀ n ∈ ns, G n) (h : Exposed key kids m ns n) :
    ∃ order m', order.Perm ns ∧ Fill key kids order m m' ∧ m'.lookup (key n) = some n := by
  -- the keys filed on the way down are those of the chain, and are smaller than all below
  suffices H : ∀ m₁ : Files K N, (∀ k ∈ m₁, k ∈ m ∨ ∀ y ∈ ns, rank k < rank (key y)) →
      ∃ order m', order.Perm ns ∧ Fill key kids order m₁ m' ∧ m'.lookup (key n) = some n by
    exact H m fun k hk => .inl hk
  induction h with
  | @here ns n hn h =>
    intro m₁ hm₁
    have hk : key n ∉ m₁ := fun hk => (hm₁ _ hk).elim h fun hlt => Nat.lt_irrefl _ (hlt n hn)
    obtain ⟨as, bs, rfl⟩ := append_of_mem hn
    obtain ⟨m₂, h₂⟩ := exists_fill height hh (kids n) (m₁.insert (key n) n)
    obtain ⟨m₃, h₃⟩ := exists_fill height hh (as ++ bs) m₂
    refine ⟨n :: (as ++ bs), m₃, perm_middle.symm, .file hk (Perm.refl _) h₂ h₃, ?_⟩
    exact h₃.keeps (h₂.keeps (lookup_insert _))
  | @under ns p n hp h _ ih =>
    intro m₁ hm₁
    have hk : key p ∉ m₁ := fun hk => (hm₁ _ hk).elim h fun hlt => Nat.lt_irrefl _ (hlt p hp)
    have hr := hG p (hns p hp)
    obtain ⟨order, m₂, ho, h₂, hl⟩ := ih (fun y hy => (hr y hy).1) (m₁.insert (key p) p) fun k hk => by
      rcases mem_insert.1 hk with rfl | hk
      · exact .inr fun y hy => (hr y hy).2
      rcases hm₁ k hk with hk | hlt
      · exact .inl hk
      · exact .inr fun y hy => Nat.lt_trans (hlt p hp) (hr y hy).2
    obtain ⟨as, bs, rfl⟩ := append_of_mem hp
    obtain ⟨m₃, h₃⟩ := exists_fill height hh (as ++ bs) m₂
    exact ⟨p :: (as ++ bs), m₃, perm_middle.symm, .file hk ho h₂ h₃, h₃.keeps hl⟩

end FirstWins
