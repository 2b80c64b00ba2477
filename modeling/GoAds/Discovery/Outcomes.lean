import GoAds.Discovery.Table

/-!
# `Discovery.Outcomes` — the maps that parsing and rebuilding can leave

For the two loops of `Discovery.Table`, whatever the orders of the ranges: where an entry comes from, which
entries stay, and that the children of an entry have their keys taken.  And for a member that nothing
stands in the way of, an order in which it gets its key.
-/

namespace GoAds.Discovery

open FirstWins List

variable {lower : Char → Char} {datatypes : DataTypes}

/-- A node of a forest that a chain of free keys leads to. -/
abbrev ExposedIn (lower : Char → Char) (m : SymbolMap) (ns : List Symbol) (n : Symbol) : Prop :=
  Exposed (Symbol.key lower) Symbol.kids m ns n

/-! ## Names grow -/

/-- The names of members are longer than those of their parents. -/
inductive Grown : Symbol → Prop
  | mk {s : Symbol} (longer : ∀ c ∈ s.kids, s.info.fullName.length < c.info.fullName.length)
      (below : ∀ c ∈ s.kids, Grown c) : Grown s

theorem length_key (s : Symbol) : (s.key lower).length = s.info.fullName.length :=
  length_map _

theorem length_memberPath {parent segment} (h : segment ≠ []) :
    parent.length < (memberPath parent segment).length := by
  have hpos := length_pos_iff.2 h
  unfold memberPath
  split
  · rw [length_append]
    omega
  · rw [length_append, length_cons]
    omega

/-- A member has a name, and its own members, if any, are those of its type, one level down. -/
theorem mem_addOffsetDepth {left parent data p}
    (hp : p ∈ addOffsetDepth datatypes (left + 1) parent data) :
    ∃ segment : Segment, segment.name ≠ [] ∧ p.2.info = member parent segment ∧
      (p.2.children = [] ∨ ∃ dt, datatypes p.2.info.dataType = some dt ∧
        p.2.children = addOffsetDepth datatypes left p.2.info dt) := by
  obtain ⟨segment, hseg, rfl⟩ := mem_map.1 hp
  refine ⟨segment, by simpa using (mem_filter.1 hseg).2, rfl, ?_⟩
  simp only [Symbol.children, Symbol.info]
  split
  · next dt hdt =>
    split
    · exact .inl rfl
    · exact .inr ⟨dt, hdt, rfl⟩
  · exact .inl rfl

theorem grown_addOffsetDepth (left : Nat) (parent : Info) (data : DataType) :
    ∀ p ∈ addOffsetDepth datatypes left parent data,
      parent.fullName.length < p.2.info.fullName.length ∧ Grown p.2 := by
  induction left generalizing parent data with
  | zero => intro p hp; cases hp
  | succ left ih =>
    intro p hp
    obtain ⟨segment, hne, hinfo, hchildren⟩ := mem_addOffsetDepth hp
    have hkids : ∀ c ∈ p.2.kids, p.2.info.fullName.length < c.info.fullName.length ∧ Grown c := by
      intro c hc
      obtain ⟨q, hq, rfl⟩ := mem_map.1 hc
      rcases hchildren with hnil | ⟨dt, -, hsome⟩
      · rw [hnil] at hq
        cases hq
      · rw [hsome] at hq
        exact ih _ dt q hq
    refine ⟨?_, .mk (fun c hc => (hkids c hc).1) fun c hc => (hkids c hc).2⟩
    rw [hinfo]
    exact length_memberPath hne

theorem Grown.build {s} (hs : Grown s) : Grown (s.build datatypes) := by
  unfold Symbol.build
  split
  · next dt _ =>
    have hkids : ∀ c ∈ (Symbol.mk s.info (addOffset datatypes s.info dt)).kids,
        s.info.fullName.length < c.info.fullName.length ∧ Grown c := by
      intro c hc
      obtain ⟨q, hq, rfl⟩ := mem_map.1 hc
      exact grown_addOffsetDepth _ _ _ q hq
    exact .mk (fun c hc => (hkids c hc).1) fun c hc => (hkids c hc).2
  · exact hs

theorem grown_symbol (u : Upload) : Grown u.symbol :=
  .mk (fun _ hc => (not_mem_nil hc).elim) fun _ hc => (not_mem_nil hc).elim

theorem grown_addSymbol (u : Upload) : Grown (addSymbol datatypes u) :=
  (grown_symbol u).build

variable (lower) in
theorem grown_kids (s : Symbol) (hs : Grown s) :
    ∀ c ∈ s.kids, Grown c ∧ (s.key lower).length < (c.key lower).length := by
  intro c hc
  obtain ⟨longer, below⟩ := hs
  rw [length_key, length_key]
  exact ⟨below c hc, longer c hc⟩

/-- **An order that files a given member.** -/
theorem exists_addChildren_filing {s n m} (hs : Grown s)
    (hn : ExposedIn lower m s.kids n) :
    ∃ m', AddChildren lower s m m' ∧ m'.lookup (n.key lower) = some n := by
  obtain ⟨order, m', ho, hf, hl⟩ := exists_fill_filing sizeOf (fun _ _ => Symbol.sizeOf_kid) List.length
    Grown (grown_kids lower) (fun c hc => (grown_kids lower s hs c hc).1) hn
  exact ⟨m', ⟨order, ho, hf⟩, hl⟩

theorem exposed_beside {s n m} (hs : Grown s) (x : Symbol)
    (hn : ExposedIn lower m s.kids n) : ExposedIn lower (m.insert (s.key lower) x) s.kids n :=
  hn.insert List.length Grown (grown_kids lower) (grown_kids lower s hs)

/-! ## Parsing -/

section

variable {us : List Upload} {m m' : SymbolMap} {k : Name} {x : Symbol}

section

variable (h : ParseSymbols lower datatypes us m m')

include h

theorem ParseSymbols.keeps
    (hk : ∀ u ∈ us, symbolKey lower u.name ≠ k) (hx : m.lookup k = some x) : m'.lookup k = some x := by
  induction h with
  | nil => exact hx
  | @cons u us m m₁ m₂ add _ ih =>
    apply ih fun v hv => hk v (mem_cons_of_mem _ hv)
    apply add.keeps
    rw [Finmap.lookup_insert_of_ne _ (hk u (mem_cons_self ..)).symm]
    exact hx

theorem ParseSymbols.origin (hx : m'.lookup k = some x) :
    m.lookup k = some x ∨ ∃ u ∈ us, symbolKey lower u.name = k ∧ x = addSymbol datatypes u ∨
      x.key lower = k ∧ ExposedIn lower ∅ (addSymbol datatypes u).kids x := by
  induction h with
  | nil => exact .inl hx
  | @cons u us m m₁ m₂ add _ ih =>
    rcases ih hx with hx | ⟨v, hv, hv'⟩
    · obtain ⟨order, ho, hf⟩ := add
      rcases hf.origin hx with hx | ⟨-, hk, hexp, -⟩
      · by_cases hk : k = symbolKey lower u.name
        · subst hk
          rw [Finmap.lookup_insert] at hx
          exact .inr ⟨u, mem_cons_self .., .inl ⟨rfl, (Option.some.inj hx).symm⟩⟩
        · rw [Finmap.lookup_insert_of_ne _ hk] at hx
          exact .inl hx
      · have hexp' : ExposedIn lower ∅ order x := hexp.anti fun k hk => (Finmap.notMem_empty hk).elim
        exact .inr ⟨u, mem_cons_self .., .inr ⟨hk, hexp'.mono ho.subset⟩⟩
    · exact .inr ⟨v, mem_cons_of_mem _ hv, hv'⟩

/-- The key of a symbol has the last symbol of that key. -/
theorem ParseSymbols.root (hk : ∃ u ∈ us, symbolKey lower u.name = k) :
    ∃ u ∈ us, symbolKey lower u.name = k ∧ m'.lookup k = some (addSymbol datatypes u) := by
  induction h with
  | nil =>
    obtain ⟨u, hu, -⟩ := hk
    cases hu
  | @cons v us m m₁ m₂ add rest ih =>
    by_cases hlater : ∃ u ∈ us, symbolKey lower u.name = k
    · obtain ⟨u, hu, hlast⟩ := ih hlater
      exact ⟨u, mem_cons_of_mem _ hu, hlast⟩
    obtain ⟨u, hu, rfl⟩ := hk
    obtain rfl : u = v := (mem_cons.1 hu).resolve_right fun hu => hlater ⟨u, hu, rfl⟩
    refine ⟨u, hu, rfl, rest.keeps (fun w hw heq => hlater ⟨w, hw, heq⟩) ?_⟩
    exact add.keeps (Finmap.lookup_insert _)

theorem ParseSymbols.last {u} (hu : u ∈ us)
    (hone : ∀ v ∈ us, symbolKey lower v.name = symbolKey lower u.name → v = u) :
    m'.lookup (symbolKey lower u.name) = some (addSymbol datatypes u) := by
  obtain ⟨v, hv, heq, hlast⟩ := h.root ⟨u, hu, rfl⟩
  rw [hlast, hone v hv heq]

theorem ParseSymbols.snoc {u m''} (add : AddChildren lower (addSymbol datatypes u)
      (m'.insert (symbolKey lower u.name) (addSymbol datatypes u)) m'') :
    ParseSymbols lower datatypes (us ++ [u]) m m'' := by
  induction h with
  | nil => exact .cons add (.nil _)
  | cons add' _ ih => exact .cons add' (ih add)

end

/-- The children of every entry have their keys taken. -/
def ClosedDown (lower : Char → Char) (m : SymbolMap) : Prop :=
  ∀ k x, m.lookup k = some x → ∀ y ∈ x.kids, y.key lower ∈ m

theorem ParseSymbols.closedDown (h : ParseSymbols lower datatypes us m m') (hm : ClosedDown lower m) :
    ClosedDown lower m' := by
  induction h with
  | nil => exact hm
  | @cons u us m m₁ m₂ add _ ih =>
    apply ih
    obtain ⟨order, ho, hf⟩ := add
    intro k x hx
    rcases hf.origin hx with hx | ⟨-, -, -, hkids⟩
    · by_cases hk : k = symbolKey lower u.name
      · subst hk
        rw [Finmap.lookup_insert] at hx
        cases hx
        exact fun y hy => hf.covers y (ho.mem_iff.2 hy)
      · rw [Finmap.lookup_insert_of_ne _ hk] at hx
        exact fun y hy => hf.mem_of_mem (Finmap.mem_insert.2 (.inr (hm k x hx y hy)))
    · exact hkids

/-- A member that is no symbol's namesake has its key, when its symbol comes first. -/
theorem exists_parseSymbols_filing {u n}
    (hn : ExposedIn lower ∅ (addSymbol datatypes u).kids n)
    (hk : ∀ v ∈ us, symbolKey lower v.name ≠ n.key lower) :
    ∃ m', ParseSymbols lower datatypes (u :: us) ∅ m' ∧ m'.lookup (n.key lower) = some n := by
  have hexp := exposed_beside (grown_addSymbol u) (addSymbol datatypes u) hn
  obtain ⟨m₁, h₁, hl⟩ := exists_addChildren_filing (grown_addSymbol u) hexp
  rw [key_addSymbol] at h₁
  obtain ⟨m₂, h₂⟩ := exists_parseSymbols lower datatypes us m₁
  exact ⟨m₂, .cons h₁ h₂, h₂.keeps hk hl⟩

end

/-! ## Rebuilding -/

section

variable {ks : List Name} {m m' : SymbolMap} {k : Name} {s x : Symbol}

section

variable (h : RebuildEach lower datatypes ks m m')

include h

theorem RebuildEach.keeps (hk : k ∉ ks) (hx : m.lookup k = some x) : m'.lookup k = some x := by
  induction h with
  | nil => exact hx
  | unknown _ _ _ ih => exact ih (fun hm => hk (mem_cons_of_mem _ hm)) hx
  | @expand k₀ ks s dt m m₁ m₂ _ _ add _ ih =>
    have hne : k ≠ k₀ := fun heq => hk (heq ▸ mem_cons_self ..)
    apply ih fun hm => hk (mem_cons_of_mem _ hm)
    apply add.keeps
    rw [Finmap.lookup_insert_of_ne _ hne]
    exact hx

theorem RebuildEach.mem_of_mem (hk : k ∈ m) : k ∈ m' := by
  induction h with
  | nil => exact hk
  | unknown _ _ _ ih => exact ih hk
  | expand _ _ add _ ih => exact ih (add.mem_of_mem (Finmap.mem_insert.2 (.inr hk)))

/-- An entry of the start is built anew once, and the keys of its children are taken. -/
theorem RebuildEach.built (hd : ks.Nodup) (hk : k ∈ ks)
    (hs : m.lookup k = some s) : m'.lookup k = some (s.build datatypes) ∧
      ∀ dt, datatypes s.info.dataType = some dt → ∀ y ∈ (s.build datatypes).kids, y.key lower ∈ m' := by
  induction h with
  | nil => cases hk
  | @unknown k₀ ks s₀ m m' hs₀ hdt rest ih =>
    obtain ⟨hnot, hd⟩ := nodup_cons.1 hd
    rcases mem_cons.1 hk with rfl | hk
    · cases hs₀.symm.trans hs
      rw [Symbol.build_of_none hdt, hdt]
      exact ⟨rest.keeps hnot hs, fun dt hsome => nomatch hsome⟩
    · exact ih hd hk hs
  | @expand k₀ ks s₀ dt m m₁ m₂ hs₀ _ add rest ih =>
    obtain ⟨hnot, hd⟩ := nodup_cons.1 hd
    rcases mem_cons.1 hk with rfl | hk
    · cases hs₀.symm.trans hs
      refine ⟨rest.keeps hnot (add.keeps (Finmap.lookup_insert _)), fun _ _ y hy => ?_⟩
      obtain ⟨order, ho, hf⟩ := add
      exact rest.mem_of_mem (hf.covers y (ho.mem_iff.2 hy))
    have hne : k ≠ k₀ := fun heq => hnot (heq ▸ hk)
    apply ih hd hk
    apply add.keeps
    rw [Finmap.lookup_insert_of_ne _ hne]
    exact hs

end

theorem lookup_rest {k₀ : Name} {s₀ : Symbol} {m₁ : SymbolMap}
    (add : AddChildren lower (s₀.build datatypes) (m.insert k₀ (s₀.build datatypes)) m₁) (hne : k ≠ k₀)
    (hk : k ∈ m) : m₁.lookup k = m.lookup k := by
  obtain ⟨x, hx⟩ := Finmap.mem_iff.1 hk
  rw [hx]
  apply add.keeps
  rw [Finmap.lookup_insert_of_ne _ hne]
  exact hx

/-- A new entry is a member of an entry of the start, exposed beside these, and the keys of its children
    are taken. -/
theorem RebuildEach.origin (h : RebuildEach lower datatypes ks m m') (hd : ks.Nodup)
    (hks : ∀ k ∈ ks, k ∈ m) (hk : k ∉ m) (hx : m'.lookup k = some x) :
    x.key lower = k ∧ (∀ y ∈ x.kids, y.key lower ∈ m') ∧ ∃ k₀ ∈ ks, ∃ s, m.lookup k₀ = some s ∧
      ExposedIn lower m (s.build datatypes).kids x := by
  induction h with
  | nil => exact absurd (Finmap.mem_of_lookup_eq_some hx) hk
  | unknown _ _ _ ih =>
    obtain ⟨hkx, hkids, k₀, hk₀, hs⟩ :=
      ih (nodup_cons.1 hd).2 (fun k' hk' => hks k' (mem_cons_of_mem _ hk')) hk hx
    exact ⟨hkx, hkids, k₀, mem_cons_of_mem _ hk₀, hs⟩
  | @expand k₀ ks s₀ dt m m₁ m₂ hs₀ _ add rest ih =>
    obtain ⟨hnot, hd⟩ := nodup_cons.1 hd
    have hrest : ∀ k' ∈ ks, k' ∈ m := fun k' hk' => hks k' (mem_cons_of_mem _ hk')
    have hsub : ∀ k', k' ∈ m → k' ∈ m.insert k₀ (s₀.build datatypes) := fun k' hk' =>
      Finmap.mem_insert.2 (.inr hk')
    have hsub₁ : ∀ k', k' ∈ m → k' ∈ m₁ := fun k' hk' => add.mem_of_mem (hsub k' hk')
    by_cases hk₁ : k ∈ m₁
    · -- filed in this round, and not touched again
      obtain ⟨y, hy⟩ := Finmap.mem_iff.1 hk₁
      obtain rfl : y = x :=
        Option.some.inj ((rest.keeps (fun hm => hk (hrest k hm)) hy).symm.trans hx)
      obtain ⟨order, ho, hf⟩ := add
      have hnew : (m.insert k₀ (s₀.build datatypes)).lookup k ≠ some y := fun hy => by
        rcases Finmap.mem_insert.1 (Finmap.mem_of_lookup_eq_some hy) with rfl | hm
        · exact hk (Finmap.mem_of_lookup_eq_some hs₀)
        · exact hk hm
      obtain ⟨-, hkx, hexp, hkids⟩ := (hf.origin hy).resolve_left hnew
      exact ⟨hkx, fun z hz => rest.mem_of_mem (hkids z hz), k₀, mem_cons_self .., s₀, hs₀,
        (hexp.anti hsub).mono ho.subset⟩
    · obtain ⟨hkx, hkids, k₁, hk₁', s₁, hs₁, hexp⟩ := ih hd (fun k' hk' => hsub₁ k' (hrest k' hk')) hk₁ hx
      have hne : k₁ ≠ k₀ := fun heq => hnot (heq ▸ hk₁')
      rw [lookup_rest add hne (hrest k₁ hk₁')] at hs₁
      exact ⟨hkx, hkids, k₁, mem_cons_of_mem _ hk₁', s₁, hs₁, hexp.anti hsub₁⟩

namespace RebuildSymbolChildren

variable (h : RebuildSymbolChildren lower datatypes m m')

include h

theorem built (hs : m.lookup k = some s) : m'.lookup k = some (s.build datatypes) := by
  obtain ⟨order, hd, ho, h⟩ := h
  exact (h.built hd ((ho k).2 (Finmap.mem_of_lookup_eq_some hs)) hs).1

/-- An entry is one of the start, built anew, or a member of one of these that is exposed beside them. -/
theorem origin (hx : m'.lookup k = some x) : (∃ s, m.lookup k = some s ∧ s.build datatypes = x) ∨
      k ∉ m ∧ x.key lower = k ∧
        ∃ k₀ s, m.lookup k₀ = some s ∧ ExposedIn lower m (s.build datatypes).kids x := by
  by_cases hk : k ∈ m
  · obtain ⟨s, hs⟩ := Finmap.mem_iff.1 hk
    exact .inl ⟨s, hs, Option.some.inj ((built h hs).symm.trans hx)⟩
  obtain ⟨order, hd, ho, h⟩ := h
  obtain ⟨hkx, -, k₀, -, hs⟩ := h.origin hd (fun k hk => (ho k).1 hk) hk hx
  exact .inr ⟨hk, hkx, k₀, hs⟩

theorem closedDown (hleaf : ∀ k s, m.lookup k = some s → datatypes s.info.dataType = none →
    ∀ y ∈ s.kids, y.key lower ∈ m) : ClosedDown lower m' := by
  obtain ⟨order, hd, ho, h⟩ := h
  intro k x hx
  by_cases hk : k ∈ m
  · obtain ⟨s, hs⟩ := Finmap.mem_iff.1 hk
    obtain ⟨hbuilt, hkids⟩ := h.built hd ((ho k).2 hk) hs
    obtain rfl : s.build datatypes = x := Option.some.inj (hbuilt.symm.trans hx)
    cases hdt : datatypes s.info.dataType with
    | none =>
      rw [Symbol.build_of_none hdt]
      exact fun y hy => h.mem_of_mem (hleaf k s hs hdt y hy)
    | some => exact hkids _ hdt
  · exact (h.origin hd (fun k hk => (ho k).1 hk) hk hx).2.1

end RebuildSymbolChildren

/-- A member that is exposed beside the entries of the start has its key, when its parent comes first. -/
theorem exists_rebuild_filing {n dt} (hs : m.lookup k = some s)
    (hkey : s.key lower = k) (hg : Grown s) (hdt : datatypes s.info.dataType = some dt)
    (hn : ExposedIn lower m (s.build datatypes).kids n) :
    ∃ m', RebuildSymbolChildren lower datatypes m m' ∧ m'.lookup (n.key lower) = some n := by
  have hexp : ExposedIn lower (m.insert k (s.build datatypes)) (s.build datatypes).kids n := by
    have h := exposed_beside hg.build (s.build datatypes) hn
    rw [Symbol.key_build, hkey] at h
    exact h
  obtain ⟨m₁, h₁, hl⟩ := exists_addChildren_filing hg.build hexp
  have hmem : ∀ k' ∈ (m.keys.erase k).toList, k' ∈ m := fun k' hk' =>
    Finmap.mem_keys.1 (Finset.mem_of_mem_erase (Finset.mem_toList.1 hk'))
  obtain ⟨m₂, h₂⟩ := exists_rebuildEach lower datatypes (m.keys.erase k).toList m₁ fun k' hk' =>
    h₁.mem_of_mem (Finmap.mem_insert.2 (.inr (hmem k' hk')))
  refine ⟨m₂, ⟨k :: (m.keys.erase k).toList, ?_, fun k' => ?_, .expand hs hdt h₁ h₂⟩, ?_⟩
  · refine nodup_cons.2 ⟨fun hk => ?_, Finset.nodup_toList _⟩
    exact Finset.notMem_erase k _ (Finset.mem_toList.1 hk)
  · rw [mem_cons, Finset.mem_toList, Finset.mem_erase, Finmap.mem_keys]
    constructor
    · rintro (rfl | ⟨-, hk'⟩)
      · exact Finmap.mem_of_lookup_eq_some hs
      · exact hk'
    intro hk'
    by_cases heq : k' = k
    · exact .inl heq
    · exact .inr ⟨heq, hk'⟩
  · exact h₂.keeps (fun hk' => hn.notMem (hmem _ hk')) hl

end

end GoAds.Discovery
