import GoAds.Discovery.Loaders
import GoAds.Discovery.Outcomes

/-!
# `Discovery.SameMap` — do all ways of discovery build the same map?

The same two tables can be loaded at once (`LoadSymbolsSlow`), symbols first or datatypes first.  The
members of a symbol are then found while the table is parsed, or by `rebuildSymbolChildrenLocked`.

The three maps are the same, in every order of Go's ranges and in whatever order the PLC lists its
symbols, exactly when

* the tables name everything once (`Unambiguous`), since a member whose key is taken is left out, and who
  comes first is left to chance; and
* datatypes that an earlier `LoadDataTypes` has left in the cache say nothing else about the new symbols
  (`Compatible`): `LoadSymbolList` expands its symbols by them at once, and the members they give stay
  entries for good, since `addChildren` never overwrites.
-/

namespace GoAds.Discovery

open FirstWins List Finmap GoAds.Discovery.Symbol

/-! ## The three ways -/

/-- A PLC that serves the two tables.  The symbols may come in another order in each upload. -/
structure Serves (datatypes : DataTypes) (symbols : List Upload) (plc : Plc) : Prop where
  client : plc.client = true
  running : plc.running = true
  uploadInfo : plc.uploadInfo = true
  datatypes : plc.datatypes = some datatypes
  symbols : ∃ us, Perm us symbols ∧ plc.symbols = some us

section

variable (lower : Char → Char) (c : Cache) (datatypes : DataTypes) (symbols : List Upload)

/-- `LoadSymbolsSlow` can leave this map. -/
def Slow (m : SymbolMap) : Prop :=
  ∃ (r : Ranging lower) (plc : Plc), Serves datatypes symbols plc ∧ m = (loadSymbolsSlow r plc c).1.symbols

/-- `LoadSymbolList` and then `LoadDataTypes` can leave this map. -/
def ListTypes (m : SymbolMap) : Prop :=
  ∃ (r r' : Ranging lower) (plc plc' : Plc), Serves datatypes symbols plc ∧ Serves datatypes symbols plc' ∧
    m = (loadDataTypes r' plc' (loadSymbolList r plc c).1).1.symbols

/-- `LoadDataTypes` and then `LoadSymbolList` can leave this map. -/
def TypesList (m : SymbolMap) : Prop :=
  ∃ (r r' : Ranging lower) (plc plc' : Plc), Serves datatypes symbols plc ∧ Serves datatypes symbols plc' ∧
    m = (loadSymbolList r' plc' (loadDataTypes r plc c).1).1.symbols

/-- **All ways build the same map**, from a cache. -/
def SameMap : Prop :=
  ∀ a b d, Slow lower c datatypes symbols a → TypesList lower c datatypes symbols b →
    ListTypes lower c datatypes symbols d → a = b ∧ b = d

end

/-! ## The condition -/

section

variable (lower : Char → Char)

/-- The symbols of the table, by their keys. -/
def rootMap (symbols : List Upload) : SymbolMap :=
  symbols.foldl (fun m u => m.insert (symbolKey lower u.name) u.symbol) ∅

/-- A member that the datatype table gives a symbol, at any depth. -/
def Member (datatypes : DataTypes) (symbols : List Upload) (n : Symbol) : Prop :=
  ∃ u ∈ symbols, ExposedIn lower ∅ (addSymbol datatypes u).kids n

/-- A member that is not, and is not below, the namesake of a symbol of the table. -/
def Shown (datatypes : DataTypes) (symbols : List Upload) (n : Symbol) : Prop :=
  ∃ u ∈ symbols, ExposedIn lower (rootMap lower symbols) (addSymbol datatypes u).kids n

/-- **The tables name everything once.**  Symbols of one key are one symbol, and members of one key are one
    member, unless a symbol has the key.  A member below the namesake of a symbol is also found
    elsewhere. -/
structure Unambiguous (datatypes : DataTypes) (symbols : List Upload) : Prop where
  roots : ∀ u ∈ symbols, ∀ v ∈ symbols, symbolKey lower u.name = symbolKey lower v.name → u = v
  members : ∀ n n', Member lower datatypes symbols n → Member lower datatypes symbols n' →
    n.key lower = n'.key lower → n.key lower ∉ rootMap lower symbols → n = n'
  shown : ∀ n, Member lower datatypes symbols n → n.key lower ∉ rootMap lower symbols →
    Shown lower datatypes symbols n

/-- **Old datatypes say nothing else.**  A symbol whose type the new table does not have gets no members from
    the old one, and a member from the old table is one of the new, once it is built anew. -/
structure Compatible (old datatypes : DataTypes) (symbols : List Upload) : Prop where
  roots : ∀ u ∈ symbols, datatypes u.dataType = none → (addSymbol old u).children = []
  members : ∀ n, Shown lower old symbols n → Member lower datatypes symbols (n.build datatypes)

end

variable {lower : Char → Char} {c : Cache} {datatypes old : DataTypes} {symbols us : List Upload}
  {m m' : SymbolMap} {k : Name} {n : Symbol}

theorem mem_foldl_insert : k ∈ us.foldl (fun m u => m.insert (symbolKey lower u.name) u.symbol) m ↔
      k ∈ m ∨ ∃ u ∈ us, symbolKey lower u.name = k := by
  induction us generalizing m with
  | nil => simp
  | cons u us ih =>
    rw [foldl_cons, ih, mem_insert]
    simp only [mem_cons, exists_eq_or_imp]
    tauto

theorem mem_rootMap : k ∈ rootMap lower symbols ↔ ∃ u ∈ symbols, symbolKey lower u.name = k := by
  unfold rootMap
  rw [mem_foldl_insert]
  simp [notMem_empty]

theorem Shown.notMem (h : Shown lower datatypes symbols n) : n.key lower ∉ rootMap lower symbols := by
  obtain ⟨u, -, h⟩ := h
  exact h.notMem

theorem Shown.member (h : Shown lower datatypes symbols n) : Member lower datatypes symbols n := by
  obtain ⟨u, hu, h⟩ := h
  exact ⟨u, hu, h.anti fun k hk => (notMem_empty hk).elim⟩

variable {plc : Plc} {r : Ranging lower} {x : Symbol} {u : Upload}

theorem Member.below (h : Member lower datatypes symbols n)
    (hx : ExposedIn lower ∅ n.kids x) : Member lower datatypes symbols x := by
  obtain ⟨u, hu, h⟩ := h
  exact ⟨u, hu, h.trans hx⟩

/-! ## The maps that the ways leave -/

theorem exists_ranging {m₁ m₂ d} (hp : ParseSymbols lower d us ∅ m)
    (hr : RebuildSymbolChildren lower datatypes m₁ m₂) :
    ∃ r : Ranging lower, r.parse d us = m ∧ r.rebuild datatypes m₁ = m₂ := by
  classical
  obtain ⟨r⟩ := nonempty_ranging lower
  refine ⟨{ parse := fun d' us' => if d' = d ∧ us' = us then m else r.parse d' us'
            parse_spec := fun d' us' => ?_
            rebuild := fun d' m' => if d' = datatypes ∧ m' = m₁ then m₂ else r.rebuild d' m'
            rebuild_spec := fun d' m' => ?_ }, if_pos ⟨rfl, rfl⟩, if_pos ⟨rfl, rfl⟩⟩
  · split
    · next heq =>
      obtain ⟨rfl, rfl⟩ := heq
      exact hp
    · exact r.parse_spec d' us'
  split
  · next heq =>
    obtain ⟨rfl, rfl⟩ := heq
    exact hr
  · exact r.rebuild_spec d' m'

/-- A PLC that lists the symbols in a given order. -/
def serving (datatypes : DataTypes) (us : List Upload) : Plc where
  client := true
  running := true
  version := none
  uploadInfo := true
  datatypes := some datatypes
  symbols := some us
  info _ := none
  handle _ := none

theorem serves_serving (hus : Perm us symbols) : Serves datatypes symbols (serving datatypes us) :=
  ⟨rfl, rfl, rfl, rfl, us, hus, rfl⟩

theorem slow_iff :
    Slow lower c datatypes symbols m ↔ ∃ us, Perm us symbols ∧ ParseSymbols lower datatypes us ∅ m := by
  constructor
  · rintro ⟨r, plc, hs, rfl⟩
    obtain ⟨us, hus, hsym⟩ := hs.symbols
    refine ⟨us, hus, ?_⟩
    simp only [loadSymbolsSlow, Plc.gate, hs.client, hs.running, if_true, Plc.tables, hs.uploadInfo,
      hs.datatypes, hsym]
    exact r.parse_spec datatypes us
  rintro ⟨us, hus, hp⟩
  obtain ⟨m₂, hr⟩ := exists_rebuildSymbolChildren lower datatypes ∅
  obtain ⟨r, rfl, -⟩ := exists_ranging hp hr
  exact ⟨r, serving datatypes us, serves_serving hus, rfl⟩

theorem loadSymbolList_of_serves (hs : Serves datatypes symbols plc)
    (hsym : plc.symbols = some us) : (loadSymbolList r plc c).1 = (c.readVersion plc).storeList r us := by
  simp only [loadSymbolList, hs.client, hs.uploadInfo, hsym, if_true]

theorem loadDataTypes_of_serves (hs : Serves datatypes symbols plc) :
    (loadDataTypes r plc c).1 = c.storeDataTypes r datatypes := by
  simp only [loadDataTypes, hs.client, hs.uploadInfo, hs.datatypes, if_true]

theorem typesList_iff : TypesList lower c datatypes symbols m ↔ ∃ us roots, Perm us symbols ∧
      ParseSymbols lower noDataTypes us ∅ roots ∧ RebuildSymbolChildren lower datatypes roots m := by
  constructor
  · rintro ⟨r, r', plc, plc', hs, hs', rfl⟩
    obtain ⟨us, hus, hsym⟩ := hs'.symbols
    rw [loadDataTypes_of_serves hs, loadSymbolList_of_serves hs' hsym]
    exact ⟨us, _, hus, r'.parse_spec noDataTypes us, r'.rebuild_spec datatypes _⟩
  rintro ⟨us, roots, hus, hp, hr⟩
  obtain ⟨r, rfl, rfl⟩ := exists_ranging hp hr
  refine ⟨r, r, serving datatypes us, serving datatypes us, serves_serving hus, serves_serving hus, ?_⟩
  rw [loadDataTypes_of_serves (serves_serving hus), loadSymbolList_of_serves (serves_serving hus) rfl]
  rfl

/-- What `LoadSymbolList` makes of its symbols with the datatypes in the cache. -/
def Expands (lower : Char → Char) (c : Cache) (roots m : SymbolMap) : Prop :=
  match c.datatypesLoaded, c.datatypes with
  | true, some old => RebuildSymbolChildren lower old roots m
  | _, _ => m = roots

theorem listTypes_iff : ListTypes lower c datatypes symbols m ↔ ∃ us roots m₀, Perm us symbols ∧
      ParseSymbols lower noDataTypes us ∅ roots ∧ Expands lower c roots m₀ ∧
      RebuildSymbolChildren lower datatypes m₀ m := by
  constructor
  · rintro ⟨r, r', plc, plc', hs, hs', rfl⟩
    obtain ⟨us, hus, hsym⟩ := hs.symbols
    rw [loadSymbolList_of_serves hs hsym, loadDataTypes_of_serves hs']
    refine ⟨us, _, _, hus, r.parse_spec noDataTypes us, ?_, r'.rebuild_spec datatypes _⟩
    unfold Expands Cache.storeList Cache.readVersion
    cases c.datatypesLoaded with
    | false => rfl
    | true =>
      cases c.datatypes with
      | none => rfl
      | some old => exact r.rebuild_spec old _
  · rintro ⟨us, roots, m₀, hus, hp, he, hr⟩
    -- the orders of the two calls are chosen one by one
    obtain ⟨r', -, hr'⟩ := exists_ranging hp hr
    obtain ⟨r, hsym⟩ : ∃ r : Ranging lower,
      ((c.readVersion (serving datatypes us)).storeList r us).symbols = m₀ := by
      unfold Expands at he
      unfold Cache.storeList Cache.readVersion
      cases hl : c.datatypesLoaded with
      | false =>
        simp only [hl] at he ⊢
        obtain ⟨r, hpr, -⟩ := exists_ranging hp hr
        exact ⟨r, hpr.trans he.symm⟩
      | true =>
        cases hd : c.datatypes with
        | none =>
          simp only [hl, hd] at he ⊢
          obtain ⟨r, hpr, -⟩ := exists_ranging hp hr
          exact ⟨r, hpr.trans he.symm⟩
        | some =>
          simp only [hl, hd] at he ⊢
          obtain ⟨r, rfl, hre⟩ := exists_ranging hp he
          exact ⟨r, hre⟩
    refine ⟨r, r', serving datatypes us, serving datatypes us, serves_serving hus, serves_serving hus, ?_⟩
    rw [loadSymbolList_of_serves (serves_serving hus) rfl, loadDataTypes_of_serves (serves_serving hus)]
    simp only [Cache.storeDataTypes, hsym, hr']
    rfl

/-! ## The map that all should leave -/

/-- The symbols of the table and the members shown beside them. -/
structure Canonical (lower : Char → Char) (datatypes : DataTypes) (symbols : List Upload) (m : SymbolMap) :
    Prop where
  roots : ∀ u ∈ symbols, m.lookup (symbolKey lower u.name) = some (addSymbol datatypes u)
  members : ∀ n, Shown lower datatypes symbols n → m.lookup (n.key lower) = some n
  only : ∀ k ∈ m, k ∈ rootMap lower symbols ∨ ∃ n, Shown lower datatypes symbols n ∧ n.key lower = k

namespace Canonical

section

variable (h : Canonical lower datatypes symbols m) (h' : Canonical lower datatypes symbols m')

include h h'

/-- The tables leave no choice. -/
theorem lookup_eq (hk : k ∈ m) : m.lookup k = m'.lookup k := by
  rcases h.only k hk with hroot | ⟨n, hn, rfl⟩
  · obtain ⟨u, hu, rfl⟩ := mem_rootMap.1 hroot
    rw [h.roots u hu, h'.roots u hu]
  · rw [h.members n hn, h'.members n hn]

theorem unique : m = m' := by
  apply ext_lookup
  intro k
  by_cases hk : k ∈ m
  · exact h.lookup_eq h' hk
  by_cases hk' : k ∈ m'
  · exact (h'.lookup_eq h hk').symm
  · rw [lookup_eq_none.2 hk, lookup_eq_none.2 hk']

end

end Canonical

section

variable (hun : Unambiguous lower datatypes symbols)

include hun

/-- **What makes a map the canonical one**: the symbols are there, whatever else is there is a member of
    the tables, and the children of the entries have their keys taken. -/
theorem canonical_of
    (hroots : ∀ u ∈ symbols, m.lookup (symbolKey lower u.name) = some (addSymbol datatypes u))
    (hnew : ∀ k x, m.lookup k = some x → k ∉ rootMap lower symbols →
      Member lower datatypes symbols x ∧ x.key lower = k)
    (hdown : ClosedDown lower m) : Canonical lower datatypes symbols m := by
  have hshown : ∀ k x, m.lookup k = some x → k ∉ rootMap lower symbols →
      Shown lower datatypes symbols x ∧ x.key lower = k := by
    intro k x hx hk
    obtain ⟨hmem, rfl⟩ := hnew k x hx hk
    exact ⟨hun.shown x hmem hk, rfl⟩
  refine ⟨hroots, ?_, ?_⟩
  · rintro n ⟨u, hu, hn⟩
    refine lookup_of_exposed (Shown lower datatypes symbols) ?_ hshown ?_ ?_ (fun y hy => ⟨u, hu, hy⟩) hn
    · intro y y' hy hy' heq
      exact hun.members y y' hy.member hy'.member heq hy.notMem
    · intro k x hx _
      exact hdown k x hx
    · exact hdown _ _ (hroots u hu)
  intro k hk
  obtain ⟨x, hx⟩ := mem_iff.1 hk
  by_cases hroot : k ∈ rootMap lower symbols
  · exact .inl hroot
  · exact .inr ⟨x, hshown k x hx hroot⟩

/-! ### The table at once -/

theorem Unambiguous.one (hus : Perm us symbols)
    (hu : u ∈ symbols) : ∀ v ∈ us, symbolKey lower v.name = symbolKey lower u.name → v = u :=
  fun v hv heq => hun.roots v (hus.subset hv) u hu heq

theorem canonical_parse (hus : Perm us symbols)
    (hp : ParseSymbols lower datatypes us ∅ m) : Canonical lower datatypes symbols m := by
  apply canonical_of hun
  · intro u hu
    exact hp.last (hus.mem_iff.2 hu) (hun.one hus hu)
  · intro k x hx hk
    rcases hp.origin hx with h | ⟨u, hu, ⟨hroot, -⟩ | ⟨hkx, hexp⟩⟩
    · rw [lookup_empty] at h
      cases h
    · exact absurd (mem_rootMap.2 ⟨u, hus.subset hu, hroot⟩) hk
    · exact ⟨⟨u, hus.subset hu, hexp⟩, hkx⟩
  apply hp.closedDown
  intro k x hx
  rw [lookup_empty] at hx
  cases hx

end

/-! ### The table by itself -/

section

variable (hus : Perm us symbols) (hp : ParseSymbols lower noDataTypes us ∅ m)

include hus hp

theorem mem_roots : k ∈ m ↔ k ∈ rootMap lower symbols := by
  rw [hp.mem_iff, mem_rootMap]
  simp [notMem_empty, hus.mem_iff]

theorem lookup_roots {s}
    (hs : m.lookup k = some s) : ∃ u ∈ symbols, symbolKey lower u.name = k ∧ s = u.symbol := by
  rcases hp.origin hs with h | ⟨u, hu, ⟨hk, rfl⟩ | ⟨-, hexp⟩⟩
  · rw [lookup_empty] at h
    cases h
  · exact ⟨u, hus.subset hu, hk, rfl⟩
  -- nothing is below a symbol of the table
  cases hexp with
  | here hn => cases hn
  | under hp => cases hp

theorem shown_of_rebuild (hr : RebuildSymbolChildren lower datatypes m m') (hx : m'.lookup k = some x)
    (hk : k ∉ rootMap lower symbols) : Shown lower datatypes symbols x ∧ x.key lower = k := by
  rcases hr.origin hx with ⟨s, hs, -⟩ | ⟨-, hkx, k₀, s, hs, hexp⟩
  · exact absurd ((mem_roots hus hp).1 (mem_of_lookup_eq_some hs)) hk
  obtain ⟨u, hu, -, rfl⟩ := lookup_roots hus hp hs
  exact ⟨⟨u, hu, hexp.anti fun k hk => (mem_roots hus hp).2 hk⟩, hkx⟩

end

/-! ### Rebuilding -/

/-- A node of an expansion. -/
def Expanded (datatypes : DataTypes) (n : Symbol) : Prop :=
  ∃ left parent data, ∃ p ∈ addOffsetDepth datatypes left parent data, p.2 = n

namespace Expanded

theorem kids (h : Expanded datatypes n) : ∀ y ∈ n.kids, Expanded datatypes y := by
  obtain ⟨left, parent, data, p, hp, rfl⟩ := h
  intro y hy
  obtain ⟨q, hq, rfl⟩ := mem_map.1 hy
  cases left with
  | zero => cases hp
  | succ left =>
    obtain ⟨-, -, -, hnil | ⟨dt, -, hsome⟩⟩ := mem_addOffsetDepth hp
    · rw [hnil] at hq
      cases hq
    · rw [hsome] at hq
      exact ⟨left, _, dt, q, hq, rfl⟩

theorem leaf (h : Expanded datatypes n) (hn : datatypes n.info.dataType = none) : n.kids = [] := by
  obtain ⟨left, parent, data, p, hp, rfl⟩ := h
  cases left with
  | zero => cases hp
  | succ =>
    obtain ⟨-, -, -, hnil | ⟨dt, hdt, -⟩⟩ := mem_addOffsetDepth hp
    · rw [Symbol.kids, hnil, map_nil]
    · rw [hn] at hdt
      cases hdt

end Expanded

theorem addSymbol_of_none (h : datatypes u.dataType = none) : addSymbol datatypes u = u.symbol :=
  build_of_none h

theorem addSymbol_of_some {dt} (h : datatypes u.dataType = some dt) :
    addSymbol datatypes u = .mk u.symbol.info (addOffset datatypes u.symbol.info dt) :=
  build_of_some h

theorem expanded_kids (u : Upload) : ∀ n ∈ (addSymbol datatypes u).kids, Expanded datatypes n := by
  intro n hn
  cases h : datatypes u.dataType with
  | none =>
    rw [addSymbol_of_none h] at hn
    cases hn
  | some dt =>
    rw [addSymbol_of_some h] at hn
    obtain ⟨p, hp, rfl⟩ := mem_map.1 hn
    exact ⟨_, _, dt, p, hp, rfl⟩

theorem Member.expanded (h : Member lower datatypes symbols n) : Expanded datatypes n := by
  obtain ⟨u, -, h⟩ := h
  exact h.hereditary (fun _ hp => hp.kids) (expanded_kids u)

/-- A map that `rebuildSymbolChildrenLocked` makes canonical: the entries are symbols and members of the
    tables, once they are built anew. -/
structure Ready (lower : Char → Char) (datatypes : DataTypes) (symbols : List Upload) (m : SymbolMap) :
    Prop where
  roots : ∀ u ∈ symbols, ∃ s, m.lookup (symbolKey lower u.name) = some s ∧
    s.build datatypes = addSymbol datatypes u
  others : ∀ k s, m.lookup k = some s → k ∉ rootMap lower symbols →
    Member lower datatypes symbols (s.build datatypes) ∧ s.key lower = k

namespace Ready

variable {s : Symbol}

section

variable (h : Ready lower datatypes symbols m)

include h

theorem member_below {x} (hs : m.lookup k = some s)
    (hx : ExposedIn lower ∅ (s.build datatypes).kids x) : Member lower datatypes symbols x := by
  by_cases hroot : k ∈ rootMap lower symbols
  · obtain ⟨u, hu, rfl⟩ := mem_rootMap.1 hroot
    obtain ⟨s', hs', hbuild⟩ := h.roots u hu
    cases hs'.symm.trans hs
    rw [hbuild] at hx
    exact ⟨u, hu, hx⟩
  · exact (h.others k s hs hroot).1.below hx

theorem leaf (hs : m.lookup k = some s)
    (hn : datatypes s.info.dataType = none) : (s.build datatypes).kids = [] := by
  by_cases hroot : k ∈ rootMap lower symbols
  · obtain ⟨u, hu, rfl⟩ := mem_rootMap.1 hroot
    obtain ⟨s', hs', hbuild⟩ := h.roots u hu
    obtain rfl : s' = s := Option.some.inj (hs'.symm.trans hs)
    have hinfo : s'.info = u.symbol.info := by
      rw [← info_build, hbuild, addSymbol, info_build]
    rw [hinfo] at hn
    rw [hbuild, addSymbol_of_none hn]
    rfl
  apply (h.others k s hs hroot).1.expanded.leaf
  rw [info_build]
  exact hn

theorem canonical (hun : Unambiguous lower datatypes symbols)
    (hr : RebuildSymbolChildren lower datatypes m m') : Canonical lower datatypes symbols m' := by
  apply canonical_of hun
  · intro u hu
    obtain ⟨s, hs, hbuild⟩ := h.roots u hu
    rw [hr.built hs, hbuild]
  · intro k x hx hroot
    rcases hr.origin hx with ⟨s, hs, rfl⟩ | ⟨-, hkx, k₀, s, hs, hexp⟩
    · rw [key_build]
      exact h.others k s hs hroot
    · exact ⟨h.member_below hs (hexp.anti fun k hk => (notMem_empty hk).elim), hkx⟩
  refine hr.closedDown fun k s hs hdt y hy => ?_
  rw [← build_of_none hdt, h.leaf hs hdt] at hy
  cases hy

end

end Ready

theorem ready_roots (hun : Unambiguous lower datatypes symbols) (hus : Perm us symbols)
    (hp : ParseSymbols lower noDataTypes us ∅ m) : Ready lower datatypes symbols m := by
  constructor
  · intro u hu
    exact ⟨_, hp.last (hus.mem_iff.2 hu) (hun.one hus hu), rfl⟩
  · intro k s hs hk
    exact absurd ((mem_roots hus hp).1 (mem_of_lookup_eq_some hs)) hk

theorem build_addSymbol (h : datatypes u.dataType = none → (addSymbol old u).children = []) :
    (addSymbol old u).build datatypes = addSymbol datatypes u := by
  have hinfo : (addSymbol old u).info = u.symbol.info := info_build
  cases hdt : datatypes u.dataType with
  | none =>
    rw [addSymbol_of_none hdt, build_of_none (by rw [hinfo]; exact hdt)]
    have hnil := h hdt
    generalize addSymbol old u = s at hinfo hnil
    obtain ⟨info, children⟩ := s
    obtain rfl : info = u.symbol.info := hinfo
    obtain rfl : children = [] := hnil
    rfl
  | some =>
    rw [addSymbol_of_some hdt, build_of_some (by rw [hinfo]; exact hdt), hinfo]

theorem ready_rebuilt (hun : Unambiguous lower datatypes symbols)
    (hc : Compatible lower old datatypes symbols) (hus : Perm us symbols)
    (hp : ParseSymbols lower noDataTypes us ∅ m) (hr : RebuildSymbolChildren lower old m m') :
    Ready lower datatypes symbols m' := by
  constructor
  · intro u hu
    have hs := hp.last (hus.mem_iff.2 hu) (hun.one hus hu)
    exact ⟨_, hr.built hs, build_addSymbol (hc.roots u hu)⟩
  intro k s hs hk
  obtain ⟨hshown, hks⟩ := shown_of_rebuild hus hp hr hs hk
  exact ⟨hc.members s hshown, hks⟩

/-! ## The condition is enough -/

theorem canonical_typesList (hun : Unambiguous lower datatypes symbols)
    (h : TypesList lower c datatypes symbols m) : Canonical lower datatypes symbols m := by
  obtain ⟨us, roots, hus, hp, hr⟩ := typesList_iff.1 h
  exact (ready_roots hun hus hp).canonical hun hr

section

variable (hun : Unambiguous lower datatypes symbols)
  (hc : ∀ old, c.datatypesLoaded = true → c.datatypes = some old → Compatible lower old datatypes symbols)

include hun hc

theorem canonical_listTypes
    (h : ListTypes lower c datatypes symbols m) : Canonical lower datatypes symbols m := by
  obtain ⟨us, roots, m₀, hus, hp, he, hr⟩ := listTypes_iff.1 h
  suffices hready : Ready lower datatypes symbols m₀ from hready.canonical hun hr
  unfold Expands at he
  split at he
  · next old hl hd => exact ready_rebuilt hun (hc old hl hd) hus hp he
  · rw [he]
    exact ready_roots hun hus hp

theorem sameMap_of : SameMap lower c datatypes symbols := by
  intro a b d ha hb hd
  obtain ⟨us, hus, hp⟩ := slow_iff.1 ha
  have hcb := canonical_typesList hun hb
  exact ⟨(canonical_parse hun hus hp).unique hcb, hcb.unique (canonical_listTypes hun hc hd)⟩

end

/-! ## The condition is needed -/

theorem exists_typesList (lower : Char → Char) (c : Cache) (datatypes : DataTypes) (symbols : List Upload) :
    ∃ m, TypesList lower c datatypes symbols m := by
  obtain ⟨roots, hp⟩ := exists_parseSymbols lower noDataTypes symbols ∅
  obtain ⟨m, hr⟩ := exists_rebuildSymbolChildren lower datatypes roots
  exact ⟨m, typesList_iff.2 ⟨symbols, roots, Perm.refl _, hp, hr⟩⟩

theorem exists_listTypes (lower : Char → Char) (c : Cache) (datatypes : DataTypes) (symbols : List Upload) :
    ∃ m, ListTypes lower c datatypes symbols m := by
  obtain ⟨roots, hp⟩ := exists_parseSymbols lower noDataTypes symbols ∅
  obtain ⟨m₀, he⟩ : ∃ m₀, Expands lower c roots m₀ := by
    unfold Expands
    split
    · exact exists_rebuildSymbolChildren lower _ roots
    · exact ⟨roots, rfl⟩
  obtain ⟨m, hr⟩ := exists_rebuildSymbolChildren lower datatypes m₀
  exact ⟨m, listTypes_iff.2 ⟨symbols, roots, m₀, Perm.refl _, hp, he, hr⟩⟩

theorem perm_of_mem (hu : u ∈ symbols) : ∃ us, Perm (u :: us) symbols := by
  obtain ⟨as, bs, rfl⟩ := append_of_mem hu
  exact ⟨as ++ bs, perm_middle.symm⟩

theorem exists_slow_root (hu : u ∈ symbols) : ∃ m, Slow lower c datatypes symbols m ∧
      m.lookup (symbolKey lower u.name) = some (addSymbol datatypes u) := by
  obtain ⟨us, hus⟩ := perm_of_mem hu
  obtain ⟨m₁, h₁⟩ := exists_parseSymbols lower datatypes us ∅
  obtain ⟨m₂, h₂⟩ := exists_addChildren lower (addSymbol datatypes u)
    (m₁.insert (symbolKey lower u.name) (addSymbol datatypes u))
  refine ⟨m₂, slow_iff.2 ⟨us ++ [u], ?_, h₁.snoc h₂⟩, h₂.keeps (lookup_insert _)⟩
  exact (perm_append_singleton u us).trans hus

/-- Every member that is no symbol's namesake has its key in some order. -/
theorem exists_slow_member (hn : Member lower datatypes symbols n)
    (hk : n.key lower ∉ rootMap lower symbols) :
    ∃ m, Slow lower c datatypes symbols m ∧ m.lookup (n.key lower) = some n := by
  obtain ⟨u, hu, hexp⟩ := hn
  obtain ⟨us, hus⟩ := perm_of_mem hu
  have hfree : ∀ v ∈ us, symbolKey lower v.name ≠ n.key lower := fun v hv heq =>
    hk (mem_rootMap.2 ⟨v, hus.subset (mem_cons_of_mem _ hv), heq⟩)
  obtain ⟨m, hp, hl⟩ := exists_parseSymbols_filing hexp hfree
  exact ⟨m, slow_iff.2 ⟨u :: us, hus, hp⟩, hl⟩

theorem upload_injective {v} (h : addSymbol datatypes u = addSymbol datatypes v) : u = v := by
  have hinfo := congrArg Symbol.info h
  rw [addSymbol, addSymbol, info_build, info_build] at hinfo
  cases u
  cases v
  simp only [Upload.symbol, Symbol.info, Info.mk.injEq] at hinfo
  simp only [Upload.mk.injEq]
  tauto

namespace SameMap

variable {a : SymbolMap}

section

variable (h : SameMap lower c datatypes symbols) (ha : Slow lower c datatypes symbols a)

include h ha

theorem slow_eq_typesList {b} (hb : TypesList lower c datatypes symbols b) : a = b := by
  obtain ⟨d, hd⟩ := exists_listTypes lower c datatypes symbols
  exact (h a b d ha hb hd).1

theorem slow_unique {a'} (ha' : Slow lower c datatypes symbols a') : a = a' := by
  obtain ⟨b, hb⟩ := exists_typesList lower c datatypes symbols
  rw [h.slow_eq_typesList ha hb, h.slow_eq_typesList ha' hb]

theorem slow_eq_listTypes {d} (hd : ListTypes lower c datatypes symbols d) : a = d := by
  obtain ⟨b, hb⟩ := exists_typesList lower c datatypes symbols
  obtain ⟨hab, hbd⟩ := h a b d ha hb hd
  exact hab.trans hbd

/-- What `LoadSymbolsSlow` files under no symbol's key is shown: the other way finds it too. -/
theorem shown_of_lookup (hn : a.lookup k = some n) (hk : k ∉ rootMap lower symbols) :
    Shown lower datatypes symbols n := by
  obtain ⟨roots, hp⟩ := exists_parseSymbols lower noDataTypes symbols ∅
  obtain ⟨b, hr⟩ := exists_rebuildSymbolChildren lower datatypes roots
  have hb : TypesList lower c datatypes symbols b :=
    typesList_iff.2 ⟨symbols, roots, Perm.refl _, hp, hr⟩
  rw [h.slow_eq_typesList ha hb] at hn
  exact (shown_of_rebuild (Perm.refl _) hp hr hn hk).1

end

theorem unambiguous (h : SameMap lower c datatypes symbols) : Unambiguous lower datatypes symbols where
  roots u hu v hv heq := by
    obtain ⟨a, ha, hau⟩ := exists_slow_root hu
    obtain ⟨a', ha', hav⟩ := exists_slow_root hv
    rw [h.slow_unique ha ha', heq, hav] at hau
    exact (upload_injective (Option.some.inj hau)).symm
  members n n' hn hn' heq hk := by
    obtain ⟨a, ha, hl⟩ := exists_slow_member hn hk
    obtain ⟨a', ha', hl'⟩ := exists_slow_member hn' (heq ▸ hk)
    rw [h.slow_unique ha ha', heq, hl'] at hl
    exact (Option.some.inj hl).symm
  shown n hn hk := by
    obtain ⟨a, ha, hl⟩ := exists_slow_member hn hk
    exact h.shown_of_lookup ha hl hk

section

variable (h : SameMap lower c datatypes symbols) (hl : c.datatypesLoaded = true) (hd : c.datatypes = some old)

include h hl hd

theorem lookup_of_old {roots m₀ s}
    (hp : ParseSymbols lower noDataTypes symbols ∅ roots) (he : RebuildSymbolChildren lower old roots m₀)
    (ha : Slow lower c datatypes symbols a) (hs : m₀.lookup k = some s) :
    a.lookup k = some (s.build datatypes) := by
  obtain ⟨d, hr⟩ := exists_rebuildSymbolChildren lower datatypes m₀
  have he' : Expands lower c roots m₀ := by
    simp only [Expands, hl, hd]
    exact he
  have hd' : ListTypes lower c datatypes symbols d :=
    listTypes_iff.2 ⟨symbols, roots, m₀, Perm.refl _, hp, he', hr⟩
  rw [h.slow_eq_listTypes ha hd']
  exact hr.built hs

theorem compatible : Compatible lower old datatypes symbols := by
  have hun := h.unambiguous
  obtain ⟨roots, hp⟩ := exists_parseSymbols lower noDataTypes symbols ∅
  have hroot : ∀ u ∈ symbols, roots.lookup (symbolKey lower u.name) = some u.symbol := fun u hu =>
    hp.last hu (hun.one (Perm.refl _) hu)
  constructor
  · intro u hu hnone
    obtain ⟨a, ha, hau⟩ := exists_slow_root hu
    obtain ⟨m₀, he⟩ := exists_rebuildSymbolChildren lower old roots
    have hold : m₀.lookup (symbolKey lower u.name) = some (addSymbol old u) := he.built (hroot u hu)
    have hinfo : (addSymbol old u).info = u.symbol.info := info_build
    rw [h.lookup_of_old hl hd hp he ha hold, build_of_none (by rw [hinfo]; exact hnone),
      addSymbol_of_none hnone] at hau
    rw [Option.some.inj hau]
    rfl
  · rintro n ⟨u, hu, hn⟩
    -- a type without members shows nothing
    obtain ⟨dt, hdt⟩ : ∃ dt, old u.dataType = some dt := by
      apply Option.ne_none_iff_exists'.1
      intro hnone
      rw [addSymbol_of_none hnone] at hn
      exact (hn.hereditary (G := fun _ => False) (fun _ hf => hf.elim) fun y hy => by cases hy)
    have hk : n.key lower ∉ rootMap lower symbols := hn.notMem
    have hexp : ExposedIn lower roots (u.symbol.build old).kids n :=
      hn.anti fun k hk => (mem_roots (Perm.refl _) hp).1 hk
    obtain ⟨m₀, he, hfiled⟩ := exists_rebuild_filing (hroot u hu) rfl (grown_symbol u) hdt hexp
    obtain ⟨a, ha, -⟩ := exists_slow_root hu
    exact (h.shown_of_lookup ha (h.lookup_of_old hl hd hp he ha hfiled) hk).member

end

end SameMap

/-- **All discovery paths build the same map exactly when** the tables name everything once and datatypes
    that were loaded before say nothing else about the symbols. -/
theorem sameMap_iff (lower : Char → Char) (c : Cache) (datatypes : DataTypes) (symbols : List Upload) :
    SameMap lower c datatypes symbols ↔
      Unambiguous lower datatypes symbols ∧
        ∀ old, c.datatypesLoaded = true → c.datatypes = some old →
          Compatible lower old datatypes symbols := by
  constructor
  · intro h
    exact ⟨h.unambiguous, fun old hl hd => h.compatible hl hd⟩
  · rintro ⟨hun, hc⟩
    exact sameMap_of hun hc

namespace Example

/-- A table with one structure type, which has one member. -/
def oneMember (field : Name) : DataTypes := fun name =>
  if name = ['S', 'T'] then
    some { dataType := ['S', 'T'], arrayDim := 0
           children := [{ name := field, dataType := ['I', 'N', 'T'], size := 2, baseType := 2, offs := 0 }]
           sorted := pairwise_singleton _ _ }
  else none

/-- A variable of that type. -/
def mainVar : Upload :=
  { name := ['M'], dataType := ['S', 'T'], size := 2, baseType := 65, group := 0x4040, offset := 0 }

/-- Its member. -/
def mainMember (field : Name) : Symbol :=
  .mk { fullName := ['M', '.'] ++ field, dataType := ['I', 'N', 'T'], length := 2, baseType := 2
        group := 0x4040, offset := 0 } []

end Example

open Example

/-- The member of the type is renamed in a new program.  After an earlier `LoadDataTypes`, the way by
    `LoadSymbolList` and `LoadDataTypes` keeps the old member as well. -/
theorem stale_member_stays : ¬∀ r : Ranging id,
      SameMap id (loadDataTypes r (serving (oneMember ['a']) []) .empty).1
        (oneMember ['b']) [mainVar] := by
  intro h
  obtain ⟨r⟩ := nonempty_ranging id
  have hc : Compatible id (oneMember ['a']) (oneMember ['b']) [mainVar] :=
    (h r).compatible rfl rfl
  have hshown : Shown id (oneMember ['a']) [mainVar] (mainMember ['a']) := by
    refine ⟨mainVar, mem_singleton_self _, .here ?_ ?_⟩
    · exact mem_singleton_self _
    · rw [mem_rootMap]
      decide
  obtain ⟨u, hu, hexp⟩ := hc.members _ hshown
  obtain rfl := mem_singleton.1 hu
  -- the new type has one member, which has none
  have heq : mainMember ['a'] = mainMember ['b'] := by
    refine hexp.hereditary (G := fun n => n = mainMember ['b']) ?_ ?_
    · rintro p rfl n hn
      cases hn
    · intro n hn
      exact mem_singleton.1 hn
  have hname := congrArg (fun n => n.info.fullName) heq
  revert hname
  decide

end GoAds.Discovery
