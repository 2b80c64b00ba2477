import GoAds.Symbols.Steps

/-!
# `Symbols.Heap` — what a critical section leaves alone

An object that is allocated keeps its address in PLC memory for good, and its layout until the datatype
table is loaded anew; an entry stays the entry of its name until a swap.
-/

namespace GoAds.Symbols

open Interleaving Function List Cache

variable {Key Layout Types : Type} {c : Cache Key Layout Types} {id : SymId}

/-! ## Operations on objects -/

namespace Cache

theorem heap_allocate (descs : List (Desc Layout)) (h : id < c.next) :
    (c.allocate descs).heap id = c.heap id := by
  have hn : ¬ c.next ≤ id := Nat.not_le.2 h
  simp only [allocate, if_neg hn]

theorem desc_setHandle (i : SymId) (h : UInt32) : ((c.setHandle i h).heap id).desc = (c.heap id).desc := by
  unfold setHandle
  by_cases hi : id = i
  · subst hi
    simp only [update_self]
  · simp only [update_of_ne hi]

theorem handle_setHandle_of_ne {i} (h : UInt32) (hi : id ≠ i) :
    (c.setHandle i h).heap id = c.heap id := by
  unfold setHandle
  simp only [update_of_ne hi]

theorem handle_setHandle (h : UInt32) : ((c.setHandle id h).heap id).handle = h := by
  unfold setHandle
  simp only [update_self]

theorem desc_zeroHandles (values : Bool) : ((c.zeroHandles values).heap id).desc = (c.heap id).desc := by
  unfold zeroHandles
  by_cases hl : c.listed id = true
  · simp only [if_pos hl]
  · simp only [if_neg hl]

/-- Stores of values change nothing but values. -/
structure OnlyValues (c c' : Cache Key Layout Types) : Prop where
  symbols : c'.symbols = c.symbols
  next : c'.next = c.next
  datatypes : c'.datatypes = c.datatypes
  swaps : c'.swaps = c.swaps
  connection : c'.connection = c.connection
  desc : ∀ id, (c'.heap id).desc = (c.heap id).desc
  handle : ∀ id, (c'.heap id).handle = (c.heap id).handle

theorem onlyValues_setValue (i : SymId) (d : Option (Decoded Layout Types)) :
    OnlyValues c (c.setValue i d) := by
  refine ⟨rfl, rfl, rfl, rfl, rfl, fun id => ?_, fun id => ?_⟩
  all_goals
    unfold setValue
    by_cases hi : id = i
    · subst hi
      simp only [update_self]
    · simp only [update_of_ne hi]

theorem onlyValues_setValues (ds : List (SymId × Option (Decoded Layout Types))) :
    OnlyValues c (c.setValues ds) := by
  induction ds generalizing c with
  | nil => exact ⟨rfl, rfl, rfl, rfl, rfl, fun _ => rfl, fun _ => rfl⟩
  | cons p ds ih =>
    have h1 : OnlyValues c (c.setValue p.1 p.2) := onlyValues_setValue p.1 p.2
    have h2 : OnlyValues (c.setValue p.1 p.2) (c.setValues (p :: ds)) := ih
    exact ⟨h2.symbols.trans h1.symbols, h2.next.trans h1.next, h2.datatypes.trans h1.datatypes,
      h2.swaps.trans h1.swaps, h2.connection.trans h1.connection,
      fun id => (h2.desc id).trans (h1.desc id), fun id => (h2.handle id).trans (h1.handle id)⟩

variable [DecidableEq Key]

theorem heap_relayout (c : Cache Key Layout Types) (id : SymId) (layouts : List (Key × Layout)) :
    ∃ l, (c.relayout layouts).heap id =
      { c.heap id with desc := { (c.heap id).desc with layout := l } } := by
  cases hf : layouts.find? fun p => c.entry p.1 = some id with
  | some p => exact ⟨p.2, by simp only [relayout, hf]⟩
  | none => exact ⟨(c.heap id).desc.layout, by simp only [relayout, hf]⟩

omit [DecidableEq Key] in
theorem of_mem_mapOf {next : SymId} {table : List (Key × Desc Layout)} {p : Key × SymId}
    (h : p ∈ mapOf next table) : next ≤ p.2 ∧ p.2 < next + table.length := by
  have h := mem_zipIdx h
  simp only [length_map] at h
  exact ⟨h.1, h.2.1⟩

theorem mem_of_entry {n} (h : c.entry n = some id) : (n, id) ∈ c.symbols := by
  obtain ⟨l, l', hl, -⟩ := lookup_eq_some_iff.1 h
  rw [hl]
  exact mem_append_right l (mem_cons_self ..)

/-- The entries are allocated. -/
def Closed (c : Cache Key Layout Types) : Prop := ∀ p ∈ c.symbols, p.2 < c.next

theorem Closed.entry_lt {n} (hc : c.Closed) (h : c.entry n = some id) : id < c.next :=
  hc _ (mem_of_entry h)

end Cache

/-! ## Critical sections -/

section Effects

variable [DecidableEq Key] {e : Effect Key Layout Types} {n : Key}

theorem Effect.next_le_run : c.next ≤ (e.run c).next := by
  cases e with
  | insert => exact Nat.le_succ _
  | store | drop => exact Nat.le_of_eq (onlyValues_setValues _).next.symm
  | swap zeroed => cases zeroed <;> exact Nat.le_add_right _ _
  | expand => exact Nat.le_add_right _ _
  | _ => exact Nat.le_refl _

theorem Effect.of_mem_symbols_run {p : Key × SymId} (h : p ∈ (e.run c).symbols) :
    p ∈ c.symbols ∨ c.next ≤ p.2 ∧ p.2 < (e.run c).next := by
  cases e with
  | insert =>
    rcases mem_cons.1 h with rfl | h
    · exact .inr ⟨Nat.le_refl _, Nat.lt_succ_self _⟩
    · exact .inl h
  | store | drop => exact .inl ((onlyValues_setValues _).symbols ▸ h)
  | swap zeroed =>
    have hm := of_mem_mapOf h
    refine .inr ⟨hm.1, ?_⟩
    cases zeroed <;> simpa [Effect.run, Cache.allocate, Cache.zeroHandles] using hm.2
  | expand =>
    rcases mem_append.1 h with h | h
    · exact .inl h
    · have hm := of_mem_mapOf h
      exact .inr ⟨hm.1, by simpa [Effect.run, Cache.allocate, Cache.relayout] using hm.2⟩
  | _ => exact .inl h

theorem Cache.Closed.run (h : c.Closed) : (e.run c).Closed := by
  intro p hp
  rcases Effect.of_mem_symbols_run hp with hp | hp
  · exact Nat.lt_of_lt_of_le (h p hp) Effect.next_le_run
  · exact hp.2

theorem Effect.entry_run {id} (he : c.entry n = some id)
    (hins : ∀ key d h, e = .insert key d h → c.entry key = Option.none) :
    (e.run c).entry n = some id ∨ ∃ zeroed types table, e = .swap zeroed types table := by
  cases e with
  | insert key d h =>
    left
    have hne : (n == key) = false := by
      rw [beq_eq_false_iff_ne]
      rintro rfl
      exact nomatch he.symm.trans (hins n d h rfl)
    show lookup n ((key, c.next) :: c.symbols) = some id
    rw [lookup_cons, hne]
    exact he
  | store | drop =>
    left
    show lookup n (c.setValues _).symbols = some id
    rw [(onlyValues_setValues _).symbols]
    exact he
  | swap zeroed types table => exact .inr ⟨zeroed, types, table, rfl⟩
  | expand =>
    left
    show lookup n (c.symbols ++ _) = some id
    rw [lookup_append]
    have he' : lookup n c.symbols = some id := he
    rw [he']
    rfl
  | _ => exact .inl he

/-- A critical section that adds an entry of a name, with a new object of that description. -/
inductive Effect.Adds (n : Key) (d : Desc Layout) : Effect Key Layout Types → Prop
  | insert (x : UInt32) : Effect.Adds n d (.insert n d x)
  | swap (zeroed : Bool) (types : Option Types) (table : List (Key × Desc Layout))
      (h : (n, d) ∈ table) : Effect.Adds n d (.swap zeroed types table)
  | expand (types : Types) (layouts : List (Key × Layout)) (added : List (Key × Desc Layout))
      (h : (n, d) ∈ added) : Effect.Adds n d (.expand types layouts added)

theorem heap_insert (key : Key) (d : Desc Layout) (h : UInt32) :
    ((Effect.insert key d h).run c).entry key = some c.next ∧
      (((Effect.insert key d h).run c).heap c.next).desc = d ∧
      (((Effect.insert key d h).run c).heap c.next).handle = h := by
  refine ⟨lookup_cons_self, ?_, ?_⟩
  · show (((c.allocate [d]).setHandle c.next h).heap c.next).desc = d
    rw [desc_setHandle]
    simp [Cache.allocate]
  · exact handle_setHandle h

omit [DecidableEq Key] in
theorem Cache.desc_of_mem_mapOf {table : List (Key × Desc Layout)} {p : Key × SymId}
    (h : p ∈ Cache.mapOf c.next table) :
    (p.1, ((c.allocate (table.map Prod.snd)).heap p.2).desc) ∈ table := by
  obtain ⟨hle, hlt, hp⟩ := mem_zipIdx h
  simp only [length_map] at hlt
  have hi : p.2 - c.next < table.length := Nat.sub_lt_left_of_lt_add hle hlt
  have hd : (table.map Prod.snd)[p.2 - c.next]? = some (table[p.2 - c.next]).2 := by
    simp [getElem?_map, getElem?_eq_getElem hi]
  have hd' : ((c.allocate (table.map Prod.snd)).heap p.2).desc = (table[p.2 - c.next]).2 := by
    simp only [Cache.allocate, if_pos hle, hd]
  rw [hd', hp, getElem_map]
  exact getElem_mem hi

theorem Effect.entry_of_run (h : (e.run c).entry n = some id) :
    (c.entry n = some id ∧ ∀ z ty table, e ≠ .swap z ty table) ∨
      ∃ d, e.Adds n d ∧ ((e.run c).heap id).desc = d := by
  cases e with
  | insert key d x =>
    have h : lookup n ((key, c.next) :: c.symbols) = some id := h
    rw [lookup_cons] at h
    by_cases hn : n = key
    · subst hn
      rw [beq_self_eq_true] at h
      obtain rfl : c.next = id := Option.some.inj h
      exact .inr ⟨d, .insert x, (heap_insert n d x).2.1⟩
    · rw [beq_eq_false_iff_ne.2 hn] at h
      exact .inl ⟨h, by simp⟩
  | store | drop =>
    have h : lookup n (c.setValues _).symbols = some id := h
    rw [(onlyValues_setValues _).symbols] at h
    exact .inl ⟨h, by simp⟩
  | swap zeroed ty table =>
    have hm := mem_of_entry h
    refine .inr ⟨_, .swap zeroed ty table ?_, rfl⟩
    cases zeroed with
    | true => exact desc_of_mem_mapOf (c := c.zeroHandles true) hm
    | false => exact desc_of_mem_mapOf hm
  | expand ty layouts added =>
    have h : lookup n (c.symbols ++ _) = some id := h
    rw [lookup_append] at h
    cases hc : lookup n c.symbols with
    | some =>
      rw [hc] at h
      exact .inl ⟨hc.trans h, by simp⟩
    | none =>
      rw [hc] at h
      obtain ⟨l, l', hl, -⟩ := lookup_eq_some_iff.1 h
      have hm : (n, id) ∈ Cache.mapOf c.next (added.filter fun p => (c.entry p.1).isNone) :=
        hl ▸ mem_append_right l (mem_cons_self ..)
      have hd := desc_of_mem_mapOf (c := c.relayout layouts) hm
      exact .inr ⟨_, .expand ty layouts added (mem_filter.1 hd).1, rfl⟩
  | _ => exact .inl ⟨h, by simp⟩

/-- An object keeps its description, up to the children that `LoadDataTypes` builds. -/
theorem Effect.desc_run (hid : id < c.next) : ((e.run c).heap id).desc = (c.heap id).desc ∨
      (∃ types layouts added, e = .expand types layouts added) ∧
        ∃ l, ((e.run c).heap id).desc = { (c.heap id).desc with layout := l } := by
  cases e with
  | setHandle i h => exact .inl (desc_setHandle i h)
  | insert key d h =>
    left
    show (((c.allocate [d]).setHandle c.next h).heap id).desc = (c.heap id).desc
    rw [desc_setHandle, heap_allocate _ hid]
  | store | drop => exact .inl ((onlyValues_setValues _).desc id)
  | swap zeroed =>
    left
    cases zeroed with
    | true =>
      show (((c.zeroHandles true).allocate _).heap id).desc = (c.heap id).desc
      rw [heap_allocate (c := c.zeroHandles true) _ hid, desc_zeroHandles]
    | false =>
      show ((c.allocate _).heap id).desc = (c.heap id).desc
      rw [heap_allocate _ hid]
  | expand types layouts added =>
    right
    obtain ⟨l, hl⟩ := heap_relayout c id layouts
    refine ⟨⟨types, layouts, added, rfl⟩, l, ?_⟩
    show (((c.relayout layouts).allocate _).heap id).desc = _
    rw [heap_allocate (c := c.relayout layouts) _ hid, hl]
  | zero values => exact .inl (desc_zeroHandles values)
  | _ => exact .inl rfl

theorem Effect.group_run (hid : id < c.next) : ((e.run c).heap id).desc.group = (c.heap id).desc.group := by
  rcases Effect.desc_run hid with h | ⟨-, l, h⟩
  · rw [h]
  · rw [h]

/-- An object loses its handle when it is an entry and the handles are zeroed. -/
theorem Effect.handle_run (hid : id < c.next) (h : (c.heap id).handle ≠ 0)
    (h' : ((e.run c).heap id).handle = 0) :
    (c.listed id = true ∧ ∃ values, e = .zero values) ∨ (∃ types table, e = .swap true types table) ∨
      e = .setHandle id 0 := by
  cases e with
  | setHandle i x =>
    by_cases hi : id = i
    · subst hi
      have hx : x = 0 := (handle_setHandle x).symm.trans h'
      rw [hx]
      exact .inr (.inr rfl)
    have hk : ((c.setHandle i x).heap id).handle = 0 := h'
    rw [handle_setHandle_of_ne x hi] at hk
    exact absurd hk h
  | insert key d x =>
    have hk : (((c.allocate [d]).setHandle c.next x).heap id).handle = 0 := h'
    rw [handle_setHandle_of_ne x (Nat.ne_of_lt hid), heap_allocate _ hid] at hk
    exact absurd hk h
  | store | drop => exact absurd (((onlyValues_setValues _).handle id).symm.trans h') h
  | swap zeroed types table =>
    cases zeroed with
    | true => exact .inr (.inl ⟨types, table, rfl⟩)
    | false =>
      have hk : ((c.allocate _).heap id).handle = 0 := h'
      rw [heap_allocate _ hid] at hk
      exact absurd hk h
  | expand types layouts =>
    have hk : (((c.relayout layouts).allocate _).heap id).handle = 0 := h'
    obtain ⟨l, hl⟩ := heap_relayout c id layouts
    rw [heap_allocate (c := c.relayout layouts) _ hid, hl] at hk
    exact absurd hk h
  | zero values =>
    left
    refine ⟨?_, values, rfl⟩
    by_contra hl
    have hk : ((c.zeroHandles values).heap id).handle = 0 := h'
    simp only [Cache.zeroHandles, if_neg hl] at hk
    exact h hk
  | _ => exact absurd h' h

end Effects

end GoAds.Symbols
