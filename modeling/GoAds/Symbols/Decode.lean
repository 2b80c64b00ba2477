import GoAds.Symbols.Resolve

/-!
# `Symbols.Decode` — bytes are decoded as what they were requested as

ReadFromSymbol decodes the answer with the object and the datatype table it built its request from.
ReadMultipleSymbols looks the name up again after the round trip, so that the value is stored in the live
entry, and decodes with that entry and the table of that moment.  When a load has changed the type of the
symbol in between, the bytes of the old type are read as the new one.
-/

namespace GoAds.Symbols

open Interleaving List Cache

variable {Key Layout Types : Type}

/-- A value is what its bytes say under the description and the table of its request. -/
def Decoded.Faithful (parse : Parse Layout Types) (d : Decoded Layout Types) : Prop :=
  d.desc.decode parse d.types d.bytes = some d.value

/-! ## What a goroutine has in flight -/

def Batch.reads (b : Batch Key Layout Types) : List (Item Key Layout Types) :=
  if b.write then [] else b.items

def Caller.reads : Caller Key Layout Types → List (Item Key Layout Types)
  | .batch b => b.reads
  | _ => []

/-- The items of the batch read that a goroutine is in. -/
def Pc.reads : Pc Key Layout Types → List (Item Key Layout Types)
  | .lookup _ k | .handleRpc _ _ k | .setHandle _ _ _ k | .infoRpc _ k | .onDemandRpc _ _ _ k
  | .insert _ _ _ _ _ k => k.reads
  | .serialize _ _ b | .select _ _ b | .sumRpc b | .sumDone b _ => b.reads
  | _ => []

def Pc.single : Pc Key Layout Types → List (Item Key Layout Types)
  | .readRpc item _ _ | .readDecode item _ => [item]
  | _ => []

/-- The objects that a read has resolved and not yet built a request from. -/
def Pc.held : Pc Key Layout Types → List (Key × SymId)
  | .snapshot n id _ _ => [(n, id)]
  | .serialize n id b | .select n id b => if b.write then [] else [(n, id)]
  | _ => []

/-- What a goroutine will decode: the name, the object and the description. -/
def Pc.flight (c : Cache Key Layout Types) (pc : Pc Key Layout Types) : List (Key × SymId × Desc Layout) :=
  pc.held.map (fun p => (p.1, p.2, (c.heap p.2).desc)) ++
    (pc.single ++ pc.reads).map fun item => (item.name, item.id, item.desc)

variable [DecidableEq Key]

/-- **The shape of what is in flight is left alone.**

    * A load, `LoadDataTypes` or the insert of another resolve adds no entry of the name with another
      shape.
    * `LoadDataTypes` gives neither the object nor the entry of the name another layout. -/
def ShapesKept (s : State Key Layout Types) (x : Nat × Act Key Layout Types) : Prop :=
  match x.2 with
  | .swap _ _ table => ∀ u, ∀ f ∈ (s.loc u).flight s.shared, ∀ d, (f.1, d) ∈ table →
      d.SameShape f.2.2
  | .expand _ layouts added => ∀ u, ∀ f ∈ (s.loc u).flight s.shared,
      (∀ d, (f.1, d) ∈ added → d.SameShape f.2.2) ∧
        ∀ p ∈ layouts, ∀ j, s.shared.entry p.1 = some j →
          j = f.2.1 ∨ s.shared.entry f.1 = some j → p.2 = f.2.2.layout
  | .next =>
    match s.loc x.1 with
    | .insert n d _ _ _ _ => ∀ u, ∀ f ∈ (s.loc u).flight s.shared, n = f.1 → d.SameShape f.2.2
    | _ => True
  | _ => True

/-- The datatype table is left alone while a batch read is in flight. -/
def TypesKept (s : State Key Layout Types) (x : Nat × Act Key Layout Types) : Prop :=
  match x.2 with
  | .swap _ types _ => ∀ u, ∀ item ∈ (s.loc u).reads, types.getD s.shared.datatypes = item.types
  | .expand types _ _ => ∀ u, ∀ item ∈ (s.loc u).reads, types = item.types
  | _ => True

/-- The value that ReadFromSymbol returns from the cache. -/
def cachedValue (c : Cache Key Layout Types) :
    Pc Key Layout Types → Act Key Layout Types → Option (Key × Decoded Layout Types)
  | .snapshot n id _ _, .fresh true =>
    ((c.heap id).value.filter fun d => d.value ≠ "").map fun d => (n, d)
  | _, _ => none

/-- The values that a read returns from the answer to its request. -/
def readValues (parse : Parse Layout Types) (c : Cache Key Layout Types) :
    Pc Key Layout Types → List (Key × Decoded Layout Types)
  | .readDecode item bytes =>
    (((c.heap item.id).desc.decode parse item.types bytes).map fun v =>
      (item.name, ⟨v, bytes, item.desc, item.types⟩)).toList
  | .sumDone b rs => if b.write then [] else (c.decodeItems parse b rs).map fun p => (p.1, p.2.2)
  | _ => []

/-! ## One item -/

variable {parse : Parse Layout Types} {c : Cache Key Layout Types} {pc pc' : Pc Key Layout Types}
  {a : Act Key Layout Types} {e : Effect Key Layout Types} {n : Key} {id : SymId} {d : Desc Layout}

theorem Desc.SameShape.decode {Layout Types : Type} {d d' : Desc Layout} (h : d.SameShape d')
    (parse : Parse Layout Types) (types : Types) (bytes : List UInt8) :
    d.decode parse types bytes = d'.decode parse types bytes := by
  unfold Desc.decode
  rw [h.1, h.2]

/-- The object, and the entry that the name may have, are of the shape of the request. -/
structure Kept (c : Cache Key Layout Types) (n : Key) (id : SymId) (d : Desc Layout) : Prop where
  allocated : id < c.next
  object : (c.heap id).desc.SameShape d
  entry : ∀ j, c.entry n = some j → (c.heap j).desc.SameShape d

/-- A critical section that leaves the shape of an item alone. -/
structure Effect.Keeps (c : Cache Key Layout Types) (n : Key) (id : SymId) (d : Desc Layout)
    (e : Effect Key Layout Types) : Prop where
  adds : ∀ d', e.Adds n d' → d'.SameShape d
  layouts : ∀ types layouts added, e = .expand types layouts added → ∀ p ∈ layouts, ∀ j,
    c.entry p.1 = some j → j = id ∨ c.entry n = some j → p.2 = d.layout

/-- The shape of an object changes only by the layout that `LoadDataTypes` gives it. -/
theorem Effect.shape_run (hid : id < c.next) (hd : (c.heap id).desc.SameShape d)
    (hl : ∀ types layouts added, e = .expand types layouts added → ∀ p ∈ layouts,
      c.entry p.1 = some id → p.2 = d.layout) : ((e.run c).heap id).desc.SameShape d := by
  rcases Effect.desc_run (e := e) hid with h | ⟨⟨types, layouts, added, rfl⟩, -⟩
  · rw [h]
    exact hd
  show (((c.relayout layouts).allocate _).heap id).desc.SameShape d
  rw [heap_allocate (c := c.relayout layouts) _ hid]
  cases hf : layouts.find? fun p => c.entry p.1 = some id with
  | none =>
    simp only [Cache.relayout, hf]
    exact hd
  | some p =>
    simp only [Cache.relayout, hf]
    have hp : c.entry p.1 = some id := by simpa using find?_some hf
    exact ⟨hl types layouts added rfl p (mem_of_find?_eq_some hf) hp, hd.2⟩

/-- **An item keeps its shape** through a critical section that leaves it alone. -/
theorem Kept.run (hk : Kept c n id d) (hc : c.Closed) (hke : e.Keeps c n id d) : Kept (e.run c) n id d := by
  refine ⟨Nat.lt_of_lt_of_le hk.allocated Effect.next_le_run, ?_, fun j hj => ?_⟩
  · exact Effect.shape_run hk.allocated hk.object fun types layouts added he p hp hpe =>
      hke.layouts types layouts added he p hp id hpe (.inl rfl)
  rcases Effect.entry_of_run hj with ⟨hj', -⟩ | ⟨d', hadd, hd'⟩
  · exact Effect.shape_run (hc.entry_lt hj') (hk.entry j hj') fun types layouts added he p hp hpe =>
      hke.layouts types layouts added he p hp j hpe (.inr hj')
  · rw [hd']
    exact hke.adds d' hadd

omit [DecidableEq Key] in
theorem Desc.SameShape.trans_symm {d₁ d₂ d₃ : Desc Layout} (h₁ : d₁.SameShape d₂)
    (h₂ : d₃.SameShape d₂) : d₁.SameShape d₃ :=
  ⟨h₁.1.trans h₂.1.symm, h₁.2.trans h₂.2.symm⟩

/-- An object that is held is compared with its own description of the moment. -/
theorem Kept.held (hk : Kept c n id d) : Kept c n id (c.heap id).desc :=
  ⟨hk.allocated, ⟨rfl, rfl⟩, fun j hj => (hk.entry j hj).trans_symm hk.object⟩

theorem Kept.of_entry (hc : c.Closed) (he : c.entry n = some id) : Kept c n id (c.heap id).desc := by
  refine ⟨hc.entry_lt he, ⟨rfl, rfl⟩, fun j hj => ?_⟩
  cases he.symm.trans hj
  exact ⟨rfl, rfl⟩

/-! ## One goroutine -/

section Goroutine

omit [DecidableEq Key]

/-- A goroutine that has at most these items of a batch read in flight. -/
structure Pc.Carries (items : List (Item Key Layout Types)) (pc : Pc Key Layout Types) : Prop where
  reads : ∀ item ∈ pc.reads, item ∈ items
  single : pc.single = []
  held : pc.held = []

theorem Batch.carries_go (b : Batch Key Layout Types) : b.go.Carries b.reads := by
  unfold Batch.go
  split
  · exact ⟨fun _ h => h, rfl, rfl⟩
  split
  · exact ⟨fun _ h => (nomatch h), rfl, rfl⟩
  · exact ⟨fun _ h => h, rfl, rfl⟩

theorem Batch.carries_start (write : Bool) (names : List Key) (gen r : Nat) :
    (Batch.start write names gen r : Batch Key Layout Types).go.Carries [] := by
  obtain ⟨hr, hs, hh⟩ := (Batch.start write names gen r : Batch Key Layout Types).carries_go
  refine ⟨fun item h => ?_, hs, hh⟩
  have h := hr item h
  cases write <;> exact h

theorem Caller.carries_failed (k : Caller Key Layout Types) : k.failed.Carries k.reads := by
  cases k with
  | batch b => exact b.carries_go
  | _ => exact ⟨fun _ h => (nomatch h), rfl, rfl⟩

/-- An item that is built in this step, from an object that was held. -/
def Pc.Builds (c : Cache Key Layout Types) (pc : Pc Key Layout Types) (e : Effect Key Layout Types)
    (item : Item Key Layout Types) : Prop :=
  e = .none ∧ ∃ n id address, (n, id) ∈ pc.held ∧ item = c.item n id address

variable [DecidableEq Key]

/-- What a goroutine has in flight after a step: what it had, the entry that `getSymbol` has returned, and
    an item built from what it held. -/
structure Pc.Moves (c : Cache Key Layout Types) (pc pc' : Pc Key Layout Types)
    (e : Effect Key Layout Types) : Prop where
  held : ∀ p ∈ pc'.held, p ∈ pc.held ∨ (e.run c).entry p.1 = some p.2
  single : ∀ item ∈ pc'.single, item ∈ pc.single ∨ pc.Builds c e item
  reads : ∀ item ∈ pc'.reads, item ∈ pc.reads ∨ pc.Builds c e item

theorem Pc.Carries.moves {items} (h : pc'.Carries items)
    (hr : pc.reads = items) : pc.Moves c pc' e where
  held _ hp := by rw [h.held] at hp; cases hp
  single _ hi := by rw [h.single] at hi; cases hi
  reads item hi := .inl (hr ▸ h.reads item hi)

theorem Pc.Carries.moves_nil (h : pc'.Carries []) : pc.Moves c pc' e :=
  Pc.Carries.moves ⟨fun item hi => (nomatch h.reads item hi), h.single, h.held⟩ rfl

theorem Caller.moves_got {k : Caller Key Layout Types} (he : (e.run c).entry n = some id)
    (hr : pc.reads = k.reads) : pc.Moves c (k.got n id) e := by
  cases k with
  | alone => exact Pc.Carries.moves_nil ⟨fun _ h => absurd h not_mem_nil, rfl, rfl⟩
  | read =>
    refine ⟨fun p hp => ?_, fun _ h => absurd h not_mem_nil, fun _ h => absurd h not_mem_nil⟩
    obtain rfl : p = (n, id) := mem_singleton.1 hp
    exact .inr he
  | batch b =>
    by_cases hw : b.write = true
    · rw [Caller.got, if_pos hw]
      refine ⟨fun p hp => ?_, fun _ h => absurd h not_mem_nil, fun item hi => .inl (hr ▸ hi)⟩
      simp [Pc.held, hw] at hp
    rw [Caller.got, if_neg hw]
    refine ⟨fun p hp => ?_, fun _ h => absurd h not_mem_nil, fun item hi => .inl (hr ▸ hi)⟩
    obtain rfl : p = (n, id) := by simpa [Pc.held, hw] using hp
    exact .inr he

theorem moves_select (b : Batch Key Layout Types) (address : UInt32 × UInt32) : (Pc.select n id b).Moves c
      (Batch.go { b with items := b.items ++ [c.item n id address] }) .none := by
  obtain ⟨hr, hs, hh⟩ := Batch.carries_go { b with items := b.items ++ [c.item n id address] }
  refine ⟨fun p hp => ?_, fun item hi => ?_, fun item hi => ?_⟩
  · rw [hh] at hp
    cases hp
  · rw [hs] at hi
    cases hi
  have hi := hr item hi
  by_cases hw : b.write = true
  · simp [Batch.reads, hw] at hi
  have hi : item ∈ b.items ++ [c.item n id address] := by simpa [Batch.reads, hw] using hi
  rcases mem_append.1 hi with hi | hi
  · left
    simpa [Pc.reads, Batch.reads, hw] using hi
  · right
    exact ⟨rfl, n, id, address, by simp [Pc.held, hw], mem_singleton.1 hi⟩

theorem GetStep.moves (hs : GetStep c pc a pc' e) : pc.Moves c pc' e := by
  cases hs with
  | hit m k i he | duplicate m i x k he | setHandle m i x k he | existing m d x info ans k i he =>
    exact k.moves_got he rfl
  | insert m d x info ans k => exact k.moves_got (heap_insert m d x).1 rfl
  | handleFail m i k | infoFail m k | answerFail m d info k | swapped m i x k =>
    exact k.carries_failed.moves rfl
  | _ => exact Pc.Carries.moves ⟨fun _ h => h, rfl, rfl⟩ rfl

theorem ReadStep.moves (hs : ReadStep parse c pc a pc' e) : pc.Moves c pc' e := by
  cases hs with
  | request m i =>
    refine ⟨fun _ h => (nomatch h), fun item hi => ?_, fun _ h => nomatch h⟩
    exact .inr ⟨rfl, m, i, _, mem_singleton_self _, mem_singleton.1 hi⟩
  | data item =>
    exact ⟨fun _ h => (nomatch h), fun item hi => .inl hi, fun _ h => nomatch h⟩
  | _ => exact Pc.Carries.moves_nil ⟨fun _ h => (nomatch h), rfl, rfl⟩

theorem BatchStep.moves (hs : BatchStep parse c pc a pc' e) : pc.Moves c pc' e := by
  cases hs with
  | serialized => exact ⟨fun _ hp => .inl hp, fun _ h => (nomatch h), fun _ hi => .inl hi⟩
  | unserializable m i b => exact b.carries_go.moves rfl
  | select m i b => exact moves_select b _
  | results => exact Pc.Carries.moves ⟨fun _ h => h, rfl, rfl⟩ rfl
  | retry => exact (Batch.carries_start _ _ _ _).moves_nil
  | _ => exact Pc.Carries.moves_nil ⟨fun _ h => (nomatch h), rfl, rfl⟩

theorem PlanStep.moves (hs : PlanStep parse c pc a pc' e) : pc.Moves c pc' e := by
  cases hs with
  | get hs | read hs | batch hs => exact hs.moves
  | idle hs =>
    cases hs with
    | readMultipleSymbols names gen r | writeMultipleSymbols names gen r =>
      exact (Batch.carries_start _ _ _ _).moves_nil
    | _ => exact Pc.Carries.moves_nil ⟨fun _ h => (nomatch h), rfl, rfl⟩

end Goroutine

/-! ## Values -/

section Values

variable {x : Decoded Layout Types}

omit [DecidableEq Key]

theorem Cache.value_allocate {descs} (hid : id < c.next + descs.length)
    (h : ((c.allocate descs).heap id).value = some x) : id < c.next ∧ (c.heap id).value = some x := by
  by_cases hn : c.next ≤ id
  · -- a new object has no value
    have hi : id - c.next < descs.length := Nat.sub_lt_left_of_lt_add hn hid
    simp only [allocate, if_pos hn, getElem?_eq_getElem hi] at h
    cases h
  have hlt : id < c.next := Nat.not_le.1 hn
  rw [heap_allocate descs hlt] at h
  exact ⟨hlt, h⟩

theorem Cache.value_zeroHandles {values} (h : ((c.zeroHandles values).heap id).value = some x) :
    (c.heap id).value = some x := by
  unfold zeroHandles at h
  by_cases hl : c.listed id = true
  · simp only [if_pos hl] at h
    cases values with
    | true => cases h
    | false => exact h
  · simpa only [if_neg hl] using h

theorem Cache.value_setHandle {i y}
    (h : ((c.setHandle i y).heap id).value = some x) : (c.heap id).value = some x := by
  unfold setHandle at h
  by_cases hi : id = i
  · subst hi
    simpa only [Function.update_self] using h
  · simpa only [Function.update_of_ne hi] using h

theorem Cache.value_setValues {ds}
    (h : ((c.setValues ds).heap id).value = some x) : (c.heap id).value = some x ∨ (id, some x) ∈ ds := by
  induction ds generalizing c with
  | nil => exact .inl h
  | cons p ds ih =>
    rcases ih (c := c.setValue p.1 p.2) h with h | h
    · unfold setValue at h
      by_cases hi : id = p.1
      · subst hi
        simp only [Function.update_self] at h
        exact .inr (h ▸ mem_cons_self ..)
      · simp only [Function.update_of_ne hi] at h
        exact .inl h
    · exact .inr (mem_cons_of_mem p h)

variable [DecidableEq Key]

/-- Where a value comes from: it was there, or it is stored now. -/
theorem Effect.value_run (hid : id < (e.run c).next) (h : ((e.run c).heap id).value = some x) :
    (id < c.next ∧ (c.heap id).value = some x) ∨ ∃ ds, e = .store ds ∧ (id, x) ∈ ds := by
  cases e with
  | setHandle => exact .inl ⟨hid, value_setHandle h⟩
  | insert key d y =>
    have h : (((c.allocate [d]).setHandle c.next y).heap id).value = some x := h
    exact .inl (value_allocate hid (value_setHandle h))
  | store ds =>
    rcases value_setValues h with h | h
    · exact .inl ⟨(onlyValues_setValues _).next ▸ hid, h⟩
    right
    obtain ⟨q, hq, hqe⟩ := mem_map.1 h
    obtain ⟨rfl, hx⟩ := Prod.mk.inj hqe
    cases hx
    exact ⟨ds, rfl, hq⟩
  | drop =>
    rcases value_setValues h with h | h
    · exact .inl ⟨(onlyValues_setValues _).next ▸ hid, h⟩
    · obtain ⟨q, -, hqe⟩ := mem_map.1 h
      cases (Prod.mk.inj hqe).2
  | swap zeroed =>
    left
    cases zeroed with
    | true =>
      obtain ⟨hlt, hv⟩ := value_allocate (c := c.zeroHandles true) hid h
      exact ⟨hlt, value_zeroHandles hv⟩
    | false => exact value_allocate hid h
  | expand types layouts =>
    left
    obtain ⟨hlt, hv⟩ := value_allocate (c := c.relayout layouts) hid h
    obtain ⟨l, hl⟩ := heap_relayout c id layouts
    rw [hl] at hv
    exact ⟨hlt, hv⟩
  | zero => exact .inl ⟨hid, value_zeroHandles h⟩
  | _ => exact .inl ⟨hid, h⟩

theorem Cache.decodeItem_eq_some {p q} (h : c.decodeItem parse p = some q) :
    ∃ id v, c.entry p.1.name = some id ∧ (c.heap id).desc.decode parse c.datatypes p.2.2 = some v ∧
      q = (p.1.name, id, ⟨v, p.2.2, p.1.desc, p.1.types⟩) := by
  unfold decodeItem at h
  split at h
  · cases h
  split at h
  · cases h
  next id he =>
  obtain ⟨v, hv, rfl⟩ := Option.map_eq_some_iff.1 h
  exact ⟨id, v, he, hv, rfl⟩

/-- **What a read returns**, of items that have kept their shape: the bytes as the request described
    them, and as the entry of the name describes them still. -/
theorem readValues_faithful (hk : ∀ item ∈ pc.single ++ pc.reads, Kept c item.name item.id item.desc)
    (ht : ∀ item ∈ pc.reads, item.types = c.datatypes) {p : Key × Decoded Layout Types}
    (hp : p ∈ readValues parse c pc) :
    p.2.Faithful parse ∧ ∀ j, c.entry p.1 = some j → (c.heap j).desc.SameShape p.2.desc := by
  unfold readValues at hp
  split at hp
  · next item bytes =>
    have hk := hk item (by simp [Pc.single])
    obtain ⟨v, hv, rfl⟩ := Option.map_eq_some_iff.1 (Option.mem_toList.1 hp)
    rw [hk.object.decode] at hv
    exact ⟨hv, hk.entry⟩
  · next b rs =>
    by_cases hw : b.write = true
    · rw [if_pos hw] at hp
      cases hp
    rw [if_neg hw] at hp
    obtain ⟨q, hq, rfl⟩ := mem_map.1 hp
    obtain ⟨z, hz, hzq⟩ := mem_filterMap.1 hq
    obtain ⟨id, v, he, hv, rfl⟩ := decodeItem_eq_some hzq
    have hmem : z.1 ∈ (Pc.sumDone b rs).reads := by
      simpa [Pc.reads, Batch.reads, hw] using (of_mem_zip hz).1
    have hk := hk z.1 (mem_append_right _ hmem)
    rw [(hk.entry id he).decode, ← ht z.1 hmem] at hv
    exact ⟨hv, hk.entry⟩
  · cases hp

/-- What is stored is returned too, or it is a notification sample. -/
theorem PlanStep.stored {ds}
    (hs : PlanStep parse c pc a pc' (.store ds)) {q} (hq : q ∈ ds) :
    (∃ n, (n, q.2) ∈ readValues parse c pc) ∨ q.2.Faithful parse := by
  cases hs with
  | get hs => cases hs
  | read hs =>
    cases hs with
    | decoded item bytes v hv =>
      left
      refine ⟨item.name, ?_⟩
      rw [mem_singleton.1 hq]
      simp [readValues, hv]
  | batch hs =>
    cases hs with
    | read b rs hw =>
      left
      obtain ⟨z, hz, rfl⟩ := mem_map.1 hq
      refine ⟨z.1, ?_⟩
      simp only [readValues, hw, Bool.false_eq_true, if_false]
      exact mem_map.2 ⟨z, hz, rfl⟩
  | idle hs =>
    cases hs with
    | sample n bytes i v he hv =>
      right
      rw [mem_singleton.1 hq]
      exact hv

end Values

/-! ## The invariant -/

structure DecodeInv (parse : Parse Layout Types) (s : State Key Layout Types) : Prop where
  closed : s.shared.Closed
  values : ∀ id < s.shared.next, ∀ x, (s.shared.heap id).value = some x → x.Faithful parse
  held : ∀ u, ∀ p ∈ (s.loc u).held, Kept s.shared p.1 p.2 (s.shared.heap p.2).desc
  items : ∀ u, ∀ item ∈ (s.loc u).single ++ (s.loc u).reads,
    Kept s.shared item.name item.id item.desc
  types : ∀ u, ∀ item ∈ (s.loc u).reads, item.types = s.shared.datatypes

/-- What the requests in flight were built from is left alone. -/
def DescriptionsKept (s : State Key Layout Types) (x : Nat × Act Key Layout Types) : Prop :=
  ShapesKept s x ∧ TypesKept s x

section Step

variable {s : State Key Layout Types} {t u : Nat}

theorem PlanStep.keeps (hs : PlanStep parse s.shared (s.loc t) a pc' e) (hok : ShapesKept s (t, a))
    {f} (hf : f ∈ (s.loc u).flight s.shared) :
    e.Keeps s.shared f.1 f.2.1 f.2.2 := by
  generalize hpc : s.loc t = pc at hs
  refine ⟨fun d' hadd => ?_, fun types layouts added he => ?_⟩
  · cases hadd with
    | insert =>
      cases hs with
      | get hs =>
        cases hs
        simp only [ShapesKept, hpc] at hok
        exact hok u f hf rfl
      | read hs | batch hs | idle hs => cases hs
    | swap zeroed types table hm =>
      obtain rfl := hs.swap_label
      exact hok u f hf d' hm
    | expand types layouts added hm =>
      obtain rfl := hs.expand_label
      exact (hok u f hf).1 d' hm
  · subst he
    obtain rfl := hs.expand_label
    exact (hok u f hf).2

variable {item : Item Key Layout Types}

theorem PlanStep.types_kept (hs : PlanStep parse s.shared (s.loc t) a pc' e) (hok : TypesKept s (t, a))
    (hi : item ∈ (s.loc u).reads)
    (h : item.types = s.shared.datatypes) : item.types = (e.run s.shared).datatypes := by
  cases e with
  | swap =>
    obtain rfl := hs.swap_label
    exact (hok u item hi).symm
  | expand =>
    obtain rfl := hs.expand_label
    exact (hok u item hi).symm
  | store | drop => exact h.trans (onlyValues_setValues _).datatypes.symm
  | _ => exact h

section

variable (hi : DecodeInv parse s) (hok : ShapesKept s (t, a)) (hs : PlanStep parse s.shared (s.loc t) a pc' e)

include hi hok hs

/-- What was in flight before a step keeps its shape. -/
theorem DecodeInv.held_run {p} (hp : p ∈ (s.loc u).held) :
    Kept (e.run s.shared) p.1 p.2 ((e.run s.shared).heap p.2).desc := by
  have hf : (p.1, p.2, (s.shared.heap p.2).desc) ∈ (s.loc u).flight s.shared :=
    mem_append_left _ (mem_map.2 ⟨p, hp, rfl⟩)
  exact ((hi.held u p hp).run hi.closed (hs.keeps hok hf)).held

theorem DecodeInv.item_run (hitem : item ∈ (s.loc u).single ++ (s.loc u).reads) :
    Kept (e.run s.shared) item.name item.id item.desc := by
  have hf : (item.name, item.id, item.desc) ∈ (s.loc u).flight s.shared :=
    mem_append_right _ (mem_map.2 ⟨item, hitem, rfl⟩)
  exact (hi.items u item hitem).run hi.closed (hs.keeps hok hf)

end

theorem DecodeInv.built (hi : DecodeInv parse s) (hb : (s.loc t).Builds s.shared e item) :
    Kept (e.run s.shared) item.name item.id item.desc ∧
      item.types = (e.run s.shared).datatypes := by
  obtain ⟨rfl, n, id, address, hp, rfl⟩ := hb
  exact ⟨hi.held t (n, id) hp, rfl⟩

theorem decodeInv_init (heap : SymId → Symbol Layout Types) (types : Types) :
    DecodeInv parse (init heap types : State Key Layout Types) where
  closed _ hp := nomatch hp
  values _ h := nomatch h
  held _ _ h := nomatch h
  items _ _ h := nomatch h
  types _ _ h := nomatch h

theorem decodeInv_step {s' x}
    (hi : DecodeInv parse s) (hok : DescriptionsKept s x) (hs : step parse s x = some s') :
    DecodeInv parse s' := by
  obtain ⟨pc', e, hp, rfl⟩ := step_cases hs
  have hm := hp.moves
  have hkeep : ∀ u, ∀ item ∈ (s.loc u).reads, item.types = (e.run s.shared).datatypes :=
    fun u item h => hp.types_kept hok.2 h (hi.types u item h)
  refine ⟨hi.closed.run, fun id hid y hy => ?_, fun u p hu => ?_, fun u item hu => ?_, fun u item hu => ?_⟩
  · -- a value is stored by a read or a sample
    rcases Effect.value_run hid hy with ⟨hlt, hv⟩ | ⟨ds, rfl, hmem⟩
    · exact hi.values id hlt y hv
    rcases hp.stored hmem with ⟨n, hr⟩ | hf
    · exact (readValues_faithful (hi.items x.1) (hi.types x.1) hr).1
    · exact hf
  · by_cases hx : u = x.1
    · subst hx
      rw [Conf.loc_self] at hu
      rcases hm.held p hu with h | h
      · exact hi.held_run hok.1 hp h
      · exact .of_entry hi.closed.run h
    · rw [Conf.loc_of_ne hx] at hu
      exact hi.held_run hok.1 hp hu
  · by_cases hx : u = x.1
    · subst hx
      rw [Conf.loc_self] at hu
      rcases mem_append.1 hu with hu | hu
      · rcases hm.single item hu with h | h
        · exact hi.item_run hok.1 hp (mem_append_left _ h)
        · exact (hi.built h).1
      rcases hm.reads item hu with h | h
      · exact hi.item_run hok.1 hp (mem_append_right _ h)
      · exact (hi.built h).1
    · rw [Conf.loc_of_ne hx] at hu
      exact hi.item_run hok.1 hp hu
  · by_cases hx : u = x.1
    · subst hx
      rw [Conf.loc_self] at hu
      rcases hm.reads item hu with h | h
      · exact hkeep x.1 item h
      · exact (hi.built h).2
    · rw [Conf.loc_of_ne hx] at hu
      exact hkeep u item hu

end Step

variable {s : State Key Layout Types}

theorem decodeInv {heap : SymId → Symbol Layout Types} {types}
    (h : Run (step parse) DescriptionsKept (init heap types) s) : DecodeInv parse s :=
  h.invariant (decodeInv_init heap types) fun _ _ _ hi hok hs => decodeInv_step hi hok hs

/-- **Every value a read returns is what its bytes say under the description of its request**, and the
    entry that the name has by then is of the same shape, in every run that leaves alone what is in
    flight. -/
theorem reads_faithful {heap : SymId → Symbol Layout Types} {types : Types}
    {s : State Key Layout Types} (h : Run (step parse) DescriptionsKept (init heap types) s) (t : Nat) :
    (∀ a p, cachedValue s.shared (s.loc t) a = some p → p.2.Faithful parse) ∧
      ∀ p ∈ readValues parse s.shared (s.loc t), p.2.Faithful parse ∧
        ∀ j, s.shared.entry p.1 = some j → (s.shared.heap j).desc.SameShape p.2.desc := by
  have hi := decodeInv h
  constructor
  · intro a p hp
    unfold cachedValue at hp
    split at hp
    · next n id gen r hpc =>
      obtain ⟨y, hy, rfl⟩ := Option.map_eq_some_iff.1 hp
      have hlt := (hi.held t (n, id) (by rw [hpc]; exact mem_singleton_self _)).allocated
      exact hi.values id hlt y (Option.filter_eq_some_iff.1 hy).1
    · cases hp
  · intro p hp
    exact readValues_faithful (hi.items t) (hi.types t) hp

/-! ## A batch read, and one whose symbol changes its type

The symbol `0` is a DINT in the first table and a REAL in the second; the layout says which. -/

namespace Example

def typed : Parse Bool Unit := fun real _ _ _ => some (if real then "1.0" else "1065353216")

def untyped : SymId → Symbol Bool Unit := fun _ => ⟨⟨false, 0, 0, 0, []⟩, 0, none⟩

def dint : Desc Bool := ⟨false, 4, 0x4020, 16, []⟩

def real : Desc Bool := ⟨true, 4, 0x4020, 16, []⟩

/-- The session after its first load. -/
def typedLoaded : State Nat Bool Unit where
  shared := (Effect.swap true none [(0, dint)]).run (init untyped ()).shared
  loc := Function.update (init untyped ()).loc 0 .idle

/-- ReadMultipleSymbols up to the answer. -/
def batchRead : List (Nat × Act Nat Bool Unit) :=
  [(0, .readMultipleSymbols [0]), (0, .next), (0, .handle 7), (0, .next), (0, .next),
    (0, .results [(0, [0, 0, 128, 63])])]

/-- The value of the bytes by a description, of a request for a DINT. -/
def answer (v : String) : Decoded Bool Unit := ⟨v, [0, 0, 128, 63], dint, ()⟩

end Example

open Example

/-- The rest of the session leaves the cache alone, and the goroutine that moves resolves no name on
    demand. -/
theorem Quiet.kept {x} (h : Quiet s x)
    (hn : (s.loc x.1).resolving = none) : DescriptionsKept s x := by
  obtain ⟨t, a⟩ := x
  cases a with
  | swap | expand | zero | reconnect => exact h.elim
  | next =>
    refine ⟨?_, trivial⟩
    simp only [ShapesKept]
    split
    · next hpc =>
      simp only [hpc] at hn
      cases hn
    · trivial
  | _ => exact ⟨trivial, trivial⟩

theorem run_typedLoaded : Run (step typed) DescriptionsKept (init untyped ()) typedLoaded := by
  refine .snoc (a := (0, .swap true none [(0, dint)])) .refl ⟨?_, ?_⟩ rfl
  -- nothing is in flight yet
  · exact fun u f hf => nomatch hf
  · exact fun u item hi => nomatch hi

/-- A table is loaded, and a batch read of its symbol is answered. -/
theorem reads_faithful_loaded : ∃ s, Run (step typed) DescriptionsKept (init untyped ()) s ∧
      readValues typed s.shared (s.loc 0) = [(0, answer "1065353216")] ∧
      (answer "1065353216").Faithful typed := by
  obtain ⟨s, hrun, hv⟩ := exists_run (step typed)
    (fun s x => Quiet s x ∧ (s.loc x.1).resolving = none) typedLoaded
    (fun s => readValues typed s.shared (s.loc 0) = [(0, answer "1065353216")])
    batchRead (by decide +kernel)
  have h := run_typedLoaded.trans (hrun.weaken fun _ _ h => h.1.kept h.2)
  refine ⟨s, h, hv, ?_⟩
  exact ((reads_faithful h 0).2 (0, answer "1065353216") (by rw [hv]; simp)).1

/-- The load that makes the symbol a REAL comes between the answer and its decoding: the bytes of the
    DINT are returned as a REAL. -/
theorem reads_reinterpreted : ¬∀ s : State Nat Bool Unit, Run (step typed) anyStep (init untyped ()) s →
      ∀ t, ∀ p ∈ readValues typed s.shared (s.loc t), p.2.Faithful typed := by
  intro hall
  obtain ⟨s, hrun, hv⟩ := exists_run (step typed) anyStep (init untyped ())
    (fun s => readValues typed s.shared (s.loc 0) = [(0, answer "1.0")])
    ((0, .swap true none [(0, dint)]) :: batchRead ++
      [(1, .swap true none [(0, real)])]) (by decide +kernel)
  have hf := hall s hrun 0 (0, answer "1.0") (by rw [hv]; simp)
  exact absurd hf (by unfold Decoded.Faithful; decide)

end GoAds.Symbols
