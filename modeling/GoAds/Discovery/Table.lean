import GoAds.Codec.Scalar
import GoAds.Lib.FirstWins
import Mathlib.Tactic.Tauto

/-!
# `Discovery.Table` — from the uploaded tables to the symbol map

The PLC uploads a symbol table and a datatype table.  A symbol of a composite type gets its members as
children (`addOffset`), and the members become entries of the symbol map beside it (`addChildren`), unless
their key is taken.  This happens while the symbol table is parsed, or afterwards for all entries of a
map (`rebuildSymbolChildrenLocked`).

* A name is its characters.  `symbolKey` maps each to its lower case, which is a parameter.
* A table stands for what its bytes are parsed to; a symbol or a type that is described twice is in the
  list or the map as the parser leaves it.
* A Go map is ranged over in any order.  Where the order can matter, a function is a relation between its
  input and what it may leave.  A map of members is a list in the order of the names, so that two equal
  maps are equal lists.
* The children of an entry are a value here, not pointers.  An entry that is built anew gets new children
  in the code too; only one whose type has left the datatype table keeps its old ones.
-/

namespace GoAds.Discovery

open FirstWins List

abbrev Name := List Char

def symbolKey (lower : Char → Char) (name : Name) : Name := name.map lower

/-! ## Symbols and datatypes -/

/-- The fields of `symbol` that discovery fills in, and its handle. -/
structure Info where
  fullName : Name
  dataType : Name
  length : UInt32
  baseType : UInt32
  group : UInt32
  offset : UInt32
  handle : UInt32 := 0

/-- `symbol`, with its `Children` by their names. -/
inductive Symbol
  | mk (info : Info) (children : List (Name × Symbol))

namespace Symbol

def info : Symbol → Info
  | mk info _ => info

def children : Symbol → List (Name × Symbol)
  | mk _ children => children

def kids (s : Symbol) : List Symbol := s.children.map Prod.snd

/-- The key a symbol is filed under by its own name. -/
def key (lower : Char → Char) (s : Symbol) : Name := symbolKey lower s.info.fullName

theorem sizeOf_kid {s c : Symbol} (hc : c ∈ s.kids) : sizeOf c < sizeOf s := by
  obtain ⟨info, children⟩ := s
  obtain ⟨⟨name, c⟩, hp, rfl⟩ := mem_map.1 hc
  have h : sizeOf (name, c) < sizeOf children := sizeOf_lt_of_mem hp
  simp only [Prod.mk.sizeOf_spec, Symbol.mk.sizeOf_spec] at h ⊢
  omega

end Symbol

/-- A member in a `SymbolUploadDataType`. -/
structure Segment where
  name : Name
  dataType : Name
  size : UInt32
  baseType : UInt32
  offs : UInt32

/-- `SymbolUploadDataType`.  The members are a map from their names. -/
structure DataType where
  dataType : Name
  arrayDim : UInt32
  children : List Segment
  sorted : children.Pairwise fun a b => a.name < b.name

/-- The datatype table, by the names of the types. -/
abbrev DataTypes := Name → Option DataType

def noDataTypes : DataTypes := fun _ => none

/-- `isEnumDataType`: constants as members, and a parseable base type. -/
def isEnumDataType (dt : DataType) : Bool :=
  !dt.children.isEmpty && dt.arrayDim == 0 && decide (String.ofList dt.dataType ∈ Codec.parseableTypes)

/-- The path of a member: an array element follows its parent without a dot. -/
def memberPath (parent : Name) (segment : Name) : Name :=
  if segment.head? = some '[' then parent ++ segment else parent ++ '.' :: segment

/-- The member that a segment gives a parent. -/
def member (parent : Info) (segment : Segment) : Info :=
  { fullName := memberPath parent.fullName segment.name
    dataType := segment.dataType
    length := segment.size
    baseType := segment.baseType
    group := parent.group
    offset := segment.offs }

def addOffsetMaxDepth : Nat := 256

/-- `addOffsetDepth`, by the number of levels left.  Members without a name are left out, and enums are
    not expanded. -/
def addOffsetDepth (datatypes : DataTypes) : Nat → Info → DataType → List (Name × Symbol)
  | 0, _, _ => []
  | left + 1, parent, data =>
    (data.children.filter fun segment => segment.name ≠ []).map fun segment =>
      let child := member parent segment
      (segment.name, .mk child (match datatypes segment.dataType with
        | some dt => if isEnumDataType dt then [] else addOffsetDepth datatypes left child dt
        | none => []))

def addOffset (datatypes : DataTypes) (parent : Info) (data : DataType) : List (Name × Symbol) :=
  addOffsetDepth datatypes addOffsetMaxDepth parent data

/-- The symbol with the children that the datatype table gives it, if it has its type. -/
def Symbol.build (datatypes : DataTypes) (s : Symbol) : Symbol :=
  match datatypes s.info.dataType with
  | some dt => .mk s.info (addOffset datatypes s.info dt)
  | none => s

/-- `symbolUploadSymbol`. -/
structure Upload where
  name : Name
  dataType : Name
  size : UInt32
  baseType : UInt32
  group : UInt32
  offset : UInt32
  deriving DecidableEq

/-- A symbol of the table, without children. -/
def Upload.symbol (u : Upload) : Symbol :=
  .mk { fullName := u.name, dataType := u.dataType, length := u.size, baseType := u.baseType
        group := u.group, offset := u.offset } []

def addSymbol (datatypes : DataTypes) (u : Upload) : Symbol := u.symbol.build datatypes

/-! ## The symbol map -/

/-- `cache.symbols`. -/
abbrev SymbolMap := Files Name Symbol

section

variable (lower : Char → Char) (datatypes : DataTypes)

def AddChildren (s : Symbol) (m m' : SymbolMap) : Prop :=
  ∃ order, Perm order s.kids ∧ Fill (Symbol.key lower) Symbol.kids order m m'

/-- The loop of `parseUploadSymbolInfoSymbols`: a symbol of the table takes its key from whatever is filed
    there. -/
inductive ParseSymbols : List Upload → SymbolMap → SymbolMap → Prop
  | nil (m : SymbolMap) : ParseSymbols [] m m
  | cons {u : Upload} {us : List Upload} {m m₁ m₂ : SymbolMap}
      (add : AddChildren lower (addSymbol datatypes u)
        (m.insert (symbolKey lower u.name) (addSymbol datatypes u)) m₁)
      (rest : ParseSymbols us m₁ m₂) : ParseSymbols (u :: us) m m₂

/-- The loop of `rebuildSymbolChildrenLocked`. -/
inductive RebuildEach : List Name → SymbolMap → SymbolMap → Prop
  | nil (m : SymbolMap) : RebuildEach [] m m
  | unknown {k : Name} {ks : List Name} {s : Symbol} {m m' : SymbolMap} (hs : m.lookup k = some s)
      (hd : datatypes s.info.dataType = none) (rest : RebuildEach ks m m') : RebuildEach (k :: ks) m m'
  | expand {k : Name} {ks : List Name} {s : Symbol} {dt : DataType} {m m₁ m₂ : SymbolMap}
      (hs : m.lookup k = some s) (hd : datatypes s.info.dataType = some dt)
      (add : AddChildren lower (s.build datatypes) (m.insert k (s.build datatypes)) m₁)
      (rest : RebuildEach ks m₁ m₂) : RebuildEach (k :: ks) m m₂

/-- `rebuildSymbolChildrenLocked`: the entries that are there at the start, children among them, each
    once. -/
def RebuildSymbolChildren (m m' : SymbolMap) : Prop :=
  ∃ order : List Name, order.Nodup ∧ (∀ k, k ∈ order ↔ k ∈ m) ∧ RebuildEach lower datatypes order m m'

end

/-! ## What the functions can leave -/

section

variable {lower : Char → Char} {datatypes : DataTypes} {s : Symbol} {m m' : SymbolMap}

@[simp] theorem Symbol.info_build : (s.build datatypes).info = s.info := by
  unfold Symbol.build
  split <;> rfl

@[simp] theorem Symbol.key_build : (s.build datatypes).key lower = s.key lower := by
  rw [Symbol.key, Symbol.info_build, Symbol.key]

theorem Symbol.build_of_none (hd : datatypes s.info.dataType = none) : s.build datatypes = s := by
  rw [Symbol.build, hd]

theorem Symbol.build_of_some {dt} (hd : datatypes s.info.dataType = some dt) :
    s.build datatypes = .mk s.info (addOffset datatypes s.info dt) := by
  simp only [Symbol.build, hd]

@[simp] theorem key_addSymbol (u : Upload) : (addSymbol datatypes u).key lower = symbolKey lower u.name :=
  Symbol.key_build

variable (lower) in
theorem exists_addChildren (s : Symbol) (m : SymbolMap) : ∃ m', AddChildren lower s m m' := by
  obtain ⟨m', h⟩ : ∃ m', Fill (Symbol.key lower) Symbol.kids s.kids m m' :=
    exists_fill sizeOf (fun _ _ => Symbol.sizeOf_kid) s.kids m
  exact ⟨m', s.kids, Perm.refl _, h⟩

variable (lower datatypes) in
theorem exists_parseSymbols (us : List Upload) (m : SymbolMap) :
    ∃ m', ParseSymbols lower datatypes us m m' := by
  induction us generalizing m with
  | nil => exact ⟨m, .nil m⟩
  | cons u us ih =>
    obtain ⟨m₁, h₁⟩ := exists_addChildren lower (addSymbol datatypes u)
      (m.insert (symbolKey lower u.name) (addSymbol datatypes u))
    obtain ⟨m₂, h₂⟩ := ih m₁
    exact ⟨m₂, .cons h₁ h₂⟩

theorem AddChildren.keeps {k x} (h : AddChildren lower s m m')
    (hk : m.lookup k = some x) : m'.lookup k = some x := by
  obtain ⟨order, -, h⟩ := h
  exact h.keeps hk

theorem AddChildren.mem_of_mem {k} (h : AddChildren lower s m m') (hk : k ∈ m) : k ∈ m' := by
  obtain ⟨order, -, h⟩ := h
  exact h.mem_of_mem hk

theorem addChildren_of_leaf (hs : s.kids = []) : AddChildren lower s m m' ↔ m' = m := by
  constructor
  · rintro ⟨order, ho, h⟩
    rw [hs, perm_nil] at ho
    subst ho
    cases h
    rfl
  · rintro rfl
    exact ⟨[], by rw [hs], .nil _⟩

/-- Without datatypes the map is the symbols of the table. -/
theorem ParseSymbols.mem_iff {us k} (h : ParseSymbols lower noDataTypes us m m') :
    k ∈ m' ↔ k ∈ m ∨ ∃ u ∈ us, symbolKey lower u.name = k := by
  induction h with
  | nil => simp
  | @cons u us m m₁ m₂ add rest ih =>
    have hm₁ : m₁ = m.insert (symbolKey lower u.name) (addSymbol noDataTypes u) :=
      (addChildren_of_leaf rfl).1 add
    rw [ih, hm₁, Finmap.mem_insert]
    simp only [mem_cons, exists_eq_or_imp]
    tauto

variable (lower datatypes) in
theorem exists_rebuildEach (ks : List Name) (m : SymbolMap) (hks : ∀ k ∈ ks, k ∈ m) :
    ∃ m', RebuildEach lower datatypes ks m m' := by
  induction ks generalizing m with
  | nil => exact ⟨m, .nil m⟩
  | cons k ks ih =>
    have hrest : ∀ k' ∈ ks, k' ∈ m := fun k' hk' => hks k' (mem_cons_of_mem _ hk')
    obtain ⟨s, hs⟩ := Finmap.mem_iff.1 (hks k (mem_cons_self ..))
    cases hd : datatypes s.info.dataType with
    | none =>
      obtain ⟨m', h⟩ := ih m hrest
      exact ⟨m', .unknown hs hd h⟩
    | some =>
      obtain ⟨m₁, h₁⟩ := exists_addChildren lower (s.build datatypes) (m.insert k (s.build datatypes))
      obtain ⟨m₂, h₂⟩ := ih m₁ fun k' hk' => h₁.mem_of_mem (Finmap.mem_insert.2 (.inr (hrest k' hk')))
      exact ⟨m₂, .expand hs hd h₁ h₂⟩

variable (lower datatypes) in
theorem exists_rebuildSymbolChildren (m : SymbolMap) :
    ∃ m', RebuildSymbolChildren lower datatypes m m' := by
  obtain ⟨m', h⟩ := exists_rebuildEach lower datatypes m.keys.toList m
    fun k hk => Finmap.mem_keys.1 (Finset.mem_toList.1 hk)
  exact ⟨m', m.keys.toList, m.keys.nodup_toList, fun k => by rw [Finset.mem_toList, Finmap.mem_keys], h⟩

end

end GoAds.Discovery
