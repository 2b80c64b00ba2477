import GoAds.Codec.Resolve
import GoAds.Discovery.Expansion

/-!
# `Discovery.Enums` — enumerations and their constants

The datatype table describes an enum as its base type with its constants as members.  A symbol of an enum
is one integer, so it must not be given the constants as children.

Three functions give a symbol children.  `addOffsetDepth` leaves an enum alone wherever it is a member or
an element; `addSymbol` and `rebuildSymbolChildrenLocked` do not ask, and expand every symbol whose type
the table has.  `rebuildSymbolChildrenLocked` goes through the whole map, in which the members are filed
beside the symbols of the table.
-/

namespace GoAds.Discovery

open LittleEndian List

variable {lower : Char → Char} {datatypes : DataTypes}

/-! ## A symbol as the codec sees it -/

mutual

/-- A symbol under the key that its parent's `Children` have for it. -/
def Symbol.codec (key : Name) : Symbol → Codec.Symbol
  | .mk info children =>
    .mk { key := String.ofList key
          name := String.ofList key
          dataType := String.ofList info.dataType
          offset := info.offset
          length := info.length
          baseType := info.baseType } (codecs children)

def codecs : List (Name × Symbol) → List Codec.Symbol
  | [] => []
  | p :: ps => codecPair p :: codecs ps

def codecPair : Name × Symbol → Codec.Symbol
  | (name, s) => s.codec name

end

/-- What the codec reads of the datatype table. -/
def DataTypes.codec (datatypes : DataTypes) : Codec.DataTypes := fun name =>
  (datatypes name.toList).map fun dt => String.ofList dt.dataType

/-- The base type that the datatype table has for the type of a symbol. -/
def Symbol.base (datatypes : DataTypes) (x : Symbol) : Option Codec.Scalar :=
  datatypes.codec.scalar (String.ofList x.info.dataType)

/-- Reading a symbol yields the integer in its bytes and writing it takes one, if its type stands for an
    integer type, signed or unsigned, of so many bytes. -/
structure AccessesInteger (datatypes : DataTypes) (key : Name) (x : Symbol) (w : Nat) : Prop where
  readInt : x.base datatypes = some (.int w) → ∀ (go : Codec.Go) (raw : Codec.Bytes),
    raw.length = x.info.length.toNat → raw.length = w →
      ∃ s', (x.codec key).parse go datatypes.codec raw 0 = .ok s' ∧
        s'.value = Decimal.formatInt (Int.bmod (decode raw) (256 ^ w))
  readUint : x.base datatypes = some (.uint w) → ∀ (go : Codec.Go) (raw : Codec.Bytes),
    raw.length = x.info.length.toNat → raw.length = w →
      ∃ s', (x.codec key).parse go datatypes.codec raw 0 = .ok s' ∧ s'.value = Decimal.format (decode raw)
  writeInt : x.base datatypes = some (.int w) → ∀ (go : Codec.Go) (v : Int),
    -2 ^ (8 * w - 1) ≤ v → v < 2 ^ (8 * w - 1) →
      (x.codec key).writeToNode go datatypes.codec (Decimal.formatInt v) = .ok (encode w (v % 256 ^ w).toNat)
  writeUint : x.base datatypes = some (.uint w) → ∀ (go : Codec.Go) (v : Nat), v < 2 ^ (8 * w) →
    (x.codec key).writeToNode go datatypes.codec (Decimal.format v) = .ok (encode w v)

section Codec

variable {x : Symbol} {key : Name} {w : Nat} {scalar : Codec.Scalar}

section

variable (go : Codec.Go) (hleaf : x.children = [])
  (hname : String.ofList x.info.dataType ∉ Codec.parseableTypes) (hbase : x.base datatypes = some scalar)

include hleaf hname hbase

/-- A symbol without children whose type stands for a base type is a value of this type. -/
theorem parse_leaf {raw text} (hlen : raw.length = x.info.length.toNat)
    (hparse : scalar.parse go raw = .ok text) :
    (x.codec key).parse go datatypes.codec raw 0 = .ok (.mk ((x.codec key).info.updateValue text) []) := by
  obtain ⟨info, children⟩ := x
  obtain rfl : children = [] := hleaf
  have hnone : Codec.Scalar.ofName (String.ofList info.dataType) = none := Codec.ofName_eq_none.2 hname
  have hsome : datatypes.codec.scalar (String.ofList info.dataType) = some scalar := hbase
  have hlen' : ¬ info.length.toNat > raw.length := by
    rw [hlen]
    exact Nat.lt_irrefl _
  have hlen'' : ¬ 0 + info.length.toNat > raw.length := by rwa [Nat.zero_add]
  have htake : (raw.drop 0).take info.length.toNat = raw := by
    rw [drop_zero]
    exact take_of_length_le (Nat.le_of_eq hlen)
  rw [Symbol.codec, codecs, Codec.Symbol.parse]
  simp only [hlen', hlen'', if_false, htake, Codec.Info.parseLeaf, hnone, hsome, hparse]
  rfl

theorem write_leaf (value : Codec.Text) :
    (x.codec key).writeToNode go datatypes.codec value = scalar.write go x.info.length.toNat value := by
  obtain ⟨info, children⟩ := x
  obtain rfl : children = [] := hleaf
  have hnone : Codec.Scalar.ofName (String.ofList info.dataType) = none := Codec.ofName_eq_none.2 hname
  have hsome : datatypes.codec.scalar (String.ofList info.dataType) = some scalar := hbase
  rw [Symbol.codec, codecs, Codec.Symbol.writeToNode]
  simp only [Codec.Info.writeLeaf, hnone, hsome]
  rfl

end

theorem accessesInteger_of_leaf (hleaf : x.children = [])
    (hname : String.ofList x.info.dataType ∉ Codec.parseableTypes) : AccessesInteger datatypes key x w where
  readInt hbase go raw hlen hw :=
    ⟨_, parse_leaf go hleaf hname hbase hlen (Codec.sized_eq_ok.2 ⟨hw, rfl⟩), rfl⟩
  readUint hbase go raw hlen hw :=
    ⟨_, parse_leaf go hleaf hname hbase hlen (Codec.sized_eq_ok.2 ⟨hw, rfl⟩), rfl⟩
  writeInt hbase go v hlo hhi := by
    rw [write_leaf go hleaf hname hbase, Codec.Scalar.write, Decimal.parseInt_formatInt hlo hhi]
    rfl
  writeUint hbase go v hlt := by
    rw [write_leaf go hleaf hname hbase, Codec.Scalar.write, Decimal.parseUint_format hlt]
    rfl

end Codec

/-! ## Enums in the trees -/

/-- The type of a symbol is an enum of the table. -/
def EnumTyped (datatypes : DataTypes) (x : Symbol) : Prop :=
  ∃ dt, datatypes x.info.dataType = some dt ∧ isEnumDataType dt = true

/-- No enum in the tree of a symbol has children, and every one that has not the name of a base type is
    read and written as its integer. -/
def EnumsScalar (datatypes : DataTypes) (s : Symbol) : Prop :=
  ∀ names parents x, s.At names parents x → EnumTyped datatypes x →
    x.children = [] ∧
      (String.ofList x.info.dataType ∉ Codec.parseableTypes → ∀ key w, AccessesInteger datatypes key x w)

/-- Enums stay scalar, in the symbols that `addSymbol` builds and in the entries of a map to which
    `rebuildSymbolChildrenLocked` gives children. -/
structure EnumsStayScalar (lower : Char → Char) (datatypes : DataTypes) (us : List Upload) (m : SymbolMap) :
    Prop where
  parsed : ∀ u ∈ us, EnumsScalar datatypes (addSymbol datatypes u)
  rebuilt : ∀ m', RebuildSymbolChildren lower datatypes m m' → ∀ k s s', m.lookup k = some s →
    datatypes s.info.dataType ≠ none → m'.lookup k = some s' → EnumsScalar datatypes s'

/-- The name of an enum with a constant that has a name. -/
def NamesEnum (datatypes : DataTypes) (name : Name) : Prop :=
  ∃ dt, datatypes name = some dt ∧ isEnumDataType dt = true ∧ ∃ segment ∈ dt.children, segment.name ≠ []

section Trees

variable {s x : Symbol} {names : List Name} {parents : List Info}

/-- Below the symbol itself no enum has children. -/
theorem Symbol.At.enum_leaf {left dt} (h : s.At names parents x) (hne : names ≠ [])
    (hs : s.children = addOffsetDepth datatypes left s.info dt) (henum : EnumTyped datatypes x) :
    x.children = [] := by
  induction h generalizing left dt with
  | self => exact absurd rfl hne
  | @child s c x name names parents hc h ih =>
    obtain ⟨left, segment, rfl, -, rfl, rfl⟩ := of_mem_addOffsetDepth (hs ▸ hc)
    -- the members of a member are left out if its type is an enum
    rcases subMembers_cases datatypes left (member s.info segment) with hnil | ⟨dt', hdt', hno, hsome⟩
    · obtain ⟨-, -, rfl⟩ := h.of_leaf hnil
      exact hnil
    by_cases hnames : names = []
    · subst hnames
      obtain ⟨dt'', hdt'', hyes⟩ := henum
      cases h with
      | self =>
        cases hdt'.symm.trans hdt''
        rw [hno] at hyes
        cases hyes
    · exact ih hnames hsome henum

theorem EnumsScalar.of_children (h : ∀ names parents x, s.At names parents x → EnumTyped datatypes x →
    x.children = []) : EnumsScalar datatypes s := by
  intro names parents x hx henum
  have hleaf := h names parents x hx henum
  exact ⟨hleaf, fun hname key w => accessesInteger_of_leaf hleaf hname⟩

/-- A symbol that is built has its enums scalar unless its own type is an enum. -/
theorem enumsScalar_build {dt} (hdt : datatypes s.info.dataType = some dt) :
    EnumsScalar datatypes (s.build datatypes) ↔ ¬ NamesEnum datatypes s.info.dataType := by
  have hbuild : s.build datatypes = .mk s.info (addOffset datatypes s.info dt) := Symbol.build_of_some hdt
  have hchildren : (s.build datatypes).children =
      addOffsetDepth datatypes addOffsetMaxDepth (s.build datatypes).info dt := by
    rw [hbuild]
    rfl
  constructor
  · rintro hscalar ⟨dt', hdt', henum, segment, hmem, hname⟩
    cases hdt.symm.trans hdt'
    have htyped : EnumTyped datatypes (s.build datatypes) := ⟨dt, by rw [Symbol.info_build]; exact hdt, henum⟩
    have hnil := (hscalar [] [] _ (.self _) htyped).1
    rw [hchildren] at hnil
    have hkid : (segment.name, expandMember datatypes 255 (s.build datatypes).info segment) ∈
        addOffsetDepth datatypes addOffsetMaxDepth (s.build datatypes).info dt :=
      mem_addOffsetDepth_succ.2 ⟨segment, hmem, hname, rfl⟩
    rw [hnil] at hkid
    cases hkid
  · intro hno
    apply EnumsScalar.of_children
    intro names parents x hx henum
    by_cases hne : names = []
    · subst hne
      cases hx with
      | self =>
        -- the symbol itself: its constants have no names
        obtain ⟨dt', hdt', henum⟩ := henum
        rw [Symbol.info_build] at hdt'
        cases hdt.symm.trans hdt'
        rw [hchildren]
        apply eq_nil_iff_forall_not_mem.2
        intro p hp
        obtain ⟨segment, hmem, hname, -⟩ := mem_addOffsetDepth_succ.1 hp
        exact hno ⟨dt, hdt, henum, segment, hmem, hname⟩
    · exact hx.enum_leaf hne hchildren henum

end Trees

/-! ## Enums in the map -/

section Map

theorem not_namesEnum_of_none {name} (hdt : datatypes name = none) : ¬ NamesEnum datatypes name := by
  rintro ⟨dt, hdt', -⟩
  rw [hdt] at hdt'
  cases hdt'

theorem enumsScalar_addSymbol (u : Upload) :
    EnumsScalar datatypes (addSymbol datatypes u) ↔ ¬ NamesEnum datatypes u.dataType := by
  cases hdt : datatypes u.dataType with
  | some => exact enumsScalar_build (s := u.symbol) hdt
  | none =>
    -- a symbol of an unknown type has no children
    have hleaf : (addSymbol datatypes u).children = [] := by
      rw [addSymbol, Symbol.build_of_none (s := u.symbol) hdt]
      rfl
    refine iff_of_true ?_ (not_namesEnum_of_none hdt)
    apply EnumsScalar.of_children
    intro names parents x hx henum
    obtain ⟨-, -, rfl⟩ := hx.of_leaf hleaf
    exact hleaf

/-- **Enums stay scalar if and only if no symbol of the table, and no entry of the map that is built anew,
    has an enum for its type.**  A member or an element is safe until it is an entry of its own. -/
theorem enums_stay_scalar_iff (lower : Char → Char) (datatypes : DataTypes) (us : List Upload)
    (m : SymbolMap) : EnumsStayScalar lower datatypes us m ↔
      (∀ u ∈ us, ¬ NamesEnum datatypes u.dataType) ∧
        ∀ k s, m.lookup k = some s → ¬ NamesEnum datatypes s.info.dataType := by
  constructor
  · intro hstay
    refine ⟨fun u hu => (enumsScalar_addSymbol u).1 (hstay.parsed u hu), ?_⟩
    intro k s hs hnames
    obtain ⟨dt, hdt, -⟩ := id hnames
    obtain ⟨m', hm'⟩ := exists_rebuildSymbolChildren lower datatypes m
    have hscalar := hstay.rebuilt m' hm' k s _ hs (by rw [hdt]; exact Option.some_ne_none dt) (hm'.built hs)
    exact (enumsScalar_build hdt).1 hscalar hnames
  rintro ⟨hus, hm⟩
  refine ⟨fun u hu => (enumsScalar_addSymbol u).2 (hus u hu), ?_⟩
  intro m' hm' k s s' hs hdt hs'
  obtain ⟨dt, hdt⟩ := Option.ne_none_iff_exists'.1 hdt
  rw [hm'.built hs] at hs'
  cases hs'
  exact (enumsScalar_build hdt).2 (hm k s hs)

end Map

/-! ### The state of a motor -/

/-- An enum of two constants, which is a DINT. -/
def motorState : DataType where
  dataType := "DINT".toList
  arrayDim := 0
  children := [⟨"Idle".toList, "DINT".toList, 4, 3, 0⟩, ⟨"Running".toList, "DINT".toList, 4, 3, 0⟩]
  sorted := by decide

/-- A struct with a member of the enum. -/
def motor : DataType where
  dataType := []
  arrayDim := 0
  children := [⟨"state".toList, "E_MotorState".toList, 4, 3, 0⟩]
  sorted := pairwise_singleton _ _

def motorTypes : DataTypes := fun name =>
  if name = "E_MotorState".toList then some motorState
  else if name = "ST_Motor".toList then some motor
  else none

/-- A symbol of the enum. -/
def mainState : Upload :=
  { name := "MAIN.state".toList, dataType := "E_MotorState".toList, size := 4, baseType := 3
    group := 0x4040, offset := 0 }

/-- The member of a motor. -/
def mainMotorState : Symbol :=
  .mk (member { fullName := "MAIN.motor".toList, dataType := "ST_Motor".toList, length := 4, baseType := 65
                group := 0x4040, offset := 4 }
    ⟨"state".toList, "E_MotorState".toList, 4, 3, 0⟩) []

/-- A map in which the member is an entry. -/
def motorMap : SymbolMap := Finmap.insert (mainMotorState.key Char.toLower) mainMotorState ∅

theorem namesEnum_motorState : NamesEnum motorTypes "E_MotorState".toList :=
  ⟨motorState, rfl, by decide, _, mem_cons_self .., by decide⟩

/-- The symbol of the table gets its constants as children, and so does the member when the map is built
    anew. -/
theorem enum_expanded :
    (addSymbol motorTypes mainState).children.map Prod.fst = ["Idle".toList, "Running".toList] ∧
      ¬ EnumsStayScalar Char.toLower motorTypes [mainState] ∅ ∧
      ¬ EnumsStayScalar Char.toLower motorTypes [] motorMap := by
  refine ⟨by decide, ?_, ?_⟩
  · intro hstay
    exact (enumsScalar_addSymbol mainState).1 (hstay.parsed _ (mem_cons_self ..)) namesEnum_motorState
  intro hstay
  obtain ⟨m', hm'⟩ := exists_rebuildSymbolChildren Char.toLower motorTypes motorMap
  have hlookup : motorMap.lookup (mainMotorState.key Char.toLower) = some mainMotorState :=
    Finmap.lookup_insert _
  have hdt : motorTypes mainMotorState.info.dataType = some motorState := rfl
  have hscalar := hstay.rebuilt m' hm' _ _ _ hlookup (Option.some_ne_none motorState) (hm'.built hlookup)
  exact (enumsScalar_build hdt).1 hscalar namesEnum_motorState

end GoAds.Discovery
