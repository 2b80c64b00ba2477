import GoAds.Codec.JsonText

/-!
# `Codec.Resolve` — which base type a leaf is read and written as

`parse` and `writeToNode` each have a chain of their own: the declared name, the datatype table, and then,
for reading only, the protocol's type code, and last the size.  Here the two chains are functions that
yield the name of a base type, and the codec is the chain followed by one conversion.

The two agree unless the chain of `parse` ends at the type code with anything but SINT or INT: there
`writeToNode` guesses a signed integer from the size, or refuses.

`BaseTypeName`, which tells a caller what a value was read as, prefers the type code to the datatype table.
-/

namespace GoAds.Codec

open LittleEndian List

/-- The name that the datatype table has for a type, if it is a base type. -/
def DataTypes.aliased (datatypes : DataTypes) (dataType : String) : Option String :=
  (datatypes dataType).filter (· ∈ parseableTypes)

/-- The base type that `parse` reads a leaf as. -/
def Info.parseType (info : Info) (datatypes : DataTypes) : Except CodecErr String :=
  if info.dataType ∈ parseableTypes then .ok info.dataType
  else
    match datatypes.aliased info.dataType with
    | some name => .ok name
    | none =>
      match adsTypeToString info.baseType with
      | some resolved =>
        let w := adsTypeWidth info.baseType
        if w > 0 ∧ w ≠ info.length then .error (info.wrongWidth resolved w)
        else .ok resolved
      | none =>
        match inferBaseType info.length with
        | some inferred => .ok inferred
        | none => .error (unknownFormat info.dataType)

/-- The base type that `writeToNode` writes a leaf as. -/
def Info.writeType (info : Info) (datatypes : DataTypes) : Except CodecErr String :=
  if info.dataType ∈ parseableTypes then .ok info.dataType
  else
    match datatypes.aliased info.dataType with
    | some name => .ok name
    | none =>
      match inferBaseType info.length with
      | some inferred => .ok inferred
      | none => .error info.notInferable

variable (go : Go)

/-- The bytes of a leaf as a value of a base type. -/
def parseAs (name : String) (raw : Bytes) : Except CodecErr Text :=
  match Scalar.ofName name with
  | some scalar => scalar.parse go raw
  | none => .error (unknownFormat name)

/-- The text of a leaf as the bytes of a base type. -/
def writeAs (name : String) (length : Nat) (value : Text) : Except CodecErr Bytes :=
  match Scalar.ofName name with
  | some scalar => scalar.write go length value
  | none => .error (.text ("unknown format cannot write: " ++ name))

variable {go} {info : Info} {datatypes : DataTypes} {name : String}

/-! ## The chains and the codec -/

theorem aliased_eq_some {dataType} :
    datatypes.aliased dataType = some name ↔ datatypes dataType = some name ∧ name ∈ parseableTypes := by
  rw [DataTypes.aliased, Option.filter_eq_some_iff, decide_eq_true_eq]

/-- A name that is no case label has no base type behind it, in the table of labels or in the datatypes. -/
theorem ofName_eq_none : Scalar.ofName name = none ↔ name ∉ parseableTypes := by
  rw [mem_parseableTypes, Option.eq_none_iff_forall_ne_some]
  simp

theorem scalar_eq_aliased (dataType : String) :
    datatypes.scalar dataType = (datatypes.aliased dataType).bind Scalar.ofName := by
  unfold DataTypes.scalar DataTypes.aliased
  cases datatypes dataType with
  | none => rfl
  | some name =>
    by_cases h : name ∈ parseableTypes
    · rw [Option.filter_some, if_pos (decide_eq_true h)]
    · rw [Option.filter_some, if_neg (by simpa using h)]
      exact ofName_eq_none.2 h

theorem exists_ofName (h : name ∈ parseableTypes) : ∃ scalar, Scalar.ofName name = some scalar :=
  mem_parseableTypes.1 h

/-- The type codes of the protocol and their names. -/
def adsTypes : List (UInt32 × String) :=
  [(33, "BOOL"), (16, "SINT"), (17, "USINT"), (2, "INT"), (18, "UINT"), (3, "DINT"), (19, "UDINT"),
    (4, "REAL"), (5, "LREAL"), (20, "LINT"), (21, "ULINT"), (30, "STRING"), (31, "WSTRING")]

theorem of_ite_eq_some {α : Type} {P Q : Prop} [Decidable P] {a b : α} {rest : Option α}
    (h : (if P then some a else rest) = some b) (hhere : P → a = b → Q) (hrest : rest = some b → Q) :
    Q := by
  by_cases hp : P
  · rw [if_pos hp] at h
    exact hhere hp (Option.some.inj h)
  · rw [if_neg hp] at h
    exact hrest h

variable {raw : Bytes} {w : Nat} {resolved : String} {text : Text} {code size : UInt32}

theorem mem_adsTypes (h : adsTypeToString code = some name) : (code, name) ∈ adsTypes := by
  unfold adsTypeToString at h
  iterate 13
    refine of_ite_eq_some h (by rintro rfl rfl; decide) fun h => ?_
  cases h

theorem adsTypeToString_parseable (h : adsTypeToString code = some name) : name ∈ parseableTypes := by
  have hall : ∀ p ∈ adsTypes, p.2 ∈ parseableTypes := by decide
  exact hall (code, name) (mem_adsTypes h)

theorem inferBaseType_eq_some :
    inferBaseType size = some name ↔ size = 1 ∧ name = "SINT" ∨ size = 2 ∧ name = "INT" := by
  unfold inferBaseType
  split_ifs with h1 h2
  · subst h1
    simp [eq_comm]
  · subst h2
    simp [eq_comm]
  · simp [h1, h2]

/-- **Reading a leaf** is to resolve its type and to convert its bytes. -/
theorem parseLeaf_eq (raw : Bytes) : info.parseLeaf go datatypes raw =
      (info.parseType datatypes).bind fun name => parseAs go name raw := by
  unfold Info.parseLeaf Info.parseType
  by_cases hname : info.dataType ∈ parseableTypes
  · obtain ⟨scalar, hscalar⟩ := exists_ofName hname
    rw [if_pos hname, hscalar]
    simp only [Except.bind, parseAs, hscalar]
  rw [if_neg hname, ofName_eq_none.2 hname, scalar_eq_aliased]
  cases halias : datatypes.aliased info.dataType with
  | some =>
    obtain ⟨scalar, hscalar⟩ := exists_ofName (aliased_eq_some.1 halias).2
    simp only [Option.bind_some, hscalar, Except.bind, parseAs]
  | none =>
    simp only [Option.bind_none]
    cases hads : adsTypeToString info.baseType with
    | some resolved =>
      obtain ⟨scalar, hscalar⟩ := exists_ofName (adsTypeToString_parseable hads)
      simp only [hscalar]
      split
      · rfl
      · simp only [Except.bind, parseAs, hscalar]
    | none =>
      cases hinfer : inferBaseType info.length with
      | some =>
        rcases inferBaseType_eq_some.1 hinfer with ⟨-, rfl⟩ | ⟨-, rfl⟩ <;> rfl
      | none => rfl

/-- **Writing a leaf** is to resolve its type and to convert its text. -/
theorem writeLeaf_eq (value : Text) : info.writeLeaf go datatypes value =
      (info.writeType datatypes).bind fun name => writeAs go name info.length.toNat value := by
  unfold Info.writeLeaf Info.writeType
  by_cases hname : info.dataType ∈ parseableTypes
  · obtain ⟨scalar, hscalar⟩ := exists_ofName hname
    rw [if_pos hname, hscalar]
    simp only [Except.bind, writeAs, hscalar]
  rw [if_neg hname, ofName_eq_none.2 hname, scalar_eq_aliased]
  cases halias : datatypes.aliased info.dataType with
  | some =>
    obtain ⟨scalar, hscalar⟩ := exists_ofName (aliased_eq_some.1 halias).2
    simp only [Option.bind_some, hscalar, Except.bind, writeAs]
  | none =>
    simp only [Option.bind_none]
    cases hinfer : inferBaseType info.length with
    | some =>
      rcases inferBaseType_eq_some.1 hinfer with ⟨-, rfl⟩ | ⟨-, rfl⟩ <;> rfl
    | none => rfl

/-! ## The contract -/

/-- BOOL and the integer types. -/
def Scalar.IsWhole : Scalar → Prop
  | .bool | .uint _ | .int _ => True
  | _ => False

/-- The sizes a base type is read from. -/
def Scalar.Fits (length : Nat) : Scalar → Prop
  | .bool => length = 1
  | .uint w | .int w => length = w
  | .lreal => length = 8
  | .string | .wstring => True
  | .real | .time | .tod | .date | .dt => length = 4

/-- **A leaf is written as what it is read as**: the base types are the same, and the text of a BOOL or an
    integer is taken back. -/
structure SameType (go : Go) (datatypes : DataTypes) (info : Info) : Prop where
  types : ∀ data s', (Symbol.mk info []).parse go datatypes data 0 = .ok s' →
    ∀ name, info.parseType datatypes = .ok name → info.writeType datatypes = .ok name
  accepted : ∀ data s', (Symbol.mk info []).parse go datatypes data 0 = .ok s' →
    ∀ name scalar, info.parseType datatypes = .ok name → Scalar.ofName name = some scalar →
      scalar.IsWhole → ∃ bytes, (Symbol.mk info []).writeToNode go datatypes s'.value = .ok bytes

/-- The chain of `parse` does not end at a type code that `writeToNode` does not come to: a name or a
    table entry is known, there is no code, it is SINT's or INT's, or `parse` refuses it for its width. -/
def Reconciled (datatypes : DataTypes) (info : Info) : Prop :=
  info.dataType ∈ parseableTypes ∨ (∃ name ∈ parseableTypes, datatypes info.dataType = some name) ∨
    adsTypeToString info.baseType = none ∨ info.baseType = 16 ∨ info.baseType = 2 ∨
    (0 < adsTypeWidth info.baseType ∧ adsTypeWidth info.baseType ≠ info.length)

/-! ### What is read -/

theorem parse_leaf_ok {data start s'}
    (h : (Symbol.mk info []).parse go datatypes data start = .ok s') :
    ∃ text, info.parseLeaf go datatypes ((data.drop start).take info.length.toNat) = .ok text ∧
      s' = .mk (info.updateValue text) [] := by
  rw [Symbol.parse] at h
  split at h
  · cases h
  split at h
  · cases h
  split at h
  · cases h
  · next newValue hvalue => exact ⟨newValue, hvalue, (Except.ok.inj h).symm⟩

theorem parse_of_parseLeaf (h : info.parseLeaf go datatypes raw = .ok text) :
    ∃ name scalar, info.parseType datatypes = .ok name ∧ Scalar.ofName name = some scalar ∧
      scalar.parse go raw = .ok text := by
  rw [parseLeaf_eq] at h
  cases hname : info.parseType datatypes with
  | error =>
    rw [hname] at h
    cases h
  | ok name =>
    rw [hname] at h
    have h' : parseAs go name raw = .ok text := h
    rw [parseAs] at h'
    cases hscalar : Scalar.ofName name with
    | none =>
      rw [hscalar] at h'
      cases h'
    | some scalar =>
      rw [hscalar] at h'
      exact ⟨name, scalar, rfl, hscalar, h'⟩

theorem sized_eq_ok {label value} :
    sized label w raw value = .ok text ↔ raw.length = w ∧ text = value := by
  unfold sized
  by_cases h : raw.length = w
  · rw [if_neg (not_not.2 h), Except.ok.injEq, eq_comm]
    exact ⟨fun heq => ⟨h, heq⟩, fun heq => heq.2⟩
  · rw [if_pos h]
    exact ⟨(fun heq => by cases heq), fun heq => absurd heq.1 h⟩

theorem Scalar.parse_ok_iff (go : Go) {scalar : Scalar} :
    (∃ text, scalar.parse go raw = .ok text) ↔ scalar.Fits raw.length := by
  cases scalar <;> simp [Scalar.parse, Scalar.Fits, sized_eq_ok]

/-- Zeros can be read as any base type of their size. -/
theorem parse_zeros (go : Go) {scalar : Scalar} (hname : info.parseType datatypes = .ok name)
    (hscalar : Scalar.ofName name = some scalar) (hfits : scalar.Fits info.length.toNat) :
    ∃ s', (Symbol.mk info []).parse go datatypes (replicate info.length.toNat 0) 0 = .ok s' := by
  rw [← length_replicate (n := info.length.toNat) (a := (0 : UInt8)), ← Scalar.parse_ok_iff go] at hfits
  obtain ⟨text, htext⟩ := hfits
  have hleaf : info.parseLeaf go datatypes (replicate info.length.toNat 0) = .ok text := by
    rw [parseLeaf_eq, hname]
    simpa only [Except.bind, parseAs, hscalar] using htext
  refine ⟨.mk (info.updateValue text) [], ?_⟩
  rw [Symbol.parse, length_replicate, if_neg (Nat.lt_irrefl _), Nat.zero_add, if_neg (Nat.lt_irrefl _),
    drop_zero, take_of_length_le (by rw [length_replicate]), hleaf]

theorem fits_of_parse {data start s'} (h : (Symbol.mk info []).parse go datatypes data start = .ok s')
    (hname : info.parseType datatypes = .ok name) :
    ∃ scalar, Scalar.ofName name = some scalar ∧ scalar.Fits info.length.toNat := by
  have hlen : ((data.drop start).take info.length.toNat).length = info.length.toNat := by
    rw [Symbol.parse] at h
    split at h
    · cases h
    split at h
    · cases h
    · rw [length_take, length_drop]
      omega
  obtain ⟨text, htext, -⟩ := parse_leaf_ok h
  obtain ⟨name', scalar, hname', hscalar, hparse⟩ := parse_of_parseLeaf htext
  cases hname.symm.trans hname'
  refine ⟨scalar, hscalar, ?_⟩
  rw [← hlen]
  exact (Scalar.parse_ok_iff go).1 ⟨text, hparse⟩

/-- The text of a BOOL or an integer is taken back. -/
theorem Scalar.write_accepts {scalar : Scalar} (length : Nat)
    (hwhole : scalar.IsWhole) (hwidth : ∀ w, scalar = .int w → 0 < w) (h : scalar.parse go raw = .ok text) :
    ∃ bytes, scalar.write go length text = .ok bytes := by
  cases scalar with
  | bool =>
    rw [Scalar.parse] at h
    obtain ⟨-, rfl⟩ := sized_eq_ok.1 h
    split
    · exact ⟨[1], by rw [Scalar.write, parseBool_true]; rfl⟩
    · exact ⟨[0], by rw [Scalar.write, parseBool_false]; rfl⟩
  | uint w =>
    rw [Scalar.parse] at h
    obtain ⟨hlen, rfl⟩ := sized_eq_ok.1 h
    have hlt : decode raw < 2 ^ (8 * w) := by
      rw [← pow256, ← hlen]
      exact decode_lt raw
    refine ⟨encode w (decode raw), ?_⟩
    rw [Scalar.write, Decimal.parseUint_format hlt]
    rfl
  | int w =>
    rw [Scalar.parse] at h
    obtain ⟨hlen, rfl⟩ := sized_eq_ok.1 h
    obtain ⟨hlo, hhi, -⟩ := bmod_decode (hwidth w rfl) hlen
    refine ⟨encode w (Int.bmod (decode raw) (256 ^ w) % 256 ^ w).toNat, ?_⟩
    rw [Scalar.write, Decimal.parseInt_formatInt hlo hhi]
    rfl
  | _ => exact hwhole.elim

theorem width_pos (h : Scalar.ofName name = some (.int w)) : 0 < w := by
  have hcase := jsonCase_of_ofName h
  exact hcase.2.2.2.2.1

/-! ### Where the chains part -/

/-- Away from the type codes the two chains are one. -/
theorem writeType_of_reconciled (h : Reconciled datatypes info) (hname : info.parseType datatypes = .ok name) :
    info.writeType datatypes = .ok name := by
  unfold Info.parseType at hname
  unfold Info.writeType
  by_cases hknown : info.dataType ∈ parseableTypes
  · rw [if_pos hknown] at hname ⊢
    exact hname
  rw [if_neg hknown] at hname ⊢
  cases halias : datatypes.aliased info.dataType with
  | some =>
    simp only [halias] at hname
    exact hname
  | none =>
    simp only [halias] at hname
    have htable : ¬∃ name ∈ parseableTypes, datatypes info.dataType = some name := by
      rintro ⟨other, hmem, hentry⟩
      rw [aliased_eq_some.2 ⟨hentry, hmem⟩] at halias
      cases halias
    cases hads : adsTypeToString info.baseType with
    | none =>
      simp only [hads] at hname
      cases hinfer : inferBaseType info.length with
      | none =>
        simp only [hinfer] at hname
        cases hname
      | some =>
        simp only [hinfer] at hname
        exact hname
    | some resolved =>
      simp only [hads] at hname
      split at hname
      · cases hname
      next hwidth =>
      -- SINT and INT are what the size would have given
      cases hname
      have hcode : info.baseType = 16 ∨ info.baseType = 2 := by
        rcases h with h | h | h | h | h | h
        · exact absurd h hknown
        · exact absurd h htable
        · rw [h] at hads
          cases hads
        · exact .inl h
        · exact .inr h
        · exact absurd h hwidth
      rcases hcode with hcode | hcode
      · rw [hcode] at hads hwidth
        have hlen : info.length = 1 := by
          by_contra hne
          exact hwidth ⟨by decide, fun heq => hne heq.symm⟩
        rw [hlen]
        exact congrArg Except.ok (Option.some.inj hads)
      rw [hcode] at hads hwidth
      have hlen : info.length = 2 := by
        by_contra hne
        exact hwidth ⟨by decide, fun heq => hne heq.symm⟩
      rw [hlen]
      exact congrArg Except.ok (Option.some.inj hads)

theorem inferred_ne {inferred} (hads : adsTypeToString code = some resolved)
    (hsint : code ≠ 16) (hint : code ≠ 2) (hinfer : inferBaseType size = some inferred) :
    inferred ≠ resolved := by
  have hall : ∀ p ∈ adsTypes, p.1 ≠ 16 → p.1 ≠ 2 → p.2 ≠ "SINT" ∧ p.2 ≠ "INT" := by decide
  obtain ⟨h, h'⟩ := hall (code, resolved) (mem_adsTypes hads) hsint hint
  rcases inferBaseType_eq_some.1 hinfer with ⟨-, rfl⟩ | ⟨-, rfl⟩
  · exact h.symm
  · exact h'.symm

/-- A type code's base type is of the code's width, where it has one. -/
theorem fits_of_width {length} (hads : adsTypeToString code = some resolved)
    (hwidth : ¬(0 < adsTypeWidth code ∧ adsTypeWidth code ≠ length)) :
    ∃ scalar, Scalar.ofName resolved = some scalar ∧ scalar.Fits length.toNat := by
  have hall : ∀ p ∈ adsTypes, ∃ scalar, Scalar.ofName p.2 = some scalar ∧
      (scalar = .string ∨ scalar = .wstring ∨
        0 < adsTypeWidth p.1 ∧ scalar.Fits (adsTypeWidth p.1).toNat) := by
    intro p hp
    simp only [adsTypes, mem_cons, not_mem_nil, or_false] at hp
    rcases hp with rfl | rfl | rfl | rfl | rfl | rfl | rfl | rfl | rfl | rfl | rfl | rfl | rfl
    all_goals refine ⟨_, rfl, ?_⟩
    all_goals simp [adsTypeWidth, Scalar.Fits]
  obtain ⟨scalar, hscalar, h⟩ := hall (code, resolved) (mem_adsTypes hads)
  refine ⟨scalar, hscalar, ?_⟩
  rcases h with rfl | rfl | ⟨hpos, hfits⟩
  · trivial
  · trivial
  have hlen : adsTypeWidth code = length := by
    by_contra hne
    exact hwidth ⟨hpos, hne⟩
  rwa [hlen] at hfits

/-- **Reading and writing resolve a type the same way exactly when** the chain of `parse` does not end at a
    type code that `writeToNode` ignores. -/
theorem sameType_iff (go : Go) (datatypes : DataTypes) (info : Info) :
    SameType go datatypes info ↔ Reconciled datatypes info := by
  constructor
  · intro h
    by_contra hnot
    unfold Reconciled at hnot
    push Not at hnot
    obtain ⟨hknown, htable, hads, hsint, hint, hwidth⟩ := hnot
    obtain ⟨resolved, hads⟩ := Option.ne_none_iff_exists'.1 hads
    have halias : datatypes.aliased info.dataType = none := by
      rw [Option.eq_none_iff_forall_ne_some]
      intro name hname
      obtain ⟨hentry, hmem⟩ := aliased_eq_some.1 hname
      exact htable name hmem hentry
    have hno : ¬(0 < adsTypeWidth info.baseType ∧ adsTypeWidth info.baseType ≠ info.length) := fun hw =>
      hw.2 (hwidth hw.1)
    have hread : info.parseType datatypes = .ok resolved := by
      simp only [Info.parseType, if_neg hknown, halias, hads]
      exact if_neg hno
    obtain ⟨scalar, hscalar, hfits⟩ := fits_of_width hads hno
    obtain ⟨s', hs'⟩ := parse_zeros go hread hscalar hfits
    have hwrite := h.types _ s' hs' resolved hread
    simp only [Info.writeType, if_neg hknown, halias] at hwrite
    cases hinfer : inferBaseType info.length with
    | none =>
      simp only [hinfer] at hwrite
      cases hwrite
    | some =>
      simp only [hinfer] at hwrite
      exact inferred_ne hads hsint hint hinfer (Except.ok.inj hwrite)
  · intro h
    refine ⟨fun data s' _ name hname => writeType_of_reconciled h hname, ?_⟩
    intro data s' hs' name scalar hname hscalar hwhole
    obtain ⟨text, htext, rfl⟩ := parse_leaf_ok hs'
    obtain ⟨name', scalar', hname', hscalar', hparse⟩ := parse_of_parseLeaf htext
    cases hname.symm.trans hname'
    cases hscalar.symm.trans hscalar'
    have hwidth : ∀ w, scalar = .int w → 0 < w := by
      rintro w rfl
      exact width_pos hscalar
    obtain ⟨bytes, hbytes⟩ := Scalar.write_accepts info.length.toNat hwhole hwidth hparse
    refine ⟨bytes, ?_⟩
    rw [Symbol.writeToNode, writeLeaf_eq, writeType_of_reconciled h hname]
    show writeAs go name info.length.toNat text = .ok bytes
    simpa only [writeAs, hscalar] using hbytes

namespace Example

/-- A byte of a type that no table knows, with the protocol's code of an unsigned byte. -/
def mode : Info :=
  { key := "m", name := "m", dataType := "E_MODE", offset := 0, length := 1, baseType := 17 }

end Example

/-- It is read as USINT and written as SINT. -/
theorem mode_read_unsigned_written_signed : Example.mode.parseType (fun _ => none) = .ok "USINT" ∧
      Example.mode.writeType (fun _ => none) = .ok "SINT" ∧
      ¬SameType JsonText.go (fun _ => none) Example.mode := by
  refine ⟨rfl, rfl, fun h => ?_⟩
  obtain ⟨s', hs'⟩ := @parse_zeros Example.mode (fun _ => none) _ JsonText.go _ rfl rfl rfl
  have hwrite : Example.mode.writeType (fun _ => none) = .ok "USINT" := h.types _ s' hs' "USINT" rfl
  exact absurd (Except.ok.inj hwrite) (by decide)

/-! ## The name that is told -/

/-- `SymbolView.BaseTypeName`; empty where nothing resolves. -/
def Info.baseTypeName (info : Info) (datatypes : DataTypes) : String :=
  if info.dataType ∈ parseableTypes then info.dataType
  else
    match adsTypeToString info.baseType with
    | some name => name
    | none =>
      let inferred := (inferBaseType info.length).getD ""
      match datatypes info.dataType with
      -- the entry counts whether `parse` can read its type or not
      | some name => if name ≠ "" then name else inferred
      | none => inferred

/-- **BaseTypeName tells the truth about parse**: it is the base type of every reading that succeeds. -/
def NamesReading (go : Go) (datatypes : DataTypes) (info : Info) : Prop :=
  ∀ data start s', (Symbol.mk info []).parse go datatypes data start = .ok s' →
    ∀ name, info.parseType datatypes = .ok name → info.baseTypeName datatypes = name

/-- A type whose name is no base type: the protocol's code has no name or the one that the datatype table
    has of a base type of that size, and where neither has a base type and the size decides, the table has
    no entry but an empty one. -/
def TableAgrees (datatypes : DataTypes) (info : Info) : Prop :=
  info.dataType ∉ parseableTypes → ∀ entry, datatypes info.dataType = some entry →
    (∀ scalar, Scalar.ofName entry = some scalar → scalar.Fits info.length.toNat →
      adsTypeToString info.baseType = none ∨ adsTypeToString info.baseType = some entry) ∧
    (entry ∉ parseableTypes → adsTypeToString info.baseType = none →
      inferBaseType info.length = none ∨ entry = "")

/-- The two chains side by side: what each makes of a name that is no base type. -/
theorem baseTypeName_of_agrees (h : TableAgrees datatypes info) (hname : info.parseType datatypes = .ok name)
    {scalar} (hscalar : Scalar.ofName name = some scalar) (hfits : scalar.Fits info.length.toNat) :
    info.baseTypeName datatypes = name := by
  unfold Info.parseType at hname
  unfold Info.baseTypeName
  by_cases hknown : info.dataType ∈ parseableTypes
  · rw [if_pos hknown] at hname ⊢
    exact Except.ok.inj hname
  rw [if_neg hknown] at hname ⊢
  have hagree := h hknown
  cases halias : datatypes.aliased info.dataType with
  | some entry =>
    simp only [halias, Except.ok.injEq] at hname
    subst hname
    obtain ⟨hentry, hmem⟩ := aliased_eq_some.1 halias
    have hne : entry ≠ "" := fun h => absurd (h ▸ hmem) (by decide)
    rcases (hagree entry hentry).1 scalar hscalar hfits with hads | hads
    · simp [hads, hentry, hne]
    · simp [hads]
  | none =>
    simp only [halias] at hname
    cases hads : adsTypeToString info.baseType with
    | some resolved =>
      simp only [hads] at hname
      split at hname
      · cases hname
      · exact Except.ok.inj hname
    | none =>
      simp only [hads] at hname
      cases hinfer : inferBaseType info.length with
      | none =>
        simp only [hinfer] at hname
        cases hname
      | some inferred =>
        simp only [hinfer, Except.ok.injEq] at hname
        cases hentry : datatypes info.dataType with
        | none => simp [hname]
        | some entry =>
          -- an entry that `parse` passed over has to be empty
          have hmem : entry ∉ parseableTypes := by
            intro hmem
            rw [aliased_eq_some.2 ⟨hentry, hmem⟩] at halias
            cases halias
          have hempty : entry = "" := ((hagree entry hentry).2 hmem hads).resolve_left (by simp [hinfer])
          simp [hempty, hname]

/-- **BaseTypeName tells the truth exactly when** the protocol's code and the datatype table agree, and the
    table has nothing to say about what is read by its size. -/
theorem namesReading_iff (go : Go) (datatypes : DataTypes) (info : Info) :
    NamesReading go datatypes info ↔ TableAgrees datatypes info := by
  constructor
  · intro h hknown entry hentry
    refine ⟨fun scalar hscalar hfits => ?_, fun hmem hads => ?_⟩
    · have hname : info.parseType datatypes = .ok entry := by
        rw [Info.parseType, if_neg hknown, aliased_eq_some.2 ⟨hentry, mem_parseableTypes.2 ⟨scalar, hscalar⟩⟩]
      obtain ⟨s', hs'⟩ := parse_zeros go hname hscalar hfits
      have hbase := h _ _ s' hs' entry hname
      rw [Info.baseTypeName, if_neg hknown] at hbase
      cases hads : adsTypeToString info.baseType with
      | none => exact .inl rfl
      | some resolved =>
        simp only [hads] at hbase
        exact .inr (congrArg some hbase)
    · by_contra hnot
      push Not at hnot
      obtain ⟨inferred, hinfer⟩ := Option.ne_none_iff_exists'.1 hnot.1
      have halias : datatypes.aliased info.dataType = none := by
        rw [DataTypes.aliased, hentry, Option.filter_some, if_neg (by simpa using hmem)]
      have hname : info.parseType datatypes = .ok inferred := by
        rw [Info.parseType, if_neg hknown, halias, hads, hinfer]
      have hscalar : ∃ scalar, Scalar.ofName inferred = some scalar ∧ scalar.Fits info.length.toNat := by
        rcases inferBaseType_eq_some.1 hinfer with ⟨hlen, rfl⟩ | ⟨hlen, rfl⟩ <;> rw [hlen]
        · exact ⟨_, rfl, rfl⟩
        · exact ⟨_, rfl, rfl⟩
      obtain ⟨scalar, hscalar, hfits⟩ := hscalar
      obtain ⟨s', hs'⟩ := parse_zeros go hname hscalar hfits
      have hbase := h _ _ s' hs' inferred hname
      have hentry' : entry = inferred := by simpa [Info.baseTypeName, hknown, hads, hentry, hnot.2] using hbase
      exact hmem (hentry' ▸ mem_parseableTypes.2 ⟨scalar, hscalar⟩)
  · intro h data start s' hs' name hname
    obtain ⟨scalar, hscalar, hfits⟩ := fits_of_parse hs' hname
    exact baseTypeName_of_agrees h hname hscalar hfits

/-- An alias of TIME, whose code is that of an unsigned integer: `parse` reads a time of day from it, and
    BaseTypeName calls it UDINT. -/
theorem alias_of_time_misnamed :
    ∃ info : Info, ∃ datatypes : DataTypes, info.parseType datatypes = .ok "TIME" ∧
      info.baseTypeName datatypes = "UDINT" ∧ ¬NamesReading JsonText.go datatypes info := by
  let info : Info := { key := "t", name := "t", dataType := "T_Cycle", offset := 0, length := 4
                       baseType := 19 }
  let datatypes : DataTypes := fun _ => some "TIME"
  refine ⟨info, datatypes, rfl, rfl, fun h => ?_⟩
  obtain ⟨s', hs'⟩ := @parse_zeros info datatypes _ JsonText.go _ rfl rfl rfl
  exact absurd (h _ _ s' hs' "TIME" rfl) (by decide)

end GoAds.Codec
