import GoAds.Upload.Framing

/-!
# `Upload.Expansion` — which type a symbol is expanded with

The datatype table is filed under the names of its types as they stand in the records, while the type name
of a symbol, of a member or of an element goes through `normalizeStringDataType` before the table is asked
for it.  That function means `STRING(80)`, and takes every name that begins with `STRING` or `WSTRING`.

`addOffset` is here over the datatypes as the decoder returns them, and `tableTypes` is what a decoded table
does to a symbol, which the decoder of the symbol table has as a parameter.
-/

namespace GoAds.Upload

open Codec (Text lit)
open RecordLoop List

/-! ## `addOffset` -/

/-- The type that the table has under a name. -/
def findType (types : List SymbolUploadDataType) (name : Text) : Option SymbolUploadDataType :=
  types.find? fun t => t.name = name

def isEnumDataType (dt : SymbolUploadDataType) : Bool :=
  !dt.children.isEmpty && dt.info.datatypeEntry.arrayDim == 0 &&
    decide (dt.info.dataType ∈ Codec.parseableTypes.map lit)

/-- The path of a member: an array element follows its parent without a dot. -/
def memberPath (parent segment : Text) : Text :=
  if segment.take 1 = lit "[" then parent ++ segment else parent ++ lit "." ++ segment

/-- The member that a segment gives a parent. -/
def member (parent : SymbolInfo) (segment : SymbolUploadDataType) : SymbolInfo :=
  { name := segment.name
    fullName := memberPath parent.fullName segment.name
    dataType := segment.info.dataType
    comment := segment.info.comment
    length := segment.size
    baseType := segment.info.datatypeEntry.dataType
    group := parent.group
    offset := segment.offs
    flags := 0
    contextMask := 0 }

/-- `addOffsetDepth`, by the number of levels left.  Members without a name are left out, and enums are
    not expanded. -/
def addOffsetDepth (types : List SymbolUploadDataType) : Nat → SymbolInfo → SymbolUploadDataType → List Symbol
  | 0, _, _ => []
  | left + 1, parent, data =>
    (data.children.filter fun segment => segment.name ≠ []).map fun segment =>
      let child := member parent segment
      .mk child (match findType types segment.info.dataType with
        | some dt => if isEnumDataType dt then [] else addOffsetDepth types left child dt
        | none => [])

/-- `addOffset`: at most 256 levels. -/
def addOffset (types : List SymbolUploadDataType) (parent : SymbolInfo) (data : SymbolUploadDataType) :
    List Symbol :=
  addOffsetDepth types 256 parent data

/-- What a table does to a symbol of one of its types. -/
def tableTypes (types : List SymbolUploadDataType) : DataTypes := fun name =>
  (findType types name).map fun dt parent => addOffset types parent dt

def Symbol.children : Symbol → List Symbol
  | .mk _ children => children

/-- The node that a segment gives a parent, with so many levels left below it. -/
def expandMember (types : List SymbolUploadDataType) (left : Nat) (parent : SymbolInfo)
    (segment : SymbolUploadDataType) : Symbol :=
  .mk (member parent segment) (match findType types segment.info.dataType with
    | some dt => if isEnumDataType dt then [] else addOffsetDepth types left (member parent segment) dt
    | none => [])

/-- The members of a symbol are the nodes of the segments of its type. -/
theorem addOffsetDepth_succ (types : List SymbolUploadDataType) (left : Nat) (parent : SymbolInfo)
    (data : SymbolUploadDataType) : addOffsetDepth types (left + 1) parent data =
      (data.children.filter fun segment => segment.name ≠ []).map (expandMember types left parent) := rfl

/-! ## Type names -/

/-- The name of a string type: STRING or WSTRING, with or without a length. -/
def IsStringType (typeName : Text) : Prop :=
  ∃ base ∈ [lit "STRING", lit "WSTRING"], typeName = base ∨
    ∃ digits : Text, digits ≠ [] ∧ (∀ b ∈ digits, 48 ≤ b ∧ b ≤ 57) ∧
      (typeName = base ++ lit "(" ++ digits ++ lit ")" ∨ typeName = base ++ lit "[" ++ digits ++ lit "]")

/-- The name begins with STRING or WSTRING. -/
def BeginsAsString (typeName : Text) : Prop :=
  typeName.take 7 = lit "WSTRING" ∨ typeName.take 6 = lit "STRING"

theorem normalize_of_not_begins {typeName} (h : ¬ BeginsAsString typeName) :
    normalizeStringDataType typeName = typeName := by
  rw [BeginsAsString, not_or] at h
  rw [normalizeStringDataType, if_neg h.1, if_neg h.2]

/-- A name that begins like a string type, and is none, is changed. -/
theorem normalize_ne_of_begins {typeName} (h : BeginsAsString typeName)
    (hno : ¬ IsStringType typeName) : normalizeStringDataType typeName ≠ typeName := by
  intro heq
  apply hno
  unfold normalizeStringDataType at heq
  split at heq
  · exact ⟨lit "WSTRING", by decide, .inl heq.symm⟩
  split at heq
  · exact ⟨lit "STRING", by decide, .inl heq.symm⟩
  · next hw hs => exact absurd h (not_or.2 ⟨hw, hs⟩)

/-! ## The type name that a record declares -/

/-- The type name in a record of the symbol table. -/
def declaredSymbolType (data : Bytes) : Option Text :=
  match Wire.binaryRead SymbolEntry.layout data with
  | .error _ => none
  | .ok (result, buff) =>
    match readTexts result.nameLength result.typeLength result.commentLength buff with
    | .error _ => none
    | .ok (texts, _) => some (cString texts.dataType)

/-- The type name in a record of the datatype table. -/
def declaredType (data : Bytes) : Option Text :=
  match Wire.binaryRead DatatypeEntry.layout data with
  | .error _ => none
  | .ok (result, buff) =>
    match readTexts result.nameLength result.typeLength result.commentLength buff with
    | .error _ => none
    | .ok (texts, _) => some (cString texts.dataType)

/-- The records that a table is read as. -/
inductive TableRecord : Bytes → Bytes → Prop
  | here {data rest : Bytes} {t : SymbolUploadDataType}
      (h : decodeSymbolUploadDataType [] data = .ok (t, rest)) :
      TableRecord data data
  | next {data rest record : Bytes} {t : SymbolUploadDataType}
      (h : decodeSymbolUploadDataType [] data = .ok (t, rest)) (more : TableRecord rest record) :
      TableRecord data record

/-- The records of so many members, one behind the other in a buffer. -/
inductive MemberRecord (parent : Text) : Nat → Bytes → Bytes → Prop
  | here (left : Nat) (buff : Bytes) : MemberRecord parent (left + 1) buff buff
  | next {left : Nat} {buff rest record : Bytes} {t : SymbolUploadDataType}
      (h : decodeSymbolUploadDataType parent buff = .ok (t, rest))
      (more : MemberRecord parent left rest record) :
      MemberRecord parent (left + 1) buff record

/-- The record of a member of the struct whose record this is. -/
def HasMember (data record : Bytes) : Prop :=
  ∃ parent header buff, readHeader parent data = .ok (header, buff) ∧ header.datatypeEntry.arrayDim = 0 ∧
    MemberRecord header.name header.datatypeEntry.subItems.toNat
      (buff.take (header.datatypeEntry.entryLength.toNat - (data.length - buff.length))) record

/-- A record of the table, or of a member at whatever level. -/
inductive RecordOf (data : Bytes) : Bytes → Prop
  | top {record : Bytes} (h : TableRecord data record) : RecordOf data record
  | member {struct record : Bytes} (h : RecordOf data struct) (hm : HasMember struct record) :
      RecordOf data record

/-- A member of a struct or an element of an array in a table, with the type name that its record
    declares.  The elements of an array are of the type that the array's record declares. -/
inductive DeclaredSegment (data : Bytes) (typeName : Text) : SymbolUploadDataType → Prop
  | member {struct record rest : Bytes} {parent : Text} {segment : SymbolUploadDataType}
      (hrec : RecordOf data struct) (hm : HasMember struct record) (htype : declaredType record = some typeName)
      (hdecode : decodeSymbolUploadDataType parent record = .ok (segment, rest)) :
      DeclaredSegment data typeName segment
  | element {record rest : Bytes} {parent : Text} {t segment : SymbolUploadDataType}
      (hrec : RecordOf data record) (htype : declaredType record = some typeName)
      (hdecode : decodeSymbolUploadDataType parent record = .ok (t, rest))
      (hdim : t.info.datatypeEntry.arrayDim ≠ 0) (hs : segment ∈ t.children) :
      DeclaredSegment data typeName segment

section Declared

variable {data rest : Bytes} {typeName parent : Text} {t segment : SymbolUploadDataType}

theorem nextSymbol_dataType {item} (hok : nextSymbol data = .ok (item, rest))
    (htype : declaredSymbolType data = some typeName) : item.dataType = normalizeStringDataType typeName := by
  unfold nextSymbol at hok
  unfold declaredSymbolType at htype
  split at hok
  · cases hok
  next result buff hheader =>
  simp only [hheader] at htype
  split at hok
  · cases hok
  next texts buff htexts =>
  simp only [htexts] at htype
  cases htype
  dsimp only at hok
  split at hok
  · cases hok
  · cases hok
    rfl

theorem zero_notMem_cString (b : Bytes) : 0 ∉ cString b := by
  intro hmem
  have hne := mem_takeWhile_imp hmem
  simp at hne

theorem length_name_lt {n t c texts} (hok : readTexts n t c data = .ok (texts, rest)) :
    (cString texts.name).length < 2 ^ 16 := by
  unfold readTexts at hok
  split at hok
  · cases hok
  next name buff hname =>
  obtain ⟨-, rfl, -⟩ := readBytes_eq_ok.1 hname
  split at hok
  · cases hok
  split at hok
  · cases hok
  cases hok
  have hlen := (takeWhile_sublist (fun b : UInt8 => decide (b ≠ 0)) (l := data.take n.toNat)).length_le
  have hn := n.toNat_lt
  rw [length_take] at hlen
  show (List.takeWhile (fun b : UInt8 => decide (b ≠ 0)) (data.take n.toNat)).length < 2 ^ 16
  omega

/-- A header has the name that its record declares, without zeros and in the length that the header gives,
    and the type that the record declares, normalized. -/
theorem readHeader_texts {header} (hok : readHeader parent data = .ok (header, rest)) :
    ∃ typeName, declaredType data = some typeName ∧ header.dataType = normalizeStringDataType typeName ∧
      0 ∉ header.name ∧ header.name.length < 2 ^ 16 := by
  unfold readHeader at hok
  split at hok
  · cases hok
  split at hok
  · cases hok
  next result buff hheader =>
  split at hok
  · cases hok
  next texts buff htexts =>
  cases hok
  refine ⟨cString texts.dataType, ?_, rfl, zero_notMem_cString _, ?_⟩
  · simp only [declaredType, hheader, htexts]
  · exact length_name_lt htexts

/-- A datatype comes with the header of its record, and an array with elements of the type that the header
    has. -/
theorem decode_header (hok : decodeSymbolUploadDataType parent data = .ok (t, rest)) :
    ∃ header buff, readHeader parent data = .ok (header, buff) ∧ t.info = header ∧
      (header.datatypeEntry.arrayDim ≠ 0 → ∀ segment ∈ t.children, ∃ levels size,
        segment ∈ makeArrayChildren levels header.dataType size) := by
  rw [decodeSymbolUploadDataType_eq, decodeWith] at hok
  split at hok
  · cases hok
  next header buff hheader =>
  refine ⟨header, buff, hheader, ?_⟩
  dsimp only at hok
  split at hok
  · cases hok
    exact ⟨rfl, fun _ segment hs => absurd hs not_mem_nil⟩
  split at hok
  · cases hok
  split at hok
  · cases hok
  next children hchildren =>
  cases hok
  refine ⟨rfl, fun hdim segment hs => ?_⟩
  have hpos : header.datatypeEntry.arrayDim > 0 := UInt16.pos_iff_ne_zero.2 hdim
  rw [readChildren, if_pos hpos] at hchildren
  cases hlevels : readLevels header.name header.datatypeEntry.arrayDim.toNat
      (buff.take (header.datatypeEntry.entryLength.toNat - (data.length - buff.length))) with
  | error e =>
    rw [hlevels] at hchildren
    cases hchildren
  | ok levels =>
    rw [hlevels] at hchildren
    cases hchildren
    exact ⟨levels, _, hs⟩

theorem arrayLoop_dataType {levels dt elemSize left n idx children} (h : ∀ t ∈ children, t.info.dataType = dt) :
    ∀ t ∈ arrayLoop levels dt elemSize left n idx children, t.info.dataType = dt := by
  induction left generalizing n idx children with
  | zero => exact h
  | succ left ih => exact ih (Keyed.forall_store h rfl)

theorem makeArrayChildren_dataType {levels dt size} :
    ∀ t ∈ makeArrayChildren levels dt size, t.info.dataType = dt := by
  unfold makeArrayChildren
  split
  · exact nofun
  split
  · exact nofun
  · exact arrayLoop_dataType nofun

theorem DeclaredSegment.dataType (h : DeclaredSegment data typeName segment) :
    segment.info.dataType = normalizeStringDataType typeName := by
  cases h with
  | member hrec hm htype hdecode =>
    obtain ⟨header, buff, hheader, hinfo, -⟩ := decode_header hdecode
    obtain ⟨declared, hdeclared, hnormal, -⟩ := readHeader_texts hheader
    cases hdeclared.symm.trans htype
    rw [hinfo, hnormal]
  | element hrec htype hdecode hdim hs =>
    obtain ⟨header, buff, hheader, hinfo, helements⟩ := decode_header hdecode
    obtain ⟨declared, hdeclared, hnormal, -⟩ := readHeader_texts hheader
    cases hdeclared.symm.trans htype
    rw [hinfo] at hdim
    obtain ⟨levels, size, hmem⟩ := helements hdim _ hs
    rw [makeArrayChildren_dataType _ hmem, hnormal]

theorem name_of_parse {types} (hparse : parseUploadSymbolInfoDataTypes data = .ok types) :
    ∀ t ∈ types, 0 ∉ t.name ∧ t.name.length < 2 ^ 16 := by
  obtain ⟨records, hreads, rfl⟩ := Reads.of_loop isLoop_parseDataTypes hparse
  apply Reads.collect_invariant hreads
    (P := fun types : List SymbolUploadDataType => ∀ t ∈ types, 0 ∉ t.name ∧ t.name.length < 2 ^ 16)
  · exact nofun
  intro data t rest types hok htypes
  apply Keyed.forall_store htypes
  obtain ⟨header, buff, hheader, hinfo, -⟩ := decode_header hok
  obtain ⟨-, -, -, hname⟩ := readHeader_texts hheader
  have heq : t.name = header.name := congrArg TypeInfo.name hinfo
  rw [heq]
  exact hname

end Declared

/-! ## A user-defined type -/

/-- **A type of this name is never mistaken for a string.**  The table has it as `t`.  A symbol that
    declares it, and a member or an element of the table that does, have it for their type and are
    expanded with the members of `t`, down to whatever level is left. -/
structure NeverString (data : Bytes) (types : List SymbolUploadDataType) (typeName : Text)
    (t : SymbolUploadDataType) : Prop where
  symbol : ∀ record item rest, nextSymbol record = .ok (item, rest) →
    declaredSymbolType record = some typeName →
    (addSymbol item (tableTypes types)).info.dataType = typeName ∧
      (addSymbol item (tableTypes types)).children =
        addOffset types (addSymbol item (tableTypes types)).info t
  segment : ∀ segment, DeclaredSegment data typeName segment → ∀ left parent,
    (expandMember types left parent segment).info.dataType = typeName ∧
      (expandMember types left parent segment).children =
        addOffsetDepth types left (member parent segment) t

/-- The type is an enum with a member to show, and some struct or array of the table has a segment of it.
    Such a segment stays a scalar. -/
def StaysScalar (data : Bytes) (typeName : Text) (t : SymbolUploadDataType) : Prop :=
  isEnumDataType t = true ∧ (∃ m ∈ t.children, m.name ≠ []) ∧ ∃ segment, DeclaredSegment data typeName segment

section Law

variable {data : Bytes} {types : List SymbolUploadDataType} {typeName : Text} {t : SymbolUploadDataType}

theorem info_addSymbol_dataType (item : SymbolUploadSymbol) (datatypes : DataTypes) :
    (addSymbol item datatypes).info.dataType = item.dataType := by
  unfold addSymbol
  split <;> rfl

theorem addSymbol_of_findType {item} (h : findType types item.dataType = some t) :
    (addSymbol item (tableTypes types)).children =
      addOffset types (addSymbol item (tableTypes types)).info t := by
  have hsome : tableTypes types item.dataType = some fun parent => addOffset types parent t := by
    rw [tableTypes, h]
    rfl
  simp only [addSymbol, hsome]
  rfl

theorem children_expandMember {left parent segment}
    (h : findType types segment.info.dataType = some t) :
    (expandMember types left parent segment).children =
      if isEnumDataType t then [] else addOffsetDepth types left (member parent segment) t := by
  rw [expandMember, h]
  rfl

theorem addOffsetDepth_ne_nil (h : ∃ m ∈ t.children, m.name ≠ []) (left : Nat) (parent : SymbolInfo) :
    addOffsetDepth types (left + 1) parent t ≠ [] := by
  obtain ⟨m, hm, hname⟩ := h
  have hmem : m ∈ t.children.filter fun segment => segment.name ≠ [] :=
    mem_filter.2 ⟨hm, decide_eq_true hname⟩
  rw [addOffsetDepth_succ]
  intro hnil
  rw [map_eq_nil_iff.1 hnil] at hmem
  exact nomatch hmem

theorem addOffsetDepth_eq_nil (h : ∀ m ∈ t.children, m.name = []) (left : Nat) (parent : SymbolInfo) :
    addOffsetDepth types left parent t = [] := by
  cases left with
  | zero => rfl
  | succ =>
    have hnone : t.children.filter (fun segment => segment.name ≠ []) = [] := by
      apply filter_eq_nil_iff.2
      intro m hm
      simp [h m hm]
    rw [addOffsetDepth_succ, hnone, map_nil]

theorem neverString_of_not_begins (hfind : findType types typeName = some t) (h : ¬ BeginsAsString typeName)
    (hscalar : ¬ StaysScalar data typeName t) : NeverString data types typeName t where
  symbol record item rest hnext htype := by
    have hname : item.dataType = typeName := by
      rw [nextSymbol_dataType hnext htype, normalize_of_not_begins h]
    rw [info_addSymbol_dataType]
    refine ⟨hname, addSymbol_of_findType ?_⟩
    rw [hname]
    exact hfind
  segment segment hseg left parent := by
    have hname : segment.info.dataType = typeName := by
      rw [hseg.dataType, normalize_of_not_begins h]
    refine ⟨hname, ?_⟩
    rw [children_expandMember (by rw [hname]; exact hfind)]
    split
    · next henum =>
      -- an enum here has nothing to show
      have hnone : ∀ m ∈ t.children, m.name = [] := by
        intro m hm
        by_contra hne
        exact hscalar ⟨henum, ⟨m, hm, hne⟩, segment, hseg⟩
      rw [addOffsetDepth_eq_nil hnone]
    · rfl

/-- A symbol of the type. -/
def symbolTyped (typeName : Text) : Entry :=
  { iGroup := 0x4040, iOffs := 0, size := 2, dataType := 65, flags := 0, name := lit "MAIN.v"
    typeName := typeName, comment := [], padding := [] }

theorem valid_symbolTyped (h : 0 ∉ typeName ∧ typeName.length < 2 ^ 16) : (symbolTyped typeName).Valid := by
  have hname : 0 ∉ lit "MAIN.v" ∧ (lit "MAIN.v").length < 2 ^ 16 := by decide
  have hempty : 0 ∉ ([] : Text) ∧ ([] : Text).length < 2 ^ 16 := by decide
  refine ⟨hname, h, hempty, ?_⟩
  show 30 + (6 + typeName.length + 0 + 3) + 0 < 2 ^ 32
  omega

theorem declaredSymbolType_encode {e : Entry} (h : e.Valid) :
    declaredSymbolType (e.encode ++ []) = some e.typeName := by
  unfold declaredSymbolType
  rw [Entry.read_header]
  simp only [Entry.read_texts h, cString_of_plain h.typeName.1]

/-- A symbol of a type that begins like a string is one. -/
theorem not_neverString_of_begins (htext : 0 ∉ typeName ∧ typeName.length < 2 ^ 16)
    (h : BeginsAsString typeName) (hno : ¬ IsStringType typeName) : ¬ NeverString data types typeName t := by
  intro hnever
  have hvalid := valid_symbolTyped htext
  have hsymbol := hnever.symbol _ _ _ (Entry.nextSymbol_encode hvalid []) (declaredSymbolType_encode hvalid)
  rw [info_addSymbol_dataType] at hsymbol
  exact normalize_ne_of_begins h hno hsymbol.1

/-- **Exactly the names that begin with STRING or WSTRING are mistaken**, of the names that are no string
    types; and a segment of an enum is not expanded. -/
theorem never_string_iff (hparse : parseUploadSymbolInfoDataTypes data = .ok types)
    (hfind : findType types typeName = some t) (hno : ¬ IsStringType typeName) :
    NeverString data types typeName t ↔ ¬ BeginsAsString typeName ∧ ¬ StaysScalar data typeName t := by
  constructor
  · intro hnever
    refine ⟨fun hbegins => ?_, ?_⟩
    · have htext := name_of_parse hparse t (mem_of_find?_eq_some hfind)
      have hname : t.name = typeName := by
        unfold findType at hfind
        have hsome := find?_some hfind
        exact of_decide_eq_true hsome
      rw [hname] at htext
      exact not_neverString_of_begins htext hbegins hno hnever
    rintro ⟨henum, hnamed, segment, hseg⟩
    -- the law asks for members one level down, and an enum has none there
    obtain ⟨hname, hchildren⟩ := hnever.segment segment hseg 1 (symbolTyped typeName).info
    have htype : segment.info.dataType = typeName := hname
    rw [children_expandMember (by rw [htype]; exact hfind), if_pos henum] at hchildren
    exact addOffsetDepth_ne_nil hnamed 0 _ hchildren.symm
  · rintro ⟨hbegins, hscalar⟩
    exact neverString_of_not_begins hfind hbegins hscalar

/-! ### A struct and an array of it -/

/-- A member: an INT. -/
def intField : Fields := { size := 2, dataType := 2, name := lit "value", typeName := lit "INT" }

/-- A struct of one member. -/
def structNamed (typeName : Text) : TypeTree :=
  .node { size := 2, dataType := 65, name := typeName, typeName := typeName } [.node intField []]

theorem valid_structNamed (h : 0 ∉ typeName ∧ typeName.length < 2 ^ 16) : (structNamed typeName).Valid := by
  have hfield : (TypeTree.node intField []).Valid := by
    refine .node ⟨by decide, by decide, by decide⟩ (by decide) .nil ?_ (by decide)
    intro m hm
    cases hm
  have hempty : 0 ∉ ([] : Text) ∧ ([] : Text).length < 2 ^ 16 := by decide
  refine .node ⟨h, h, hempty⟩ (by decide) (nodup_singleton _) ?_ ?_
  · intro m hm
    rw [mem_singleton.1 hm]
    exact hfield
  have hlen : (encodeTypes [.node intField []]).length = 53 := by decide
  rw [hlen]
  show 42 + (typeName.length + typeName.length + 0 + 3) + 53 < 2 ^ 32
  omega

theorem parse_structNamed (h : 0 ∉ typeName ∧ typeName.length < 2 ^ 16)
    (datatypes : List SymbolUploadDataType) :
    parseDataTypes (encodeTypes [structNamed typeName]) datatypes =
      .ok (Keyed.store SymbolUploadDataType.name (structNamed typeName).described datatypes) := by
  have hvalid : ∀ t ∈ [structNamed typeName], t.Valid := by
    intro t ht
    rw [mem_singleton.1 ht]
    exact valid_structNamed h
  have hroomy : RoomyTypes [structNamed typeName] := by
    simp [RoomyTypes, structNamed, TypeTree.Roomy, TypeTree.Short, intField, lit]
  rcases parseDataTypes_encodeTypes hvalid datatypes with ⟨-, hread⟩ | ⟨hnot, -⟩
  · exact hread
  · exact absurd hroomy hnot

theorem findType_structNamed (typeName : Text) :
    findType [(structNamed typeName).described] typeName = some (structNamed typeName).described := by
  have hname : (structNamed typeName).described.name = typeName := name_described _
  simp [findType, hname]

/-- A string type has one of the two names, or ends in a bracket. -/
theorem IsStringType.ends (h : IsStringType typeName) : typeName = lit "STRING" ∨ typeName = lit "WSTRING" ∨
      typeName.getLast? = some 41 ∨ typeName.getLast? = some 93 := by
  obtain ⟨base, hbase, rfl | ⟨digits, -, -, rfl | rfl⟩⟩ := h
  · simp only [mem_cons, not_mem_nil, or_false] at hbase
    rcases hbase with rfl | rfl
    · exact .inl rfl
    · exact .inr (.inl rfl)
  · exact .inr (.inr (.inl getLast?_concat))
  · exact .inr (.inr (.inr getLast?_concat))

def twoLists : TypeTree :=
  .array { size := 4, dataType := 65, name := lit "LISTS", typeName := lit "ST_LIST" } 0 [⟨0, 2⟩]

theorem valid_twoLists : twoLists.Valid :=
  .array ⟨by decide, by decide, by decide⟩ ⟨by decide, by decide, by decide, by decide⟩ (by decide) (by decide)

/-- A table of the array and the struct, which the elements of the array are. -/
theorem never_string_st_list :
    NeverString (encodeTypes [twoLists, structNamed (lit "ST_LIST")])
        [twoLists.described, (structNamed (lit "ST_LIST")).described] (lit "ST_LIST")
        (structNamed (lit "ST_LIST")).described ∧
      ∃ segment, DeclaredSegment (encodeTypes [twoLists, structNamed (lit "ST_LIST")])
        (lit "ST_LIST") segment := by
  have hno : ¬ IsStringType (lit "ST_LIST") := fun h => absurd h.ends (by decide)
  have hdecode : decodeSymbolUploadDataType [] (encodeTypes [twoLists, structNamed (lit "ST_LIST")]) =
      .ok (twoLists.described, encodeTypes [structNamed (lit "ST_LIST")]) := by
    rcases decode_first valid_twoLists (decodes_of_valid _ valid_twoLists) [] with ⟨-, hok⟩ | ⟨hnot, -⟩
    · exact hok
    · exact absurd ⟨nofun, trivial⟩ hnot
  have hparse : parseUploadSymbolInfoDataTypes (encodeTypes [twoLists, structNamed (lit "ST_LIST")]) =
      .ok [twoLists.described, (structNamed (lit "ST_LIST")).described] :=
    (parseDataTypes_of_ok [] (by decide) hdecode).trans (parse_structNamed (by decide) _)
  constructor
  · refine (never_string_iff hparse rfl hno).2 ⟨?_, ?_⟩
    · intro h
      rcases h with h | h
      · exact absurd h (by decide)
      · exact absurd h (by decide)
    · intro h
      exact absurd h.1 (by decide)
  · exact ⟨_, .element (.top (.here hdecode)) (by decide +kernel) hdecode (by decide) (mem_cons_self ..)⟩

/-- STRING_LIST is a struct of the table, and a symbol of it is a STRING without members. -/
theorem string_list_taken_for_string : ¬ IsStringType (lit "STRING_LIST") ∧
      parseUploadSymbolInfoDataTypes (encodeTypes [structNamed (lit "STRING_LIST")]) =
        .ok [(structNamed (lit "STRING_LIST")).described] ∧
      findType [(structNamed (lit "STRING_LIST")).described] (lit "STRING_LIST") =
        some (structNamed (lit "STRING_LIST")).described ∧
      (structNamed (lit "STRING_LIST")).described.children.map SymbolUploadDataType.name = [lit "value"] ∧
      declaredSymbolType (symbolTyped (lit "STRING_LIST")).encode = some (lit "STRING_LIST") ∧
      ∃ item, nextSymbol (symbolTyped (lit "STRING_LIST")).encode = .ok (item, []) ∧
        (addSymbol item (tableTypes [(structNamed (lit "STRING_LIST")).described])).info.dataType =
          lit "STRING" ∧
        (addSymbol item (tableTypes [(structNamed (lit "STRING_LIST")).described])).children = [] := by
  have hvalid : (symbolTyped (lit "STRING_LIST")).Valid := valid_symbolTyped (by decide)
  have hnext := Entry.nextSymbol_encode hvalid []
  have htype := declaredSymbolType_encode hvalid
  rw [append_nil] at hnext htype
  refine ⟨fun h => absurd h.ends (by decide), parse_structNamed (by decide) [], findType_structNamed _,
    ?_, htype, _, hnext, ?_, ?_⟩
  · decide
  · decide
  · rfl

end Law

end GoAds.Upload
