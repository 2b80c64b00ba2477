import GoAds.Upload.Arrays
import GoAds.Upload.Records

/-!
# `Upload.TypeTable` — the decoder of the datatype table

A datatype is a header, three texts, and then the ranges of an array or the members of a struct, which
are datatypes themselves.  `decodeSymbolUploadDataType` calls itself for the members, on a buffer of its
own that holds what `EntryLength` leaves behind the texts.

Every call refuses a buffer of less than 48 bytes.  The smallest record has 45, so a record without
members and with fewer than 3 bytes of text is read only if something follows it in its buffer.
-/

namespace GoAds.Upload

open List

open Codec (Text lit)
open Wire (ReadErr)

/-! ## Layouts -/

def DatatypeEntry.layout : FixedSize DatatypeEntry :=
  (FixedSize.uint32.pair (.pair .uint32 (.pair .uint32 (.pair .uint32 (.pair .uint32 (.pair .uint32
    (.pair .uint32 (.pair .uint32 (.pair .uint16 (.pair .uint16 (.pair .uint16 (.pair .uint16
      .uint16)))))))))))).record
    (fun p => ⟨p.1, p.2.1, p.2.2.1, p.2.2.2.1, p.2.2.2.2.1, p.2.2.2.2.2.1, p.2.2.2.2.2.2.1,
      p.2.2.2.2.2.2.2.1, p.2.2.2.2.2.2.2.2.1, p.2.2.2.2.2.2.2.2.2.1, p.2.2.2.2.2.2.2.2.2.2.1,
      p.2.2.2.2.2.2.2.2.2.2.2.1, p.2.2.2.2.2.2.2.2.2.2.2.2⟩)
    (fun e => (e.entryLength, e.version, e.hashValue, e.typeHashValue, e.size, e.offs, e.dataType, e.flags,
      e.nameLength, e.typeLength, e.commentLength, e.arrayDim, e.subItems))
    (fun _ => rfl) fun _ => rfl

def DatatypeArrayInfo.layout : FixedSize DatatypeArrayInfo :=
  (FixedSize.uint32.pair .uint32).record (fun p => ⟨p.1, p.2⟩) (fun a => (a.lBound, a.elements))
    (fun _ => rfl) fun _ => rfl

/-! ## The decoder -/

/-- Why the datatype table is refused. -/
inductive TypeErr
  /-- `%s - wrong size < 48 bytes` -/
  | wrongSize (parent : Text)
  | read (e : ReadErr)
  /-- `childLen %d exceeds remaining data %d for %s` -/
  | childLen (childLen remaining : Nat) (name : Text)
  /-- `reading array info for %s: %w` -/
  | arrayInfo (name : Text) (e : ReadErr)
  /-- `reading subitem %d of %s: %w` -/
  | subItem (j : Nat) (name : Text) (e : TypeErr)
  /-- `parsing datatype entry: %w` -/
  | entry (e : TypeErr)
  /-- Not in the source: the bound on the nesting, which `decodeSymbolUploadDataType_eq` shows is not met. -/
  | depth

/-- A call of the decoder: the name of the parent and the buffer, to a datatype and what is left. -/
abbrev Decoder := Text → Bytes → Except TypeErr (SymbolUploadDataType × Bytes)

/-- The ranges of an array. -/
def readLevels (name : Text) : Nat → Bytes → Except TypeErr (List DatatypeArrayInfo)
  | 0, _ => .ok []
  | dims + 1, buff =>
    match Wire.binaryRead DatatypeArrayInfo.layout buff with
    | .error e => .error (.arrayInfo name e)
    | .ok (arrayInfo, buff) => (readLevels name dims buff).map (arrayInfo :: ·)

/-- The members of a struct, from number `j` on. -/
def readSubItems (decode : Decoder) (name : Text) :
    (j left : Nat) → Bytes → List SymbolUploadDataType → Except TypeErr (List SymbolUploadDataType)
  | _, 0, _, children => .ok children
  | j, left + 1, buff, children =>
    match decode name buff with
    | .error e => .error (.subItem j name e)
    | .ok (child, buff) =>
      readSubItems decode name (j + 1) left buff (Keyed.store SymbolUploadDataType.name child children)

/-- The elements or the members that a buffer describes. -/
def readChildren (decode : Decoder) (header : TypeInfo) (buff : Bytes) :
    Except TypeErr (List SymbolUploadDataType) :=
  if header.datatypeEntry.arrayDim > 0 then
    (readLevels header.name header.datatypeEntry.arrayDim.toNat buff).map fun arrayLevels =>
      makeArrayChildren arrayLevels header.dataType header.datatypeEntry.size
  else readSubItems decode header.name 0 header.datatypeEntry.subItems.toNat buff []

/-- The header and the texts of a record, and what follows them. -/
def readHeader (parent : Text) (data : Bytes) : Except TypeErr (TypeInfo × Bytes) :=
  if data.length < 48 then .error (.wrongSize parent)
  else
    match Wire.binaryRead DatatypeEntry.layout data with
    | .error e => .error (.read e)
    | .ok (result, buff) =>
      match readTexts result.nameLength result.typeLength result.commentLength buff with
      | .error (_, e) => .error (.read e)
      | .ok (texts, buff) =>
        .ok ({ datatypeEntry := result
               name := cString texts.name
               dataType := normalizeStringDataType (cString texts.dataType)
               comment := cString texts.comment }, buff.drop 1)

/-- The body of `decodeSymbolUploadDataType`, given the decoder for the members. -/
def decodeWith (decode : Decoder) : Decoder := fun parent data =>
  match readHeader parent data with
  | .error e => .error e
  | .ok (header, buff) =>
    let consumed := data.length - buff.length
    let childLen := header.datatypeEntry.entryLength.toNat - consumed
    if header.datatypeEntry.entryLength.toNat ≤ consumed then .ok (.mk header [], buff)
    else if childLen > buff.length then .error (.childLen childLen buff.length header.name)
    else
      -- the buffer has these bytes, so the read of them does not fail
      match readChildren decode header (buff.take childLen) with
      | .error e => .error e
      | .ok children => .ok (.mk header children, buff.drop childLen)

/-- The decoder for records nested less than so deep. -/
def decodeDepth : Nat → Decoder
  | 0 => fun _ _ => .error .depth
  | depth + 1 => decodeWith (decodeDepth depth)

def decodeSymbolUploadDataType : Decoder := fun parent data => decodeDepth (data.length + 1) parent data

/-! ## The recursion of the source -/

section Recursion

variable {f g : Decoder} {parent name : Text} {data rest buff : Bytes}

theorem readHeader_rest {header} (h : readHeader parent data = .ok (header, rest)) :
    rest.length < data.length := by
  unfold readHeader at h
  split at h
  · cases h
  split at h
  · cases h
  next result buff hheader =>
  split at h
  · cases h
  next texts buff' htexts =>
  cases h
  have hsize : data.length = 42 + buff.length := binaryRead_rest hheader
  have hle := readTexts_rest htexts
  rw [length_drop]
  omega

variable {depth : Nat} {t : SymbolUploadDataType}

theorem decodeWith_rest (h : decodeWith f parent data = .ok (t, rest)) : rest.length < data.length := by
  unfold decodeWith at h
  split at h
  · cases h
  next header buff hheader =>
  have hlt := readHeader_rest hheader
  dsimp only at h
  split at h
  · cases h
    exact hlt
  split at h
  · cases h
  split at h
  · cases h
  cases h
  rw [length_drop]
  omega

theorem decodeDepth_rest (h : decodeDepth depth parent data = .ok (t, rest)) : rest.length < data.length := by
  cases depth with
  | zero => cases h
  | succ => exact decodeWith_rest h

section

variable (hshrinks : ∀ parent data t rest, f parent data = .ok (t, rest) → rest.length < data.length)

include hshrinks

/-- The members are read the same by decoders that agree on what they are given. -/
theorem readSubItems_congr {j left children}
    (h : ∀ parent data, data.length ≤ buff.length → f parent data = g parent data) :
    readSubItems f name j left buff children = readSubItems g name j left buff children := by
  induction left generalizing j buff children with
  | zero => rw [readSubItems, readSubItems]
  | succ left ih =>
    rw [readSubItems, readSubItems, ← h name buff (Nat.le_refl _)]
    cases hdecode : f name buff with
    | error => rfl
    | ok r =>
      obtain ⟨child, rest⟩ := r
      have hlt := hshrinks _ _ _ _ hdecode
      exact ih fun parent data hle => h parent data (by omega)

theorem decodeWith_congr
    (h : ∀ parent' data', data'.length < data.length → f parent' data' = g parent' data') :
    decodeWith f parent data = decodeWith g parent data := by
  unfold decodeWith
  cases hheader : readHeader parent data with
  | error => rfl
  | ok r =>
    obtain ⟨header, buff⟩ := r
    have hlt := readHeader_rest hheader
    -- the buffer of the members is part of what is left
    have hchildren : ∀ n, readChildren f header (buff.take n) = readChildren g header (buff.take n) := by
      intro n
      unfold readChildren
      rw [readSubItems_congr hshrinks]
      intro parent' data' hle
      rw [length_take] at hle
      exact h parent' data' (by omega)
    simp only [hchildren]

end

/-- A bound above the length of the buffer is as good as any other. -/
theorem decodeDepth_eq {depth'} (h : data.length < depth) (h' : data.length < depth') :
    decodeDepth depth parent data = decodeDepth depth' parent data := by
  induction depth generalizing depth' parent data with
  | zero => omega
  | succ depth ih =>
    obtain ⟨n, rfl⟩ : ∃ n, depth' = n + 1 := ⟨depth' - 1, by omega⟩
    apply decodeWith_congr
    · exact fun _ _ _ _ hok => decodeDepth_rest hok
    · intro parent' data' hlt
      exact ih (by omega) (by omega)

/-- **The decoder calls itself, as in the source**: the bound is never met. -/
theorem decodeSymbolUploadDataType_eq (parent : Text) (data : Bytes) :
    decodeSymbolUploadDataType parent data = decodeWith decodeSymbolUploadDataType parent data := by
  show decodeWith (decodeDepth data.length) parent data = _
  apply decodeWith_congr
  · exact fun _ _ _ _ hok => decodeDepth_rest hok
  · intro parent' data' hlt
    exact decodeDepth_eq hlt (Nat.lt_succ_self _)

end Recursion

/-! ## The table -/

/-- The loop over the datatypes. -/
def parseDataTypes (data : Bytes) (datatypes : List SymbolUploadDataType) :
    Except TypeErr (List SymbolUploadDataType) :=
  if data = [] then .ok datatypes
  else
    match h : decodeSymbolUploadDataType [] data with
    | .error e => .error (.entry e)
    | .ok (header, rest) =>
      have : rest.length < data.length := decodeDepth_rest h
      parseDataTypes rest (Keyed.store SymbolUploadDataType.name header datatypes)
termination_by data.length

def parseUploadSymbolInfoDataTypes (data : Bytes) : Except TypeErr (List SymbolUploadDataType) :=
  parseDataTypes data []

/-! ## The wire format -/

/-- What a record says of its datatype besides the members. -/
structure Fields where
  version : UInt32 := 0
  hashValue : UInt32 := 0
  typeHashValue : UInt32 := 0
  size : UInt32
  offs : UInt32 := 0
  dataType : UInt32
  flags : UInt32 := 0
  name : Text
  typeName : Text
  comment : Text := []

/-- A datatype of the PLC: a struct, which without members is a scalar, or an array. -/
inductive TypeTree
  | node (fields : Fields) (members : List TypeTree)
  | array (fields : Fields) (subItems : UInt16) (levels : List DatatypeArrayInfo)

namespace Fields

/-- The length of a record with a body. -/
def length (f : Fields) (body : Nat) : Nat :=
  42 + (f.name.length + f.typeName.length + f.comment.length + 3) + body

def entry (f : Fields) (body : Nat) (arrayDim subItems : UInt16) : DatatypeEntry :=
  { entryLength := UInt32.ofNat (f.length body)
    version := f.version
    hashValue := f.hashValue
    typeHashValue := f.typeHashValue
    size := f.size
    offs := f.offs
    dataType := f.dataType
    flags := f.flags
    nameLength := UInt16.ofNat f.name.length
    typeLength := UInt16.ofNat f.typeName.length
    commentLength := UInt16.ofNat f.comment.length
    arrayDim := arrayDim
    subItems := subItems }

def encode (f : Fields) (arrayDim subItems : UInt16) (body : Bytes) : Bytes :=
  DatatypeEntry.layout.put (f.entry body.length arrayDim subItems) ++
    (encodeTexts f.name f.typeName f.comment ++ body)

def info (f : Fields) (body : Nat) (arrayDim subItems : UInt16) : TypeInfo :=
  { datatypeEntry := f.entry body arrayDim subItems
    name := f.name
    dataType := normalizeStringDataType f.typeName
    comment := f.comment }

/-- The texts are C strings that fit their length fields. -/
structure Valid (f : Fields) : Prop where
  name : 0 ∉ f.name ∧ f.name.length < 2 ^ 16
  typeName : 0 ∉ f.typeName ∧ f.typeName.length < 2 ^ 16
  comment : 0 ∉ f.comment ∧ f.comment.length < 2 ^ 16

end Fields

namespace TypeTree

def fields : TypeTree → Fields
  | node fields _ | array fields _ _ => fields

def name (t : TypeTree) : Text := t.fields.name

end TypeTree

mutual

/-- The bytes of a datatype. -/
def TypeTree.encode : TypeTree → Bytes
  | .node fields members => fields.encode 0 (UInt16.ofNat members.length) (encodeTypes members)
  | .array fields subItems levels =>
    fields.encode (UInt16.ofNat levels.length) subItems (levels.flatMap DatatypeArrayInfo.layout.put)

def encodeTypes : List TypeTree → Bytes
  | [] => []
  | t :: ts => t.encode ++ encodeTypes ts

end

mutual

/-- What the datatype is for the client. -/
def TypeTree.described : TypeTree → SymbolUploadDataType
  | .node fields members =>
    .mk (fields.info (encodeTypes members).length 0 (UInt16.ofNat members.length)) (describedAll members)
  | .array fields subItems levels =>
    .mk (fields.info (levels.flatMap DatatypeArrayInfo.layout.put).length (UInt16.ofNat levels.length) subItems)
      (makeArrayChildren levels (normalizeStringDataType fields.typeName) fields.size)

def describedAll : List TypeTree → List SymbolUploadDataType
  | [] => []
  | t :: ts => t.described :: describedAll ts

end

/-- Names are distinct among siblings, ranges are accepted, and every number fits its field. -/
inductive TypeTree.Valid : TypeTree → Prop
  | node {fields : Fields} {members : List TypeTree} (texts : fields.Valid)
      (count : members.length < 2 ^ 16) (names : (members.map TypeTree.name).Nodup)
      (valid : ∀ m ∈ members, m.Valid) (fits : fields.length (encodeTypes members).length < 2 ^ 32) :
      Valid (.node fields members)
  | array {fields : Fields} {subItems : UInt16} {levels : List DatatypeArrayInfo} (texts : fields.Valid)
      (accepted : Accepted levels) (count : levels.length < 2 ^ 16)
      (fits : fields.length (levels.flatMap DatatypeArrayInfo.layout.put).length < 2 ^ 32) :
      Valid (.array fields subItems levels)

/-- A record without members and with fewer than three bytes of text. -/
def TypeTree.Short : TypeTree → Prop
  | .node fields [] => fields.name.length + fields.typeName.length + fields.comment.length < 3
  | _ => False

mutual

/-- **The last record of every buffer is not short**, at any depth. -/
def TypeTree.Roomy : TypeTree → Prop
  | .node _ members => RoomyTypes members
  | .array .. => True

def RoomyTypes : List TypeTree → Prop
  | [] => True
  | t :: ts => (ts = [] → ¬t.Short) ∧ t.Roomy ∧ RoomyTypes ts

end

/-! ## One record -/

section Records

variable {parent : Text}

theorem TypeTree.induction {P : TypeTree → Prop}
    (node : ∀ fields members, (∀ m ∈ members, P m) → P (.node fields members))
    (array : ∀ fields subItems levels, P (.array fields subItems levels)) : ∀ t, P t
  | .node fields members => node fields members fun m _ => TypeTree.induction node array m
  | .array fields subItems levels => array fields subItems levels

theorem Fields.length_encode (f : Fields) (arrayDim subItems : UInt16) (body : Bytes) :
    (f.encode arrayDim subItems body).length = f.length body.length := by
  have hheader : (DatatypeEntry.layout.put (f.entry body.length arrayDim subItems)).length = 42 :=
    FixedSize.length_put ..
  rw [encode, length_append, length_append, hheader, length_encodeTexts, length]
  omega

theorem length_flatMap_levels (levels : List DatatypeArrayInfo) :
    (levels.flatMap DatatypeArrayInfo.layout.put).length = 8 * levels.length := by
  induction levels with
  | nil => rfl
  | cons level levels ih =>
    have hlevel : (DatatypeArrayInfo.layout.put level).length = 8 := FixedSize.length_put ..
    rw [flatMap_cons, length_append, ih, hlevel, length_cons]
    omega

theorem TypeTree.le_length_encode (t : TypeTree) : 45 ≤ t.encode.length := by
  cases t with
  | node fields members | array fields subItems levels =>
    rw [encode, Fields.length_encode, Fields.length]
    omega

variable {f fields : Fields} {levels : List DatatypeArrayInfo} {members ts : List TypeTree} {t : TypeTree}
  {subItems : UInt16}

/-- The records that are too small when they stand alone. -/
theorem TypeTree.short_iff (h : t.Valid) : t.Short ↔ t.encode.length < 48 := by
  cases h with
  | @node fields members texts count names valid fits =>
    rw [encode, Fields.length_encode, Fields.length]
    cases members with
    | nil =>
      rw [Short, encodeTypes, length_nil]
      omega
    | cons m ms =>
      have hm := m.le_length_encode
      rw [encodeTypes, length_append]
      refine iff_of_false id ?_
      omega
  | @array fields subItems levels texts accepted count fits =>
    have hlevels := length_pos_of_ne_nil accepted.dimensions
    rw [encode, Fields.length_encode, Fields.length, length_flatMap_levels]
    refine iff_of_false id ?_
    omega

theorem readHeader_encode (h : f.Valid) (arrayDim subItems : UInt16) (body rest : Bytes)
    (hsize : 48 ≤ (f.encode arrayDim subItems body ++ rest).length) :
    readHeader parent (f.encode arrayDim subItems body ++ rest) =
      .ok (f.info body.length arrayDim subItems, body ++ rest) := by
  have hsplit : f.encode arrayDim subItems body ++ rest =
      DatatypeEntry.layout.put (f.entry body.length arrayDim subItems) ++
        (encodeTexts f.name f.typeName f.comment ++ (body ++ rest)) := by
    simp [Fields.encode]
  have htexts : readTexts (f.entry body.length arrayDim subItems).nameLength
      (f.entry body.length arrayDim subItems).typeLength
      (f.entry body.length arrayDim subItems).commentLength
      (encodeTexts f.name f.typeName f.comment ++ (body ++ rest)) =
      .ok (⟨f.name, f.typeName, f.comment⟩, 0 :: (body ++ rest)) :=
    readTexts_encodeTexts h.name.2 h.typeName.2 h.comment.2 _
  rw [readHeader, if_neg (Nat.not_lt.2 hsize), hsplit, binaryRead_put]
  simp only [htexts, cString_of_plain h.name.1, cString_of_plain h.typeName.1, cString_of_plain h.comment.1,
    drop_succ_cons, drop_zero]
  rfl

/-- **A record is decoded to its header and what its body is decoded to**, and the bytes behind it are left. -/
theorem decode_encode (h : f.Valid) {arrayDim body}
    (hfits : f.length body.length < 2 ^ 32) (rest : Bytes)
    (hsize : 48 ≤ (f.encode arrayDim subItems body ++ rest).length) :
    decodeSymbolUploadDataType parent (f.encode arrayDim subItems body ++ rest) =
      if body = [] then .ok (.mk (f.info 0 arrayDim subItems) [], rest)
      else
        match readChildren decodeSymbolUploadDataType (f.info body.length arrayDim subItems) body with
        | .error e => .error e
        | .ok children => .ok (.mk (f.info body.length arrayDim subItems) children, rest) := by
  have hentry : (f.info body.length arrayDim subItems).datatypeEntry.entryLength.toNat =
      f.length body.length := UInt32.toNat_ofNat_of_lt' hfits
  have hconsumed : (f.encode arrayDim subItems body ++ rest).length - (body ++ rest).length =
      f.length body.length - body.length := by
    rw [length_append, length_append, Fields.length_encode]
    omega
  have hbody : body.length < f.length body.length := by
    rw [Fields.length]
    omega
  rw [decodeSymbolUploadDataType_eq, decodeWith, readHeader_encode h _ _ _ _ hsize]
  simp only [hentry, hconsumed]
  by_cases hnil : body = []
  · subst hnil
    simp
  have hpos := length_pos_of_ne_nil hnil
  have hle : ¬ f.length body.length ≤ f.length body.length - body.length := by omega
  have hchild : f.length body.length - (f.length body.length - body.length) = body.length := by omega
  have hroom : ¬ body.length > (body ++ rest).length := by
    rw [length_append]
    omega
  rw [if_neg hle, if_neg hnil, hchild, if_neg hroom, take_left, drop_left]

/-! ## Bodies -/

theorem readLevels_put (name : Text) (levels : List DatatypeArrayInfo) :
    readLevels name levels.length (levels.flatMap DatatypeArrayInfo.layout.put) = .ok levels := by
  induction levels with
  | nil => rfl
  | cons level levels ih =>
    rw [flatMap_cons, length_cons, readLevels, binaryRead_put]
    show (readLevels name levels.length _).map _ = _
    rw [ih]
    rfl

theorem readChildren_array (f : Fields) (subItems : UInt16) (n : Nat)
    (hne : levels ≠ []) (hcount : levels.length < 2 ^ 16) :
    readChildren decodeSymbolUploadDataType (f.info n (UInt16.ofNat levels.length) subItems)
        (levels.flatMap DatatypeArrayInfo.layout.put) =
      .ok (makeArrayChildren levels (normalizeStringDataType f.typeName) f.size) := by
  have hdim : (UInt16.ofNat levels.length).toNat = levels.length := UInt16.toNat_ofNat_of_lt' hcount
  have hpos : UInt16.ofNat levels.length > 0 := by
    rw [gt_iff_lt, UInt16.lt_iff_toNat_lt, hdim]
    exact length_pos_of_ne_nil hne
  show (if UInt16.ofNat levels.length > 0 then
      (readLevels f.name (UInt16.ofNat levels.length).toNat _).map _ else _) = _
  rw [if_pos hpos, hdim, readLevels_put]
  rfl

theorem readChildren_node (f : Fields) (n : Nat) (hcount : members.length < 2 ^ 16) (body : Bytes) :
    readChildren decodeSymbolUploadDataType (f.info n 0 (UInt16.ofNat members.length)) body =
      readSubItems decodeSymbolUploadDataType f.name 0 members.length body [] := by
  have hsub : (UInt16.ofNat members.length).toNat = members.length := UInt16.toNat_ofNat_of_lt' hcount
  show (if (0 : UInt16) > 0 then _ else
      readSubItems _ f.name 0 (UInt16.ofNat members.length).toNat body []) = _
  rw [if_neg (by decide), hsub]

/-- A datatype is decoded in front of some bytes: to what it describes if the buffer has room and the
    members have, and to an error otherwise. -/
def TypeTree.Decodes (t : TypeTree) : Prop :=
  ∀ parent rest,
    (48 ≤ (t.encode ++ rest).length → t.Roomy →
      decodeSymbolUploadDataType parent (t.encode ++ rest) = .ok (t.described, rest)) ∧
    (¬(48 ≤ (t.encode ++ rest).length ∧ t.Roomy) →
      ∃ e, decodeSymbolUploadDataType parent (t.encode ++ rest) = .error e)

theorem encodeTypes_eq_nil : encodeTypes ts = [] ↔ ts = [] := by
  cases ts with
  | nil => simp [encodeTypes]
  | cons t ts =>
    refine iff_of_false ?_ (cons_ne_nil _ _)
    intro h
    have ht := t.le_length_encode
    rw [encodeTypes] at h
    rw [(append_eq_nil_iff.1 h).1, length_nil] at ht
    omega

/-- Among its siblings, a record has room unless it is the last one and short. -/
theorem room_iff (h : t.Valid) : 48 ≤ (t.encode ++ encodeTypes ts).length ↔ (ts = [] → ¬t.Short) := by
  rw [length_append, t.short_iff h]
  cases ts with
  | nil =>
    rw [encodeTypes, length_nil]
    simp
  | cons t' ts =>
    have ht := t.le_length_encode
    have ht' := t'.le_length_encode
    rw [encodeTypes, length_append]
    refine iff_of_true (by omega) fun hnil => ?_
    cases hnil

theorem describedAll_eq_map (ts : List TypeTree) : describedAll ts = ts.map TypeTree.described := by
  induction ts with
  | nil => rfl
  | cons t ts ih => rw [describedAll, ih, map_cons]

theorem name_described (t : TypeTree) : t.described.name = t.name := by
  cases t with
  | node | array =>
    rw [TypeTree.described]
    rfl

theorem names_described (ts : List TypeTree) :
    (ts.map TypeTree.described).map SymbolUploadDataType.name = ts.map TypeTree.name := by
  rw [map_map]
  exact map_congr_left fun t _ => name_described t

theorem storeAll_described (hnames : (ts.map TypeTree.name).Nodup) :
    Keyed.storeAll SymbolUploadDataType.name [] (ts.map TypeTree.described) = ts.map TypeTree.described := by
  rw [Keyed.storeAll_of_nodup, nil_append]
  rw [nil_append, names_described]
  exact hnames

/-- The first of the records is decoded and the others are left, or there is an error. -/
theorem decode_first (hvalid : t.Valid) (h : t.Decodes) (parent : Text) :
    (((ts = [] → ¬t.Short) ∧ t.Roomy) ∧
      decodeSymbolUploadDataType parent (encodeTypes (t :: ts)) = .ok (t.described, encodeTypes ts)) ∨
    (¬((ts = [] → ¬t.Short) ∧ t.Roomy) ∧
      ∃ e, decodeSymbolUploadDataType parent (encodeTypes (t :: ts)) = .error e) := by
  obtain ⟨hok, herr⟩ := h parent (encodeTypes ts)
  rw [room_iff hvalid] at hok herr
  rw [encodeTypes]
  by_cases hroom : (ts = [] → ¬t.Short) ∧ t.Roomy
  · exact .inl ⟨hroom, hok hroom.1 hroom.2⟩
  · exact .inr ⟨hroom, herr hroom⟩

/-- **The loop over the members** reads them all if the last record of every buffer has room, and fails
    otherwise. -/
theorem readSubItems_encodeTypes (hvalid : ∀ t ∈ ts, t.Valid)
    (h : ∀ t ∈ ts, t.Decodes) (name : Text) (j : Nat) (children : List SymbolUploadDataType) :
    (RoomyTypes ts ∧ readSubItems decodeSymbolUploadDataType name j ts.length (encodeTypes ts) children =
      .ok (Keyed.storeAll SymbolUploadDataType.name children (ts.map TypeTree.described))) ∨
    (¬RoomyTypes ts ∧
      ∃ e, readSubItems decodeSymbolUploadDataType name j ts.length (encodeTypes ts) children = .error e) := by
  induction ts generalizing j children with
  | nil => exact .inl ⟨trivial, rfl⟩
  | cons t ts ih =>
    have ht : t ∈ t :: ts := mem_cons_self ..
    rw [length_cons, readSubItems, RoomyTypes]
    rcases decode_first (hvalid t ht) (h t ht) name with ⟨hroom, hok⟩ | ⟨hroom, e, herr⟩
    · rw [hok]
      rcases ih (fun t' ht' => hvalid t' (mem_cons_of_mem t ht'))
        (fun t' ht' => h t' (mem_cons_of_mem t ht')) (j + 1)
        (Keyed.store SymbolUploadDataType.name t.described children) with ⟨hrest, hread⟩ | ⟨hrest, e, hread⟩
      · exact .inl ⟨⟨hroom.1, hroom.2, hrest⟩, hread⟩
      · exact .inr ⟨fun hall => hrest hall.2.2, e, hread⟩
    · rw [herr]
      exact .inr ⟨fun hall => hroom ⟨hall.1, hall.2.1⟩, _, rfl⟩

/-! ## Trees -/

theorem decode_of_lt {data} (h : data.length < 48) :
    ∃ e, decodeSymbolUploadDataType parent data = .error e := by
  refine ⟨.wrongSize parent, ?_⟩
  rw [decodeSymbolUploadDataType_eq, decodeWith, readHeader, if_pos h]

theorem decodes_array
    (h : (TypeTree.array fields subItems levels).Valid) : (TypeTree.array fields subItems levels).Decodes := by
  obtain ⟨texts, accepted, count, fits⟩ : fields.Valid ∧ Accepted levels ∧ levels.length < 2 ^ 16 ∧
      fields.length (levels.flatMap DatatypeArrayInfo.layout.put).length < 2 ^ 32 := by
    cases h with
    | array texts accepted count fits => exact ⟨texts, accepted, count, fits⟩
  intro parent rest
  constructor
  · intro hsize _
    have hbody : levels.flatMap DatatypeArrayInfo.layout.put ≠ [] := by
      intro hnil
      have hlen := length_flatMap_levels levels
      have hpos := length_pos_of_ne_nil accepted.dimensions
      rw [hnil, length_nil] at hlen
      omega
    rw [TypeTree.encode] at hsize ⊢
    rw [decode_encode texts fits rest hsize, if_neg hbody,
      readChildren_array fields subItems _ accepted.dimensions count, TypeTree.described]
  · intro hnot
    apply decode_of_lt
    by_contra hlt
    exact hnot ⟨Nat.not_lt.1 hlt, trivial⟩

theorem decodes_node (h : (TypeTree.node fields members).Valid)
    (ih : ∀ m ∈ members, m.Decodes) : (TypeTree.node fields members).Decodes := by
  obtain ⟨texts, count, names, valid, fits⟩ : fields.Valid ∧ members.length < 2 ^ 16 ∧
      (members.map TypeTree.name).Nodup ∧ (∀ m ∈ members, m.Valid) ∧
      fields.length (encodeTypes members).length < 2 ^ 32 := by
    cases h with
    | node texts count names valid fits => exact ⟨texts, count, names, valid, fits⟩
  intro parent rest
  rw [TypeTree.encode, TypeTree.Roomy, TypeTree.described]
  by_cases hsize : 48 ≤ (fields.encode 0 (UInt16.ofNat members.length) (encodeTypes members) ++ rest).length
  · rw [decode_encode texts fits rest hsize]
    by_cases hnil : members = []
    · -- a scalar
      subst hnil
      rw [if_pos (encodeTypes_eq_nil.2 rfl)]
      exact ⟨fun _ _ => rfl, fun hnot => absurd ⟨hsize, trivial⟩ hnot⟩
    rw [if_neg (mt encodeTypes_eq_nil.1 hnil), readChildren_node fields _ count]
    rcases readSubItems_encodeTypes valid ih fields.name 0 [] with ⟨hroomy, hread⟩ | ⟨hroomy, e, hread⟩
    · rw [hread, storeAll_described names, describedAll_eq_map]
      exact ⟨fun _ _ => rfl, fun hnot => absurd ⟨hsize, hroomy⟩ hnot⟩
    · rw [hread]
      exact ⟨fun _ hall => absurd hall hroomy, fun _ => ⟨e, rfl⟩⟩
  · exact ⟨fun hle => absurd hle hsize, fun _ => decode_of_lt (Nat.not_le.1 hsize)⟩

theorem decodes_of_valid (t : TypeTree) : t.Valid → t.Decodes := by
  induction t using TypeTree.induction with
  | node fields members ih =>
    intro h
    apply decodes_node h
    intro m hm
    cases h with
    | node texts count names valid => exact ih m hm (valid m hm)
  | array => exact decodes_array

end Records

/-! ## The whole table -/

variable {data : Bytes}

theorem parseDataTypes_of_ok {rest header}
    (datatypes : List SymbolUploadDataType) (hne : data ≠ [])
    (h : decodeSymbolUploadDataType [] data = .ok (header, rest)) : parseDataTypes data datatypes =
      parseDataTypes rest (Keyed.store SymbolUploadDataType.name header datatypes) := by
  rw [parseDataTypes, if_neg hne]
  split <;> next he => cases h.symm.trans he <;> rfl

theorem parseDataTypes_of_error {e} (datatypes : List SymbolUploadDataType)
    (hne : data ≠ []) (h : decodeSymbolUploadDataType [] data = .error e) :
    parseDataTypes data datatypes = .error (.entry e) := by
  rw [parseDataTypes, if_neg hne]
  split <;> next he => cases h.symm.trans he <;> rfl

theorem parseDataTypes_encodeTypes {ts} (hvalid : ∀ t ∈ ts, t.Valid)
    (datatypes : List SymbolUploadDataType) : (RoomyTypes ts ∧ parseDataTypes (encodeTypes ts) datatypes =
      .ok (Keyed.storeAll SymbolUploadDataType.name datatypes (ts.map TypeTree.described))) ∨
    (¬RoomyTypes ts ∧ ∃ e, parseDataTypes (encodeTypes ts) datatypes = .error e) := by
  induction ts generalizing datatypes with
  | nil =>
    refine .inl ⟨trivial, ?_⟩
    rw [encodeTypes, parseDataTypes, if_pos rfl]
    rfl
  | cons t ts ih =>
    have ht : t ∈ t :: ts := mem_cons_self ..
    have hne : encodeTypes (t :: ts) ≠ [] := mt encodeTypes_eq_nil.1 (cons_ne_nil _ _)
    rw [RoomyTypes]
    rcases decode_first (hvalid t ht) (decodes_of_valid t (hvalid t ht)) [] with ⟨hroom, hok⟩ | ⟨hroom, e, herr⟩
    · rw [parseDataTypes_of_ok datatypes hne hok]
      rcases ih (fun t' ht' => hvalid t' (mem_cons_of_mem t ht'))
        (Keyed.store SymbolUploadDataType.name t.described datatypes) with ⟨hrest, hread⟩ | ⟨hrest, e, hread⟩
      · exact .inl ⟨⟨hroom.1, hroom.2, hrest⟩, hread⟩
      · exact .inr ⟨fun hall => hrest hall.2.2, e, hread⟩
    · rw [parseDataTypes_of_error datatypes hne herr]
      exact .inr ⟨fun hall => hroom ⟨hall.1, hall.2.1⟩, _, rfl⟩

/-- **The datatype table decoder inverts the wire format exactly when the last record of every buffer has
    room**: of the table, and of every struct in it. -/
theorem typeTable_inverts_iff {ts : List TypeTree} (hvalid : ∀ t ∈ ts, t.Valid)
    (hnames : (ts.map TypeTree.name).Nodup) :
    parseUploadSymbolInfoDataTypes (encodeTypes ts) = .ok (ts.map TypeTree.described) ↔ RoomyTypes ts := by
  rw [parseUploadSymbolInfoDataTypes]
  rcases parseDataTypes_encodeTypes hvalid [] with ⟨hroomy, hread⟩ | ⟨hroomy, e, hread⟩
  · rw [hread, storeAll_described hnames]
    exact iff_of_true rfl hroomy
  rw [hread]
  refine iff_of_false ?_ hroomy
  intro h
  cases h

namespace Example

def word : Fields := { size := 2, dataType := 18, name := lit "WORD", typeName := lit "UINT" }

def row : Fields := { size := 12, dataType := 2, name := lit "ROW", typeName := lit "INT" }

def pair : Fields := { size := 14, dataType := 65, name := lit "ST_PAIR", typeName := lit "ST_PAIR" }

/-- A struct of a word and of `ARRAY[-1..0, 5..7] OF INT`. -/
def pairType : TypeTree := .node pair [.node word [], .array row 0 [⟨0xFFFFFFFF, 2⟩, ⟨5, 3⟩]]

/-- A type with a name of one byte, and no more text. -/
def tiny : Fields := { size := 1, dataType := 17, name := lit "T", typeName := [] }

end Example

open Example

theorem typeTable_inverts_pair :
    parseUploadSymbolInfoDataTypes (encodeTypes [pairType]) = .ok [pairType.described] := by
  have hword : (TypeTree.node word []).Valid := by
    refine .node ⟨by decide, by decide, by decide⟩ (by decide) .nil ?_ (by decide)
    intro m hm
    cases hm
  have hrow : (TypeTree.array row 0 [⟨0xFFFFFFFF, 2⟩, ⟨5, 3⟩]).Valid :=
    .array ⟨by decide, by decide, by decide⟩ ⟨by decide, by decide, by decide, by decide⟩ (by decide)
      (by decide)
  have hlen : (encodeTypes [.node word [], .array row 0 [⟨0xFFFFFFFF, 2⟩, ⟨5, 3⟩]]).length =
      word.length 0 + row.length 16 := by
    simp only [encodeTypes, TypeTree.encode, length_append, Fields.length_encode, length_flatMap_levels,
      length_cons, length_nil, Nat.add_zero]
  have hpair : pairType.Valid := by
    refine .node ⟨by decide, by decide, by decide⟩ (by decide) (by decide) ?_ (by rw [hlen]; decide)
    intro m hm
    rcases mem_pair.1 hm with rfl | rfl
    · exact hword
    · exact hrow
  have hnames : ([pairType].map TypeTree.name).Nodup := nodup_singleton _
  refine (typeTable_inverts_iff ?_ hnames).2 ?_
  · intro t ht
    rw [mem_singleton.1 ht]
    exact hpair
  · simp [RoomyTypes, pairType, TypeTree.Roomy, TypeTree.Short]

/-- The last type of a table is refused when its name, type and comment have fewer than three bytes. -/
theorem tiny_type_refused : (TypeTree.node tiny []).Valid ∧
      parseUploadSymbolInfoDataTypes (encodeTypes [.node tiny []]) =
        .error (.entry (.wrongSize [])) := by
  constructor
  · refine .node ⟨by decide, by decide, by decide⟩ (by decide) .nil ?_ (by decide)
    intro m hm
    cases hm
  have hlen : (encodeTypes [.node tiny []]).length < 48 := by decide
  have hne : encodeTypes [.node tiny []] ≠ [] := mt encodeTypes_eq_nil.1 (cons_ne_nil _ _)
  apply parseDataTypes_of_error [] hne
  rw [decodeSymbolUploadDataType_eq, decodeWith, readHeader, if_pos hlen]

end GoAds.Upload
