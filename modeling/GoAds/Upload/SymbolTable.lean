import GoAds.Client.SumRead
import GoAds.Lib.Keyed
import GoAds.Upload.Records

/-!
# `Upload.SymbolTable` — the two decoders of a symbol entry

`parseUploadSymbolInfoSymbols` reads the whole symbol table: entry after entry, each followed by whatever
its `EntryLength` counts beyond the comment.  `GetSymbolInfoByName` reads the one entry that the PLC
returns for a name.  Both are proved to invert one encoding, and so to agree.

* A symbol is the fields the decoders fill in, without the two that are about reading it later
  (`LastUpdateTime` and `MinUpdateInterval`).
* A datatype table is what it does to a symbol of a type: its members (`addOffset`, see `Discovery.Table`).
* `symbolKey` is a parameter.
-/

namespace GoAds.Upload

open List

open Codec (Text lit)
open Wire (ReadErr)

/-! ## Entries and symbols -/

structure SymbolEntry where
  entryLength : UInt32
  iGroup : UInt32
  iOffs : UInt32
  size : UInt32
  dataType : UInt32
  flags : UInt32
  nameLength : UInt16
  typeLength : UInt16
  commentLength : UInt16

def SymbolEntry.layout : FixedSize SymbolEntry :=
  (FixedSize.uint32.pair (.pair .uint32 (.pair .uint32 (.pair .uint32 (.pair .uint32 (.pair .uint32
    (.pair .uint16 (.pair .uint16 .uint16)))))))).record
    (fun p => ⟨p.1, p.2.1, p.2.2.1, p.2.2.2.1, p.2.2.2.2.1, p.2.2.2.2.2.1, p.2.2.2.2.2.2.1,
      p.2.2.2.2.2.2.2.1, p.2.2.2.2.2.2.2.2⟩)
    (fun e => (e.entryLength, e.iGroup, e.iOffs, e.size, e.dataType, e.flags, e.nameLength, e.typeLength,
      e.commentLength))
    (fun _ => rfl) fun _ => rfl

structure SymbolUploadSymbol where
  symbolEntry : SymbolEntry
  name : Text
  dataType : Text
  comment : Text

/-- The fields of `symbol`. -/
structure SymbolInfo where
  name : Text
  fullName : Text
  dataType : Text
  comment : Text
  length : UInt32
  baseType : UInt32
  group : UInt32
  offset : UInt32
  flags : UInt32
  contextMask : UInt8

/-- `symbol` with its `Children`, in the order they are ranged over. -/
inductive Symbol
  | mk (info : SymbolInfo) (children : List Symbol)

def Symbol.info : Symbol → SymbolInfo
  | mk info _ => info

/-- `SymbolFlag.ContextMask`: bits 8 to 11. -/
def contextMask (flags : UInt32) : UInt8 := ((flags >>> 8) &&& 0x0F).toUInt8

/-- The members that the type of a name gives a symbol, if the table has it. -/
abbrev DataTypes := Text → Option (SymbolInfo → List Symbol)

def noDataTypes : DataTypes := fun _ => none

def addSymbol (uploadSym : SymbolUploadSymbol) (datatypes : DataTypes) : Symbol :=
  let sym : SymbolInfo :=
    { name := uploadSym.name
      fullName := uploadSym.name
      dataType := uploadSym.dataType
      comment := uploadSym.comment
      length := uploadSym.symbolEntry.size
      baseType := uploadSym.symbolEntry.dataType
      group := uploadSym.symbolEntry.iGroup
      offset := uploadSym.symbolEntry.iOffs
      flags := uploadSym.symbolEntry.flags
      contextMask := contextMask uploadSym.symbolEntry.flags }
  match datatypes uploadSym.dataType with
  | some addOffset => .mk sym (addOffset sym)
  | none => .mk sym []

/-! ## The symbol table -/

/-- Why the symbol table is refused. -/
inductive TableErr
  /-- `reading symbol entry: %w` -/
  | entry (e : ReadErr)
  /-- `reading symbol name: %w`, and so for the type and the comment -/
  | text (field : TextField) (e : ReadErr)
  /-- `symbol %q: EntryLength %d is smaller than bytes consumed %d` -/
  | entryLength (name : Text) (entryLength consumed : Nat)

section Table

variable (symbolKey : Text → Text)

abbrev SymbolMap := List (Text × Symbol)

mutual

/-- `addChildren`: members whose key is not taken, and their members. -/
def addChildren : Symbol → SymbolMap → SymbolMap
  | .mk _ children, symbols => addChildList children symbols

def addChildList : List Symbol → SymbolMap → SymbolMap
  | [], symbols => symbols
  | child :: children, symbols =>
    match symbols.lookup (symbolKey child.info.fullName) with
    | some _ => addChildList children symbols
    | none =>
      addChildList children (addChildren child
        (Keyed.store Prod.fst (symbolKey child.info.fullName, child) symbols))

end

/-- One round of the loop: the item, and the buffer behind its entry. -/
def nextSymbol (data : Bytes) : Except TableErr (SymbolUploadSymbol × Bytes) :=
  match Wire.binaryRead SymbolEntry.layout data with
  | .error e => .error (.entry e)
  | .ok (result, buff) =>
    match readTexts result.nameLength result.typeLength result.commentLength buff with
    | .error (field, e) => .error (.text field e)
    | .ok (texts, buff) =>
      let buff := buff.drop 1
      let item : SymbolUploadSymbol :=
        { symbolEntry := result
          name := cString texts.name
          dataType := normalizeStringDataType (cString texts.dataType)
          comment := cString texts.comment }
      let consumed := data.length - buff.length
      if result.entryLength.toNat < consumed then
        .error (.entryLength item.name result.entryLength.toNat consumed)
      else .ok (item, buff.drop (result.entryLength.toNat - consumed))

theorem nextSymbol_lt {data rest item}
    (h : nextSymbol data = .ok (item, rest)) : rest.length < data.length := by
  unfold nextSymbol at h
  split at h
  · cases h
  next result buff hheader =>
  split at h
  · cases h
  next texts buff' htexts =>
  dsimp only at h
  split at h
  · cases h
  cases h
  have hsize : data.length = 30 + buff.length := binaryRead_rest hheader
  have hle := readTexts_rest htexts
  rw [length_drop, length_drop]
  omega

/-- The loop over the entries. -/
def parseSymbols (datatypes : DataTypes) (data : Bytes) (symbols : SymbolMap) : Except TableErr SymbolMap :=
  if data = [] then .ok symbols
  else
    match h : nextSymbol data with
    | .error e => .error e
    | .ok (item, rest) =>
      let symbol := addSymbol item datatypes
      have : rest.length < data.length := nextSymbol_lt h
      parseSymbols datatypes rest
        (addChildren symbolKey symbol (Keyed.store Prod.fst (symbolKey item.name, symbol) symbols))
termination_by data.length

def parseUploadSymbolInfoSymbols (data : Bytes) (datatypes : DataTypes) : Except TableErr SymbolMap :=
  parseSymbols symbolKey datatypes data []

end Table

/-! ## The lookup of one symbol -/

/-- Why `GetSymbolInfoByName` fails. -/
inductive LookupErr
  /-- `GetSymbolInfoByName(%s) failed: %w` -/
  | failed (symbolName : Text) (e : Client.Err)
  /-- `failed to parse symbol entry for %s: %w` -/
  | entry (symbolName : Text) (e : ReadErr)
  /-- `reading symbol name for %s: %w`, and so for the type and the comment -/
  | text (field : TextField) (symbolName : Text) (e : ReadErr)

/-- The answer of `GetSymbolInfoByName`. -/
def decodeSymbolInfo (symbolName : Text) (resp : Bytes) : Except LookupErr SymbolInfo :=
  match Wire.binaryRead SymbolEntry.layout resp with
  | .error e => .error (.entry symbolName e)
  | .ok (entry, buff) =>
    match readTexts entry.nameLength entry.typeLength entry.commentLength buff with
    | .error (field, e) => .error (.text field symbolName e)
    | .ok (texts, _) =>
      .ok
        { fullName := cString texts.name
          name := cString texts.name
          dataType := normalizeStringDataType (cString texts.dataType)
          comment := cString texts.comment
          group := entry.iGroup
          offset := entry.iOffs
          length := entry.size
          baseType := entry.dataType
          flags := entry.flags
          contextMask := contextMask entry.flags }

def groupSymbolInfoByNameEx : UInt32 := 0xF009

def symbolInfoRequest (symbolName : Text) : Client.Command Bytes :=
  Client.writeRead groupSymbolInfoByNameEx 0 2048 (symbolName ++ [0])

def getSymbolInfoByName (net : Client.Net) (c : Client.Conn) (symbolName : Text) :
    Except LookupErr SymbolInfo × Client.Conn :=
  match c.send net (symbolInfoRequest symbolName) with
  | (.error e, c) => (.error (.failed symbolName e), c)
  | (.ok resp, c) => (decodeSymbolInfo symbolName resp, c)

/-! ## The wire format -/

/-- An entry of the PLC's symbol table. -/
structure Entry where
  iGroup : UInt32
  iOffs : UInt32
  size : UInt32
  dataType : UInt32
  flags : UInt32
  name : Text
  typeName : Text
  comment : Text
  padding : Bytes

namespace Entry

/-- The bytes of an entry. -/
def length (e : Entry) : Nat :=
  30 + (e.name.length + e.typeName.length + e.comment.length + 3) + e.padding.length

def header (e : Entry) : SymbolEntry :=
  { entryLength := UInt32.ofNat e.length
    iGroup := e.iGroup
    iOffs := e.iOffs
    size := e.size
    dataType := e.dataType
    flags := e.flags
    nameLength := UInt16.ofNat e.name.length
    typeLength := UInt16.ofNat e.typeName.length
    commentLength := UInt16.ofNat e.comment.length }

def encode (e : Entry) : Bytes :=
  SymbolEntry.layout.put e.header ++ (encodeTexts e.name e.typeName e.comment ++ e.padding)

/-- The symbol that the entry describes. -/
def info (e : Entry) : SymbolInfo :=
  { name := e.name
    fullName := e.name
    dataType := normalizeStringDataType e.typeName
    comment := e.comment
    length := e.size
    baseType := e.dataType
    group := e.iGroup
    offset := e.iOffs
    flags := e.flags
    contextMask := contextMask e.flags }

/-- The texts are C strings that fit their length fields, and the entry fits its own. -/
structure Valid (e : Entry) : Prop where
  name : 0 ∉ e.name ∧ e.name.length < 2 ^ 16
  typeName : 0 ∉ e.typeName ∧ e.typeName.length < 2 ^ 16
  comment : 0 ∉ e.comment ∧ e.comment.length < 2 ^ 16
  fits : e.length < 2 ^ 32

variable {e : Entry}

theorem length_encode (e : Entry) : e.encode.length = e.length := by
  have hheader : (SymbolEntry.layout.put e.header).length = 30 := FixedSize.length_put ..
  rw [encode, length_append, length_append, hheader, length_encodeTexts, length]
  omega

theorem encode_ne_nil (e : Entry) (rest : Bytes) : e.encode ++ rest ≠ [] := by
  intro h
  have hlen := congrArg List.length h
  rw [length_append, length_encode, length, length_nil] at hlen
  omega

/-- The header and the texts of an entry are read, whatever follows. -/
theorem read_header (e : Entry) (rest : Bytes) : Wire.binaryRead SymbolEntry.layout (e.encode ++ rest) =
      .ok (e.header, encodeTexts e.name e.typeName e.comment ++ (e.padding ++ rest)) := by
  have hsplit : e.encode ++ rest =
      SymbolEntry.layout.put e.header ++ (encodeTexts e.name e.typeName e.comment ++ (e.padding ++ rest)) := by
    simp [encode]
  rw [hsplit, binaryRead_put]

theorem read_texts (h : e.Valid) (rest : Bytes) :
    readTexts e.header.nameLength e.header.typeLength e.header.commentLength
        (encodeTexts e.name e.typeName e.comment ++ rest) =
      .ok (⟨e.name, e.typeName, e.comment⟩, 0 :: rest) :=
  readTexts_encodeTexts h.name.2 h.typeName.2 h.comment.2 rest

/-- What the loop makes of an entry. -/
def item (e : Entry) : SymbolUploadSymbol :=
  { symbolEntry := e.header
    name := e.name
    dataType := normalizeStringDataType e.typeName
    comment := e.comment }

/-- **One round of the loop takes one entry with its padding**, so that the next round starts at the next
    entry. -/
theorem nextSymbol_encode (h : e.Valid) (rest : Bytes) :
    nextSymbol (e.encode ++ rest) = .ok (e.item, rest) := by
  have hentry : e.header.entryLength.toNat = e.length := UInt32.toNat_ofNat_of_lt' h.fits
  -- what is left of the entry behind the comment is its padding
  have hconsumed : (e.encode ++ rest).length - (e.padding ++ rest).length = e.length - e.padding.length := by
    rw [length_append, length_append, length_encode]
    omega
  have hskip : ¬ e.length < e.length - e.padding.length := by omega
  have hpadding : e.length - (e.length - e.padding.length) = e.padding.length := by
    have : e.padding.length ≤ e.length := by
      rw [length]
      omega
    omega
  unfold nextSymbol
  rw [read_header]
  simp only [read_texts h, cString_of_plain h.name.1, cString_of_plain h.typeName.1,
    cString_of_plain h.comment.1, drop_succ_cons, drop_zero, hentry, hconsumed, hskip, if_false,
    hpadding, drop_left]
  rfl

theorem addSymbol_item (e : Entry) : addSymbol e.item noDataTypes = .mk e.info [] := rfl

/-- The lookup reads the entry, whatever follows it in the answer. -/
theorem decodeSymbolInfo_encode (h : e.Valid) (symbolName : Text) (rest : Bytes) :
    decodeSymbolInfo symbolName (e.encode ++ rest) = .ok e.info := by
  unfold decodeSymbolInfo
  rw [read_header]
  simp only [read_texts h, cString_of_plain h.name.1, cString_of_plain h.typeName.1,
    cString_of_plain h.comment.1]
  rfl

end Entry

/-! ## The whole table -/

section Table

variable (symbolKey : Text → Text)

theorem parseSymbols_of_ok (datatypes : DataTypes) {data rest item}
    (symbols : SymbolMap) (hne : data ≠ []) (h : nextSymbol data = .ok (item, rest)) :
    parseSymbols symbolKey datatypes data symbols =
      parseSymbols symbolKey datatypes rest (addChildren symbolKey (addSymbol item datatypes)
        (Keyed.store Prod.fst (symbolKey item.name, addSymbol item datatypes) symbols)) := by
  rw [parseSymbols, if_neg hne]
  split <;> next he => cases h.symm.trans he <;> rfl

/-- The map's entry for an entry of the table. -/
def Entry.filed (e : Entry) : Text × Symbol := (symbolKey e.name, .mk e.info [])

theorem parseSymbols_encode {entries : List Entry} (h : ∀ e ∈ entries, e.Valid) (symbols : SymbolMap) :
    parseSymbols symbolKey noDataTypes (entries.flatMap Entry.encode) symbols =
      .ok (Keyed.storeAll Prod.fst symbols (entries.map (Entry.filed symbolKey))) := by
  induction entries generalizing symbols with
  | nil =>
    rw [flatMap_nil, parseSymbols, if_pos rfl]
    rfl
  | cons e entries ih =>
    have he : e.Valid := h e (mem_cons_self ..)
    rw [flatMap_cons, parseSymbols_of_ok symbolKey noDataTypes symbols (e.encode_ne_nil _)
      (Entry.nextSymbol_encode he _), Entry.addSymbol_item, addChildren, addChildList]
    exact ih (fun e' he' => h e' (mem_cons_of_mem e he')) _

/-- **The symbol table decoder inverts the wire format, and the lookup agrees with it**: every entry is
    filed once, under the key of its name, and the lookup of it yields the same fields. -/
theorem symbolTable_inverts {entries : List Entry} (hvalid : ∀ e ∈ entries, e.Valid)
    (hkeys : (entries.map fun e => symbolKey e.name).Nodup) :
    parseUploadSymbolInfoSymbols symbolKey (entries.flatMap Entry.encode) noDataTypes =
        .ok (entries.map fun e => (symbolKey e.name, .mk e.info [])) ∧
      ∀ e ∈ entries, ∀ (net : Client.Net) (c : Client.Conn) (symbolName : Text),
        net c.exchanges (.writeRead groupSymbolInfoByNameEx 0 2048 (symbolName ++ [0])) =
            .reply 0 (Client.dataResponse ReturnCode.noErrors e.encode) →
          (getSymbolInfoByName net c symbolName).1 = .ok e.info := by
  constructor
  · rw [parseUploadSymbolInfoSymbols, parseSymbols_encode symbolKey hvalid]
    congr 1
    apply Keyed.storeAll_of_nodup
    rw [nil_append, map_map]
    exact hkeys
  intro e he net c symbolName hreply
  have hfits : e.encode.length < 2 ^ 32 := by
    rw [Entry.length_encode]
    exact (hvalid e he).fits
  have hsend : (c.send net (symbolInfoRequest symbolName)).1 = .ok e.encode := by
    show Except.bind (Client.Reply.payload (net c.exchanges _)) (Client.decodeData "WriteRead") = _
    rw [hreply]
    exact Client.decodeData_ok "WriteRead" hfits
  have hdecode := Entry.decodeSymbolInfo_encode (hvalid e he) symbolName []
  rw [append_nil] at hdecode
  unfold getSymbolInfoByName
  split
  · next err c' heq =>
    rw [heq] at hsend
    cases hsend
  next resp c' heq =>
  rw [heq] at hsend
  cases hsend
  exact hdecode

end Table

namespace Example

/-- `symbolKey` for ASCII names. -/
def lowerKey (name : Text) : Text := name.map fun b => if 65 ≤ b ∧ b ≤ 90 then b + 32 else b

def counter : Entry :=
  { iGroup := 0x4040, iOffs := 8, size := 2, dataType := 2, flags := 0x308
    name := lit "MAIN.n", typeName := lit "INT", comment := [], padding := [] }

/-- A string, with padding behind its entry. -/
def label : Entry :=
  { iGroup := 0x4040, iOffs := 10, size := 81, dataType := 30, flags := 0
    name := lit "MAIN.s", typeName := lit "STRING(80)", comment := lit "text", padding := [1, 2, 3] }

end Example

open Example

theorem symbolTable_inverts_two :
    parseUploadSymbolInfoSymbols lowerKey (counter.encode ++ (label.encode ++ [])) noDataTypes =
        .ok [(lit "main.n", .mk counter.info []), (lit "main.s", .mk label.info [])] ∧
      (getSymbolInfoByName
        (fun _ _ => .reply 0 (Client.dataResponse ReturnCode.noErrors label.encode)) {}
        (lit "main.s")).1 = .ok label.info := by
  have hvalid : ∀ e ∈ [counter, label], e.Valid := by
    intro e he
    rcases mem_pair.1 he with rfl | rfl
    · exact ⟨by decide, by decide, by decide, by decide⟩
    · exact ⟨by decide, by decide, by decide, by decide⟩
  obtain ⟨htable, hlookup⟩ := symbolTable_inverts lowerKey hvalid (by decide)
  exact ⟨htable, hlookup _ (mem_pair.2 (.inr rfl)) _ {} (lit "main.s") rfl⟩

end GoAds.Upload
