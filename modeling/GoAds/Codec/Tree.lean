import GoAds.Codec.Scalar

/-!
# `Codec.Tree` — `parse`, `parseTree` and `writeToNode`

A symbol without children is a leaf; any other is a struct or an array, whose value is the JSON object of
its members.  `parse` stores the value it decoded in every node it passes, and `parseTree` reads the
values of the leaves again; `writeToNode` goes the other way, from the text of an object to its
members' texts and bytes.
-/

namespace GoAds.Codec

/-- The fields of `symbol` the codec uses.  `key` is the key under which the parent's `Children` holds
    the symbol, `fullName` its name in the cache. -/
structure Info where
  key : String
  name : String
  fullName : String := ""
  dataType : String
  offset : UInt32
  length : UInt32
  baseType : UInt32 := 0
  value : Text := []

/-- `symbol`, with its `Children` in the order they are ranged over. -/
inductive Symbol
  | mk (info : Info) (children : List Symbol)

def Symbol.info : Symbol → Info
  | .mk info _ => info

def Symbol.children : Symbol → List Symbol
  | .mk _ children => children

def Symbol.value (s : Symbol) : Text := s.info.value

/-- The datatype table, as far as it resolves type names. -/
abbrev DataTypes := String → Option String

variable (info : Info)

def Info.updateValue (newValue : Text) : Info := { info with value := newValue }

/-! ## Which type a leaf has -/

def adsTypeToString (code : UInt32) : Option String :=
  if code = 33 then some "BOOL"
  else if code = 16 then some "SINT"
  else if code = 17 then some "USINT"
  else if code = 2 then some "INT"
  else if code = 18 then some "UINT"
  else if code = 3 then some "DINT"
  else if code = 19 then some "UDINT"
  else if code = 4 then some "REAL"
  else if code = 5 then some "LREAL"
  else if code = 20 then some "LINT"
  else if code = 21 then some "ULINT"
  else if code = 30 then some "STRING"
  else if code = 31 then some "WSTRING"
  else none

def adsTypeWidth (code : UInt32) : UInt32 :=
  if code = 33 ∨ code = 16 ∨ code = 17 then 1
  else if code = 2 ∨ code = 18 then 2
  else if code = 3 ∨ code = 19 ∨ code = 4 then 4
  else if code = 20 ∨ code = 21 ∨ code = 5 then 8
  else 0

/-- `inferBaseType`: only sizes that no floating-point type has. -/
def inferBaseType (size : UInt32) : Option String :=
  if size = 1 then some "SINT" else if size = 2 then some "INT" else none

/-- The parseable type the datatype table has for a name. -/
def DataTypes.scalar (datatypes : DataTypes) (dataType : String) : Option Scalar :=
  (datatypes dataType).bind Scalar.ofName

/-! The errors of the two switches, and of the bounds -/

def Info.wrongWidth (resolved : String) (w : UInt32) : CodecErr :=
  .text ("cannot parse " ++ info.dataType ++ ": " ++ toString info.length ++
    " bytes, but its base type " ++ resolved ++ " is " ++ toString w ++ " bytes — " ++
    "this looks like an array or struct, which needs the datatype table; call LoadSymbols()")

def Info.notInferable : CodecErr :=
  .text ("data type " ++ info.dataType.quote ++ " not parseable and size " ++ toString info.length ++
    " not inferable (only 1/2 byte sizes auto-inferred to avoid REAL/LREAL ambiguity); " ++
    "call LoadSymbols() first or use a known type")

def unknownFormat (name : String) : CodecErr := .text ("unknown format cannot parse: " ++ name)

def Info.exceeds (size : Nat) : CodecErr :=
  .text ("parse " ++ info.dataType ++ ": s.Length " ++ toString info.length.toNat ++
    " exceeds data buffer size " ++ toString size)

def Info.tooShort (size start : Nat) : CodecErr :=
  .text ("data too short for " ++ info.dataType ++ " at offset " ++ toString start ++ ": need " ++
    toString info.length.toNat ++ " bytes, got " ++ toString ((size : Int) - start))

variable (go : Go) (datatypes : DataTypes)

/-- The switch of `parse`: the declared name, the datatype table, the protocol's code, the size. -/
def Info.parseLeaf (raw : Bytes) : Except CodecErr Text :=
  match Scalar.ofName info.dataType with
  | some scalar => scalar.parse go raw
  | none =>
    match datatypes.scalar info.dataType with
    | some scalar => scalar.parse go raw
    | none =>
      match adsTypeToString info.baseType with
      | some resolved =>
        -- a base type of another size is an array or struct of that base type
        let w := adsTypeWidth info.baseType
        if w > 0 ∧ w ≠ info.length then .error (info.wrongWidth resolved w)
        else
          match Scalar.ofName resolved with
          | some scalar => scalar.parse go raw
          | none => .error (unknownFormat resolved)
      | none =>
        -- an unknown name of one or two bytes is read as a signed integer
        match (inferBaseType info.length).bind Scalar.ofName with
        | some scalar => scalar.parse go raw
        | none => .error (unknownFormat info.dataType)

/-- The switch of `writeToNode`: the declared name, the datatype table, the size. -/
def Info.writeLeaf (value : Text) : Except CodecErr Bytes :=
  match Scalar.ofName info.dataType with
  | some scalar => scalar.write go info.length.toNat value
  | none =>
    match datatypes.scalar info.dataType with
    | some scalar => scalar.write go info.length.toNat value
    | none =>
      match (inferBaseType info.length).bind Scalar.ofName with
      | some scalar => scalar.write go info.length.toNat value
      | none => .error info.notInferable

/-! ## JSON values -/

/-- `strings.ReplaceAll` of one character. -/
def replaceAll (c : Char) (by_ : List Char) (s : List Char) : List Char :=
  s.flatMap fun x => if x = c then by_ else [x]

/-- `jsonKey`: array indices keep literal quotes. -/
def jsonKey (name : String) : String :=
  String.ofList (replaceAll ']' [']', '"'] (replaceAll '[' ['"', '['] name.toList))

def stringsList : List String :=
  ["STRING", "WSTRING", "TIME", "TOD", "TIME_OF_DAY", "DATE", "DT", "DATE_AND_TIME"]

def signedIntTypes : List String := ["SINT", "INT", "DINT", "LINT"]

def unsignedIntTypes : List String :=
  ["USINT", "UINT", "UDINT", "ULINT", "BYTE", "WORD", "DWORD", "LWORD"]

/-- What `strconv.ParseFloat` returns, also next to an error: zero, or an infinity if the number is out of
    range. -/
def Go.floatValue (text : Text) : UInt64 :=
  match go.parseFloat 64 text with
  | .ok bits => bits
  | .error .outOfRange => if text.head? = some 45 then 0xFFF0000000000000 else 0x7FF0000000000000
  | .error .notANumber => 0

/-- What `ParseInt` returns, also next to an error: zero, or the bound that was passed. -/
def intValue (text : Text) : Int :=
  match Decimal.parseInt 64 text with
  | .ok i => i
  | .error .outOfRange => if (Decimal.splitSign text).1 then -2 ^ 63 else 2 ^ 63 - 1
  | .error .notANumber => 0

def uintValue (text : Text) : Nat :=
  match Decimal.parseUint 64 text with
  | .ok n => n
  | .error .outOfRange => 2 ^ 64 - 1
  | .error .notANumber => 0

/-- The leaf of `parseTree`; a value that does not convert counts as false or as what the conversion
    returns.  The float types and the types it has no case for are read as `float64`. -/
def Info.leafJson : Json :=
  if info.dataType = "BOOL" then .bool ((parseBool info.value).toOption.getD false)
  else if info.dataType ∈ stringsList then .str info.value
  else if info.dataType ∈ signedIntTypes then .int (intValue info.value)
  else if info.dataType ∈ unsignedIntTypes then .int (uintValue info.value)
  else .float (go.floatValue info.value)

/-- An assignment to the map that is marshalled, before those that follow. -/
def setField (key : String) (value : Json) (later : List (String × Json)) : List (String × Json) :=
  if (later.lookup key).isSome then later else (key, value) :: later

mutual

def Symbol.parseTree : Symbol → Json
  | .mk info [] => info.leafJson go
  | .mk _ (c :: cs) => .obj (parseTrees (c :: cs))

def parseTrees : List Symbol → List (String × Json)
  | [] => []
  | s :: ss => setField (jsonKey s.info.name) s.parseTree (parseTrees ss)

end

/-- `getJSON`: empty where the value does not marshal. -/
def Symbol.getJSON (s : Symbol) : Text := (go.marshal (s.parseTree go)).getD []

/-! ## Reading -/

mutual

/-- `symbol.parse`: the symbol with its new value. -/
def Symbol.parse : Symbol → Bytes → Nat → Except CodecErr Symbol
  | .mk info [], data, start =>
    let length := info.length.toNat
    if length > data.length then .error (info.exceeds data.length)
    else if start + length > data.length then .error (info.tooShort data.length start)
    else
      match info.parseLeaf go datatypes ((data.drop start).take length) with
      | .error e => .error e
      | .ok newValue => .ok (.mk (info.updateValue newValue) [])
  | .mk info (c :: cs), data, start =>
    let length := info.length.toNat
    if length > data.length then .error (info.exceeds data.length)
    else
      -- unlike a leaf, a struct reads what is there of its bytes
      let stop := if start + length > data.length then data.length else start + length
      if stop < start then .error .sliceBounds
      else
        match parseChildren (c :: cs) ((data.drop start).take (stop - start)) with
        | .error e => .error e
        | .ok children =>
          -- the children hold their new values when the JSON is built
          .ok (.mk (info.updateValue ((Symbol.mk info children).getJSON go)) children)

def parseChildren : List Symbol → Bytes → Except CodecErr (List Symbol)
  | [], _ => .ok []
  | s :: ss, data =>
    match s.parse data s.info.offset.toNat with
    | .error e => .error (.wrap ("parsing child " ++ s.info.name.quote) e)
    | .ok s' => (parseChildren ss data).map (s' :: ·)

end

/-! ## Writing -/

/-- The raw field of a child: under its name, or under the name's JSON key. -/
def fieldOf (fields : List (String × Text)) (name : String) : Option Text :=
  (fields.lookup name).or (fields.lookup (jsonKey name))

/-- The text a raw field stands for: a JSON string unquoted, anything else as it is. -/
def childValue (raw : Text) : Option Text :=
  if raw.head? = some 34 then go.unmarshalString raw else some raw

/-- `copy(buf[lo:hi], src)`. -/
def copyInto (buf : Bytes) (lo hi : Nat) (src : Bytes) : Bytes :=
  let n := min (hi - lo) src.length
  buf.take lo ++ src.take n ++ buf.drop (lo + n)

mutual

def Symbol.writeToNode : Symbol → Text → Except CodecErr Bytes
  | .mk info [], value => info.writeLeaf go datatypes value
  | .mk info (c :: cs), value =>
    match go.unmarshalFields value with
    | none => .error (.wrap "struct write requires JSON input" .json)
    | some fields => writeChildren fields (c :: cs) (List.replicate info.length.toNat 0)

def writeChildren (fields : List (String × Text)) : List Symbol → Bytes → Except CodecErr Bytes
  | [], buf => .ok buf
  | s :: ss, buf =>
    match fieldOf fields s.info.key with
    -- a member without a field keeps the zeros it has
    | none => writeChildren fields ss buf
    | some raw =>
      match childValue go raw with
      | none => .error (.wrap ("field " ++ s.info.key.quote ++ ": invalid JSON string") .json)
      | some value =>
        match s.writeToNode value with
        | .error e => .error (.wrap ("field " ++ s.info.key.quote) e)
        | .ok childBytes =>
          let lo := s.info.offset.toNat
          let hi := s.info.offset.toNat + s.info.length.toNat
          if hi > buf.length then
            .error (.text ("field " ++ s.info.key.quote ++ ": offset+length " ++ toString hi ++
              " exceeds struct size " ++ toString buf.length))
          else writeChildren fields ss (copyInto buf lo hi childBytes)

end

end GoAds.Codec
