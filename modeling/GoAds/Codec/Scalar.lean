import GoAds.Lib.LittleEndian
import GoAds.Lib.Decimal

/-!
# `Codec.Scalar` — the values of leaves

The base types of the leaves of a symbol, how the bytes of a leaf become text and how text
becomes bytes.  Texts are Go strings, that is, bytes; names and type names are plain strings.

What the source takes from the standard library is a parameter, `Go`: floating point, time layouts,
UTF-16 and JSON.  Integers are converted here.
-/

namespace GoAds.Codec

open LittleEndian

abbrev Bytes := List UInt8

/-- A Go string. -/
abbrev Text := List UInt8

instance : LawfulBEq Text := List.instLawfulBEq

/-- The bytes of an ASCII literal. -/
def lit (s : String) : Text := s.toList.map fun c => UInt8.ofNat c.toNat

/-- An error of the codec; `sliceBounds` is the run-time panic of a slice expression. -/
inductive CodecErr
  | text (msg : String)
  | wrap (msg : String) (err : CodecErr)
  | num (func : String) (num : Text) (err : Decimal.NumErr)
  | json
  | time
  | sliceBounds

/-- A value `json.Marshal` is given; `float` holds the bits. -/
inductive Json
  | str (s : Text)
  | bool (b : Bool)
  | int (i : Int)
  | float (bits : UInt64)
  | obj (fields : List (String × Json))

/-- A date and time of day, as `time.Parse` returns it. -/
structure Civil where
  year : Int
  month : Nat
  day : Nat
  hour : Nat
  minute : Nat
  second : Nat
  nanosecond : Nat
  deriving DecidableEq, Repr

/-- What the codec takes from the standard library.  `timeFormat` formats the Unix nanoseconds in UTC,
    and `timeDate` is the Unix nanoseconds of a civil time; `unmarshalFields` reads an object into
    the raw texts of its fields. -/
structure Go where
  formatFloat32 : UInt32 → Text
  formatFloat64 : UInt64 → Text
  parseFloat : (bits : Nat) → Text → Except Decimal.NumErr UInt64
  timeFormat : (layout : String) → Int → Text
  timeParse : (layout : String) → Text → Option Civil
  timeDate : Civil → Int
  utf16Decode : List UInt16 → Text
  utf16Encode : Text → List UInt16
  marshal : Json → Option Text
  unmarshalFields : Text → Option (List (String × Text))
  unmarshalString : Text → Option Text

/-! ## Scalar types -/

/-- The base types of the two switches, by what they do. -/
inductive Scalar
  | bool
  | uint (width : Nat)
  | int (width : Nat)
  | real | lreal
  | string | wstring
  | time | tod | date | dt
  deriving DecidableEq, Repr

/-- The case labels of the switches in `parse` and `writeToNode`. -/
def Scalar.ofName : String → Option Scalar
  | "BOOL" => some .bool
  | "BYTE" | "USINT" => some (.uint 1)
  | "SINT" => some (.int 1)
  | "UINT" | "WORD" | "UINT16" => some (.uint 2)
  | "UDINT" | "DWORD" => some (.uint 4)
  | "INT" | "INT16" => some (.int 2)
  | "DINT" => some (.int 4)
  | "REAL" => some .real
  | "LREAL" => some .lreal
  | "LINT" => some (.int 8)
  | "ULINT" | "LWORD" => some (.uint 8)
  | "STRING" => some .string
  | "WSTRING" => some .wstring
  | "TIME" => some .time
  | "TOD" | "TIME_OF_DAY" => some .tod
  | "DATE" => some .date
  | "DT" | "DATE_AND_TIME" => some .dt
  | _ => none

def parseableTypes : List String :=
  ["BOOL", "BYTE", "USINT", "UINT", "UINT16", "WORD", "UDINT", "DWORD", "SINT", "INT", "INT16",
    "DINT", "REAL", "LREAL", "STRING", "WSTRING", "TIME", "TOD", "TIME_OF_DAY", "DATE", "DT",
    "DATE_AND_TIME", "LINT", "ULINT", "LWORD"]

/-- The switches have a case for exactly the parseable types. -/
theorem mem_parseableTypes {name} :
    name ∈ parseableTypes ↔ ∃ scalar, Scalar.ofName name = some scalar := by
  constructor
  · intro h
    have hall : ∀ n ∈ parseableTypes, (Scalar.ofName n).isSome = true := by decide
    exact Option.isSome_iff_exists.1 (hall name h)
  rintro ⟨scalar, h⟩
  unfold Scalar.ofName at h
  split at h
  all_goals cases h
  all_goals decide

/-- The value a type of fixed size reads, if the size is right. -/
def sized (label : String) (width : Nat) (raw : Bytes) (value : Text) : Except CodecErr Text :=
  if raw.length ≠ width then .error (.text (label ++ " Size Wrong")) else .ok value

/-- The name of an integer type in its error. -/
def uintLabel : Nat → String
  | 1 => "BYTE"
  | 2 => "WORD"
  | 4 => "DWORD"
  | _ => "ULINT"

def intLabel : Nat → String
  | 1 => "SINT"
  | 2 => "INT"
  | 4 => "DINT"
  | _ => "LINT"

/-- The code units of a WSTRING, up to its terminator. -/
def wstringUnits : Bytes → List UInt16
  | lo :: hi :: rest =>
    if lo = 0 ∧ hi = 0 then []
    else UInt16.ofNat (decode [lo, hi]) :: wstringUnits rest
  | _ => []

variable (go : Go)

/-- The text of a moment given in seconds or milliseconds. -/
def Scalar.timeText (layout : String) (nanosPerUnit : Int) (raw : Bytes) : Text :=
  go.timeFormat layout (decode raw * nanosPerUnit)

/-- What `parse` makes of the bytes of a leaf. -/
def Scalar.parse (raw : Bytes) : Scalar → Except CodecErr Text
  | .bool => sized "BOOL" 1 raw (if decode raw > 0 then lit "true" else lit "false")
  | .uint w => sized (uintLabel w) w raw (Decimal.format (decode raw))
  -- two's complement: the balanced remainder
  | .int w => sized (intLabel w) w raw (Decimal.formatInt (Int.bmod (decode raw) (256 ^ w)))
  | .real => sized "REAL" 4 raw (go.formatFloat32 (UInt32.ofNat (decode raw)))
  | .lreal => sized "LREAL" 8 raw (go.formatFloat64 (UInt64.ofNat (decode raw)))
  -- without a NUL the whole of the leaf
  | .string => .ok (raw.takeWhile (· ≠ 0))
  | .wstring => .ok (go.utf16Decode (wstringUnits raw))
  | .time => sized "TIME" 4 raw (timeText go "15:04:05.999999999" 1000000 raw)
  | .tod => sized "TOD" 4 raw (timeText go "15:04" 1000000 raw)
  | .date => sized "DATE" 4 raw (timeText go "2006-01-02" 1000000000 raw)
  | .dt => sized "DT" 4 raw (timeText go "2006-01-02 15:04:05" 1000000000 raw)

/-- `strconv.ParseBool`. -/
def parseBool (value : Text) : Except CodecErr Bool :=
  if value ∈ ["1", "t", "T", "TRUE", "true", "True"].map lit then .ok true
  else if value ∈ ["0", "f", "F", "FALSE", "false", "False"].map lit then .ok false
  else .error (.num "ParseBool" value .notANumber)

/-- A failed conversion as the error `strconv` returns. -/
def numErr {α : Type} (func : String) (value : Text) : Except Decimal.NumErr α → Except CodecErr α
  | .ok a => .ok a
  | .error e => .error (.num func value e)

/-- Text padded with NULs to `length`, of which the last stays NUL. -/
def stringBytes (length : Nat) (value : Text) : Bytes :=
  -- what does not fit is cut off, so that a NUL always remains
  let src := value.take (length - 1)
  src ++ List.replicate (length - src.length) 0

def isHighSurrogate (u : UInt16) : Bool := 0xD800 ≤ u && u ≤ 0xDBFF

/-- The code units that fit, without half a surrogate pair at the end. -/
def wstringFit (maxChars : Nat) (encoded : List UInt16) : List UInt16 :=
  if encoded.length > maxChars then
    let cut := encoded.take maxChars
    -- half a pair would decode as a replacement character
    if (cut.getLast?.map isHighSurrogate).getD false then cut.dropLast else cut
  else encoded

def wstringBytes (length : Nat) (encoded : List UInt16) : Bytes :=
  let units := (wstringFit ((length - 2) / 2) encoded).flatMap fun u => encode 2 u.toNat
  units ++ List.replicate (length - units.length) 0

/-- The Unix nanoseconds of a text in one of the layouts. -/
def civilNanos (keep : Civil → Civil) (message : String) (layouts : List String) (value : Text) :
    Except CodecErr Int :=
  match layouts.findSome? fun layout => go.timeParse layout value with
  | none => .error (.wrap message .time)
  | some t => .ok (go.timeDate (keep t))

/-- A count of units since 1970 as four bytes. -/
def unitsBytes (nanosPerUnit : Int) (nanos : Int) : Bytes :=
  encode 4 ((Int.tdiv nanos nanosPerUnit) % 2 ^ 32).toNat

/-- What `writeToNode` makes of a leaf's text. -/
def Scalar.write (length : Nat) (value : Text) : Scalar → Except CodecErr Bytes
  | .bool => (parseBool value).map fun v => if v then [1] else [0]
  | .uint w => (numErr "ParseUint" value (Decimal.parseUint (8 * w) value)).map (encode w)
  | .int w =>
    (numErr "ParseInt" value (Decimal.parseInt (8 * w) value)).map fun v =>
      encode w (v % 256 ^ w).toNat
  | .real => (numErr "ParseFloat" value (go.parseFloat 32 value)).map fun v => encode 4 v.toNat
  | .lreal => (numErr "ParseFloat" value (go.parseFloat 64 value)).map fun v => encode 8 v.toNat
  | .string =>
    if length < 1 then
      .error (.text ("STRING write requires s.Length >= 1, got " ++ toString length))
    else .ok (stringBytes length value)
  | .wstring =>
    if length < 2 then
      .error (.text ("WSTRING write requires s.Length >= 2, got " ++ toString length))
    else .ok (wstringBytes length (go.utf16Encode value))
  | .time =>
    (civilNanos go (fun t => { t with year := 1970, month := 1, day := 1 })
      "TIME: expected format 15:04:05 or 15:04:05.999999999"
      ["15:04:05.999999999", "15:04:05"] value).map (unitsBytes 1000000)
  | .tod =>
    (civilNanos go
      (fun t => { t with year := 1970, month := 1, day := 1, second := 0, nanosecond := 0 })
      "TOD: expected format 15:04" ["15:04"] value).map (unitsBytes 1000000)
  | .date =>
    (civilNanos go (fun t => { t with hour := 0, minute := 0, second := 0, nanosecond := 0 })
      "DATE: expected format 2006-01-02" ["2006-01-02"] value).map (unitsBytes 1000000000)
  | .dt =>
    (civilNanos go (fun t => { t with nanosecond := 0 })
      "DT: expected format 2006-01-02 15:04:05" ["2006-01-02 15:04:05"] value).map
      (unitsBytes 1000000000)

end GoAds.Codec
