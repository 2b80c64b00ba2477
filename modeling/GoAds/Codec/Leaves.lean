import GoAds.Codec.Tree

/-!
# `Codec.Leaves` — what is read from a leaf can be written to it

For the leaf types that lose nothing (BOOL, the integers, STRING): the text `parse` makes of a leaf's bytes
is written back as the same bytes, and the JSON value `parseTree` makes of that text unmarshals to
the text again.
-/

namespace GoAds.Codec

open LittleEndian List Decimal

/-! ## What is assumed of `encoding/json` -/

/-- Valid UTF-8. -/
def ValidUtf8 (text : Text) : Prop := ∃ cs : List Char, text = cs.flatMap String.utf8EncodeChar

/-- `encoding/json` is faithful: literals are exact, for integers also where the value is held as a
    `float64` that has them all, strings are quoted and unquoted, and an object has its fields. -/
structure Go.FaithfulJson (go : Go) : Prop where
  bool : ∀ b, go.marshal (.bool b) = some (lit (if b then "true" else "false"))
  int : ∀ i, go.marshal (.int i) = some (Decimal.formatInt i)
  float : ∀ i : Int, -2 ^ 53 < i → i < 2 ^ 53 →
    ∃ bits, go.parseFloat 64 (Decimal.formatInt i) = .ok bits ∧
      go.marshal (.float bits) = some (Decimal.formatInt i)
  str : ∀ s, ValidUtf8 s →
    ∃ raw, go.marshal (.str s) = some (34 :: raw) ∧ go.unmarshalString (34 :: raw) = some s
  obj : ∀ fields : List (String × Json), (fields.map Prod.fst).Nodup →
    (∀ f ∈ fields, ∃ raw, go.marshal f.2 = some raw) →
    ∃ text raws, go.marshal (.obj fields) = some text ∧ text.head? ≠ some 34 ∧
      go.unmarshalFields text = some raws ∧
      ∀ k, raws.lookup k = (fields.lookup k).bind go.marshal

/-! ## The leaves -/

/-- The types that lose nothing, in the size they have. -/
def Scalar.Lossless (length : Nat) : Scalar → Prop
  | .bool => length = 1
  | .uint w | .int w => length = w
  | .string => True
  | _ => False

/-- What the bytes of such a leaf hold: a BOOL is 0 or 1, and a STRING is valid UTF-8 up to its
    terminator and NULs from there on. -/
def Scalar.Holds (raw : Bytes) : Scalar → Prop
  | .bool => raw = [0] ∨ raw = [1]
  | .string => ∃ (text : Text) (n : Nat), ValidUtf8 text ∧ 0 ∉ text ∧ raw = text ++ replicate (n + 1) 0
  | _ => True

/-! ## Texts and bytes -/

theorem pow256 (w : Nat) : 256 ^ w = 2 ^ (8 * w) := by
  rw [Nat.pow_mul]

variable {raw : Bytes} {info : Info} {w : Nat} {scalar : Scalar} {text : Text}

theorem takeWhile_text (h : 0 ∉ text) (n : Nat) :
    (text ++ replicate (n + 1) 0).takeWhile (· ≠ 0) = text := by
  rw [takeWhile_append_of_pos]
  · rw [replicate_succ, takeWhile_cons_of_neg (by decide), append_nil]
  intro b hb
  rw [decide_eq_true_eq]
  rintro rfl
  exact h hb

theorem stringBytes_text (text : Text) (n : Nat) :
    stringBytes (text.length + (n + 1)) text = text ++ replicate (n + 1) 0 := by
  have htake : text.take (text.length + (n + 1) - 1) = text := take_of_length_le (by omega)
  unfold stringBytes
  dsimp only
  rw [htake, Nat.add_sub_cancel_left]

theorem bmod_decode (hw : 0 < w) (hlen : raw.length = w) :
    -2 ^ (8 * w - 1) ≤ Int.bmod (decode raw) (256 ^ w) ∧
      Int.bmod (decode raw) (256 ^ w) < 2 ^ (8 * w - 1) ∧
      (Int.bmod (decode raw) (256 ^ w) % 256 ^ w).toNat = decode raw := by
  have hlt : decode raw < 256 ^ w := by
    rw [← hlen]
    exact decode_lt raw
  have hhalf : (256 ^ w : Nat) = 2 * 2 ^ (8 * w - 1) := by
    rw [pow256, ← Nat.pow_succ']
    congr 1
    omega
  have hpos : 0 < 256 ^ w := Nat.pow_pos (by decide)
  refine ⟨?_, ?_, ?_⟩
  · have h := Int.le_bmod (x := decode raw) (m := 256 ^ w) hpos
    have hcast : ((256 ^ w : Nat) : Int) / 2 = 2 ^ (8 * w - 1) := by
      rw [hhalf]
      push_cast
      omega
    rwa [hcast] at h
  · have h := Int.bmod_lt (x := decode raw) (m := 256 ^ w) hpos
    have hcast : (((256 ^ w : Nat) : Int) + 1) / 2 = 2 ^ (8 * w - 1) := by
      rw [hhalf]
      push_cast
      omega
    rwa [hcast] at h
  have hmod : Int.bmod (decode raw) (256 ^ w) % ((256 ^ w : Nat) : Int) = decode raw := by
    rw [Int.bmod_emod]
    exact Int.emod_eq_of_lt (Int.natCast_nonneg _) (by exact_mod_cast hlt)
  have hcast : ((256 ^ w : Nat) : Int) = (256 : Int) ^ w := by push_cast; rfl
  rw [← hcast, hmod, Int.toNat_natCast]

/-! ## One leaf -/

variable {go : Go}

theorem parseBool_true : parseBool (lit "true") = .ok true := if_pos (by decide)

theorem parseBool_false : parseBool (lit "false") = .ok false := by
  rw [parseBool, if_neg (by decide), if_pos (by decide)]

/-- **A leaf's bytes survive the way through its text.** -/
theorem Scalar.write_parse (hlossless : scalar.Lossless raw.length)
    (hwidth : ∀ w, scalar = .int w → 0 < w) (hholds : scalar.Holds raw) :
    ∃ text, scalar.parse go raw = .ok text ∧ scalar.write go raw.length text = .ok raw := by
  cases scalar with
  | bool =>
    rcases hholds with rfl | rfl
    · refine ⟨lit "false", rfl, ?_⟩
      rw [Scalar.write, parseBool_false]
      rfl
    refine ⟨lit "true", rfl, ?_⟩
    rw [Scalar.write, parseBool_true]
    rfl
  | uint w =>
    have hlen : raw.length = w := hlossless
    have hlt : decode raw < 2 ^ (8 * w) := by
      rw [← pow256, ← hlen]
      exact decode_lt raw
    refine ⟨Decimal.format (decode raw), if_neg (not_not.2 hlen), ?_⟩
    show (numErr "ParseUint" _ (Decimal.parseUint (8 * w) _)).map (encode w) = _
    rw [parseUint_format hlt]
    show Except.ok (encode w (decode raw)) = _
    rw [← hlen, encode_decode]
  | int w =>
    have hlen : raw.length = w := hlossless
    obtain ⟨hlo, hhi, hback⟩ := bmod_decode (hwidth w rfl) hlen
    refine ⟨Decimal.formatInt (Int.bmod (decode raw) (256 ^ w)), if_neg (not_not.2 hlen), ?_⟩
    show (numErr "ParseInt" _ (Decimal.parseInt (8 * w) _)).map (fun v => encode w (v % 256 ^ w).toNat) = _
    rw [parseInt_formatInt hlo hhi]
    show Except.ok (encode w (Int.bmod (decode raw) (256 ^ w) % 256 ^ w).toNat) = _
    rw [hback, ← hlen, encode_decode]
  | string =>
    obtain ⟨text, n, -, hnul, rfl⟩ := hholds
    refine ⟨text, congrArg Except.ok (takeWhile_text hnul n), ?_⟩
    have hlen : (text ++ replicate (n + 1) 0).length = text.length + (n + 1) := by
      rw [length_append, length_replicate]
    rw [Scalar.write, hlen, if_neg (by omega), stringBytes_text]
  | _ => exact hlossless.elim

/-! ## The leaf in JSON -/

/-- Where `parseTree` sends the types of a name: UINT16 and INT16 are in none of its lists. -/
def JsonCase (name : String) : Scalar → Prop
  | .bool => name = "BOOL"
  | .string => name ≠ "BOOL" ∧ name ∈ stringsList
  | .uint w => name ≠ "BOOL" ∧ name ∉ stringsList ∧ name ∉ signedIntTypes ∧
    (name ∈ unsignedIntTypes ∨ w = 2) ∧ w ≤ 8
  | .int w => name ≠ "BOOL" ∧ name ∉ stringsList ∧ (name ∉ signedIntTypes → name ∉ unsignedIntTypes) ∧
    (name ∈ signedIntTypes ∨ w = 2) ∧ 0 < w ∧ w ≤ 8
  | _ => True

instance (name : String) (s : Scalar) : Decidable (JsonCase name s) := by
  unfold JsonCase
  split <;> infer_instance

theorem jsonCase_of_ofName {name} (h : Scalar.ofName name = some scalar) :
    JsonCase name scalar := by
  unfold Scalar.ofName at h
  split at h
  all_goals cases h
  all_goals decide

theorem head_formatInt (i : Int) : (Decimal.formatInt i).head? ≠ some 34 := by
  cases i with
  | negSucc => exact fun hhead => absurd (Option.some.inj hhead) (by decide)
  | ofNat n =>
    intro hhead
    obtain ⟨rest, hrest⟩ := head?_eq_some_iff.1 hhead
    have hparse := parse_format n
    rw [show Decimal.format n = 34 :: rest from hrest] at hparse
    cases hparse

theorem childValue_of_head {raw} (h : raw.head? ≠ some 34) : childValue go raw = some raw :=
  if_neg h

/-- A value is marshalled so that `writeToNode` takes the text from the field. -/
def Go.Carries (go : Go) (json : Json) (text : Text) : Prop :=
  ∃ raw, go.marshal json = some raw ∧ childValue go raw = some text

section

variable (hjson : go.FaithfulJson)

include hjson

theorem Go.FaithfulJson.carries_str {text} (h : ValidUtf8 text) : go.Carries (.str text) text := by
  obtain ⟨raw, hraw, hback⟩ := hjson.str text h
  refine ⟨34 :: raw, hraw, ?_⟩
  rw [childValue, if_pos (show (34 :: raw).head? = some 34 from rfl)]
  exact hback

theorem Go.FaithfulJson.carries_bool (b : Bool) :
    go.Carries (.bool ((parseBool (lit (if b then "true" else "false"))).toOption.getD false))
      (lit (if b then "true" else "false")) := by
  cases b with
  | false =>
    rw [if_neg Bool.false_ne_true, parseBool_false]
    exact ⟨_, hjson.bool false, childValue_of_head (by decide)⟩
  | true =>
    rw [if_pos rfl, parseBool_true]
    exact ⟨_, hjson.bool true, childValue_of_head (by decide)⟩

end

theorem floatValue_ok {bits} (h : go.parseFloat 64 text = .ok bits) : go.floatValue text = bits := by
  unfold Go.floatValue
  rw [h]

theorem Info.leafJson_updateValue (info : Info) (text : Text) : (info.updateValue text).leafJson go =
      if info.dataType = "BOOL" then .bool ((parseBool text).toOption.getD false)
      else if info.dataType ∈ stringsList then .str text
      else if info.dataType ∈ signedIntTypes then .int (intValue text)
      else if info.dataType ∈ unsignedIntTypes then .int (uintValue text)
      else .float (go.floatValue text) := rfl

theorem Info.marshal_uint (hjson : go.FaithfulJson) {n}
    (hname : Scalar.ofName info.dataType = some (.uint w)) (hn : n < 256 ^ w) :
    go.marshal ((info.updateValue (Decimal.format n)).leafJson go) = some (Decimal.format n) := by
  obtain ⟨hne, hstr, hsigned, hunsigned, hw⟩ := jsonCase_of_ofName hname
  rw [Info.leafJson_updateValue, if_neg hne, if_neg hstr, if_neg hsigned]
  by_cases hmem : info.dataType ∈ unsignedIntTypes
  · have h64 : n < 2 ^ 64 := by
      rw [pow256] at hn
      exact Nat.lt_of_lt_of_le hn (Nat.pow_le_pow_right (by decide) (by omega))
    rw [if_pos hmem, uintValue, parseUint_format h64]
    exact hjson.int n
  -- a UINT16: its value is marshalled as a float
  obtain rfl : w = 2 := hunsigned.resolve_left hmem
  obtain ⟨bits, hbits, hraw⟩ := hjson.float n (by omega) (by omega)
  have hbits' : go.parseFloat 64 (Decimal.format n) = .ok bits := hbits
  rw [if_neg hmem, floatValue_ok hbits']
  exact hraw

theorem Info.marshal_int (hjson : go.FaithfulJson) {i}
    (hname : Scalar.ofName info.dataType = some (.int w)) (hlo : -2 ^ (8 * w - 1) ≤ i)
    (hhi : i < 2 ^ (8 * w - 1)) :
    go.marshal ((info.updateValue (Decimal.formatInt i)).leafJson go) = some (Decimal.formatInt i) := by
  obtain ⟨hne, hstr, hunsigned, hsigned, hpos, hw⟩ := jsonCase_of_ofName hname
  rw [Info.leafJson_updateValue, if_neg hne, if_neg hstr]
  by_cases hmem : info.dataType ∈ signedIntTypes
  · have h64 : (2 : Int) ^ (8 * w - 1) ≤ 2 ^ (64 - 1) := pow_le_pow_right₀ (by decide) (by omega)
    rw [if_pos hmem, intValue, parseInt_formatInt (by omega) (by omega)]
    exact hjson.int i
  -- an INT16: its value is marshalled as a float
  obtain rfl : w = 2 := hsigned.resolve_left hmem
  obtain ⟨bits, hbits, hraw⟩ := hjson.float i (by omega) (by omega)
  rw [if_neg hmem, if_neg (hunsigned hmem), floatValue_ok hbits]
  exact hraw

theorem Info.carries_leafJson (hjson : go.FaithfulJson) (hname : Scalar.ofName info.dataType = some scalar)
    (hlossless : scalar.Lossless raw.length) (hholds : scalar.Holds raw)
    (hparse : scalar.parse go raw = .ok text) : go.Carries ((info.updateValue text).leafJson go) text := by
  have hcase := jsonCase_of_ofName hname
  cases scalar with
  | bool =>
    have hbool : info.dataType = "BOOL" := hcase
    rw [Info.leafJson_updateValue, if_pos hbool]
    rcases hholds with rfl | rfl
    · obtain rfl : lit "false" = text := Except.ok.inj hparse
      exact hjson.carries_bool false
    · obtain rfl : lit "true" = text := Except.ok.inj hparse
      exact hjson.carries_bool true
  | string =>
    obtain ⟨hne, hmem⟩ := hcase
    obtain ⟨body, n, hutf8, hnul, rfl⟩ := hholds
    obtain rfl : body = text := by
      rw [← takeWhile_text hnul n]
      exact Except.ok.inj hparse
    rw [Info.leafJson_updateValue, if_neg hne, if_pos hmem]
    exact hjson.carries_str hutf8
  | uint w =>
    have hlen : raw.length = w := hlossless
    rw [Scalar.parse, sized, if_neg (not_not.2 hlen)] at hparse
    cases hparse
    refine ⟨_, Info.marshal_uint hjson hname (hlen ▸ decode_lt raw), childValue_of_head ?_⟩
    exact head_formatInt (decode raw)
  | int w =>
    have hlen : raw.length = w := hlossless
    obtain ⟨hlo, hhi, -⟩ := bmod_decode hcase.2.2.2.2.1 hlen
    rw [Scalar.parse, sized, if_neg (not_not.2 hlen)] at hparse
    cases hparse
    exact ⟨_, Info.marshal_int hjson hname hlo hhi, childValue_of_head (head_formatInt _)⟩
  | _ => exact hlossless.elim

end GoAds.Codec
