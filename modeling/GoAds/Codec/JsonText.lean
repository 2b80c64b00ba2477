import Mathlib.Data.List.Sort
import Mathlib.Logic.Equiv.List
import GoAds.Codec.Leaves

/-!
# `Codec.JsonText` — the assumptions on `encoding/json` can be met

A standard library that satisfies `FaithfulJson`, with the texts of `encoding/json`: quoted strings, objects
with their fields in the order of the keys, and integers in decimal, which a float64 holds as in IEEE 754.
It knows less than Go's: no character but the quote and the backslash is escaped, a float that is no
integer loses its fraction, and an object with a comma in a field is the number of its list of fields, in
unary.
-/

namespace GoAds.Codec.JsonText

open List

instance encodableChar : Encodable Char := .ofLeftInverse Char.toNat Char.ofNat Char.ofNat_toNat

instance encodableString : Encodable String :=
  .ofLeftInverse String.toList String.ofList fun _ => String.ofList_toList

instance encodableUInt8 : Encodable UInt8 :=
  .ofLeftInverse UInt8.toNat UInt8.ofNat fun _ => UInt8.ofNat_toNat

/-! ## Strings -/

/-- The quote and the backslash stand behind a backslash. -/
def escape (b : UInt8) : Text := if b = 34 ∨ b = 92 then [92, b] else [b]

def quote (s : Text) : Text := 34 :: (s.flatMap escape ++ [34])

/-- Reads a string up to its closing quote; the next byte may be escaped. -/
def unquote : Bool → Text → Option (Text × Text)
  | _, [] => none
  | true, b :: rest => (unquote false rest).map (.map (b :: ·) id)
  | false, b :: rest =>
    if b = 34 then some ([], rest)
    else if b = 92 then unquote true rest
    else (unquote false rest).map (.map (b :: ·) id)

theorem unquote_escape (s rest : Text) : unquote false (s.flatMap escape ++ 34 :: rest) = some (s, rest) := by
  induction s with
  | nil => rfl
  | cons b s ih =>
    rw [flatMap_cons, append_assoc, escape]
    split
    · simp [unquote, ih]
    · next hb =>
      rw [not_or] at hb
      simp [unquote, hb, ih]

/-! ## Objects -/

def fieldText (f : String × Text) : Text := quote f.1.toUTF8.data.toList ++ 58 :: f.2

def readField (text : Text) : Option (String × Text) :=
  (unquote false text.tail).bind fun x => (String.fromUTF8? ⟨x.1.toArray⟩).map fun key => (key, x.2.tail)

theorem readField_fieldText (f : String × Text) : readField (fieldText f) = some f := by
  have hkey : String.fromUTF8? ⟨f.1.toUTF8.data.toList.toArray⟩ = some f.1 := by
    rw [Array.toArray_toList]
    exact dif_pos f.1.isValidUTF8
  rw [readField, fieldText, quote, cons_append, append_assoc, tail_cons, singleton_append, unquote_escape,
    Option.bind_some, hkey]
  rfl

/-- The text of an object with these raw fields. -/
def objectText (raws : List (String × Text)) : Text :=
  let fields := (raws.insertionSort fun f g => f.1 ≤ g.1).map fieldText
  123 :: if raws = [] then [125]
    else if ∀ f ∈ fields, 44 ∉ f then [44].intercalate fields ++ [125]
    else replicate (Encodable.encode raws) 49

def objectFields (text : Text) : Option (List (String × Text)) :=
  if text = [123, 125] then some []
  else if text.getLast? = some 125 then (text.tail.dropLast.splitOn 44).mapM readField
  else Encodable.decode (text.length - 1)

theorem mapM_readField (raws : List (String × Text)) : (raws.map fieldText).mapM readField = some raws := by
  induction raws with
  | nil => rfl
  | cons f raws ih => simp [readField_fieldText, ih]

theorem lookup_perm {l l' : List (String × Text)} (h : l.Perm l') (hn : (l.map Prod.fst).Nodup) (k : String) :
    l.lookup k = l'.lookup k := by
  induction h with
  | nil => rfl
  | cons f _ ih => rw [lookup_cons, lookup_cons, ih (nodup_cons.1 hn).2]
  | swap f g =>
    have hne : g.1 ≠ f.1 := fun h => (nodup_cons.1 hn).1 (h ▸ mem_cons_self ..)
    rw [lookup_cons, lookup_cons, lookup_cons, lookup_cons]
    by_cases hk : k = g.1
    · simp [hk, beq_false_of_ne hne]
    · simp [beq_false_of_ne hk]
  | trans h _ ih₁ ih₂ => rw [ih₁ hn, ih₂ ((h.map _).nodup_iff.1 hn)]

theorem objectFields_objectText (raws : List (String × Text)) :
    ∃ raws', objectFields (objectText raws) = some raws' ∧ raws.Perm raws' := by
  by_cases hnil : raws = []
  · rw [objectText, if_pos hnil, hnil]
    exact ⟨[], rfl, .refl _⟩
  rw [objectText, if_neg hnil]
  generalize hsort : (raws.insertionSort fun f g => f.1 ≤ g.1) = sorted
  have hperm : raws.Perm sorted := hsort ▸ (perm_insertionSort _ raws).symm
  split
  · next hcomma =>
    refine ⟨sorted, ?_, hperm⟩
    obtain ⟨f, fs, rfl⟩ := exists_cons_of_ne_nil fun h => hnil (perm_nil.1 (h ▸ hperm))
    have hlong : 123 :: ([44].intercalate ((f :: fs).map fieldText) ++ [125]) ≠ [123, 125] := by
      cases fs with
      | nil | cons => simp [fieldText, quote, intercalate]
    rw [objectFields, if_neg hlong, ← cons_append, if_pos getLast?_concat, cons_append, tail_cons,
      dropLast_concat, splitOn_intercalate _ hcomma (cons_ne_nil _ _), mapM_readField]
  · have hbrace : 125 ∉ 123 :: replicate (Encodable.encode raws) (49 : UInt8) := by simp
    have hlast : (123 :: replicate (Encodable.encode raws) (49 : UInt8)).getLast? ≠ some 125 := fun h =>
      hbrace (mem_of_getLast? h)
    refine ⟨raws, ?_, .refl _⟩
    rw [objectFields, if_neg fun h => hbrace (by simp [h]), if_neg hlast, length_cons, length_replicate,
      Nat.add_sub_cancel]
    exact Encodable.encodek raws

/-! ## Floats -/

/-- The float64 of an integer: its sign, the exponent and what is behind the first bit. -/
def floatBits (i : Int) : UInt64 :=
  if i = 0 then 0
  else
    let e := i.natAbs.log2
    .ofNat ((if i < 0 then 2 ^ 63 else 0) + (1023 + e) * 2 ^ 52 + (i.natAbs * 2 ^ (52 - e) - 2 ^ 52))

/-- The integer part of a float64. -/
def floatInt (bits : UInt64) : Int :=
  let e := bits.toNat / 2 ^ 52 % 2 ^ 11
  let n : Nat := if e < 1023 then 0 else (2 ^ 52 + bits.toNat % 2 ^ 52) * 2 ^ (e - 1023) / 2 ^ 52
  if bits.toNat < 2 ^ 63 then n else -n

theorem floatInt_floatBits {i : Int} (hlo : -2 ^ 53 < i) (hhi : i < 2 ^ 53) : floatInt (floatBits i) = i := by
  unfold floatBits
  split
  · next h =>
    rw [h]
    rfl
  next h =>
  have hne : i.natAbs ≠ 0 := by omega
  have he : i.natAbs.log2 ≤ 52 := Nat.lt_succ_iff.1 ((Nat.log2_lt hne).2 (by omega))
  have hlow := Nat.mul_le_mul_right (2 ^ (52 - i.natAbs.log2)) (Nat.log2_self_le hne)
  have hhigh := Nat.mul_lt_mul_of_pos_right (Nat.lt_log2_self (n := i.natAbs))
    (Nat.two_pow_pos (52 - i.natAbs.log2))
  have hback : i.natAbs * 2 ^ (52 - i.natAbs.log2) * 2 ^ i.natAbs.log2 = i.natAbs * 2 ^ 52 := by
    rw [Nat.mul_assoc, ← Nat.pow_add, Nat.sub_add_cancel he]
  rw [← Nat.pow_add] at hlow hhigh
  rw [Nat.add_sub_cancel' he] at hlow
  rw [Nat.add_right_comm, Nat.add_sub_cancel' he] at hhigh
  dsimp only
  generalize i.natAbs * 2 ^ (52 - i.natAbs.log2) = mantissa at *
  generalize i.natAbs.log2 = e at *
  -- sign, exponent and mantissa do not overlap
  obtain ⟨sign, hsign, hcases⟩ : ∃ sign : Nat, (if i < 0 then 2 ^ 63 else 0) = sign * 2 ^ 63 ∧
      (sign = 0 ∧ 0 ≤ i ∨ sign = 1 ∧ i < 0) := by
    split
    · next hneg => exact ⟨1, rfl, .inr ⟨rfl, hneg⟩⟩
    · next hpos => exact ⟨0, rfl, .inl ⟨rfl, Int.not_lt.1 hpos⟩⟩
  rw [hsign]
  have hbits : (UInt64.ofNat (sign * 2 ^ 63 + (1023 + e) * 2 ^ 52 + (mantissa - 2 ^ 52))).toNat =
      sign * 2 ^ 63 + (1023 + e) * 2 ^ 52 + (mantissa - 2 ^ 52) :=
    UInt64.toNat_ofNat_of_lt' (show _ < 2 ^ 64 by omega)
  have hexp : (sign * 2 ^ 63 + (1023 + e) * 2 ^ 52 + (mantissa - 2 ^ 52)) / 2 ^ 52 % 2 ^ 11 = 1023 + e := by
    omega
  have hfrac : 2 ^ 52 + (sign * 2 ^ 63 + (1023 + e) * 2 ^ 52 + (mantissa - 2 ^ 52)) % 2 ^ 52 = mantissa := by
    omega
  simp only [floatInt, hbits, hexp, hfrac, Nat.add_sub_cancel_left, hback]
  rw [if_neg (Nat.not_lt.2 (Nat.le_add_right 1023 e)), Nat.mul_div_cancel _ (by decide)]
  rcases hcases with ⟨rfl, hi⟩ | ⟨rfl, hi⟩
  · rw [if_pos (by omega)]
    omega
  · rw [if_neg (by omega)]
    omega

/-! ## The library -/

mutual

def marshal : Json → Text
  | .str s => quote s
  | .bool b => lit (if b then "true" else "false")
  | .int i => Decimal.formatInt i
  | .float bits => Decimal.formatInt (floatInt bits)
  | .obj fields => objectText (marshalFields fields)

def marshalFields : List (String × Json) → List (String × Text)
  | [] => []
  | (key, value) :: fields => (key, marshal value) :: marshalFields fields

end

theorem marshalFields_eq (fields : List (String × Json)) :
    marshalFields fields = fields.map fun f => (f.1, marshal f.2) := by
  induction fields with
  | nil => rw [marshalFields, map_nil]
  | cons f fields ih => rw [marshalFields, ih, map_cons]

theorem lookup_marshalFields (fields : List (String × Json)) (key : String) :
    (marshalFields fields).lookup key = (fields.lookup key).map marshal := by
  rw [marshalFields_eq]
  induction fields with
  | nil => rfl
  | cons f fields ih =>
    rw [map_cons, lookup_cons, lookup_cons, ih]
    -- both lookups compare the same keys
    cases key == f.1 with
    | true | false => rfl

/-- The standard library, as far as JSON needs it. -/
def go : Go where
  formatFloat32 _ := []
  formatFloat64 _ := []
  parseFloat _ text := (Decimal.parseInt 64 text).map floatBits
  timeFormat _ _ := []
  timeParse _ _ := none
  timeDate _ := 0
  utf16Decode _ := []
  utf16Encode _ := []
  marshal json := some (marshal json)
  unmarshalFields := objectFields
  unmarshalString text := (unquote false text.tail).map Prod.fst

theorem marshal_float {i} (hlo : -2 ^ 53 < i) (hhi : i < 2 ^ 53) :
    go.parseFloat 64 (Decimal.formatInt i) = .ok (floatBits i) ∧
      marshal (.float (floatBits i)) = Decimal.formatInt i := by
  have hparse : Decimal.parseInt 64 (Decimal.formatInt i) = .ok i :=
    Decimal.parseInt_formatInt (by omega) (by omega)
  refine ⟨?_, by rw [marshal, floatInt_floatBits hlo hhi]⟩
  show (Decimal.parseInt 64 _).map floatBits = _
  rw [hparse]
  rfl

theorem faithful : go.FaithfulJson where
  bool b := congrArg some (by rw [marshal])
  int i := congrArg some (by rw [marshal])
  float i hlo hhi := ⟨_, (marshal_float hlo hhi).1, congrArg some (marshal_float hlo hhi).2⟩
  str s _ := by
    refine ⟨_, congrArg some (by rw [marshal, quote]), ?_⟩
    show (unquote false (s.flatMap escape ++ [34])).map Prod.fst = some s
    rw [unquote_escape]
    rfl
  obj fields hkeys _ := by
    obtain ⟨raws, hread, hperm⟩ := objectFields_objectText (marshalFields fields)
    have hraws : ((marshalFields fields).map Prod.fst).Nodup := by
      rw [marshalFields_eq, map_map]
      exact hkeys
    refine ⟨_, raws, congrArg some (by rw [marshal]), ?_, hread, fun key => ?_⟩
    · rw [objectText, head?_cons]
      decide
    · rw [← lookup_perm hperm hraws, lookup_marshalFields]
      exact Option.map_eq_bind

end GoAds.Codec.JsonText
