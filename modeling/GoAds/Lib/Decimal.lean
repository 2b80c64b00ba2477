import Mathlib.Data.Nat.Digits.Defs
import Mathlib.Tactic.IntervalCases
import Mathlib.Tactic.Ring

/-!
# `Lib.Decimal` — decimal text as bytes

Numbers to ASCII digits and back, with a sign for integers, and parsers that check a width in bits.
-/

namespace Decimal

open List

/-- The digits of a number, most significant first. -/
def format (n : Nat) : List UInt8 :=
  if n = 0 then [48] else (Nat.digits 10 n).reverse.map fun d => UInt8.ofNat (48 + d)

/-- The same with a sign in front of negative numbers. -/
def formatInt : Int → List UInt8
  | .ofNat n => format n
  | .negSucc n => 45 :: format (n + 1)

def digitValue (b : UInt8) : Option Nat :=
  if 48 ≤ b.toNat ∧ b.toNat ≤ 57 then some (b.toNat - 48) else none

/-- Reads digits behind those that make `acc`. -/
def parseDigits : Nat → List UInt8 → Option Nat
  | acc, [] => some acc
  | acc, b :: bs =>
    match digitValue b with
    | none => none
    | some d => parseDigits (acc * 10 + d) bs

/-- Reads a non-empty sequence of digits. -/
def parse : List UInt8 → Option Nat
  | [] => none
  | b :: bs => parseDigits 0 (b :: bs)

theorem digitValue_digit {d} (h : d < 10) : digitValue (UInt8.ofNat (48 + d)) = some d := by
  have hd : (UInt8.ofNat (48 + d)).toNat = 48 + d :=
    UInt8.toNat_ofNat_of_lt' (show 48 + d < 256 by omega)
  unfold digitValue
  rw [hd, if_pos (by omega), Nat.add_sub_cancel_left]

theorem parseDigits_map {ds : List Nat} (h : ∀ d ∈ ds, d < 10) (acc : Nat) :
    parseDigits acc (ds.map fun d => UInt8.ofNat (48 + d)) =
      some (ds.foldl (fun a d => a * 10 + d) acc) := by
  induction ds generalizing acc with
  | nil => rfl
  | cons d ds ih =>
    rw [map_cons, parseDigits, digitValue_digit (h d (mem_cons_self ..))]
    exact ih (fun d' hd' => h d' (mem_cons_of_mem d hd')) _

theorem foldl_reverse_digits (n : Nat) : (Nat.digits 10 n).reverse.foldl (fun a d => a * 10 + d) 0 = n := by
  rw [foldl_reverse]
  have h := Nat.ofDigits_digits 10 n
  rw [Nat.ofDigits_eq_foldr] at h
  refine Eq.trans ?_ h
  congr 1
  funext d a
  rw [Nat.add_comm, Nat.mul_comm, Nat.cast_id]

theorem format_ne_nil (n : Nat) : format n ≠ [] := by
  unfold format
  split
  · exact cons_ne_nil _ _
  next hn =>
  rw [Ne, map_eq_nil_iff, reverse_eq_nil_iff, Nat.digits_eq_nil_iff_eq_zero]
  exact hn

theorem digit_of_mem_format {n : Nat} {b : UInt8} (hb : b ∈ format n) : 48 ≤ b ∧ b ≤ 57 := by
  have hdigit : ∃ d, d < 10 ∧ b = UInt8.ofNat (48 + d) := by
    unfold format at hb
    split at hb
    · exact ⟨0, by decide, mem_singleton.1 hb⟩
    · obtain ⟨d, hd, rfl⟩ := mem_map.1 hb
      exact ⟨d, Nat.digits_lt_base (by decide) (mem_reverse.1 hd), rfl⟩
  obtain ⟨d, hd, rfl⟩ := hdigit
  interval_cases d <;> decide

@[simp] theorem parse_format (n : Nat) : parse (format n) = some n := by
  have hdigits : parseDigits 0 (format n) = some n := by
    unfold format
    split
    · next hn =>
      subst hn
      rfl
    rw [parseDigits_map, foldl_reverse_digits]
    intro d hd
    exact Nat.digits_lt_base (by decide) (mem_reverse.1 hd)
  obtain ⟨b, bs, hb⟩ := exists_cons_of_ne_nil (format_ne_nil n)
  rw [hb] at hdigits ⊢
  exact hdigits

/-! ## Signs and widths -/

/-- What is wrong with a number. -/
inductive NumErr
  | notANumber | outOfRange

/-- Reads an unsigned number of at most `bits` bits. -/
def parseUint (bits : Nat) (text : List UInt8) : Except NumErr Nat :=
  match parse text with
  | none => .error .notANumber
  | some n => if n < 2 ^ bits then .ok n else .error .outOfRange

/-- The sign in front of a number, and the number behind it. -/
def splitSign : List UInt8 → Bool × List UInt8
  | 45 :: rest => (true, rest)
  | 43 :: rest => (false, rest)
  | rest => (false, rest)

/-- Reads a number of at most `bits` bits with an optional sign. -/
def parseInt (bits : Nat) (text : List UInt8) : Except NumErr Int :=
  match parse (splitSign text).2 with
  | none => .error .notANumber
  | some n =>
    if (splitSign text).1 then
      if n ≤ 2 ^ (bits - 1) then .ok (-n) else .error .outOfRange
    else if n < 2 ^ (bits - 1) then .ok n else .error .outOfRange

theorem parseUint_format {bits n} (h : n < 2 ^ bits) : parseUint bits (format n) = .ok n := by
  unfold parseUint
  rw [parse_format]
  exact if_pos h

/-- A number starts with a digit or a minus sign. -/
theorem head_formatInt (i : Int) : ∃ b rest, formatInt i = b :: rest ∧ (b = 45 ∨ 48 ≤ b ∧ b ≤ 57) := by
  cases i with
  | ofNat n =>
    obtain ⟨b, rest, hb⟩ := exists_cons_of_ne_nil (format_ne_nil n)
    refine ⟨b, rest, hb, .inr (digit_of_mem_format (n := n) ?_)⟩
    rw [hb]
    exact mem_cons_self ..
  | negSucc n => exact ⟨45, format (n + 1), rfl, .inl rfl⟩

/-- A sign is no digit, so digits do not start with one. -/
theorem splitSign_format (n : Nat) : splitSign (format n) = (false, format n) := by
  have h := parse_format n
  unfold splitSign
  split
  · next rest heq =>
    rw [heq] at h
    cases h
  · next rest heq =>
    rw [heq] at h
    cases h
  · rfl

theorem parseInt_formatInt {bits i} (hlo : -2 ^ (bits - 1) ≤ i)
    (hhi : i < 2 ^ (bits - 1)) : parseInt bits (formatInt i) = .ok i := by
  cases i with
  | ofNat n =>
    have hn : n < 2 ^ (bits - 1) := by
      have h : (n : Int) < 2 ^ (bits - 1) := hhi
      exact_mod_cast h
    unfold parseInt
    rw [formatInt, splitSign_format, parse_format]
    exact if_pos hn
  | negSucc n =>
    have hn : n + 1 ≤ 2 ^ (bits - 1) := by
      have h : -(2 ^ (bits - 1) : Int) ≤ -((n : Int) + 1) := hlo
      have h' : (n : Int) + 1 ≤ 2 ^ (bits - 1) := Int.neg_le_neg_iff.1 h
      exact_mod_cast h'
    have hsign : splitSign (formatInt (.negSucc n)) = (true, format (n + 1)) := rfl
    unfold parseInt
    rw [hsign, parse_format]
    exact if_pos hn

theorem formatInt_injective : Function.Injective formatInt := by
  intro i j h
  -- a width that both fit in
  have hi : i.natAbs < 2 ^ (max i.natAbs j.natAbs) :=
    Nat.lt_of_le_of_lt (Nat.le_max_left ..) Nat.lt_two_pow_self
  have hj : j.natAbs < 2 ^ (max i.natAbs j.natAbs) :=
    Nat.lt_of_le_of_lt (Nat.le_max_right ..) Nat.lt_two_pow_self
  have hread : ∀ k : Int, k.natAbs < 2 ^ (max i.natAbs j.natAbs) →
      parseInt (max i.natAbs j.natAbs + 1) (formatInt k) = .ok k := by
    intro k hk
    have hk' : (k.natAbs : Int) < 2 ^ (max i.natAbs j.natAbs) := by exact_mod_cast hk
    apply parseInt_formatInt
    · rw [Nat.add_sub_cancel]
      omega
    · rw [Nat.add_sub_cancel]
      omega
  have hparse := hread i hi
  rw [h, hread j hj] at hparse
  exact (Except.ok.inj hparse).symm

theorem comma_not_mem_formatInt (i : Int) : 44 ∉ formatInt i := by
  have hdigits : ∀ n, 44 ∉ format n := by
    intro n h
    exact absurd (digit_of_mem_format h).1 (by decide)
  cases i with
  | ofNat n => exact hdigits n
  | negSucc =>
    intro h
    rcases mem_cons.1 h with h | h
    · exact absurd h (by decide)
    · exact hdigits _ h

end Decimal
