import GoAds.Lib.LittleEndian

/-!
# `Lib.Slices` — slice expressions that check their bounds

`xs[lo:hi]` is there when `lo ≤ hi ≤ len(xs)`; otherwise the program stops.  A computation whose slices
are all written with these functions yields nothing exactly when one of them is out of range.
-/

namespace Slices

open LittleEndian

variable {α : Type*}

/-- `xs[lo:hi]`. -/
def slice (xs : List α) (lo hi : Nat) : Option (List α) :=
  if lo ≤ hi ∧ hi ≤ xs.length then some ((xs.drop lo).take (hi - lo)) else none

variable {bs : List UInt8} {xs : List α} {hi lo : Nat}

theorem slice_of_le (h : lo ≤ hi) (h' : hi ≤ xs.length) :
    slice xs lo hi = some ((xs.drop lo).take (hi - lo)) :=
  if_pos ⟨h, h'⟩

theorem slice_of_lt (h : hi < lo) : slice xs lo hi = none :=
  if_neg fun h' => Nat.lt_irrefl _ (Nat.lt_of_lt_of_le h h'.1)

/-- `xs[lo:]`. -/
def sliceFrom (xs : List α) (lo : Nat) : Option (List α) := slice xs lo xs.length

theorem sliceFrom_of_le (h : lo ≤ xs.length) : sliceFrom xs lo = some (xs.drop lo) := by
  rw [sliceFrom, slice_of_le h (Nat.le_refl _), List.take_of_length_le (by rw [List.length_drop])]

/-- A little-endian number of `w` bytes at the front, which must be there. -/
def leading (w : Nat) (bs : List UInt8) : Option Nat :=
  if w ≤ bs.length then some (decode (bs.take w)) else none

theorem leading_of_le {w} (h : w ≤ bs.length) : leading w bs = some (decode (bs.take w)) :=
  if_pos h

/-- The four-byte word at a position. -/
def uint32At (bs : List UInt8) (i : Nat) : Option UInt32 :=
  (sliceFrom bs i).bind fun tail => (leading 4 tail).map UInt32.ofNat

theorem uint32At_of_le {i} (h : i + 4 ≤ bs.length) : uint32At bs i = some (uint32 (bs.drop i)) := by
  have hlen : 4 ≤ (bs.drop i).length := by
    rw [List.length_drop]
    omega
  rw [uint32At, sliceFrom_of_le (by omega), Option.bind_some, leading_of_le hlen]
  rfl

end Slices
