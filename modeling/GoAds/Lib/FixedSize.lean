import GoAds.Lib.LittleEndian
import Mathlib.Tactic.Ring

/-!
# `Lib.FixedSize` — values that take a fixed number of bytes

A `FixedSize α` is a way to write a value of `α` as exactly `size` bytes and to read it back.  It carries
its two laws: what is written is read again, whatever follows it, and bytes that are read are written
again.  Words, byte arrays, pairs and records made of them are of this kind, so a record's wire layout is
given by listing its fields.

`FixedSize.read` takes a value from the front of a buffer, or fails when the buffer is too short.
-/

open LittleEndian

/-- Values of `α` as strings of exactly `size` bytes. -/
structure FixedSize (α : Type) where
  size : Nat
  put : α → List UInt8
  get : List UInt8 → α
  length_put : ∀ x, (put x).length = size
  get_put : ∀ x bs, get (put x ++ bs) = x
  put_get : ∀ bs, size ≤ bs.length → put (get bs) = bs.take size

namespace FixedSize

variable {α β : Type}

/-! ## Layouts -/

/-- A number of `w` bytes, least significant first. -/
def word (w : Nat) (toNat : α → Nat) (ofNat : Nat → α) (hlt : ∀ x, toNat x < 256 ^ w)
    (hof : ∀ x, ofNat (toNat x) = x) (hto : ∀ n < 256 ^ w, toNat (ofNat n) = n) : FixedSize α where
  size := w
  put x := encode w (toNat x)
  get bs := ofNat (decode (bs.take w))
  length_put x := length_encode w _
  get_put x bs := by
    rw [List.take_left' (length_encode w _), decode_encode_of_lt (hlt x), hof]
  put_get bs h := by
    have hlen : (bs.take w).length = w := List.length_take_of_le h
    have hdec : decode (bs.take w) < 256 ^ w := by
      have := decode_lt (bs.take w)
      rwa [hlen] at this
    rw [hto _ hdec]
    have henc := encode_decode (bs.take w)
    rwa [hlen] at henc

def uint8 : FixedSize UInt8 :=
  word 1 UInt8.toNat UInt8.ofNat (fun x => x.toNat_lt) (fun _ => UInt8.ofNat_toNat)
    fun _ h => UInt8.toNat_ofNat_of_lt' h

def uint16 : FixedSize UInt16 :=
  word 2 UInt16.toNat UInt16.ofNat (fun x => x.toNat_lt) (fun _ => UInt16.ofNat_toNat)
    fun _ h => UInt16.toNat_ofNat_of_lt' h

def uint32 : FixedSize UInt32 :=
  word 4 UInt32.toNat UInt32.ofNat (fun x => x.toNat_lt) (fun _ => UInt32.ofNat_toNat)
    fun _ h => UInt32.toNat_ofNat_of_lt' h

def uint64 : FixedSize UInt64 :=
  word 8 UInt64.toNat UInt64.ofNat (fun x => x.toNat_lt) (fun _ => UInt64.ofNat_toNat)
    fun _ h => UInt64.toNat_ofNat_of_lt' h

/-- An array of `n` bytes. -/
def bytes (n : Nat) : FixedSize (Vector UInt8 n) where
  size := n
  put v := v.toList
  get bs := Vector.ofFn fun i => bs.getD i 0
  length_put v := v.length_toList
  get_put v bs := by
    apply Vector.ext
    intro i hi
    have hi' : i < v.toList.length := by simpa using hi
    simp [List.getElem?_append_left hi', hi]
  put_get bs h := by
    apply List.ext_getElem
    · simp [h]
    intro i hi _
    have hi' : i < bs.length := by
      have : i < n := by simpa using hi
      omega
    simp [hi']

/-- Two values, one after the other. -/
def pair (A : FixedSize α) (B : FixedSize β) : FixedSize (α × β) where
  size := A.size + B.size
  put x := A.put x.1 ++ B.put x.2
  get bs := (A.get bs, B.get (bs.drop A.size))
  length_put x := by rw [List.length_append, A.length_put, B.length_put]
  get_put x bs := by
    rw [List.append_assoc, A.get_put, List.drop_left' (A.length_put x.1), B.get_put]
  put_get bs h := by
    have hB : B.size ≤ (bs.drop A.size).length := by
      rw [List.length_drop]
      omega
    rw [A.put_get bs (by omega), B.put_get _ hB, List.take_add]

/-- A record with the fields of `A`. -/
def record (A : FixedSize α) (mk : α → β) (fields : β → α) (hmk : ∀ b, mk (fields b) = b)
    (hfields : ∀ a, fields (mk a) = a) : FixedSize β where
  size := A.size
  put b := A.put (fields b)
  get bs := mk (A.get bs)
  length_put b := A.length_put _
  get_put b bs := by rw [A.get_put, hmk]
  put_get bs h := by rw [hfields, A.put_get bs h]

/-! ## Reading from a buffer -/

/-- The value at the front of the buffer and what follows it; nothing when the buffer is too short. -/
def read (A : FixedSize α) (bs : List UInt8) : Option (α × List UInt8) :=
  if bs.length < A.size then none else some (A.get bs, bs.drop A.size)

theorem read_put_append (A : FixedSize α) (x : α) (bs : List UInt8) :
    A.read (A.put x ++ bs) = some (x, bs) := by
  have hlen : ¬ (A.put x ++ bs).length < A.size := by
    rw [List.length_append, A.length_put]
    omega
  rw [read, if_neg hlen, A.get_put, List.drop_left' (A.length_put x)]

/-- A value that is read stands in the buffer as it would be written. -/
theorem read_eq_some {A : FixedSize α} {bs rest : List UInt8} {x : α} :
    A.read bs = some (x, rest) ↔ bs = A.put x ++ rest := by
  constructor
  · intro h
    unfold read at h
    split at h
    · cases h
    next hlen =>
    cases h
    rw [A.put_get bs (by omega), List.take_append_drop]
  · rintro rfl
    exact A.read_put_append x rest

end FixedSize
