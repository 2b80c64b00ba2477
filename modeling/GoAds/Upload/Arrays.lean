import GoAds.Codec.Scalar
import GoAds.Lib.Keyed
import GoAds.Lib.Odometer
import Mathlib.Data.List.Induction

/-!
# `Upload.Arrays` — the elements of an array type

The PLC describes an array by its size and by the lower bound and the number of elements of every
dimension.  `makeArrayChildren` makes one member for every element: it counts through the indices with
the last one fastest, names each element as the PLC does, and gives it the next piece of the array.

The indices of the source are an odometer (`Lib.Odometer`) whose dials are the dimensions.
-/

namespace GoAds.Upload

open Codec Odometer List

/-! ## Datatypes -/

structure DatatypeEntry where
  entryLength : UInt32 := 0
  version : UInt32 := 0
  hashValue : UInt32 := 0
  typeHashValue : UInt32 := 0
  size : UInt32 := 0
  offs : UInt32 := 0
  dataType : UInt32 := 0
  flags : UInt32 := 0
  nameLength : UInt16 := 0
  typeLength : UInt16 := 0
  commentLength : UInt16 := 0
  arrayDim : UInt16 := 0
  subItems : UInt16 := 0

/-- The fields of `SymbolUploadDataType` without its members. -/
structure TypeInfo where
  datatypeEntry : DatatypeEntry
  name : Text
  dataType : Text
  comment : Text

/-- `SymbolUploadDataType`.  `Children` is a map by names; one that is nil is empty here. -/
inductive SymbolUploadDataType
  | mk (info : TypeInfo) (children : List SymbolUploadDataType)

namespace SymbolUploadDataType

def info : SymbolUploadDataType → TypeInfo
  | mk info _ => info

def children : SymbolUploadDataType → List SymbolUploadDataType
  | mk _ children => children

variable (t : SymbolUploadDataType)

def name : Text := t.info.name

def offs : UInt32 := t.info.datatypeEntry.offs

def size : UInt32 := t.info.datatypeEntry.size

end SymbolUploadDataType

/-! ## The elements -/

structure DatatypeArrayInfo where
  lBound : UInt32
  elements : UInt32

/-- The lower bound is a DINT on the wire. -/
def DatatypeArrayInfo.lower (level : DatatypeArrayInfo) : Int := level.lBound.toInt32.toInt

def maxArrayElements : Nat := 1000000

/-- The loop over the dimensions: the number of elements, if they are accepted.  It is at most
    `maxArrayElements` before every product, so no product overflows. -/
def checkLevels : (total : Nat) → List DatatypeArrayInfo → Option Nat
  | total, [] => some total
  | total, level :: levels =>
    if level.elements = 0 then none
    else if level.lower + level.elements.toNat - 1 > 2 ^ 31 - 1 then none
    else if total * level.elements.toNat > maxArrayElements then none
    else checkLevels (total * level.elements.toNat) levels

/-- The name of an element: `[i,j]`. -/
def elementName (idx : List Int) : Text :=
  lit "[" ++ intercalate (lit ",") (idx.map Decimal.formatInt) ++ lit "]"

/-- The element of number `n`. -/
def arrayElement (dt : Text) (elemSize : UInt32) (n : Nat) (idx : List Int) : SymbolUploadDataType :=
  .mk { datatypeEntry := { offs := UInt32.ofNat n * elemSize, size := elemSize }
        name := elementName idx
        dataType := dt
        comment := [] } []

/-- The inner loop, from dimension `d - 1` to the first: it ends at one that has a next index. -/
def nextIndex (levels : List DatatypeArrayInfo) : (d : Nat) → (idx : List Int) → List Int
  | 0, idx => idx
  | d + 1, idx =>
    let level := levels.getD d ⟨0, 0⟩
    let i := idx.getD d 0 + 1
    if i < level.lower + level.elements.toNat then idx.set d i
    else nextIndex levels d (idx.set d level.lower)

/-- The loop over the elements, from number `n` on. -/
def arrayLoop (levels : List DatatypeArrayInfo) (dt : Text) (elemSize : UInt32) :
    (left n : Nat) → (idx : List Int) → List SymbolUploadDataType → List SymbolUploadDataType
  | 0, _, _, children => children
  | left + 1, n, idx, children =>
    arrayLoop levels dt elemSize left (n + 1) (nextIndex levels levels.length idx)
      (Keyed.store SymbolUploadDataType.name (arrayElement dt elemSize n idx) children)

def makeArrayChildren (levels : List DatatypeArrayInfo) (dt : Text) (size : UInt32) :
    List SymbolUploadDataType :=
  if levels.length < 1 then []
  else
    match checkLevels 1 levels with
    | none => []
    | some total =>
      arrayLoop levels dt (size / UInt32.ofNat total) total 0 (levels.map DatatypeArrayInfo.lower) []

/-! ## The dimensions as an odometer -/

/-- The dimensions as dials. -/
def dials (levels : List DatatypeArrayInfo) : List Dial :=
  levels.map fun level => ⟨level.lower, level.elements.toNat⟩

/-- What `makeArrayChildren` accepts: elements in every dimension, upper bounds within DINT, and not too
    many elements in all. -/
structure Accepted (levels : List DatatypeArrayInfo) : Prop where
  dimensions : levels ≠ []
  elements : ∀ level ∈ levels, 0 < level.elements.toNat
  upper : ∀ level ∈ levels, level.lower + level.elements.toNat - 1 ≤ 2 ^ 31 - 1
  total : capacity (dials levels) ≤ maxArrayElements

variable {levels : List DatatypeArrayInfo} {dt : Text} {size : UInt32}

theorem dial_pos (h : Accepted levels) : ∀ d ∈ dials levels, 0 < d.count := by
  intro d hd
  obtain ⟨level, hlevel, rfl⟩ := mem_map.1 hd
  exact h.elements level hlevel

theorem capacity_pos {ds} (h : ∀ d ∈ ds, 0 < d.count) : 0 < capacity ds :=
  Nat.zero_lt_of_lt (rank_lt (shows_start h))

/-- The check passes on what is accepted, whatever number of elements the dimensions before had. -/
theorem checkLevels_of_le {total} (hpos : ∀ level ∈ levels, 0 < level.elements.toNat)
    (hupper : ∀ level ∈ levels, level.lower + level.elements.toNat - 1 ≤ 2 ^ 31 - 1)
    (htotal : total * capacity (dials levels) ≤ maxArrayElements) :
    checkLevels total levels = some (total * capacity (dials levels)) := by
  induction levels generalizing total with
  | nil => simp [checkLevels, dials]
  | cons level levels ih =>
    have helements : level.elements ≠ 0 := by
      intro h
      have hlt := hpos level (mem_cons_self ..)
      rw [h] at hlt
      exact absurd hlt (by decide)
    have hbound : ¬ level.lower + level.elements.toNat - 1 > 2 ^ 31 - 1 := by
      have hle := hupper level (mem_cons_self ..)
      omega
    have hcapacity : total * capacity (dials (level :: levels)) =
        total * level.elements.toNat * capacity (dials levels) := by
      show total * capacity (⟨level.lower, level.elements.toNat⟩ :: dials levels) = _
      rw [capacity_cons, Nat.mul_assoc]
    have hrest : 0 < capacity (dials levels) := by
      apply capacity_pos
      intro d hd
      obtain ⟨l, hl, rfl⟩ := mem_map.1 hd
      exact hpos l (mem_cons_of_mem level hl)
    rw [hcapacity] at htotal ⊢
    have hproduct : ¬ total * level.elements.toNat > maxArrayElements := by
      have hle := Nat.le_mul_of_pos_right (total * level.elements.toNat) hrest
      omega
    rw [checkLevels, if_neg helements, if_neg hbound, if_neg hproduct]
    apply ih
    · exact fun l hl => hpos l (mem_cons_of_mem level hl)
    · exact fun l hl => hupper l (mem_cons_of_mem level hl)
    · exact htotal

theorem nextIndex_append (front back : List DatatypeArrayInfo) (is js : List Int)
    (h : front.length = is.length) :
    nextIndex (front ++ back) front.length (is ++ js) = (tick (dials front) is).2 ++ js := by
  induction front using reverseRecOn generalizing back is js with
  | nil =>
    obtain rfl : is = [] := length_eq_zero_iff.1 h.symm
    rfl
  | append_singleton front level ih =>
    obtain ⟨is, i, rfl⟩ : ∃ is' i, is = is' ++ [i] := by
      rcases eq_nil_or_concat' is with rfl | hconcat
      · simp at h
      · exact hconcat
    have hlen : front.length = is.length := by simpa using h
    have hlen' : (dials front).length = is.length := by rw [dials, length_map, hlen]
    have hlevel : (front ++ [level] ++ back).getD front.length ⟨0, 0⟩ = level := by simp
    have hindex : (is ++ [i] ++ js).getD front.length 0 = i := by simp [hlen]
    have hset : ∀ x, (is ++ [i] ++ js).set front.length x = is ++ x :: js := by
      intro x
      simp [hlen]
    have hdials : dials (front ++ [level]) = dials front ++ [⟨level.lower, level.elements.toNat⟩] := by
      simp [dials]
    rw [length_append, length_singleton, nextIndex, hlevel, hindex, hset, hset, hdials, tick_concat hlen']
    by_cases hnext : i + 1 < level.lower + level.elements.toNat
    · rw [if_pos hnext, if_pos hnext, append_assoc, singleton_append]
    rw [if_neg hnext, if_neg hnext, append_assoc, singleton_append, append_assoc, singleton_append]
    exact ih (level :: back) is (level.lower :: js) hlen

theorem nextIndex_eq_tick {idx} (h : levels.length = idx.length) :
    nextIndex levels levels.length idx = (tick (dials levels) idx).2 := by
  have := nextIndex_append levels [] idx [] h
  rwa [append_nil, append_nil, append_nil] at this

/-! ## Names -/

/-- The parts of a joined text can be told if none is empty or has the separator in it. -/
theorem intercalate_injective {parts parts'} (h : ∀ l ∈ parts, l ≠ [] ∧ 44 ∉ l)
    (h' : ∀ l ∈ parts', l ≠ [] ∧ 44 ∉ l)
    (heq : intercalate (lit ",") parts = intercalate (lit ",") parts') : parts = parts' := by
  have hnil : ∀ {ls : List Text}, (∀ l ∈ ls, l ≠ [] ∧ 44 ∉ l) →
      intercalate (lit ",") ls = [] → ls = [] := by
    intro ls hls hjoin
    by_contra hne
    have hsplit := splitOn_intercalate (44 : UInt8) (fun l hl => (hls l hl).2) hne
    have hjoin' : intercalate [(44 : UInt8)] ls = [] := hjoin
    rw [hjoin'] at hsplit
    -- the empty text has one part, the empty one
    have hempty : ([] : Text) ∈ ls := by
      rw [← hsplit]
      simp
    exact (hls [] hempty).1 rfl
  by_cases hparts : parts = []
  · rw [hparts] at heq
    rw [hparts, hnil h' heq.symm]
  have hparts' : parts' ≠ [] := by
    rintro rfl
    exact hparts (hnil h heq)
  rw [← splitOn_intercalate (44 : UInt8) (fun l hl => (h l hl).2) hparts,
    ← splitOn_intercalate (44 : UInt8) (fun l hl => (h' l hl).2) hparts']
  exact congrArg (List.splitOn 44) heq

theorem numbers_plain (idx : List Int) : ∀ l ∈ idx.map Decimal.formatInt, l ≠ [] ∧ 44 ∉ l := by
  intro l hl
  obtain ⟨i, -, rfl⟩ := mem_map.1 hl
  obtain ⟨b, rest, hb, -⟩ := Decimal.head_formatInt i
  refine ⟨?_, Decimal.comma_not_mem_formatInt i⟩
  rw [hb]
  exact cons_ne_nil _ _

theorem elementName_injective : Function.Injective elementName := by
  intro idx idx' h
  have hjoin : intercalate (lit ",") (idx.map Decimal.formatInt) =
      intercalate (lit ",") (idx'.map Decimal.formatInt) := by
    unfold elementName at h
    rw [append_assoc, append_assoc] at h
    exact append_cancel_right (append_cancel_left h)
  apply map_injective_iff.2 Decimal.formatInt_injective
  exact intercalate_injective (numbers_plain idx) (numbers_plain idx') hjoin

/-! ## The loop -/

/-- The element of number `n`, with the indices that the odometer then shows. -/
def elementAt (levels : List DatatypeArrayInfo) (dt : Text) (elemSize : UInt32) (n : Nat) :
    SymbolUploadDataType :=
  arrayElement dt elemSize n (reading (dials levels) n)

theorem name_elementAt_injective (hpos : ∀ d ∈ dials levels, 0 < d.count) {elemSize m n}
    (hm : m < capacity (dials levels)) (hn : n < capacity (dials levels))
    (h : (elementAt levels dt elemSize m).name = (elementAt levels dt elemSize n).name) : m = n := by
  have hreading : reading (dials levels) m = reading (dials levels) n := elementName_injective h
  rw [← rank_reading hpos hm, ← rank_reading hpos hn, hreading]

/-- The loop from element `n` on, with the elements before it in the map, leaves them all there. -/
theorem arrayLoop_eq (hpos : ∀ d ∈ dials levels, 0 < d.count) {elemSize left n}
    (hleft : n + left = capacity (dials levels)) :
    arrayLoop levels dt elemSize left n (reading (dials levels) n)
        ((range n).map (elementAt levels dt elemSize)) =
      (range (capacity (dials levels))).map (elementAt levels dt elemSize) := by
  induction left generalizing n with
  | zero =>
    rw [arrayLoop, ← hleft, Nat.add_zero]
  | succ left ih =>
    -- no element before has the name of this one
    have hnew : (elementAt levels dt elemSize n).name ∉
        ((range n).map (elementAt levels dt elemSize)).map SymbolUploadDataType.name := by
      intro hmem
      rw [map_map] at hmem
      obtain ⟨m, hm, hname⟩ := mem_map.1 hmem
      have hlt : m < n := mem_range.1 hm
      have heq := name_elementAt_injective hpos (by omega) (by omega) hname
      omega
    have hlen : levels.length = (reading (dials levels) n).length := by
      rw [← (shows_reading hpos n).length_eq, dials, length_map]
    have hstore : Keyed.store SymbolUploadDataType.name
        (arrayElement dt elemSize n (reading (dials levels) n))
        ((range n).map (elementAt levels dt elemSize)) =
        (range (n + 1)).map (elementAt levels dt elemSize) := by
      rw [range_succ, map_append, map_singleton]
      exact Keyed.store_of_new hnew
    rw [arrayLoop, nextIndex_eq_tick hlen, hstore]
    exact ih (by omega)

/-- The members of an accepted array are its elements in the order of their ranks. -/
theorem makeArrayChildren_eq (h : Accepted levels) : makeArrayChildren levels dt size =
      (range (capacity (dials levels))).map
        (elementAt levels dt (size / UInt32.ofNat (capacity (dials levels)))) := by
  have hlen : ¬ levels.length < 1 := by
    have := length_pos_of_ne_nil h.dimensions
    omega
  have hcheck : checkLevels 1 levels = some (capacity (dials levels)) := by
    have htotal : 1 * capacity (dials levels) ≤ maxArrayElements := by
      rw [Nat.one_mul]
      exact h.total
    rw [checkLevels_of_le h.elements h.upper htotal, Nat.one_mul]
  have hstart : levels.map DatatypeArrayInfo.lower = reading (dials levels) 0 := by
    show _ = (dials levels).map Dial.low
    rw [dials, map_map]
    rfl
  rw [makeArrayChildren, if_neg hlen, hcheck]
  show arrayLoop levels dt _ _ 0 _ [] = _
  rw [hstart]
  exact arrayLoop_eq (dial_pos h) (Nat.zero_add _)

/-! ## The layout -/

/-- A byte of the array belongs to the member. -/
def SymbolUploadDataType.Has (t : SymbolUploadDataType) (k : Nat) : Prop :=
  t.offs.toNat ≤ k ∧ k < t.offs.toNat + t.size.toNat

/-- **The members are the elements of the array**: one for every index tuple, under its own name, at the
    place that its rank gives it. -/
structure LaidOut (levels : List DatatypeArrayInfo) (dt : Text) (size : UInt32)
    (children : List SymbolUploadDataType) : Prop where
  keys : (children.map SymbolUploadDataType.name).Nodup
  element : ∀ idx, Shows (dials levels) idx → ∃ c ∈ children, c.name = elementName idx ∧
    c.info.dataType = dt ∧
    c.offs.toNat = rank (dials levels) idx * (size.toNat / capacity (dials levels)) ∧
    c.size.toNat = size.toNat / capacity (dials levels)
  only : ∀ c ∈ children, ∃ idx, Shows (dials levels) idx ∧ c.name = elementName idx
  count : children.length = capacity (dials levels)
  names : ∀ idx idx', Shows (dials levels) idx → Shows (dials levels) idx' →
    elementName idx = elementName idx' → idx = idx'
  disjoint : children.Pairwise fun a b => ∀ k, ¬(a.Has k ∧ b.Has k)
  inside : ∀ c ∈ children, c.offs.toNat + c.size.toNat ≤ size.toNat

theorem toNat_elemSize (h : Accepted levels) :
    (size / UInt32.ofNat (capacity (dials levels))).toNat = size.toNat / capacity (dials levels) := by
  have htotal := h.total
  have hlt : capacity (dials levels) < 2 ^ 32 := by
    unfold maxArrayElements at htotal
    omega
  rw [UInt32.toNat_div, UInt32.toNat_ofNat_of_lt' hlt]

theorem piece_le {n total} (hn : n < total) : n * (size.toNat / total) + size.toNat / total ≤ size.toNat := by
  calc n * (size.toNat / total) + size.toNat / total
    _ = (n + 1) * (size.toNat / total) := by ring
    _ ≤ total * (size.toNat / total) := Nat.mul_le_mul_right _ hn
    _ ≤ size.toNat := Nat.mul_div_le _ _

theorem toNat_offs_elementAt (h : Accepted levels) {n} (hn : n < capacity (dials levels)) :
    (elementAt levels dt (size / UInt32.ofNat (capacity (dials levels))) n).offs.toNat =
      n * (size.toNat / capacity (dials levels)) := by
  have htotal := h.total
  have hsize : size.toNat < 2 ^ 32 := size.toNat_lt
  have hpiece : n * (size.toNat / capacity (dials levels)) ≤ size.toNat :=
    Nat.le_trans (Nat.le_add_right _ _) (piece_le hn)
  have hlt : n < 2 ^ 32 := by
    unfold maxArrayElements at htotal
    omega
  show (UInt32.ofNat n * (size / UInt32.ofNat (capacity (dials levels)))).toNat = _
  rw [UInt32.toNat_mul, toNat_elemSize h, UInt32.toNat_ofNat_of_lt' hlt]
  exact Nat.mod_eq_of_lt (Nat.lt_of_le_of_lt hpiece hsize)

/-- **`makeArrayChildren` lays an accepted array out.** -/
theorem makeArrayChildren_laidOut (dt : Text) (size : UInt32) (h : Accepted levels) :
    LaidOut levels dt size (makeArrayChildren levels dt size) := by
  have hpos := dial_pos h
  rw [makeArrayChildren_eq h]
  refine ⟨?_, ?_, ?_, ?_, ?_, ?_, ?_⟩
  · rw [map_map]
    apply Nodup.map_on _ nodup_range
    intro m hm n hn heq
    exact name_elementAt_injective hpos (mem_range.1 hm) (mem_range.1 hn) heq
  · intro idx hidx
    refine ⟨_, mem_map.2 ⟨_, mem_range.2 (rank_lt hidx), rfl⟩, ?_, rfl, ?_, ?_⟩
    · show elementName (reading (dials levels) (rank (dials levels) idx)) = _
      rw [reading_rank hpos hidx]
    · exact toNat_offs_elementAt h (rank_lt hidx)
    · exact toNat_elemSize h
  · intro c hc
    obtain ⟨n, -, rfl⟩ := mem_map.1 hc
    exact ⟨_, shows_reading hpos n, rfl⟩
  · rw [length_map, length_range]
  · intro idx idx' _ _ heq
    exact elementName_injective heq
  · -- an element ends where the next one starts, or before
    rw [pairwise_map]
    refine pairwise_lt_range.imp_of_mem ?_
    rintro m n hm hn hlt k ⟨⟨-, hend⟩, hstart, -⟩
    rw [toNat_offs_elementAt h (mem_range.1 hm)] at hend
    rw [toNat_offs_elementAt h (mem_range.1 hn)] at hstart
    have hsize : (elementAt levels dt (size / UInt32.ofNat (capacity (dials levels))) m).size.toNat =
        size.toNat / capacity (dials levels) := toNat_elemSize h
    have hstep : (m + 1) * (size.toNat / capacity (dials levels)) ≤
        n * (size.toNat / capacity (dials levels)) := Nat.mul_le_mul_right _ hlt
    rw [Nat.add_mul, Nat.one_mul] at hstep
    omega
  · intro c hc
    obtain ⟨n, hn, rfl⟩ := mem_map.1 hc
    rw [toNat_offs_elementAt h (mem_range.1 hn)]
    show _ + (size / UInt32.ofNat (capacity (dials levels))).toNat ≤ _
    rw [toNat_elemSize h]
    exact piece_le (mem_range.1 hn)

/-- `ARRAY[-1..0, 5..7] OF INT`. -/
theorem makeArrayChildren_laidOut_negative : LaidOut [⟨0xFFFFFFFF, 2⟩, ⟨5, 3⟩] (lit "INT") 12
      (makeArrayChildren [⟨0xFFFFFFFF, 2⟩, ⟨5, 3⟩] (lit "INT") 12) := by
  apply makeArrayChildren_laidOut
  exact ⟨by decide, by decide, by decide, by decide⟩

end GoAds.Upload
