import Mathlib.Algebra.BigOperators.Group.List.Basic
import Mathlib.Tactic.Ring

/-!
# `Lib.Odometer` — counting through a product of ranges

An odometer is a list of dials, the last of which turns fastest.  A dial shows the integers of a range
that need not start at 0.  `rank` numbers what the dials can show from 0 on, and `tick` turns to the next.

The readings are exactly the numbers below `capacity`: `rank` is injective (`rank_injective`), and counting
from the start shows the reading of rank `n` after `n` ticks (`rank_reading`).
-/

namespace Odometer

open List

/-- A dial that shows `count` integers from `low` on. -/
structure Dial where
  low : Int
  count : Nat

/-- What the dials can show. -/
def Shows : List Dial → List Int → Prop :=
  Forall₂ fun d i => d.low ≤ i ∧ i < d.low + d.count

def capacity (ds : List Dial) : Nat := (ds.map Dial.count).prod

def rank : List Dial → List Int → Nat
  | d :: ds, i :: is => (i - d.low).toNat * capacity ds + rank ds is
  | _, _ => 0

def start (ds : List Dial) : List Int := ds.map Dial.low

/-- The next reading, and whether it is the first again. -/
def tick : List Dial → List Int → Bool × List Int
  | d :: ds, i :: is =>
    let (carry, js) := tick ds is
    if carry then
      if i + 1 < d.low + d.count then (false, (i + 1) :: js) else (true, d.low :: js)
    else (false, i :: js)
  | _, _ => (true, [])

variable {ds : List Dial} {d : Dial} {i j : Int} {is js : List Int}

/-! ## Ranks -/

@[simp] theorem capacity_nil : capacity [] = 1 := rfl

@[simp] theorem capacity_cons : capacity (d :: ds) = d.count * capacity ds := by
  simp [capacity]

theorem rank_lt (h : Shows ds is) : rank ds is < capacity ds := by
  induction h with
  | nil => simp [rank]
  | @cons d i ds is hi _ ih =>
    have hdigit : (i - d.low).toNat + 1 ≤ d.count := by omega
    rw [rank, capacity_cons]
    calc (i - d.low).toNat * capacity ds + rank ds is
      _ < (i - d.low).toNat * capacity ds + capacity ds := Nat.add_lt_add_left ih _
      _ = ((i - d.low).toNat + 1) * capacity ds := by ring
      _ ≤ d.count * capacity ds := Nat.mul_le_mul_right _ hdigit

/-- The quotient and the remainder by a number tell the two parts of a sum. -/
theorem parts_of_eq {a b r s n : Nat} (hr : r < n) (hs : s < n) (h : a * n + r = b * n + s) :
    a = b ∧ r = s := by
  have hn : 0 < n := by omega
  have hdiv : (a * n + r) / n = (b * n + s) / n := by rw [h]
  have hmod : (a * n + r) % n = (b * n + s) % n := by rw [h]
  rw [Nat.add_comm, Nat.add_mul_div_right _ _ hn, Nat.add_comm (b * n), Nat.add_mul_div_right _ _ hn,
    Nat.div_eq_of_lt hr, Nat.div_eq_of_lt hs] at hdiv
  rw [Nat.mul_comm, Nat.mul_add_mod, Nat.mul_comm, Nat.mul_add_mod, Nat.mod_eq_of_lt hr,
    Nat.mod_eq_of_lt hs] at hmod
  exact ⟨by omega, hmod⟩

theorem rank_injective (hi : Shows ds is) (hj : Shows ds js) (h : rank ds is = rank ds js) : is = js := by
  induction hi generalizing js with
  | nil =>
    cases hj
    rfl
  | @cons d i ds is hdigit hrest ih =>
    obtain ⟨j, js, hdigit', hrest', rfl⟩ := forall₂_cons_left_iff.1 hj
    rw [rank, rank] at h
    obtain ⟨hhead, htail⟩ := parts_of_eq (rank_lt hrest) (rank_lt hrest') h
    have hij : i = j := by omega
    rw [hij, ih hrest' htail]

theorem shows_start (h : ∀ d ∈ ds, 0 < d.count) : Shows ds (start ds) := by
  induction ds with
  | nil => exact .nil
  | cons d ds ih =>
    have hd : 0 < d.count := h d (mem_cons_self ..)
    apply Forall₂.cons
    · exact ⟨Int.le_refl _, by omega⟩
    · exact ih fun e he => h e (mem_cons_of_mem d he)

@[simp] theorem rank_start : rank ds (start ds) = 0 := by
  induction ds with
  | nil => rfl
  | cons d ds ih =>
    show (d.low - d.low).toNat * capacity ds + rank ds (start ds) = 0
    rw [ih]
    simp

/-! ## Ticks -/

/-- A tick goes to the next rank, or from the last one to the first. -/
theorem tick_spec (h : Shows ds is) : Shows ds (tick ds is).2 ∧
      if (tick ds is).1 then rank ds is + 1 = capacity ds ∧ rank ds (tick ds is).2 = 0
      else rank ds (tick ds is).2 = rank ds is + 1 := by
  induction h with
  | nil => exact ⟨.nil, by simp [tick, rank]⟩
  | @cons d i ds is hi _ ih =>
    obtain ⟨hshows, hrank⟩ := ih
    rw [tick]
    by_cases hcarry : (tick ds is).1 = true
    · rw [if_pos hcarry] at hrank
      obtain ⟨hlast, hzero⟩ := hrank
      by_cases hnext : i + 1 < d.low + d.count
      · -- the dial turns by one and those behind it start again
        have hdigit : (i + 1 - d.low).toNat = (i - d.low).toNat + 1 := by omega
        simp only [hcarry, if_true, hnext]
        refine ⟨.cons ⟨by omega, hnext⟩ hshows, ?_⟩
        simp only [Bool.false_eq_true, if_false, rank, hzero, hdigit, ← hlast]
        ring
      -- the dial is at its end as well
      have hcount : d.count = (i - d.low).toNat + 1 := by omega
      simp only [hcarry, if_true, hnext, if_false]
      refine ⟨.cons ⟨Int.le_refl _, by omega⟩ hshows, ?_, ?_⟩
      · rw [rank, capacity_cons, hcount, ← hlast]
        ring
      · simp [rank, hzero]
    · rw [if_neg hcarry] at hrank
      simp only [hcarry, Bool.false_eq_true, if_false]
      refine ⟨.cons hi hshows, ?_⟩
      rw [rank, rank, hrank, Nat.add_assoc]

/-- The last dial is the one that always turns. -/
theorem tick_concat (h : ds.length = is.length) : tick (ds ++ [d]) (is ++ [i]) =
      if i + 1 < d.low + d.count then (false, is ++ [i + 1])
      else ((tick ds is).1, (tick ds is).2 ++ [d.low]) := by
  induction ds generalizing is with
  | nil =>
    obtain rfl : is = [] := length_eq_zero_iff.1 h.symm
    by_cases hnext : i + 1 < d.low + d.count
    · simp [tick, hnext]
    · simp [tick, hnext]
  | cons e ds ih =>
    obtain ⟨j, is, rfl⟩ : ∃ j js, is = j :: js := exists_cons_of_length_pos (by rw [← h]; simp)
    have hlen : ds.length = is.length := by simpa using h
    rw [cons_append, cons_append, tick, ih hlen]
    by_cases hnext : i + 1 < d.low + d.count
    · simp [hnext]
    simp only [hnext, if_false, tick]
    by_cases hcarry : (tick ds is).1 = true
    · by_cases hturn : j + 1 < e.low + e.count
      · simp [hcarry, hturn]
      · simp [hcarry, hturn]
    · simp [hcarry]

/-- The reading after a number of ticks. -/
def reading (ds : List Dial) : Nat → List Int
  | 0 => start ds
  | n + 1 => (tick ds (reading ds n)).2

variable (hpos : ∀ d ∈ ds, 0 < d.count)

include hpos in
theorem shows_reading (n : Nat) : Shows ds (reading ds n) := by
  induction n with
  | zero => exact shows_start hpos
  | succ n ih => exact (tick_spec ih).1

include hpos in
/-- **Counting from the start shows every reading in its turn.** -/
theorem rank_reading {n} (hn : n < capacity ds) : rank ds (reading ds n) = n := by
  induction n with
  | zero => exact rank_start
  | succ n ih =>
    have hrank : rank ds (reading ds n) = n := ih (by omega)
    obtain ⟨-, hnext⟩ := tick_spec (shows_reading hpos n)
    by_cases hcarry : (tick ds (reading ds n)).1 = true
    · -- it would have been the last reading
      rw [if_pos hcarry, hrank] at hnext
      omega
    · rw [if_neg hcarry, hrank] at hnext
      exact hnext

include hpos in
theorem reading_rank (h : Shows ds is) : reading ds (rank ds is) = is :=
  rank_injective (shows_reading hpos _) h (rank_reading hpos (rank_lt h))

end Odometer
