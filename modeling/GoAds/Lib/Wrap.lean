import Mathlib.Tactic.Ring

/-!
# `Lib.Wrap` — 64-bit signed registers

What a register keeps of an integer, and where that is the integer itself.
-/

/-- The value that a 64-bit signed register keeps. -/
def wrap (x : Int) : Int := Int.bmod x (2 ^ 64)

theorem wrap_of_fits {x : Int} (h : -2 ^ 63 ≤ x) (h' : x < 2 ^ 63) : wrap x = x := by
  unfold wrap Int.bmod
  dsimp only
  split <;> omega

/-- Past the end a sum comes out negative. -/
theorem wrap_of_over {x : Int} (h : 2 ^ 63 ≤ x) (h' : x < 2 ^ 64) : wrap x = x - 2 ^ 64 := by
  unfold wrap Int.bmod
  dsimp only
  split <;> omega

theorem wrap_sub (x y : Int) : wrap (wrap x - y) = wrap (x - y) := Int.bmod_sub_bmod
