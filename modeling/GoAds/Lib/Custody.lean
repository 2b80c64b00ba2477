import Mathlib.Data.Set.Basic
import Mathlib.Tactic.ByContra

/-!
# `Lib.Custody` — tokens that are out, each in one holder's custody

An environment hands out tokens and takes them back.  `Exact out holds` says that the tokens that are
out are those somebody holds, and that each has one holder.  A token is handed out (`Exact.issue`),
given from one holder to another (`Exact.move`), or taken back together with others
(`Exact.retire`); everything else leaves the holders alone (`Exact.congr`).
-/

namespace Custody

variable {H W : Type*}

/-- **Exact custody.**  What is out is held, and held once. -/
structure Exact (out : Set H) (holds : W → H → Prop) : Prop where
  held : ∀ h, h ∈ out ↔ ∃ w, holds w h
  once : ∀ w w' h, holds w h → holds w' h → w = w'

namespace Exact

variable {out out' : Set H} {holds holds' : W → H → Prop}

theorem congr (hx : Exact out holds) (ho : ∀ h, h ∈ out' ↔ h ∈ out)
    (hh : ∀ w h, holds' w h ↔ holds w h) : Exact out' holds' where
  held h := by
    rw [ho h, hx.held h]
    exact exists_congr fun w => (hh w h).symm
  once w w' h hw hw' := hx.once w w' h ((hh w h).1 hw) ((hh w' h).1 hw')

/-- A token that is not out is handed to `w₀`. -/
theorem issue (hx : Exact out holds) (w₀ : W) (h₀ : H) (hfresh : h₀ ∉ out)
    (ho : ∀ h, h ∈ out' ↔ h = h₀ ∨ h ∈ out) (hh : ∀ w h, holds' w h ↔ w = w₀ ∧ h = h₀ ∨ holds w h) :
    Exact out' holds' where
  held h := by
    rw [ho h]
    constructor
    · rintro (rfl | hout)
      · exact ⟨w₀, (hh w₀ h).2 (.inl ⟨rfl, rfl⟩)⟩
      · obtain ⟨w, hw⟩ := (hx.held h).1 hout
        exact ⟨w, (hh w h).2 (.inr hw)⟩
    rintro ⟨w, hw⟩
    rcases (hh w h).1 hw with ⟨-, rfl⟩ | hw
    · exact .inl rfl
    · exact .inr ((hx.held h).2 ⟨w, hw⟩)
  once w w' h hw hw' := by
    -- nobody held the new token before
    have hnone : ∀ v, ¬holds v h₀ := fun v hv => hfresh ((hx.held h₀).2 ⟨v, hv⟩)
    rcases (hh w h).1 hw with ⟨rfl, rfl⟩ | hw
    · rcases (hh w' h).1 hw' with ⟨rfl, -⟩ | hw'
      · rfl
      · exact absurd hw' (hnone w')
    rcases (hh w' h).1 hw' with ⟨rfl, rfl⟩ | hw'
    · exact absurd hw (hnone w)
    · exact hx.once w w' h hw hw'

/-- The tokens of `gone` are taken back. -/
theorem retire (hx : Exact out holds) (gone : Set H) (ho : ∀ h, h ∈ out' ↔ h ∈ out ∧ h ∉ gone)
    (hh : ∀ w h, holds' w h ↔ holds w h ∧ h ∉ gone) : Exact out' holds' where
  held h := by
    rw [ho h, hx.held h]
    constructor
    · rintro ⟨⟨w, hw⟩, hg⟩
      exact ⟨w, (hh w h).2 ⟨hw, hg⟩⟩
    rintro ⟨w, hw⟩
    obtain ⟨hw, hg⟩ := (hh w h).1 hw
    exact ⟨⟨w, hw⟩, hg⟩
  once w w' h hw hw' := hx.once w w' h ((hh w h).1 hw).1 ((hh w' h).1 hw').1

/-- A token goes from its holder to `w₁`. -/
theorem move (hx : Exact out holds) (w₀ w₁ : W) {h₀} (hold : holds w₀ h₀) (ho : ∀ h, h ∈ out' ↔ h ∈ out)
    (hh : ∀ w h, holds' w h ↔ w = w₁ ∧ h = h₀ ∨ holds w h ∧ h ≠ h₀) : Exact out' holds' where
  held h := by
    rw [ho h, hx.held h]
    constructor
    · rintro ⟨w, hw⟩
      by_cases heq : h = h₀
      · exact ⟨w₁, (hh w₁ h).2 (.inl ⟨rfl, heq⟩)⟩
      · exact ⟨w, (hh w h).2 (.inr ⟨hw, heq⟩)⟩
    rintro ⟨w, hw⟩
    rcases (hh w h).1 hw with ⟨-, rfl⟩ | ⟨hw, -⟩
    · exact ⟨w₀, hold⟩
    · exact ⟨w, hw⟩
  once w w' h hw hw' := by
    rcases (hh w h).1 hw with ⟨rfl, rfl⟩ | ⟨hw, hne⟩
    · rcases (hh w' h).1 hw' with ⟨rfl, -⟩ | ⟨-, hne⟩
      · rfl
      · exact absurd rfl hne
    rcases (hh w' h).1 hw' with ⟨-, heq⟩ | ⟨hw', -⟩
    · exact absurd heq hne
    · exact hx.once w w' h hw hw'

end Exact

end Custody
