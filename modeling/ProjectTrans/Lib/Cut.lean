import Mathlib.Order.WithBot
import Mathlib.Data.Prod.Lex
import Mathlib.Tactic

/-!
# Cuts of a linear order

A cut stands just below or just above a value, or at one of the two ends. Cuts are
linearly ordered, and the values between two cuts are an interval of any kind: open,
closed, a point, a ray, the whole line. A value `a` is between `c` and `d` when
`c ≤ below a` and `below a < d`, so relations between intervals are comparisons of cuts.
-/

namespace Cuts

variable {α : Type*}

/-- The places between the values of `α`. -/
abbrev Cut (α : Type*) := WithBot (WithTop (α ×ₗ Bool))

/-- The cut just below a value. -/
def below (a : α) : Cut α := ((toLex (a, false) : α ×ₗ Bool) : WithTop (α ×ₗ Bool))

/-- The cut just above a value. -/
def above (a : α) : Cut α := ((toLex (a, true) : α ×ₗ Bool) : WithTop (α ×ₗ Bool))

variable {a b : α}

@[simp] theorem below_inj : below a = below b ↔ a = b := by simp [below]

@[simp] theorem above_inj : above a = above b ↔ a = b := by simp [above]

@[simp] theorem below_ne_above : below a ≠ above b := by simp [below, above]

@[simp] theorem above_ne_below : above a ≠ below b := by simp [below, above]

@[simp] theorem below_ne_bot : below a ≠ ⊥ := WithBot.coe_ne_bot

@[simp] theorem above_ne_bot : above a ≠ ⊥ := WithBot.coe_ne_bot

@[simp] theorem below_ne_top : below a ≠ ⊤ := by
  simp only [below, ne_eq, ← WithBot.coe_top, WithBot.coe_inj, WithTop.coe_ne_top, not_false_eq_true]

@[simp] theorem above_ne_top : above a ≠ ⊤ := by
  simp only [above, ne_eq, ← WithBot.coe_top, WithBot.coe_inj, WithTop.coe_ne_top, not_false_eq_true]

@[simp] theorem bot_ne_below : (⊥ : Cut α) ≠ below a := below_ne_bot.symm

@[simp] theorem bot_ne_above : (⊥ : Cut α) ≠ above a := above_ne_bot.symm

@[simp] theorem top_ne_below : (⊤ : Cut α) ≠ below a := below_ne_top.symm

@[simp] theorem top_ne_above : (⊤ : Cut α) ≠ above a := above_ne_top.symm

/-- Every cut is at an end of the line or beside a value. -/
theorem cut_cases (c : Cut α) : c = ⊥ ∨ c = ⊤ ∨ (∃ a, c = below a) ∨ ∃ a, c = above a := by
  induction c using WithBot.recBotCoe with
  | bot => exact .inl rfl
  | coe c =>
    induction c using WithTop.recTopCoe with
    | top => exact .inr (.inl rfl)
    | coe p =>
      obtain ⟨a, s⟩ := p
      cases s with
      | false => exact .inr (.inr (.inl ⟨a, rfl⟩))
      | true => exact .inr (.inr (.inr ⟨a, rfl⟩))

variable [LinearOrder α] {c : Cut α}

@[simp] theorem below_lt_below : below a < below b ↔ a < b := by
  simp [below, Prod.Lex.toLex_lt_toLex]

@[simp] theorem above_lt_above : above a < above b ↔ a < b := by
  simp [above, Prod.Lex.toLex_lt_toLex]

@[simp] theorem above_lt_below : above a < below b ↔ a < b := by
  simp [below, above, Prod.Lex.toLex_lt_toLex]

@[simp] theorem below_lt_above : below a < above b ↔ a ≤ b := by
  simp [below, above, Prod.Lex.toLex_lt_toLex, le_iff_lt_or_eq (a := a)]

@[simp] theorem below_le_below : below a ≤ below b ↔ a ≤ b := by
  rw [← not_lt, below_lt_below, not_lt]

@[simp] theorem above_le_above : above a ≤ above b ↔ a ≤ b := by
  rw [← not_lt, above_lt_above, not_lt]

@[simp] theorem above_le_below : above a ≤ below b ↔ a < b := by
  rw [← not_lt, below_lt_above, not_le]

@[simp] theorem below_le_above : below a ≤ above b ↔ a ≤ b := by
  rw [← not_lt, above_lt_below, not_lt]

/-- There is no cut between the two sides of a value. -/
theorem above_le_iff : above a ≤ c ↔ below a < c := by
  refine ⟨fun h => lt_of_lt_of_le (by simp) h, fun h => ?_⟩
  obtain rfl | rfl | ⟨b, rfl⟩ | ⟨b, rfl⟩ := cut_cases c
  · simp at h
  · exact le_top
  · exact above_le_below.2 (below_lt_below.1 h)
  · exact above_le_above.2 (below_lt_above.1 h)

theorem lt_above_iff : c < above a ↔ c ≤ below a := by
  rw [← not_le, above_le_iff, not_lt]

end Cuts
