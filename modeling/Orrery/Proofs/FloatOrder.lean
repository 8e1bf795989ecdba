import Mathlib.Data.Int.Order.Basic
import Mathlib.Data.Prod.Lex

/-!
# The order of times

Times are binary64 numbers, and the comparisons of binary64 are no order: nothing compares with a value
that is not a number, so `¬ b ≤ a` does not give `a < b` in general.  On finite values it does, and that
is what the clocks and the store rely on.

Comparing goes by sign, then by exponent, then by mantissa, and the two zeros are equal.  So every value
that is a number has a `rank` in a linear order, and `a < b` and `a ≤ b` say that both have a rank and
that the ranks compare (`lt_iff`, `le_iff`).  The usual rules follow from those of the ranks.
-/

namespace Orrery

namespace Binary64

open Float.Model

/-- Where an unpacked value stands among the others; what is not a number stands nowhere. -/
def unpackedRank : UnpackedFloat → Option (ℤ ×ₗ ℤ ×ₗ ℤ)
  | .notANumber => none
  | .infinity .negative => some (toLex (-2, toLex (0, 0)))
  | .finite .negative mantissa exponent _ => some (toLex (-1, toLex (-exponent, -mantissa)))
  | .zero _ => some (toLex (0, toLex (0, 0)))
  | .finite .positive mantissa exponent _ => some (toLex (1, toLex (exponent, mantissa)))
  | .infinity .positive => some (toLex (2, toLex (0, 0)))

/-- Where a value stands among the others. -/
def rank (a : Float) : Option (ℤ ×ₗ ℤ ×ₗ ℤ) := unpackedRank a.toModel.unpack

theorem unpacked_lt_iff (a b : UnpackedFloat) :
    a.lt b = true ↔ ∃ x y, unpackedRank a = some x ∧ unpackedRank b = some y ∧ x < y := by
  rw [UnpackedFloat.lt, beq_iff_eq]
  rcases a with (_ | _) | _ | _ | ⟨_ | _, m, e, hm⟩ <;>
    rcases b with (_ | _) | _ | _ | ⟨_ | _, n, f, hn⟩ <;>
    dsimp only [unpackedRank, UnpackedFloat.compare] <;>
    simp [Prod.Lex.toLex_lt_toLex, Ordering.then_eq_lt]
  · rfl
  -- among values of one sign, exponents decide and then mantissas
  · rw [Ordering.then_eq_gt, Int.compare_eq_gt, Nat.compare_eq_gt, Int.compare_eq_eq]
  · rw [Int.compare_eq_lt, Nat.compare_eq_lt]

theorem unpacked_le_iff (a b : UnpackedFloat) :
    a.le b = true ↔ ∃ x y, unpackedRank a = some x ∧ unpackedRank b = some y ∧ x ≤ y := by
  rw [UnpackedFloat.le, Option.any_eq_true]
  rcases a with (_ | _) | _ | _ | ⟨_ | _, m, e, hm⟩ <;>
    rcases b with (_ | _) | _ | _ | ⟨_ | _, n, f, hn⟩ <;>
    dsimp only [unpackedRank, UnpackedFloat.compare] <;>
    simp [Prod.Lex.toLex_le_toLex]
  · rfl
  · rfl
  · rfl
  · rfl
  · rw [Ordering.isGE_iff_ne_lt, Ordering.then_eq_lt, Int.compare_eq_lt, Nat.compare_eq_lt,
      Int.compare_eq_eq]
    omega
  · rw [Ordering.isLE_iff_ne_gt, Ordering.then_eq_gt, Int.compare_eq_gt, Nat.compare_eq_gt,
      Int.compare_eq_eq]
    omega

variable {a b c : Float}

/-- **One value is below another exactly when both are numbers and the ranks say so.** -/
theorem lt_iff : a < b ↔ ∃ x y, rank a = some x ∧ rank b = some y ∧ x < y := by
  rw [rank, rank, ← unpacked_lt_iff]
  exact decide_eq_true_iff

theorem le_iff : a ≤ b ↔ ∃ x y, rank a = some x ∧ rank b = some y ∧ x ≤ y := by
  rw [rank, rank, ← unpacked_le_iff]
  exact decide_eq_true_iff

/-- Finite values are numbers, and above the lower infinity. -/
theorem exists_rank_gt (h : a.isFinite = true) :
    ∃ x, rank a = some x ∧ toLex (-2, toLex (0, 0)) < x := by
  have hfinite : a.toModel.unpack.isFinite = true := h
  unfold rank
  generalize a.toModel.unpack = u at hfinite
  rcases u with _ | _ | _ | ⟨_ | _, m, e, hm⟩
  · exact absurd hfinite Bool.false_ne_true
  · exact absurd hfinite Bool.false_ne_true
  · exact ⟨_, rfl, by simp [Prod.Lex.toLex_lt_toLex]⟩
  · exact ⟨_, rfl, by simp [Prod.Lex.toLex_lt_toLex]⟩
  · exact ⟨_, rfl, by simp [Prod.Lex.toLex_lt_toLex]⟩

theorem exists_rank (h : a.isFinite = true) : ∃ x, rank a = some x :=
  (exists_rank_gt h).imp fun _ hx => hx.1

/-- **Finite values are in a line**: one that is not at most another is above it. -/
theorem lt_of_not_le (ha : a.isFinite = true) (hb : b.isFinite = true) (h : ¬ b ≤ a) : a < b := by
  obtain ⟨x, hx⟩ := exists_rank ha
  obtain ⟨y, hy⟩ := exists_rank hb
  refine lt_iff.2 ⟨x, y, hx, hy, ?_⟩
  exact not_le.1 fun hle => h (le_iff.2 ⟨y, x, hy, hx, hle⟩)

theorem le_of_not_lt (ha : a.isFinite = true) (hb : b.isFinite = true) (h : ¬ a < b) : b ≤ a := by
  obtain ⟨x, hx⟩ := exists_rank ha
  obtain ⟨y, hy⟩ := exists_rank hb
  refine le_iff.2 ⟨y, x, hy, hx, ?_⟩
  exact not_lt.1 fun hlt => h (lt_iff.2 ⟨x, y, hx, hy, hlt⟩)

theorem le_of_lt (h : a < b) : a ≤ b := by
  obtain ⟨x, y, hx, hy, hlt⟩ := lt_iff.1 h
  exact le_iff.2 ⟨x, y, hx, hy, hlt.le⟩

/-- What is above something is a number. -/
theorem le_self_of_lt (h : a < b) : b ≤ b := by
  obtain ⟨x, y, -, hy, -⟩ := lt_iff.1 h
  exact le_iff.2 ⟨y, y, hy, hy, le_rfl⟩

/-- What compares at all is a number, on both sides. -/
theorem le_self_of_le (h : a ≤ b) : a ≤ a ∧ b ≤ b := by
  obtain ⟨x, y, hx, hy, -⟩ := le_iff.1 h
  exact ⟨le_iff.2 ⟨x, x, hx, hx, le_rfl⟩, le_iff.2 ⟨y, y, hy, hy, le_rfl⟩⟩

theorem le_refl (h : a.isFinite = true) : a ≤ a := by
  obtain ⟨x, hx⟩ := exists_rank h
  exact le_iff.2 ⟨x, x, hx, hx, le_rfl⟩

theorem le_trans (hab : a ≤ b) (hbc : b ≤ c) : a ≤ c := by
  obtain ⟨x, y, hx, hy, hxy⟩ := le_iff.1 hab
  obtain ⟨y', z, hy', hz, hyz⟩ := le_iff.1 hbc
  obtain rfl : y = y' := Option.some_inj.1 (hy.symm.trans hy')
  exact le_iff.2 ⟨x, z, hx, hz, hxy.trans hyz⟩

theorem lt_of_lt_of_le (hab : a < b) (hbc : b ≤ c) : a < c := by
  obtain ⟨x, y, hx, hy, hxy⟩ := lt_iff.1 hab
  obtain ⟨y', z, hy', hz, hyz⟩ := le_iff.1 hbc
  obtain rfl : y = y' := Option.some_inj.1 (hy.symm.trans hy')
  exact lt_iff.2 ⟨x, z, hx, hz, hxy.trans_le hyz⟩

theorem lt_of_le_of_lt (hab : a ≤ b) (hbc : b < c) : a < c := by
  obtain ⟨x, y, hx, hy, hxy⟩ := le_iff.1 hab
  obtain ⟨y', z, hy', hz, hyz⟩ := lt_iff.1 hbc
  obtain rfl : y = y' := Option.some_inj.1 (hy.symm.trans hy')
  exact lt_iff.2 ⟨x, z, hx, hz, hxy.trans_lt hyz⟩

theorem lt_irrefl : ¬ a < a := by
  intro h
  obtain ⟨x, y, hx, hy, hxy⟩ := lt_iff.1 h
  exact hxy.ne (Option.some_inj.1 (hx.symm.trans hy))

theorem not_le_of_lt (h : a < b) : ¬ b ≤ a := fun hle => lt_irrefl (lt_of_lt_of_le h hle)

/-- **Numbers are in a line**: what is at most itself compares with everything of the kind. -/
theorem lt_or_le (ha : a ≤ a) (hb : b ≤ b) : a < b ∨ b ≤ a := by
  obtain ⟨x, -, hx, -, -⟩ := le_iff.1 ha
  obtain ⟨y, -, hy, -, -⟩ := le_iff.1 hb
  rcases lt_or_ge x y with hxy | hxy
  · exact .inl (lt_iff.2 ⟨x, y, hx, hy, hxy⟩)
  · exact .inr (le_iff.2 ⟨y, x, hy, hx, hxy⟩)

theorem negInfinity_lt (h : a.isFinite = true) : (-1.0 / 0.0 : Float) < a := by
  have hrank : rank (-1.0 / 0.0) = some (toLex (-2, toLex (0, 0))) := rfl
  obtain ⟨x, hx, hlt⟩ := exists_rank_gt h
  exact lt_iff.2 ⟨_, x, hrank, hx, hlt⟩

end Binary64

end Orrery
