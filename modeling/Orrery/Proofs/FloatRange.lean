import Orrery.Value.Basic
import Mathlib

/-!
# The numbers of data are finite

A number in data is a finite binary64 number, or a whole number of 64 bits that is rounded to the
nearest binary64 number when it is read.  The first kind is finite by its type.  For the second kind
there is something to show: that rounding a whole number of this size never ends in an infinity.

Infinities come from exponents that are too large to be stored, and 971 is the largest that is not.  So
it is enough to bound exponents, and the bounds may be generous.  `Within` is such a bound.  Rounding a
mantissa of so many bits moves the exponent by at most twice that many (`within_roundWithAccuracy`), and
storing a number within the bound and reading it back leaves it there (`within_unpack_pack`).

* `Number.isFinite_toFloat`, `Value.isFinite_of_time?`: no number of data and no time of a state is
  infinite, or is no number.
-/

namespace Orrery

namespace Binary64

open Float.Model Float.Model.UnpackedFloat

/-- A number whose exponent is at most a bound; zeros have none. -/
def Within (bound : Int) : UnpackedFloat → Prop
  | .zero _ => True
  | .finite _ _ exponent _ => exponent ≤ bound
  | .infinity _ | .notANumber => False

variable {bound : Int} {u v : UnpackedFloat}

theorem isFinite_of_within (h : Within bound u) : u.isFinite = true := by
  cases u with
  | infinity s => exact absurd h id
  | notANumber => exact absurd h id
  | zero s => rfl
  | finite s m e hm => rfl

/-! ## Rounding -/

theorem mantissa_shiftRight_le (em : ExtendedMantissa) (k : Nat) :
    (em >>> k).mantissa ≤ em.mantissa := by
  induction k with
  | zero => exact Nat.le_refl _
  | succ k ih =>
    have hstep : (em >>> (k + 1)).mantissa = (em >>> k).mantissa / 2 := rfl
    omega

theorem roundedMantissa_le (em : ExtendedMantissa) : em.roundedMantissa ≤ em.mantissa + 1 := by
  obtain ⟨m, round, sticky⟩ := em
  cases round <;> cases sticky <;>
    simp [ExtendedMantissa.roundedMantissa, ExtendedMantissa.accuracy, Accuracy.roundToNearestEven]
  omega

theorem log2_le_of_le_two_pow {m bits : Nat} (h : m ≤ 2 ^ bits) : m.log2 ≤ bits := by
  rw [Nat.log2_eq_log_two, ← Nat.log_pow Nat.one_lt_two bits]
  exact Nat.log_mono_right h

/-- Cutting a mantissa to its place moves the exponent by at most the number of its bits. -/
theorem shiftToTargetExponent_le {m bits : Nat} (h : m ≤ 2 ^ bits) (e : Int) :
    (shiftToTargetExponent .binary64 m e .exact).1.mantissa ≤ m ∧
    (shiftToTargetExponent .binary64 m e .exact).2 ≤ max (e + bits) (-1074) := by
  have hlog := log2_le_of_le_two_pow h
  refine ⟨mantissa_shiftRight_le _ _, ?_⟩
  simp only [shiftToTargetExponent, shiftToExponent, totalExponent, Format.targetExponent,
    Format.mantissaBits, Format.minExponent]
  omega

/-- **Rounding moves the exponent by at most twice the number of bits.** -/
theorem within_roundWithAccuracy {m bits : Nat} {e : Int} (h : m < 2 ^ bits)
    (hbound : e + 2 * bits ≤ bound) (hbits : bits ≤ bound + 1074) (s : Sign) :
    Within bound (roundWithAccuracy .binary64 s m e .exact) := by
  obtain ⟨hm, he⟩ := shiftToTargetExponent_le h.le e
  have hround := roundedMantissa_le (shiftToTargetExponent .binary64 m e .exact).1
  -- rounding up may have carried into one more bit, so the mantissa is cut once more
  obtain ⟨-, hfinal⟩ := shiftToTargetExponent_le
    (Nat.le_trans hround (Nat.le_trans (Nat.succ_le_succ hm) h))
    (shiftToTargetExponent .binary64 m e .exact).2
  unfold roundWithAccuracy
  dsimp only
  split
  · trivial
  · dsimp only [Within]
    omega

/-! ## Storing and reading -/

/-- Bits whose exponent is not that of the infinities stand for a number. -/
theorem within_unpack_packComponents (s : Sign) {exponent : BitVec 11} (h : exponent ≠ -1#11)
    (mantissa : BitVec 52) (hbound : (exponent.toNat : Int) - 1075 ≤ bound) (hlow : -1074 ≤ bound) :
    Within bound
      (UnpackedFloat.unpack .binary64 (packComponents .binary64 s exponent mantissa)) := by
  have hbias : (Format.binary64.exponentBias : Int) + Format.binary64.mantissaBitsWithoutImplicit =
      1075 := rfl
  unfold UnpackedFloat.unpack
  simp only [unpackMantissa_packComponents, unpackExponent_packComponents, hbias]
  rw [if_neg h]
  by_cases hzero : exponent = 0#11
  · rw [if_pos hzero]
    split
    · trivial
    · rw [hzero]
      exact hlow
  · rw [if_neg hzero]
    exact hbound

/-- **A number within the range is still one after it was stored**, and its exponent is no larger. -/
theorem within_unpack_pack (h : Within bound u) (hlow : -1074 ≤ bound) (hhigh : bound ≤ 971) :
    Within bound (UnpackedFloat.unpack .binary64 (UnpackedFloat.pack .binary64 u)) := by
  have hnull : ((0#11).toNat : Int) - 1075 ≤ bound := by
    change (0 : Int) - 1075 ≤ bound
    omega
  cases u with
  | infinity s => exact absurd h id
  | notANumber => exact absurd h id
  | zero s => exact within_unpack_packComponents s (by decide) _ hnull hlow
  | finite s m e hm =>
    have he : e ≤ bound := h
    have hbiased : e + Format.binary64.exponentBias + Format.binary64.mantissaBitsWithoutImplicit =
        e + 1075 := Int.add_assoc ..
    have hsmall : (e + 1075).toNat + 1 < 2 ^ 11 := by omega
    rw [UnpackedFloat.pack]
    simp only [hbiased]
    rw [if_neg (Nat.not_le.2 hsmall)]
    split
    · have hnat : (BitVec.ofNat 11 (e + 1075).toNat).toNat = (e + 1075).toNat :=
        Nat.mod_eq_of_lt (Nat.lt_of_succ_lt hsmall)
      refine within_unpack_packComponents s ?_ _ ?_ hlow
      · intro heq
        have hones : (e + 1075).toNat = 2047 := hnat.symm.trans (congrArg BitVec.toNat heq)
        omega
      · rw [hnat]
        omega
    · exact within_unpack_packComponents s (by decide) _ hnull hlow

/-- What is read from storage has a mantissa of 53 bits. -/
theorem mantissa_unpack_lt {bits : BitVec Format.binary64.numBits} {s : Sign} {m : Nat} {e : Int}
    {hm : 0 < m} (h : UnpackedFloat.unpack .binary64 bits = .finite s m e hm) : m < 2 ^ 53 := by
  unfold UnpackedFloat.unpack at h
  dsimp only at h
  split at h
  · split at h <;> cases h
  · split at h
    · split at h
      · cases h
      · cases h
        have hlt := (unpackMantissa bits).isLt
        omega
    · cases h
      exact (1#1 ++ unpackMantissa bits).isLt

/-- A product of numbers that were read from storage. -/
theorem within_mul {bound' total : Int} (hu : Within bound u) (hv : Within bound' v)
    (hm : ∀ s m e hm, u = .finite s m e hm → m < 2 ^ 53)
    (hn : ∀ s n e hn, v = .finite s n e hn → n < 2 ^ 53)
    (hbound : bound + bound' + 212 ≤ total) (htotal : 0 ≤ total) :
    Within total (UnpackedFloat.mul .binary64 u v) := by
  cases u with
  | infinity s => exact absurd hu id
  | notANumber => exact absurd hu id
  | zero s =>
    cases v with
    | infinity t => exact absurd hv id
    | notANumber => exact absurd hv id
    | zero t => trivial
    | finite t n f hpos => trivial
  | finite s m e hpos =>
    cases v with
    | infinity t => exact absurd hv id
    | notANumber => exact absurd hv id
    | zero t => trivial
    | finite t n f hpos' =>
      have he : e ≤ bound := hu
      have hf : f ≤ bound' := hv
      have hlt := Nat.mul_lt_mul_of_lt_of_lt (hm s m e hpos rfl) (hn t n f hpos' rfl)
      rw [← Nat.pow_add] at hlt
      exact within_roundWithAccuracy hlt (by omega) (by omega) _

/-! ## Whole numbers -/

/-- A whole number of 64 bits, rounded. -/
theorem within_ofNat {n : Nat} (h : n < 2 ^ 64) : Within 232 (UnpackedFloat.ofNat .binary64 n) := by
  have hshift : ((0 : Int) - Format.binary64.targetExponent (totalExponent n 0)).toNat ≤ 52 := by
    simp only [totalExponent, Format.targetExponent, Format.mantissaBits, Format.minExponent]
    omega
  unfold UnpackedFloat.ofNat UnpackedFloat.ofInt UnpackedFloat.normalize
  split
  · next hlt =>
    have hneg := Int.compare_eq_lt.1 hlt
    omega
  · trivial
  · unfold UnpackedFloat.round
    dsimp only [decreaseExponent]
    have hwide : n <<< ((0 : Int) - Format.binary64.targetExponent (totalExponent n 0)).toNat <
        2 ^ 116 := by
      calc n <<< _ = n * 2 ^ _ := Nat.shiftLeft_eq ..
        _ ≤ n * 2 ^ 52 := Nat.mul_le_mul_left n (Nat.pow_le_pow_right (by decide) hshift)
        _ < 2 ^ 116 := by omega
    exact within_roundWithAccuracy hwide (by omega) (by decide) _

/-- A whole number of 64 bits that is too large to be exact. -/
theorem within_ofScientific {n : Nat} (h : n < 2 ^ 64) :
    Within 400 (UnpackedFloat.ofScientific .binary64 n 0) := by
  have hbig : ¬ (0 : Int) > 2 ^ Format.binary64.exponentBits := by decide
  have hsmall : ¬ (0 : Int) < -((2 ^ Format.binary64.exponentBits : Int) + n.log2) := by
    have hpos : (0 : Int) ≤ 2 ^ Format.binary64.exponentBits := by decide
    omega
  have hwide : n * 2 ^ 53 < 2 ^ 117 := by
    calc n * 2 ^ 53 < 2 ^ 64 * 2 ^ 53 := Nat.mul_lt_mul_of_pos_right h (by decide)
      _ = 2 ^ 117 := by decide
  unfold UnpackedFloat.ofScientific
  by_cases hn : n = 0
  · rw [dif_pos hn]
    trivial
  · rw [dif_neg hn, if_neg hbig, if_neg hsmall, if_pos (Int.le_refl 0), UnpackedFloat.mul]
    have hshifted : (n <<< Format.binary64.mantissaBits) * 10 ^ (0 : Int).toNat < 2 ^ 117 := by
      rw [Nat.shiftLeft_eq, Int.toNat_zero, Nat.pow_zero, Nat.mul_one]
      exact hwide
    exact within_roundWithAccuracy hshifted (by decide) (by decide) _

theorem within_unpack_one :
    Within (-52) (Float.exactlyRepresentablePowersOfTen[0]).toModel.unpack := by
  have hone : (Float.exactlyRepresentablePowersOfTen[0]).toModel.unpack =
      .finite .positive (2 ^ 52) (-52) (by decide) := rfl
  rw [hone]
  exact Int.le_refl (-52)

/-- **A whole number of 64 bits is within the range.** -/
theorem within_toModel_ofNat {n : Nat} (h : n < 2 ^ 64) :
    Within 400 (Float.ofNat n).toModel.unpack := by
  change Within 400 (Float.ofScientific n false 0).toModel.unpack
  unfold Float.ofScientific
  split
  · -- a small one is multiplied by the power of ten that is one
    have hn : Within 232 n.toUInt64.toFloat.toModel.unpack :=
      within_unpack_pack (within_ofNat n.toUInt64.toNat_lt) (by decide) (by decide)
    refine within_unpack_pack ?_ (by decide) (by decide)
    exact within_mul hn within_unpack_one (fun _ _ _ _ heq => mantissa_unpack_lt heq)
      (fun _ _ _ _ heq => mantissa_unpack_lt heq) (by decide) (by decide)
  · exact within_unpack_pack (within_ofScientific h) (by decide) (by decide)

theorem within_neg (h : Within bound u) : Within bound u.neg := by
  cases u with
  | infinity s => exact absurd h id
  | notANumber => exact absurd h id
  | zero s => trivial
  | finite s m e hm => exact h

theorem isFinite_ofInt {n : Int} (hlow : -2 ^ 64 < n) (hhigh : n < 2 ^ 64) :
    (Float.ofInt n).isFinite = true := by
  cases n with
  | ofNat n =>
    have hn : n < 2 ^ 64 := Int.ofNat_lt.1 hhigh
    exact isFinite_of_within (within_toModel_ofNat hn)
  | negSucc n =>
    have hn : n + 1 < 2 ^ 64 := by omega
    have hneg := within_neg (within_toModel_ofNat hn)
    exact isFinite_of_within (within_unpack_pack hneg (by decide) (by decide))

end Binary64

/-! ## Data -/

/-- **The numbers of data are finite.** -/
theorem Number.isFinite_toFloat (n : Number) : n.toFloat.isFinite = true := by
  cases n with
  | integer value inRange => exact Binary64.isFinite_ofInt (by omega) (by omega)
  | binary value finite => exact finite

/-- The times of states are finite. -/
theorem Value.isFinite_of_time? {state : Value} {time : Float} (h : state.time? = some time) :
    time.isFinite = true := by
  obtain ⟨v, -, hv⟩ := Option.bind_eq_some_iff.1 h
  cases v with
  | number n =>
    rw [Value.float?, Option.some.injEq] at hv
    rw [← hv]
    exact n.isFinite_toFloat
  | _ => cases hv

end Orrery
