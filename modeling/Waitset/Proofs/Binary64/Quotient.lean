/-
# Waitset.Proofs.Binary64.Quotient -- rounded quotients as rational numbers

Comparing a quotient of two counts with a threshold rounds it to the nearest double first.  Here that
rounded quotient is a rational number, and two things are shown about it: it does not decrease when
the exact quotient does not, and it exceeds the exact quotient by one part in 2 ^ 53 at most.  The
quotient of a number by itself is one, so no threshold in (0, 1] is above it.
-/
import Mathlib.Algebra.Order.Field.Power
import Mathlib.Data.Rat.Cast.Order
import Mathlib.Tactic.FieldSimp
import Mathlib.Tactic.Linarith
import Mathlib.Tactic.NormNum
import Mathlib.Tactic.Positivity
import Mathlib.Tactic.Ring
import Waitset.Binary64

namespace Waitset.Binary64

/-! ## Values -/

/-- What a significand and an exponent stand for. -/
def scaled (m : Nat) (q : Int) : ℚ := m * 2 ^ q

/-- A power of two, above a lower exponent. -/
theorem scaled_shift {q₀ q : Int} (h : q₀ ≤ q) (m : Nat) :
    scaled m q = ((m * Nat.pow 2 (q - q₀).toNat : Nat) : ℚ) * 2 ^ q₀ := by
  have hexponent : q = ((q - q₀).toNat : Int) + q₀ := by omega
  have hpower : ((2 : ℚ) ^ q) = (2 : ℚ) ^ (q - q₀).toNat * 2 ^ q₀ := by
    conv_lhs => rw [hexponent]
    rw [zpow_add₀ (by norm_num), zpow_natCast]
  unfold scaled
  rw [hpower, Nat.cast_mul]
  simp only [Nat.pow_eq, Nat.cast_pow, Nat.cast_ofNat]
  ring

/-- The comparison of scaled numbers compares what they stand for. -/
theorem scaledLt_iff (m₁ : Nat) (q₁ : Int) (m₂ : Nat) (q₂ : Int) :
    scaledLt m₁ q₁ m₂ q₂ = true ↔ scaled m₁ q₁ < scaled m₂ q₂ := by
  unfold scaledLt
  rw [decide_eq_true_eq, scaled_shift (min_le_left q₁ q₂), scaled_shift (min_le_right q₁ q₂),
    mul_lt_mul_iff_left₀ (zpow_pos (by norm_num : (0 : ℚ) < 2) _), Nat.cast_lt]

/-- A number as a rational one; zero stands for what is not finite. -/
def toRat (x : Binary64) : ℚ :=
  match x.value with
  | .finite negative m q => if negative then -scaled m q else scaled m q
  | _ => 0

/-- A threshold is a finite number, and as a rational one it is in (0, 1]. -/
theorem threshold_cases {x : Binary64} (h : x.isThreshold = true) :
    ∃ m q, x.value = .finite false m q ∧ x.toRat = scaled m q ∧ 0 < x.toRat ∧ x.toRat ≤ 1 := by
  unfold isThreshold isPositive atMostOne at h
  rw [Bool.and_eq_true] at h
  unfold toRat
  cases hvalue : x.value with
  | nan => simp [hvalue] at h
  | infinite negative => simp [hvalue] at h
  | finite negative m q =>
      rw [hvalue] at h
      obtain ⟨hpositive, hone⟩ := h
      simp only [Bool.and_eq_true, Bool.not_eq_true', decide_eq_true_eq] at hpositive
      obtain ⟨rfl, hm⟩ := hpositive
      refine ⟨m, q, rfl, rfl, ?_, ?_⟩
      · show 0 < scaled m q
        unfold scaled
        positivity
      · have hnot : ¬scaledLt 1 0 m q = true := by simpa using hone
        rw [scaledLt_iff, not_lt] at hnot
        show scaled m q ≤ 1
        refine hnot.trans (le_of_eq ?_)
        simp [scaled]

/-! ## Rounding to a whole number -/

/-- The rounded quotient is within a half of the exact one. -/
theorem divNearestEven_near (num : Nat) {den : Nat} (hden : 0 < den) :
    2 * num ≤ 2 * (den * divNearestEven num den) + den ∧
      2 * (den * divNearestEven num den) ≤ 2 * num + den := by
  have hsplit : den * (num / den) + num % den = num := Nat.div_add_mod num den
  have hrest : num % den < den := Nat.mod_lt num hden
  have hnext : den * (num / den + 1) = den * (num / den) + den := Nat.mul_succ _ _
  unfold divNearestEven
  dsimp only
  split
  · omega
  · split
    · omega
    · -- A half: either neighbour is as near.
      rcases Nat.mod_two_eq_zero_or_one (num / den) with heven | hodd
      · rw [heven, Nat.add_zero]
        omega
      · rw [hodd]
        omega

/-- What is left after division grows with the quotient, if the whole parts agree. -/
theorem rest_mono {num₁ den₁ num₂ den₂ : Nat} (hmono : num₁ * den₂ ≤ num₂ * den₁)
    (hfloor : num₁ / den₁ = num₂ / den₂) : num₁ % den₁ * den₂ ≤ num₂ % den₂ * den₁ := by
  have h₁ : den₁ * (num₁ / den₁) + num₁ % den₁ = num₁ := Nat.div_add_mod num₁ den₁
  have h₂ : den₂ * (num₂ / den₂) + num₂ % den₂ = num₂ := Nat.div_add_mod num₂ den₂
  have hwhole : (den₁ * (num₂ / den₂) + num₁ % den₁) * den₂ ≤
      (den₂ * (num₂ / den₂) + num₂ % den₂) * den₁ := by
    rw [h₂, ← hfloor, h₁]
    exact hmono
  have hcommon : den₁ * (num₂ / den₂) * den₂ = den₂ * (num₂ / den₂) * den₁ := by ring
  rw [Nat.add_mul, Nat.add_mul, hcommon] at hwhole
  exact Nat.le_of_add_le_add_left hwhole

/-- The whole part of a quotient grows with it. -/
theorem floor_mono {num₁ den₁ num₂ den₂ : Nat} (h₁ : 0 < den₁) (h₂ : 0 < den₂)
    (hmono : num₁ * den₂ ≤ num₂ * den₁) : num₁ / den₁ ≤ num₂ / den₂ := by
  rw [Nat.le_div_iff_mul_le h₂]
  have hbelow : num₁ / den₁ * den₁ ≤ num₁ := Nat.div_mul_le_self num₁ den₁
  have hscaled : num₁ / den₁ * den₂ * den₁ ≤ num₂ * den₁ := calc
    num₁ / den₁ * den₂ * den₁ = num₁ / den₁ * den₁ * den₂ := by ring
    _ ≤ num₁ * den₂ := Nat.mul_le_mul_right den₂ hbelow
    _ ≤ num₂ * den₁ := hmono
  exact Nat.le_of_mul_le_mul_right hscaled h₁

/-- Rounding keeps the order of quotients. -/
theorem divNearestEven_mono {num₁ den₁ num₂ den₂ : Nat} (h₁ : 0 < den₁) (h₂ : 0 < den₂)
    (hmono : num₁ * den₂ ≤ num₂ * den₁) : divNearestEven num₁ den₁ ≤ divNearestEven num₂ den₂ := by
  have hfloor := floor_mono h₁ h₂ hmono
  have hbounds : ∀ num den : Nat, num / den ≤ divNearestEven num den ∧
      divNearestEven num den ≤ num / den + 1 := by
    intro num den
    unfold divNearestEven
    dsimp only
    split
    · omega
    · split <;> omega
  rcases Nat.lt_or_eq_of_le hfloor with hlt | heq
  · have hlow := (hbounds num₂ den₂).1
    have hhigh := (hbounds num₁ den₁).2
    omega
  · -- The whole parts agree, so it depends on which side of a half the rests are.
    have hrest := rest_mono hmono heq
    have habove : den₁ < 2 * (num₁ % den₁) → den₂ < 2 * (num₂ % den₂) := by
      intro h
      have hcross : den₂ * den₁ < 2 * (num₂ % den₂) * den₁ := calc
        den₂ * den₁ = den₁ * den₂ := Nat.mul_comm _ _
        _ < 2 * (num₁ % den₁) * den₂ := Nat.mul_lt_mul_of_pos_right h h₂
        _ = 2 * (num₁ % den₁ * den₂) := Nat.mul_assoc _ _ _
        _ ≤ 2 * (num₂ % den₂ * den₁) := Nat.mul_le_mul_left 2 hrest
        _ = 2 * (num₂ % den₂) * den₁ := (Nat.mul_assoc _ _ _).symm
      exact Nat.lt_of_mul_lt_mul_right hcross
    have hbelow : 2 * (num₂ % den₂) < den₂ → 2 * (num₁ % den₁) < den₁ := by
      intro h
      have hcross : 2 * (num₁ % den₁) * den₂ < den₁ * den₂ := calc
        2 * (num₁ % den₁) * den₂ = 2 * (num₁ % den₁ * den₂) := Nat.mul_assoc _ _ _
        _ ≤ 2 * (num₂ % den₂ * den₁) := Nat.mul_le_mul_left 2 hrest
        _ = 2 * (num₂ % den₂) * den₁ := (Nat.mul_assoc _ _ _).symm
        _ < den₂ * den₁ := Nat.mul_lt_mul_of_pos_right h h₁
        _ = den₁ * den₂ := Nat.mul_comm _ _
      exact Nat.lt_of_mul_lt_mul_right hcross
    unfold divNearestEven
    dsimp only
    rw [heq]
    split
    · split
      · exact Nat.le_refl _
      · split <;> omega
    · rename_i hhalf
      have hhalf₂ : ¬2 * (num₂ % den₂) < den₂ := fun h => hhalf (hbelow h)
      rw [if_neg hhalf₂]
      split
      · rename_i hmore
        rw [if_pos (habove hmore)]
      · split <;> omega

/-- A quotient that is a whole number is rounded to itself. -/
theorem divNearestEven_mul (k : Nat) {den : Nat} (hden : 0 < den) :
    divNearestEven (k * den) den = k := by
  unfold divNearestEven
  dsimp only
  rw [Nat.mul_mod_left, if_pos (by omega), Nat.mul_div_cancel k hden]

/-! ## Rounding to fifty-three bits -/

section Quotient

variable {num den : Nat} (hnum : 0 < num) (hden : 0 < den)
include hnum hden

/-- The powers of two around a quotient. -/
theorem quotient_log2 :
    (2 : ℚ) ^ ((Nat.log2 num : Int) - Nat.log2 den - 1) < num / den ∧
      (num / den : ℚ) < 2 ^ ((Nat.log2 num : Int) - Nat.log2 den + 1) := by
  have hbounds : ∀ {n : Nat}, 0 < n → (2 : ℚ) ^ (Nat.log2 n : Int) ≤ n ∧
      (n : ℚ) < 2 ^ ((Nat.log2 n : Int) + 1) := by
    intro n hn
    have hlow : 2 ^ Nat.log2 n ≤ n := Nat.log2_self_le (Nat.ne_of_gt hn)
    have hhigh : n < 2 ^ (Nat.log2 n + 1) := Nat.lt_log2_self
    constructor
    · rw [zpow_natCast]
      exact_mod_cast hlow
    · rw [show ((Nat.log2 n : Int) + 1) = ((Nat.log2 n + 1 : Nat) : Int) by push_cast; rfl,
        zpow_natCast]
      exact_mod_cast hhigh
  obtain ⟨hnumLow, hnumHigh⟩ := hbounds hnum
  obtain ⟨hdenLow, hdenHigh⟩ := hbounds hden
  have htwo : (2 : ℚ) ≠ 0 := by norm_num
  have hpos : (0 : ℚ) < den := by exact_mod_cast hden
  constructor
  · rw [lt_div_iff₀ hpos]
    calc (2 : ℚ) ^ ((Nat.log2 num : Int) - Nat.log2 den - 1) * den
        < 2 ^ ((Nat.log2 num : Int) - Nat.log2 den - 1) * 2 ^ ((Nat.log2 den : Int) + 1) :=
          mul_lt_mul_of_pos_left hdenHigh (zpow_pos (by norm_num) _)
      _ = 2 ^ (Nat.log2 num : Int) := by
          rw [← zpow_add₀ htwo]
          congr 1
          ring
      _ ≤ num := hnumLow
  · rw [div_lt_iff₀ hpos]
    calc (num : ℚ) < 2 ^ ((Nat.log2 num : Int) + 1) := hnumHigh
      _ = 2 ^ ((Nat.log2 num : Int) - Nat.log2 den + 1) * 2 ^ (Nat.log2 den : Int) := by
          rw [← zpow_add₀ htwo]
          congr 1
          ring
      _ ≤ 2 ^ ((Nat.log2 num : Int) - Nat.log2 den + 1) * den :=
          mul_le_mul_of_nonneg_left hdenLow (zpow_nonneg (by norm_num) _)

/-- At its exponent a quotient has fifty-three bits before the point. -/
theorem quotientExponent_spec :
    (2 : ℚ) ^ (52 + quotientExponent num den) ≤ num / den ∧
      (num / den : ℚ) < 2 ^ (53 + quotientExponent num den) := by
  obtain ⟨hlow, hhigh⟩ := quotient_log2 hnum hden
  have hpos : (0 : ℚ) < den := by exact_mod_cast hden
  have hguess : ∀ q : Int, scaled num 0 < scaled (Nat.pow 2 52 * den) q ↔
      (num / den : ℚ) < 2 ^ (52 + q) := by
    intro q
    unfold scaled
    rw [div_lt_iff₀ hpos, zpow_add₀ (by norm_num), zpow_zero, mul_one, Nat.cast_mul]
    have hpow : ((Nat.pow 2 52 : Nat) : ℚ) = 2 ^ (52 : Int) := by norm_num
    rw [hpow, mul_right_comm]
  unfold quotientExponent
  dsimp only
  split
  · rename_i h
    rw [scaledLt_iff, hguess] at h
    refine ⟨hlow.le.trans' (le_of_eq ?_), h.trans_eq ?_⟩ <;> congr 1 <;> ring
  · rename_i h
    rw [scaledLt_iff, hguess, not_lt] at h
    refine ⟨h, hhigh.trans_eq ?_⟩
    congr 1
    ring

/-- The significand of a rounded quotient is the exact quotient at that exponent, rounded. -/
theorem quotient_at_exponent :
    ((num * Nat.pow 2 (-quotientExponent num den).toNat : Nat) : ℚ) /
        (den * Nat.pow 2 (quotientExponent num den).toNat : Nat) =
      num / den / 2 ^ quotientExponent num den := by
  generalize quotientExponent num den = q
  have hpos : (den : ℚ) ≠ 0 := by exact_mod_cast Nat.ne_of_gt hden
  have htwo : (2 : ℚ) ≠ 0 := by norm_num
  have hpower : (2 : ℚ) ^ q = 2 ^ q.toNat / 2 ^ (-q).toNat := by
    rw [eq_div_iff (pow_ne_zero _ htwo), ← zpow_natCast, ← zpow_natCast, ← zpow_add₀ htwo]
    congr 1
    omega
  rw [hpower, Nat.cast_mul, Nat.cast_mul]
  simp only [Nat.pow_eq, Nat.cast_pow, Nat.cast_ofNat]
  field_simp

end Quotient

/-! ## Rounded quotients -/

/-- The nearest double to a quotient of counts. -/
def roundedQuotient (num den : Nat) : ℚ :=
  scaled (nearestQuotient num den).1 (nearestQuotient num den).2

section Rounded

variable {num den : Nat} (hnum : 0 < num) (hden : 0 < den)
include hnum hden

/-- The significand of a rounded quotient has fifty-three bits, or it is the next power of two. -/
theorem significand_bounds :
    Nat.pow 2 52 ≤ (nearestQuotient num den).1 ∧ (nearestQuotient num den).1 ≤ Nat.pow 2 53 := by
  obtain ⟨hlow, hhigh⟩ := quotientExponent_spec hnum hden
  have hshifted := quotient_at_exponent hnum hden
  have hunit : (0 : ℚ) < 2 ^ quotientExponent num den := zpow_pos (by norm_num) _
  have hden' : 0 < den * Nat.pow 2 (quotientExponent num den).toNat :=
    Nat.mul_pos hden (Nat.pow_pos (by norm_num))
  have hpos : (0 : ℚ) < (den * Nat.pow 2 (quotientExponent num den).toNat : Nat) := by
    exact_mod_cast hden'
  rw [zpow_add₀ (by norm_num), ← le_div_iff₀ hunit, ← hshifted, le_div_iff₀ hpos] at hlow
  rw [zpow_add₀ (by norm_num), ← div_lt_iff₀ hunit, ← hshifted, div_lt_iff₀ hpos] at hhigh
  have hone : (0 : Nat) < 1 := Nat.one_pos
  constructor
  · rw [← divNearestEven_mul (Nat.pow 2 52) hone]
    refine divNearestEven_mono hone hden' ?_
    rw [Nat.mul_one, Nat.mul_one]
    exact_mod_cast hlow
  · rw [← divNearestEven_mul (Nat.pow 2 53) hone]
    refine divNearestEven_mono hden' hone ?_
    rw [Nat.mul_one, Nat.mul_one]
    exact_mod_cast hhigh.le

/-- Rounding adds one part in 2 ^ 53 at most. -/
theorem roundedQuotient_le :
    roundedQuotient num den ≤ num / den * (1 + 1 / 2 ^ 53) := by
  obtain ⟨hlow, -⟩ := quotientExponent_spec hnum hden
  have hshifted := quotient_at_exponent hnum hden
  have hunit : (0 : ℚ) < 2 ^ quotientExponent num den := zpow_pos (by norm_num) _
  have hden' : 0 < den * Nat.pow 2 (quotientExponent num den).toNat :=
    Nat.mul_pos hden (Nat.pow_pos (by norm_num))
  have hpos : (0 : ℚ) < (den * Nat.pow 2 (quotientExponent num den).toNat : Nat) := by
    exact_mod_cast hden'
  have hnear := (divNearestEven_near
    (num * Nat.pow 2 (-quotientExponent num den).toNat) hden').2
  have hhalf : ((nearestQuotient num den).1 : ℚ) ≤
      num / den / 2 ^ quotientExponent num den + 1 / 2 := by
    rw [← hshifted, div_add_div _ _ hpos.ne' (by norm_num), le_div_iff₀ (by positivity)]
    have hcast : (2 : ℚ) * ((den * Nat.pow 2 (quotientExponent num den).toNat : Nat) *
        (nearestQuotient num den).1) ≤
          2 * (num * Nat.pow 2 (-quotientExponent num den).toNat : Nat) +
            (den * Nat.pow 2 (quotientExponent num den).toNat : Nat) := by
      exact_mod_cast hnear
    linarith
  have hbits : (2 : ℚ) ^ quotientExponent num den * 2 ^ 52 ≤ num / den := by
    rw [zpow_add₀ (by norm_num), mul_comm] at hlow
    exact_mod_cast hlow
  calc roundedQuotient num den
      ≤ (num / den / 2 ^ quotientExponent num den + 1 / 2) * 2 ^ quotientExponent num den :=
        mul_le_mul_of_nonneg_right hhalf hunit.le
    _ = num / den + 2 ^ quotientExponent num den / 2 := by
        field_simp
    _ ≤ num / den * (1 + 1 / 2 ^ 53) := by
        linarith

end Rounded

/-- Rounding keeps the order of quotients, whatever their exponents are. -/
theorem roundedQuotient_mono {num₁ den₁ num₂ den₂ : Nat} (hnum₁ : 0 < num₁) (hden₁ : 0 < den₁)
    (hnum₂ : 0 < num₂) (hden₂ : 0 < den₂) (hmono : num₁ * den₂ ≤ num₂ * den₁) :
    roundedQuotient num₁ den₁ ≤ roundedQuotient num₂ den₂ := by
  have hexact : (num₁ / den₁ : ℚ) ≤ num₂ / den₂ := by
    rw [div_le_div_iff₀ (by exact_mod_cast hden₁) (by exact_mod_cast hden₂)]
    exact_mod_cast hmono
  obtain ⟨hlow₁, -⟩ := quotientExponent_spec hnum₁ hden₁
  obtain ⟨-, hhigh₂⟩ := quotientExponent_spec hnum₂ hden₂
  have hexponents : 52 + quotientExponent num₁ den₁ < 53 + quotientExponent num₂ den₂ :=
    (zpow_lt_zpow_iff_right₀ (by norm_num : (1 : ℚ) < 2)).mp
      ((hlow₁.trans hexact).trans_lt hhigh₂)
  have htwo : (0 : ℚ) ≤ 2 := by norm_num
  rcases eq_or_lt_of_le (show quotientExponent num₁ den₁ ≤ quotientExponent num₂ den₂ by omega) with
    hsame | hless
  · -- At one exponent both are rounded to whole numbers.
    have hsignificands : (nearestQuotient num₁ den₁).1 ≤ (nearestQuotient num₂ den₂).1 := by
      have hunit : (0 : ℚ) < 2 ^ quotientExponent num₂ den₂ := zpow_pos (by norm_num) _
      have h₁ := quotient_at_exponent hnum₁ hden₁
      have h₂ := quotient_at_exponent hnum₂ hden₂
      have hpos₁ : 0 < den₁ * Nat.pow 2 (quotientExponent num₁ den₁).toNat :=
        Nat.mul_pos hden₁ (Nat.pow_pos (by norm_num))
      have hpos₂ : 0 < den₂ * Nat.pow 2 (quotientExponent num₂ den₂).toNat :=
        Nat.mul_pos hden₂ (Nat.pow_pos (by norm_num))
      refine divNearestEven_mono hpos₁ hpos₂ ?_
      have hquotients := div_le_div_of_nonneg_right hexact hunit.le
      rw [← h₂, ← hsame, ← h₁, div_le_div_iff₀ (by exact_mod_cast hpos₁)
        (by exact_mod_cast hsame ▸ hpos₂)] at hquotients
      rw [← hsame]
      exact_mod_cast hquotients
    show scaled _ (quotientExponent num₁ den₁) ≤ scaled _ (quotientExponent num₂ den₂)
    rw [hsame]
    exact mul_le_mul_of_nonneg_right (by exact_mod_cast hsignificands) (zpow_nonneg htwo _)
  · -- The smaller quotient is at most the least number with the larger exponent.
    have hhigh := (significand_bounds hnum₁ hden₁).2
    have hlow := (significand_bounds hnum₂ hden₂).1
    calc roundedQuotient num₁ den₁
        ≤ (2 : ℚ) ^ (53 : Int) * 2 ^ quotientExponent num₁ den₁ := by
          refine mul_le_mul_of_nonneg_right ?_ (zpow_nonneg htwo _)
          exact_mod_cast hhigh
      _ = (2 : ℚ) ^ (52 : Int) * 2 ^ (quotientExponent num₁ den₁ + 1) := by
          rw [← zpow_add₀ (by norm_num), ← zpow_add₀ (by norm_num)]
          congr 1
          ring
      _ ≤ (2 : ℚ) ^ (52 : Int) * 2 ^ quotientExponent num₂ den₂ := by
          refine mul_le_mul_of_nonneg_left ?_ (zpow_nonneg htwo _)
          exact zpow_le_zpow_right₀ (by norm_num) (by omega)
      _ ≤ roundedQuotient num₂ den₂ := by
          refine mul_le_mul_of_nonneg_right ?_ (zpow_nonneg htwo _)
          exact_mod_cast hlow

/-- The quotient of a number by itself is one, and needs no rounding. -/
theorem roundedQuotient_self {n : Nat} (hn : 0 < n) : roundedQuotient n n = 1 := by
  obtain ⟨hlow, hhigh⟩ := quotientExponent_spec hn hn
  have hone : (n / n : ℚ) = 2 ^ (0 : Int) := by
    rw [zpow_zero, div_self (by exact_mod_cast Nat.ne_of_gt hn)]
  rw [hone] at hlow hhigh
  have hlow' := (zpow_le_zpow_iff_right₀ (by norm_num : (1 : ℚ) < 2)).mp hlow
  have hhigh' := (zpow_lt_zpow_iff_right₀ (by norm_num : (1 : ℚ) < 2)).mp hhigh
  have hexponent : quotientExponent n n = -52 := by omega
  have hsignificand : (nearestQuotient n n).1 = Nat.pow 2 52 := by
    show divNearestEven (n * Nat.pow 2 (-quotientExponent n n).toNat)
      (n * Nat.pow 2 (quotientExponent n n).toNat) = _
    rw [hexponent]
    show divNearestEven (n * Nat.pow 2 52) (n * 1) = _
    rw [Nat.mul_one, Nat.mul_comm n]
    exact divNearestEven_mul _ hn
  show scaled (nearestQuotient n n).1 (quotientExponent n n) = 1
  rw [hsignificand, hexponent]
  norm_num [scaled]

/-! ## Quotients below a threshold -/

section Below

variable {x : Binary64} (hx : x.isThreshold = true) {num den : Nat}
include hx

/-- The test for a quotient below a threshold compares the rounded quotient with it. -/
theorem quotientBelow_iff : quotientBelow num den x = true ↔ roundedQuotient num den < x.toRat := by
  obtain ⟨m, q, hvalue, hrat, -, -⟩ := threshold_cases hx
  unfold quotientBelow
  rw [hvalue, hrat]
  exact scaledLt_iff _ _ _ _

/-- A quotient that has not become smaller has not fallen below the threshold. -/
theorem not_quotientBelow_of_le {more total : Nat} (hnum : 0 < num) (hden : 0 < den)
    (hmore : 0 < more) (htotal : 0 < total) (hmono : num * total ≤ more * den)
    (h : quotientBelow num den x = false) : quotientBelow more total x = false := by
  rw [Bool.eq_false_iff, ne_eq, quotientBelow_iff hx, not_lt] at h ⊢
  exact h.trans (roundedQuotient_mono hnum hden hmore htotal hmono)

/-- All of something is never below the threshold. -/
theorem not_quotientBelow_self (hnum : 0 < num) : quotientBelow num num x = false := by
  obtain ⟨-, -, -, -, -, hone⟩ := threshold_cases hx
  rw [Bool.eq_false_iff, ne_eq, quotientBelow_iff hx, roundedQuotient_self hnum, not_lt]
  exact hone

/-- If the quotient is not below the threshold, the product is not above the count, up to the rounding
of one division. -/
theorem mul_threshold_le (hnum : 0 < num) (hden : 0 < den) (h : quotientBelow num den x = false) :
    (den : ℚ) * x.toRat ≤ num * (1 + 1 / 2 ^ 53) := by
  have hpos : (0 : ℚ) < den := by exact_mod_cast hden
  rw [Bool.eq_false_iff, ne_eq, quotientBelow_iff hx, not_lt] at h
  calc (den : ℚ) * x.toRat
      ≤ den * (num / den * (1 + 1 / 2 ^ 53)) :=
        mul_le_mul_of_nonneg_left (h.trans (roundedQuotient_le hnum hden)) hpos.le
    _ = num * (1 + 1 / 2 ^ 53) := by
        field_simp

end Below

/-- The double next to three tenths lies below it, and three of ten are not too few for it. -/
example : quotientBelow 3 10 ⟨0x3fd3333333333333⟩ = false := by decide

end Waitset.Binary64
