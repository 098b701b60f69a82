import ReadOnce.Proofs.Number.Binary64

/-!
# Rounding from below

A result that does not fit a mantissa of full length is cut to one, or the next one is taken. Which
of the two does not matter for a lower bound that is itself written with such a mantissa: a number
that reaches the bound still does so when it is rounded. That is carried through the conversion of
whole numbers and through a product.
-/

open Float.Model UnpackedFloat

namespace ReadOnce.Binary64

variable {x y : Float} {s s' : Sign} {m m' : Nat} {e e' : Int}

theorem mantissa_shiftRight (em : ExtendedMantissa) (k : Nat) :
    (em >>> k).mantissa = em.mantissa / 2 ^ k := by
  induction k with
  | zero => exact (Nat.div_one _).symm
  | succ k ih =>
      have hstep : (em >>> (k + 1)).mantissa = (em >>> k).mantissa / 2 := rfl
      rw [hstep, ih, Nat.div_div_eq_div_mul, Nat.pow_succ]

theorem roundedMantissa_mem (em : ExtendedMantissa) :
    em.mantissa ≤ em.roundedMantissa ∧ em.roundedMantissa ≤ em.mantissa + 1 := by
  obtain ⟨m, round, sticky⟩ := em
  cases round <;> cases sticky <;>
    simp only [ExtendedMantissa.roundedMantissa, ExtendedMantissa.accuracy,
      Accuracy.roundToNearestEven] <;> omega

theorem shiftToTargetExponent_eq (hlog : 52 ≤ m.log2) (hlow : -1074 ≤ e) :
    shiftToTargetExponent Format.binary64 m e .exact =
      (ExtendedMantissa.mk m false false >>> (m.log2 - 52), e + (m.log2 - 52 : Nat)) := by
  have htarget : (Format.binary64.targetExponent (totalExponent m e) - e).toNat = m.log2 - 52 := by
    show (max ((m.log2 : Int) + 1 + e - (53 : Nat)) (3 - 2 ^ 10 - (53 : Nat)) - e).toNat = _
    omega
  simp only [shiftToTargetExponent, shiftToExponent, htarget,
    ExtendedMantissa.ofMantissaAndAccuracy]

theorem div_two_pow_log2_mem (hlog : 52 ≤ m.log2) :
    leading ≤ m / 2 ^ (m.log2 - 52) ∧ m / 2 ^ (m.log2 - 52) < 2 * leading := by
  have hm : m ≠ 0 := by
    rintro rfl
    simp at hlog
  have hpow : 0 < 2 ^ (m.log2 - 52) := Nat.two_pow_pos _
  constructor
  · rw [Nat.le_div_iff_mul_le hpow]
    calc leading * 2 ^ (m.log2 - 52) = 2 ^ m.log2 := by
          rw [show leading = 2 ^ 52 from rfl, ← Nat.pow_add]
          congr 1
          omega
      _ ≤ m := Nat.log2_self_le hm
  · rw [Nat.div_lt_iff_lt_mul hpow]
    calc m < 2 ^ (m.log2 + 1) := Nat.lt_log2_self
      _ = 2 * leading * 2 ^ (m.log2 - 52) := by
          rw [show 2 * leading = 2 ^ 53 from rfl, ← Nat.pow_add]
          congr 1
          omega

theorem roundWithAccuracy_eq {em em' : ExtendedMantissa} {e₁ e₂ : Int} (s : Sign)
    (h : shiftToTargetExponent Format.binary64 m e .exact = (em, e₁))
    (h' : shiftToTargetExponent Format.binary64 em.roundedMantissa e₁ .exact = (em', e₂))
    (hpos : 0 < em'.mantissa) :
    roundWithAccuracy Format.binary64 s m e .exact = .finite s em'.mantissa e₂ hpos := by
  simp only [roundWithAccuracy, h]
  simp only [h']
  exact dif_neg (Nat.pos_iff_ne_zero.1 hpos)

/-- Rounding cuts a mantissa to full length, or takes the next one. -/
theorem exists_roundWithAccuracy (s : Sign) (hlog : 52 ≤ m.log2) (hlow : -1074 ≤ e) :
    ∃ r e' hpos, roundWithAccuracy Format.binary64 s m e .exact = .finite s r e' hpos ∧
      leading ≤ r ∧ r < 2 * leading ∧
      (m / 2 ^ (m.log2 - 52) ≤ r ∧ e' = e + (m.log2 - 52 : Nat) ∨
        r = leading ∧ e' = e + (m.log2 - 52 : Nat) + 1) := by
  obtain ⟨hfirst, hlt⟩ := div_two_pow_log2_mem hlog
  have hshift := shiftToTargetExponent_eq hlog hlow
  have hcut := mantissa_shiftRight ⟨m, false, false⟩ (m.log2 - 52)
  generalize ExtendedMantissa.mk m false false >>> (m.log2 - 52) = em at hshift hcut
  have hcut : em.mantissa = m / 2 ^ (m.log2 - 52) := hcut
  obtain ⟨hle, hge⟩ := roundedMantissa_mem em
  have hlow' : -1074 ≤ e + (m.log2 - 52 : Nat) := by omega
  -- Only a mantissa of ones gets longer when the next one is taken.
  by_cases hr : em.roundedMantissa < 2 * leading
  · have hfull : em.roundedMantissa.log2 = 52 := log2_eq (by omega) hr
    have hagain := shiftToTargetExponent_eq (Nat.le_of_eq hfull.symm) hlow'
    rw [hfull] at hagain
    have hpos : 0 < em.roundedMantissa := by
      simp only [leading] at hfirst
      omega
    exact ⟨em.roundedMantissa, _, hpos, roundWithAccuracy_eq s hshift hagain hpos, by omega, hr,
      .inl ⟨by omega, Int.add_zero _⟩⟩
  · have hr : em.roundedMantissa = 2 * leading := by omega
    have hagain := shiftToTargetExponent_eq (m := 2 * leading) (by decide) hlow'
    rw [← hr] at hagain
    have hhalf : (ExtendedMantissa.mk em.roundedMantissa false false >>>
        (em.roundedMantissa.log2 - 52)).mantissa = leading := by
      rw [hr]
      rfl
    have hpos : 0 < leading := by decide
    have hround := roundWithAccuracy_eq s hshift hagain (hhalf ▸ hpos)
    simp only [hhalf] at hround
    refine ⟨leading, _, hpos, hround, Nat.le_refl _, by decide, .inr ⟨rfl, ?_⟩⟩
    rw [hr]
    rfl

/-- A mantissa cut to full length stays above what is itself written with one. -/
theorem le_cut {c r : Nat} {j : Int} (hc : c ≤ 2 * leading)
    (hle : (c : ℚ) * 2 ^ j ≤ m * 2 ^ e) (hr : leading ≤ r) (hcut : m / 2 ^ (m.log2 - 52) ≤ r) :
    (c : ℚ) * 2 ^ j ≤ r * 2 ^ (e + (m.log2 - 52 : Nat)) := by
  generalize m.log2 - 52 = k at hcut ⊢
  have hpow : (0 : ℚ) < 2 ^ (e + k) := by positivity
  rcases le_or_gt (e + k) j with hj | hj
  · -- The bound is a whole number of units of the cut mantissa.
    obtain ⟨t, ht⟩ := Int.eq_ofNat_of_zero_le (Int.sub_nonneg_of_le hj)
    obtain rfl : j = t + (e + k) := by omega
    have hunits : c * 2 ^ t * 2 ^ k ≤ m := by
      have hpow : (0 : ℚ) < 2 ^ e := by positivity
      rw [zpow_add₀ two_ne_zero, zpow_add₀ two_ne_zero e, zpow_natCast, zpow_natCast] at hle
      have hle : (c : ℚ) * 2 ^ t * 2 ^ k * 2 ^ e ≤ m * 2 ^ e := by linarith
      exact_mod_cast le_of_mul_le_mul_right hle hpow
    have hunits : c * 2 ^ t ≤ r :=
      Nat.le_trans ((Nat.le_div_iff_mul_le (Nat.two_pow_pos k)).2 hunits) hcut
    rw [zpow_add₀ two_ne_zero, zpow_natCast, ← mul_assoc]
    exact mul_le_mul_of_nonneg_right (by exact_mod_cast hunits) hpow.le
  · -- The bound is less than the least mantissa of full length.
    calc (c : ℚ) * 2 ^ j ≤ (2 * leading : Nat) * 2 ^ (e + k - 1) := by
          have hpow : (2 : ℚ) ^ j ≤ 2 ^ (e + k - 1) := zpow_le_zpow_right₀ one_le_two (by omega)
          exact mul_le_mul (by exact_mod_cast hc) hpow (by positivity) (by positivity)
      _ = leading * 2 ^ (e + k) := by
          rw [zpow_sub_one₀ two_ne_zero]
          push_cast
          ring
      _ ≤ r * 2 ^ (e + k) := mul_le_mul_of_nonneg_right (by exact_mod_cast hr) hpow.le

/-- What a number written with a mantissa of full length is rounded to is at least every bound that
is written so too and that the number reaches. -/
theorem exists_isNormal_round (s : Sign) (hlog : 52 ≤ m.log2) (hlow : -1074 ≤ e)
    (hhigh : e + m.log2 ≤ 1022) :
    ∃ m' e', IsNormal (.ofModel (.pack (roundWithAccuracy Format.binary64 s m e .exact))) s m' e' ∧
      e ≤ e' ∧ e' ≤ e + m.log2 - 51 ∧
      ∀ (c : Nat) (j : Int), c ≤ 2 * leading → (c : ℚ) * 2 ^ j ≤ m * 2 ^ e →
        (c : ℚ) * 2 ^ j ≤ m' * 2 ^ e' := by
  obtain ⟨r, e', hpos, hround, hfirst, hlt, hcases⟩ := exists_roundWithAccuracy s hlog hlow
  have hexp : e + m.log2 - 52 ≤ e' ∧ e' ≤ e + m.log2 - 51 := by omega
  refine ⟨r, e', ?_, by omega, hexp.2, ?_⟩
  · rw [hround]
    exact isNormal_pack hpos hfirst hlt (by omega) (by omega)
  · intro c j hc hle
    rcases hcases with ⟨hcut, rfl⟩ | ⟨rfl, rfl⟩
    · exact le_cut hc hle hfirst hcut
    · obtain ⟨hcut, hcutlt⟩ := div_two_pow_log2_mem hlog
      refine (le_cut hc hle (r := 2 * leading) (by decide) hcutlt.le).trans (le_of_eq ?_)
      rw [zpow_add_one₀ two_ne_zero]
      push_cast
      ring

theorem IsNormal.mul_eq (h : IsNormal x s m e) (h' : IsNormal y s' m' e') :
    x * y = .ofModel (.pack
      (roundWithAccuracy Format.binary64 (s * s') (m * m') (e + e') .exact)) := by
  obtain ⟨⟨hpos, hx⟩, -, -⟩ := h
  obtain ⟨⟨hpos', hy⟩, -, -⟩ := h'
  show Float.ofModel (.pack (UnpackedFloat.mul _ x.toModel.unpack y.toModel.unpack)) = _
  rw [hx, hy]
  rfl

theorem IsNormal.exists_mul (h : IsNormal x s m e) (h' : IsNormal y s' m' e')
    (hlow : -1074 ≤ e + e') (hhigh : e + e' ≤ 917) :
    ∃ n i, IsNormal (x * y) (s * s') n i ∧ e + e' ≤ i ∧ i ≤ e + e' + 54 ∧
      ∀ (c : Nat) (j : Int), c ≤ 2 * leading → (c : ℚ) * 2 ^ j ≤ m * 2 ^ e * (m' * 2 ^ e') →
        (c : ℚ) * 2 ^ j ≤ n * 2 ^ i := by
  have hm : leading * leading ≤ m * m' := Nat.mul_le_mul h.first_le h'.first_le
  have hlt : m * m' < 2 * leading * (2 * leading) := Nat.mul_lt_mul'' h.lt h'.lt
  have hne : m * m' ≠ 0 := Nat.pos_iff_ne_zero.1 (Nat.lt_of_lt_of_le (by decide) hm)
  have hlog : 52 ≤ (m * m').log2 := (Nat.le_log2 hne).2 (Nat.le_trans (by decide) hm)
  have hlog' : (m * m').log2 < 106 := (Nat.log2_lt hne).2 hlt
  obtain ⟨n, i, hnormal, hge, hle, hbound⟩ :=
    exists_isNormal_round (s * s') hlog hlow (by omega)
  refine ⟨n, i, h.mul_eq h' ▸ hnormal, hge, by omega, ?_⟩
  intro c j hc hcj
  refine hbound c j hc (hcj.trans (le_of_eq ?_))
  rw [zpow_add₀ two_ne_zero]
  push_cast
  ring

theorem ofNat_eq_of_lt {n : Nat} (hlt : n < 2 ^ 53) :
    Float.ofNat n = .ofModel (.ofUInt64 n.toUInt64) * .ofBits 0x3FF0000000000000 := by
  show Float.ofScientific n false 0 = _
  rw [Float.ofScientific, dif_pos ⟨hlt, by decide⟩]
  rfl

theorem ofNat_eq_of_le {n : Nat} (hle : 2 ^ 53 ≤ n) :
    Float.ofNat n = .ofModel (.pack (roundWithAccuracy Format.binary64 .positive (n <<< 53)
      (-(53 : Nat)) .exact)) := by
  show Float.ofScientific n false 0 = _
  rw [Float.ofScientific, dif_neg (by omega)]
  show Float.ofModel (.pack (UnpackedFloat.ofScientific _ n 0)) = _
  rw [UnpackedFloat.ofScientific, dif_neg (by omega), if_neg (by decide), if_neg, if_pos (by decide)]
  · show Float.ofModel (.pack (roundWithAccuracy Format.binary64 .positive (n <<< 53 * 1)
      (-(53 : Nat) + 0) .exact)) = _
    rw [Nat.mul_one, Int.add_zero]
  · show ¬ (0 : Int) < -(2 ^ 11 + n.log2)
    omega

theorem ofUInt64_eq {n : Nat} (hpos : 0 < n) (hlt : n < 2 ^ 53) :
    Float.Model.ofUInt64 n.toUInt64 = .pack (roundWithAccuracy Format.binary64 .positive
      (n <<< (52 - n.log2)) (-(52 - n.log2 : Nat)) .exact) := by
  have hnum : n.toUInt64.toNat = n := by
    rw [Nat.toUInt64, UInt64.toNat_ofNat']
    omega
  have hgt : compare (n : Int) 0 = .gt := by
    rw [compare_gt_iff_gt]
    omega
  have hlog : n.log2 < 53 := (Nat.log2_lt (Nat.pos_iff_ne_zero.1 hpos)).2 hlt
  have hshift : (0 - Format.binary64.targetExponent (totalExponent n 0)).toNat = 52 - n.log2 := by
    show (0 - max ((n.log2 : Int) + 1 + 0 - (53 : Nat)) (3 - 2 ^ 10 - (53 : Nat))).toNat = _
    omega
  show Float.Model.pack
    (UnpackedFloat.normalize Format.binary64 (n.toUInt64.toNat : Int) 0 .positive) = _
  rw [hnum, UnpackedFloat.normalize, hgt]
  show Float.Model.pack (roundWithAccuracy Format.binary64 .positive
    (n <<< (0 - Format.binary64.targetExponent (totalExponent n 0)).toNat)
    (0 - (0 - Format.binary64.targetExponent (totalExponent n 0)).toNat) .exact) = _
  rw [hshift, Int.zero_sub]

theorem log2_shiftLeft {n : Nat} (hn : n ≠ 0) (k : Nat) : (n <<< k).log2 = n.log2 + k := by
  induction k with
  | zero => rfl
  | succ k ih =>
      have hk : n <<< k ≠ 0 := by simp [Nat.shiftLeft_eq, hn]
      rw [Nat.shiftLeft_succ, Nat.log2_two_mul hk, ih, Nat.add_assoc]

/-- A whole number that is written with enough binary places is rounded to one that is at least
every bound with a mantissa of full length that it reaches. -/
theorem exists_isNormal_round_shiftLeft {n k : Nat} (hn : n ≠ 0) (hlog : 52 ≤ n.log2 + k)
    (hlow : k ≤ 1074) (hhigh : n.log2 ≤ 1022) :
    ∃ m e, IsNormal (.ofModel (.pack
        (roundWithAccuracy Format.binary64 .positive (n <<< k) (-k) .exact))) .positive m e ∧
      -k ≤ e ∧ e ≤ n.log2 - 51 ∧ ∀ c : Nat, c ≤ 2 * leading → c ≤ n → (c : ℚ) ≤ m * 2 ^ e := by
  have hfull := log2_shiftLeft hn k
  obtain ⟨m, e, hnormal, hge, hle, hbound⟩ := exists_isNormal_round (m := n <<< k)
    (e := -k) .positive (by omega) (by omega) (by omega)
  refine ⟨m, e, hnormal, hge, by omega, ?_⟩
  intro c hc hcn
  have hvalue : ((n <<< k : Nat) : ℚ) * 2 ^ (-k : Int) = n := by
    rw [Nat.shiftLeft_eq, zpow_neg, zpow_natCast]
    push_cast
    exact mul_inv_cancel_right₀ (by positivity) _
  have h := hbound c 0 hc
  rw [zpow_zero, mul_one, hvalue] at h
  exact h (by exact_mod_cast hcn)

/-- A whole number is rounded to one that is at least every bound with a mantissa of full length
that it reaches. -/
theorem exists_isNormal_ofNat {n : Nat} (hpos : 0 < n) (hlt : n < Nat.pow 2 64) :
    ∃ m e, IsNormal (Float.ofNat n) .positive m e ∧ -106 ≤ e ∧ e ≤ 66 ∧
      ∀ c : Nat, c ≤ 2 * leading → c ≤ n → (c : ℚ) ≤ m * 2 ^ e := by
  have hn : n ≠ 0 := Nat.pos_iff_ne_zero.1 hpos
  rcases Nat.lt_or_ge n (2 ^ 53) with hsmall | hlarge
  · -- A small number is written exactly, and then rounded once more as a product with one.
    have hlog : n.log2 < 53 := (Nat.log2_lt hn).2 hsmall
    obtain ⟨m, e, hnormal, hlow, hhigh, hbound⟩ :=
      exists_isNormal_round_shiftLeft (k := 52 - n.log2) hn (by omega) (by omega) (by omega)
    rw [← ofUInt64_eq hpos hsmall] at hnormal
    obtain ⟨m', e', hnormal', hlow', hhigh', hbound'⟩ :=
      hnormal.exists_mul isNormal_one (by omega) (by omega)
    refine ⟨m', e', ofNat_eq_of_lt hsmall ▸ hnormal', by omega, by omega, ?_⟩
    intro c hc hcn
    have hone : (leading : ℚ) * 2 ^ (-52 : Int) = 1 := by
      norm_num [leading]
    have h := hbound' c 0 hc
    rw [zpow_zero, mul_one, hone, mul_one] at h
    exact h (hbound c hc hcn)
  · have hlog : n.log2 < 64 := (Nat.log2_lt hn).2 hlt
    obtain ⟨m, e, hnormal, hlow, hhigh, hbound⟩ :=
      exists_isNormal_round_shiftLeft (k := 53) hn (by omega) (by omega) (by omega)
    exact ⟨m, e, ofNat_eq_of_le hlarge ▸ hnormal, by omega, by omega, hbound⟩

/-- A deadline that leaves 64 bits at the lower end when it is brought from seconds to nanoseconds
is beyond that end as a floating-point number too. -/
theorem atMost_mul_of_lt {n : Int} (hfirst : -9223372036854775808 ≤ n) (hlt : n < -9223372036) :
    atMost (Float.ofInt n * Float.ofInt 1000000000) (-9223372036854775808) = true := by
  obtain ⟨k, rfl⟩ : ∃ k : Nat, n = Int.negSucc k := Int.eq_negSucc_of_lt_zero (by omega)
  show atMost ((Float.ofNat (k + 1)).neg * Float.ofNat 1000000000) _ = true
  obtain ⟨m, e, hsize, hlow, hhigh, hbound⟩ :=
    exists_isNormal_ofNat (n := k + 1) (by omega) (show k + 1 < 18446744073709551616 by omega)
  obtain ⟨m', e', hfactor, hlow', hhigh', hbound'⟩ :=
    exists_isNormal_ofNat (n := 1000000000) (by decide) (by decide)
  obtain ⟨i, j, hproduct, -, -, hbound''⟩ :=
    (hsize.neg (by omega) (by omega)).exists_mul hfactor (by omega) (by omega)
  have hm : ((9223372037 : Nat) : ℚ) ≤ m * 2 ^ e := hbound _ (by decide) (by omega)
  have hm' : ((1000000000 : Nat) : ℚ) ≤ m' * 2 ^ e' := hbound' _ (by decide) (Nat.le_refl _)
  have hreach : ((1 : Nat) : ℚ) * 2 ^ (63 : Int) ≤ m * 2 ^ e * (m' * 2 ^ e') :=
    calc ((1 : Nat) : ℚ) * 2 ^ (63 : Int) ≤ (9223372037 : Nat) * (1000000000 : Nat) := by norm_num
      _ ≤ m * 2 ^ e * (m' * 2 ^ e') := mul_le_mul hm hm' (by positivity) (by positivity)
  have h := hbound'' 1 63 (by decide) hreach
  exact hproduct.atMost_neg (b := 9223372036854775808) (le_trans (by norm_num) h)

end ReadOnce.Binary64
