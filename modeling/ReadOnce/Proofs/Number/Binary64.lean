import Mathlib
import ReadOnce.Number.Binary64

/-!
# Bits and values of floating-point numbers

The type `Float` has a model in which a number is unpacked from its bits, worked on, and packed
again. A number is normal if its mantissa has full length. Then it is unpacked as it was packed, and
its mantissa, exponent and sign are those that are read off its bits, so that comparing it with a
whole number compares its value.
-/

open Float.Model UnpackedFloat

namespace ReadOnce.Binary64

variable {x : Float} {s : Sign} {m : Nat} {e : Int}

theorem toNat_one_append (b : BitVec 52) : (1#1 ++ b).toNat = leading + b.toNat := by
  rw [BitVec.toNat_append, ← Nat.shiftLeft_add_eq_or_of_lt b.isLt]
  rfl

theorem log2_eq (hfirst : leading ≤ m) (hlt : m < 2 * leading) : m.log2 = 52 :=
  (Nat.log2_eq_iff (Nat.pos_iff_ne_zero.1 (Nat.lt_of_lt_of_le (by decide) hfirst))).2 ⟨hfirst, hlt⟩

theorem unpack_pack (hpos : 0 < m) (hfirst : leading ≤ m) (hlt : m < 2 * leading)
    (hlow : -1074 ≤ e) (hhigh : e ≤ 971) :
    (Float.Model.pack (.finite s m e hpos)).unpack = .finite s m e hpos := by
  obtain ⟨k, hk⟩ := Int.eq_ofNat_of_zero_le (show 0 ≤ e + 1075 by omega)
  have hexponent : (BitVec.ofNat 11 k).toNat = k := by
    rw [BitVec.toNat_ofNat]
    omega
  have hmantissa : (1#1 ++ BitVec.ofNat 52 m).toNat = m := by
    rw [toNat_one_append, BitVec.toNat_ofNat]
    simp only [leading] at hfirst hlt ⊢
    omega
  have hpack : UnpackedFloat.pack Format.binary64 (.finite s m e hpos) =
      packComponents Format.binary64 s (BitVec.ofNat 11 k) (BitVec.ofNat 52 m) := by
    have hbiased : (e + (1023 : Nat) + (52 : Nat)).toNat = k := by omega
    show (if 2048 ≤ (e + (1023 : Nat) + (52 : Nat)).toNat + 1 then _ else
      if m.log2 + 1 = 53 then
        packComponents Format.binary64 s (BitVec.ofNat 11 (e + (1023 : Nat) + (52 : Nat)).toNat) _
      else _) = _
    rw [hbiased, if_neg (by omega), log2_eq hfirst hlt, if_pos rfl]
  have hfinite : BitVec.ofNat 11 k ≠ -1#11 := by
    intro h
    have h := congrArg BitVec.toNat h
    rw [hexponent, show (-1#11).toNat = 2047 from rfl] at h
    omega
  have hnonzero : BitVec.ofNat 11 k ≠ 0#11 := by
    intro h
    have h := congrArg BitVec.toNat h
    rw [hexponent, show (0#11).toNat = 0 from rfl] at h
    omega
  have he : ((BitVec.ofNat 11 k).toNat : Int) - ((1023 : Nat) + (52 : Nat)) = e := by
    rw [hexponent]
    omega
  show UnpackedFloat.unpack Format.binary64 (UnpackedFloat.pack _ _) = _
  rw [hpack, UnpackedFloat.unpack]
  simp only [unpackExponent_packComponents, unpackMantissa_packComponents,
    unpackSign_packComponents, Sign.ofBitVec_toBitVec]
  rw [if_neg hfinite, if_neg hnonzero]
  congr 1

/-- A number is `± m * 2 ^ e`, with a mantissa `m` of full length. -/
structure IsNormal (x : Float) (s : Sign) (m : Nat) (e : Int) : Prop where
  unpack : ∃ hpos, x.toModel.unpack = .finite s m e hpos
  first_le : leading ≤ m
  lt : m < 2 * leading

theorem isNormal_pack (hpos : 0 < m) (hfirst : leading ≤ m) (hlt : m < 2 * leading)
    (hlow : -1074 ≤ e) (hhigh : e ≤ 971) :
    IsNormal (.ofModel (.pack (.finite s m e hpos))) s m e :=
  ⟨⟨hpos, unpack_pack hpos hfirst hlt hlow hhigh⟩, hfirst, hlt⟩

theorem isNormal_one : IsNormal (.ofBits 0x3FF0000000000000) .positive leading (-52) :=
  ⟨⟨by decide, rfl⟩, Nat.le_refl _, by decide⟩

theorem IsNormal.neg (h : IsNormal x s m e) (hlow : -1074 ≤ e) (hhigh : e ≤ 971) :
    IsNormal x.neg (-s) m e := by
  obtain ⟨⟨hpos, hx⟩, hfirst, hlt⟩ := h
  show IsNormal (.ofModel (.pack x.toModel.unpack.neg)) (-s) m e
  rw [hx]
  exact isNormal_pack hpos hfirst hlt hlow hhigh

theorem toNat_unpackMantissa (bits : UInt64) :
    (@unpackMantissa Format.binary64 bits.toBitVec).toNat = bits.toNat % leading :=
  rfl

theorem toNat_unpackExponent (bits : UInt64) :
    (@unpackExponent Format.binary64 bits.toBitVec).toNat =
      bits.toNat / leading % 2048 := by
  show (bits.toNat >>> 52) % 2 ^ 11 = _
  rw [Nat.shiftRight_eq_div_pow]
  rfl

theorem toNat_unpackSign (bits : UInt64) :
    (@unpackSign Format.binary64 bits.toBitVec).toNat =
      bits.toNat / (2048 * leading) := by
  have hlt := bits.toNat_lt
  show (bits.toNat >>> 63) % 2 ^ 1 = _
  rw [Nat.shiftRight_eq_div_pow]
  show bits.toNat / 9223372036854775808 % 2 = bits.toNat / 9223372036854775808
  omega

theorem isNegative_iff (x : Float) :
    isNegative x = true ↔
      Sign.ofBitVec (@unpackSign Format.binary64 x.toBits.toBitVec) = .negative := by
  have hsign := toNat_unpackSign x.toBits
  rw [isNegative, decide_eq_true_eq, Sign.ofBitVec]
  split
  · rename_i hzero
    rw [hzero] at hsign
    have hlt := (Nat.div_eq_zero_iff_lt (by decide)).1 hsign.symm
    exact ⟨fun hle => absurd hle (Nat.not_le_of_lt hlt), fun h => nomatch h⟩
  · rename_i hone
    refine ⟨fun _ => rfl, fun _ => ?_⟩
    by_contra hlt
    rw [Nat.div_eq_of_lt (Nat.lt_of_not_le hlt)] at hsign
    exact hone (BitVec.eq_of_toNat_eq hsign)

/-- What a normal number is unpacked to is what is read off its bits. -/
theorem IsNormal.bits_eq (h : IsNormal x s m e) :
    mantissa x = m ∧ exponent x = e ∧ (isNegative x = true ↔ s = .negative) := by
  obtain ⟨⟨hpos, hx⟩, hfirst, hlt⟩ := h
  have hx : UnpackedFloat.unpack Format.binary64 x.toBits.toBitVec = .finite s m e hpos := hx
  rw [UnpackedFloat.unpack] at hx
  dsimp only at hx
  split at hx
  · split at hx <;> contradiction
  · split at hx
    · split at hx
      · contradiction
      · -- A number with the least exponent has a shorter mantissa.
        cases hx
        have hshort := Nat.mod_lt x.toBits.toNat (show 0 < leading by decide)
        rw [toNat_unpackMantissa] at hfirst
        omega
    · rename_i hnotSmall
      cases hx
      have hnonzero : x.toBits.toNat / leading % 2048 ≠ 0 := by
        intro h
        exact hnotSmall (BitVec.eq_of_toNat_eq ((toNat_unpackExponent _).trans h))
      refine ⟨?_, ?_, isNegative_iff x⟩
      · rw [toNat_one_append, toNat_unpackMantissa, mantissa, if_neg hnonzero]
      · rw [toNat_unpackExponent, exponent]
        show _ = ((x.toBits.toNat / leading % 2048 : Nat) : Int) - ((1023 : Nat) + (52 : Nat))
        omega

/-- A negative normal number is at most a whole number that its size reaches. -/
theorem IsNormal.atMost_neg {b : Nat} (h : IsNormal x .negative m e)
    (hle : (b : ℚ) ≤ m * 2 ^ e) : atMost x (-b) = true := by
  obtain ⟨hmantissa, hexponent, hsign⟩ := h.bits_eq
  rw [atMost, decide_eq_true_eq, numerator, if_pos (hsign.2 rfl), denominator, hmantissa, hexponent]
  have hscaled : (b * 2 ^ (-e).toNat : ℚ) ≤ m * 2 ^ e.toNat := by
    have hsplit : (2 : ℚ) ^ e * 2 ^ (-e).toNat = 2 ^ e.toNat := by
      rw [← zpow_natCast, ← zpow_natCast, ← zpow_add₀ two_ne_zero]
      congr 1
      omega
    rw [← hsplit, ← mul_assoc]
    exact mul_le_mul_of_nonneg_right hle (by positivity)
  have hscaled : b * 2 ^ (-e).toNat ≤ m * 2 ^ e.toNat := by exact_mod_cast hscaled
  rw [Int.neg_mul]
  exact Int.neg_le_neg (by exact_mod_cast hscaled)

end ReadOnce.Binary64
