import ReadOnce.Bytes

/-!
# The order of fixed-width numbers

Numbers that are written most significant byte first are in the order of their bytes, whatever
follows them. Every byte string begins with a number of any width that it is long enough for, so it
stands before another number of this width exactly if its own is less.
-/

namespace ReadOnce.Bytes

theorem ofNatBE_succ (width n : Nat) :
    ofNatBE (width + 1) n = ofNatBE width (n / 256) ++ [UInt8.ofNat n] := by
  simp [ofNatBE, ofNatLE]

/-- The first bytes in which two numbers differ decide, so what follows them has no say. -/
theorem ofNatBE_append_lt {width a b : Nat} (hb : b < Nat.pow 256 width) (h : a < b)
    (rest rest' : Bytes) : ofNatBE width a ++ rest < ofNatBE width b ++ rest' := by
  induction width generalizing a b rest rest' with
  | zero =>
      have hone : Nat.pow 256 0 = 1 := rfl
      omega
  | succ width ih =>
      have hpow : Nat.pow 256 (width + 1) = Nat.pow 256 width * 256 := rfl
      rw [ofNatBE_succ, ofNatBE_succ, List.append_assoc, List.append_assoc]
      by_cases hhigh : a / 256 < b / 256
      · exact ih (by omega) hhigh _ _
      · have heq : a / 256 = b / 256 := by omega
        have hlow : UInt8.ofNat a < UInt8.ofNat b := by
          rw [UInt8.lt_iff_toNat_lt, UInt8.toNat_ofNat', UInt8.toNat_ofNat']
          omega
        rw [heq]
        exact List.append_left_lt (List.cons_lt_cons_iff.2 (.inl hlow))

/-- What follows a number has no say in whether it stands before another one. -/
theorem ofNatBE_append_lt_iff {width a b : Nat} (ha : a < Nat.pow 256 width)
    (hb : b < Nat.pow 256 width) (rest : Bytes) :
    ofNatBE width a ++ rest < ofNatBE width b ↔ a < b := by
  constructor
  · intro hlt
    rcases Nat.lt_trichotomy a b with h | rfl | hgt
    · exact h
    · exact absurd hlt (List.not_lt.2 List.le_append_left)
    · have hafter := ofNatBE_append_lt ha hgt [] rest
      rw [List.append_nil] at hafter
      exact absurd hlt (List.lt_asymm hafter)
  · intro h
    have hlt := ofNatBE_append_lt hb h rest []
    rwa [List.append_nil] at hlt

/-- The number that bytes write, most significant first. -/
def toNatBE (b : Bytes) : Nat :=
  toNatLE b.reverse

theorem toNatLE_lt (b : Bytes) : toNatLE b < Nat.pow 256 b.length := by
  induction b with
  | nil => exact Nat.one_pos
  | cons x rest ih =>
      have hx := x.toNat_lt
      have hpow : Nat.pow 256 (rest.length + 1) = Nat.pow 256 rest.length * 256 := rfl
      rw [toNatLE, List.length_cons, hpow]
      omega

@[simp] theorem ofNatLE_toNatLE (b : Bytes) : ofNatLE b.length (toNatLE b) = b := by
  induction b with
  | nil => rfl
  | cons x rest ih =>
      have hx := x.toNat_lt
      have hhigh : (x.toNat + 256 * toNatLE rest) / 256 = toNatLE rest := by omega
      have hlow : UInt8.ofNat (x.toNat + 256 * toNatLE rest) = x := by
        apply UInt8.toNat_inj.1
        rw [UInt8.toNat_ofNat']
        omega
      rw [List.length_cons, toNatLE, ofNatLE, hhigh, hlow, ih]

theorem toNatBE_lt (b : Bytes) : toNatBE b < Nat.pow 256 b.length := by
  have hlt := toNatLE_lt b.reverse
  rwa [List.length_reverse] at hlt

@[simp] theorem ofNatBE_toNatBE (b : Bytes) : ofNatBE b.length (toNatBE b) = b := by
  have hread := ofNatLE_toNatLE b.reverse
  rw [List.length_reverse] at hread
  rw [ofNatBE, toNatBE, hread, List.reverse_reverse]

/-- Bytes stand before a number exactly if the number that they begin with is less. -/
theorem lt_ofNatBE_iff {width n : Nat} {b : Bytes} (hb : width ≤ b.length)
    (hn : n < Nat.pow 256 width) : b < ofNatBE width n ↔ toNatBE (b.take width) < n := by
  have hwidth : (b.take width).length = width := List.length_take_of_le hb
  have hhead := ofNatBE_toNatBE (b.take width)
  have hlt := toNatBE_lt (b.take width)
  rw [hwidth] at hhead hlt
  have hiff := ofNatBE_append_lt_iff hlt hn (b.drop width)
  rwa [hhead, List.take_append_drop] at hiff

end ReadOnce.Bytes
