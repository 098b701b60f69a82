import ReadOnce.Bytes

/-!
# Base64 without padding

Three bytes are written as four characters. One or two bytes at the end are written as two or three,
and the bits of the last character that no byte fills must be zero, so every byte string has exactly
one written form. `decode?_encode` says that reading undoes writing.
-/

namespace ReadOnce.Text.Base64

def alphabet : List Char :=
  "ABCDEFGHIJKLMNOPQRSTUVWXYZabcdefghijklmnopqrstuvwxyz0123456789+/".toList

def symbol (n : Nat) : Char :=
  alphabet.getD n 'A'

def value? (c : Char) : Option Nat :=
  let n := c.toNat
  if 65 ≤ n ∧ n ≤ 90 then some (n - 65)
  else if 97 ≤ n ∧ n ≤ 122 then some (n - 71)
  else if 48 ≤ n ∧ n ≤ 57 then some (n + 4)
  else if c = '+' then some 62
  else if c = '/' then some 63
  else none

/-- The written form of a byte string. -/
def encode : Bytes → List Char
  | [] => []
  | [a] =>
    let n := a.toNat * 16
    [symbol (n / 64), symbol (n % 64)]
  | [a, b] =>
    let n := (a.toNat * 256 + b.toNat) * 4
    [symbol (n / 4096), symbol (n / 64 % 64), symbol (n % 64)]
  | a :: b :: c :: rest =>
    let n := (a.toNat * 256 + b.toNat) * 256 + c.toNat
    symbol (n / 262144) :: symbol (n / 4096 % 64) :: symbol (n / 64 % 64) :: symbol (n % 64) ::
      encode rest

/-- The byte string that a text writes. -/
def decode? : List Char → Option Bytes
  | [] => some []
  | [_] => none
  | [p, q] => do
    let n := (← value? p) * 64 + (← value? q)
    if n % 16 = 0 then some [UInt8.ofNat (n / 16)] else none
  | [p, q, r] => do
    let n := ((← value? p) * 64 + (← value? q)) * 64 + (← value? r)
    if n % 4 = 0 then some [UInt8.ofNat (n / 1024), UInt8.ofNat (n / 4)] else none
  | p :: q :: r :: s :: rest => do
    let n := (((← value? p) * 64 + (← value? q)) * 64 + (← value? r)) * 64 + (← value? s)
    let bytes ← decode? rest
    some (UInt8.ofNat (n / 65536) :: UInt8.ofNat (n / 256) :: UInt8.ofNat n :: bytes)

theorem value?_symbol {n : Nat} (h : n < 64) : value? (symbol n) = some n := by
  have : ∀ n : Fin 64, value? (symbol n.val) = some n.val := by decide +kernel
  exact this ⟨n, h⟩

/-- Reading undoes writing. -/
@[simp] theorem decode?_encode (b : Bytes) : decode? (encode b) = some b := by
  fun_induction encode b with
  | case1 => rfl
  | case2 a n =>
    have ha := a.toNat_lt
    have h₁ : n / 64 < 64 := by omega
    have h₂ : n % 64 < 64 := by omega
    have h₃ : n / 64 * 64 + n % 64 = n := by omega
    have h₄ : n % 16 = 0 := by omega
    have h₅ : n / 16 = a.toNat := by omega
    simp [decode?, value?_symbol h₁, value?_symbol h₂, h₃, h₄, h₅]
  | case3 a b n =>
    have ha := a.toNat_lt
    have hb := b.toNat_lt
    have h₁ : n / 4096 < 64 := by omega
    have h₂ : n / 64 % 64 < 64 := by omega
    have h₃ : n % 64 < 64 := by omega
    have h₄ : (n / 4096 * 64 + n / 64 % 64) * 64 + n % 64 = n := by omega
    have h₅ : n % 4 = 0 := by omega
    have h₆ : n / 1024 = a.toNat := by omega
    have h₇ : n / 4 % 256 = b.toNat := by omega
    have h₈ : UInt8.ofNat (n / 4) = b := by
      apply UInt8.toNat_inj.1
      simpa using h₇
    simp [decode?, value?_symbol h₁, value?_symbol h₂, value?_symbol h₃, h₄, h₅, h₆, h₈]
  | case4 a b c rest n ih =>
    have ha := a.toNat_lt
    have hb := b.toNat_lt
    have hc := c.toNat_lt
    have h₁ : n / 262144 < 64 := by omega
    have h₂ : n / 4096 % 64 < 64 := by omega
    have h₃ : n / 64 % 64 < 64 := by omega
    have h₄ : n % 64 < 64 := by omega
    have h₅ : ((n / 262144 * 64 + n / 4096 % 64) * 64 + n / 64 % 64) * 64 + n % 64 = n := by omega
    have h₆ : n / 65536 = a.toNat := by omega
    have h₇ : UInt8.ofNat (n / 256) = b := by
      apply UInt8.toNat_inj.1
      simp
      omega
    have h₈ : UInt8.ofNat n = c := by
      apply UInt8.toNat_inj.1
      simp
      omega
    simp only [decode?, value?_symbol h₁, value?_symbol h₂, value?_symbol h₃, value?_symbol h₄,
      Option.bind_eq_bind, Option.bind_some, h₅, h₇, h₈, ih]
    simp [h₆]

end ReadOnce.Text.Base64
