import ReadOnce.PinHash.Row

/-!
# BLAKE2b

The hash of 1 to 64 bytes of a byte string, without a key. The input is taken in blocks of 128
bytes, the last one filled up with zeros; an empty input is one block of zeros.
-/

namespace ReadOnce.Blake2b

/-- The words that the state starts from. -/
def initial : List UInt64 :=
  [0x6a09e667f3bcc908, 0xbb67ae8584caa73b, 0x3c6ef372fe94f82b, 0xa54ff53a5f1d36f1,
    0x510e527fade682d1, 0x9b05688c2b3e6c1f, 0x1f83d9abfb41bd6b, 0x5be0cd19137e2179]

/-- The order in which each round takes the words of a block. -/
def schedule : List (Array Nat) :=
  [#[0, 1, 2, 3, 4, 5, 6, 7, 8, 9, 10, 11, 12, 13, 14, 15],
    #[14, 10, 4, 8, 9, 15, 13, 6, 1, 12, 0, 2, 11, 7, 5, 3],
    #[11, 8, 12, 0, 5, 2, 15, 13, 10, 14, 3, 6, 7, 1, 9, 4],
    #[7, 9, 3, 1, 13, 12, 11, 14, 2, 6, 5, 10, 4, 0, 15, 8],
    #[9, 0, 5, 7, 2, 4, 10, 15, 14, 1, 11, 12, 6, 8, 3, 13],
    #[2, 12, 6, 10, 0, 11, 8, 3, 4, 13, 7, 5, 15, 14, 1, 9],
    #[12, 5, 1, 15, 14, 13, 4, 10, 0, 7, 6, 3, 9, 2, 8, 11],
    #[13, 11, 7, 14, 12, 1, 3, 9, 5, 0, 15, 4, 8, 6, 2, 10],
    #[6, 15, 14, 9, 11, 3, 0, 8, 12, 2, 13, 7, 1, 4, 10, 5],
    #[10, 2, 8, 4, 7, 6, 1, 5, 15, 11, 9, 14, 3, 12, 13, 0],
    #[0, 1, 2, 3, 4, 5, 6, 7, 8, 9, 10, 11, 12, 13, 14, 15],
    #[14, 10, 4, 8, 9, 15, 13, 6, 1, 12, 0, 2, 11, 7, 5, 3]]

/-- Mixes four words with two words of the block. -/
@[inline] def mix (a b c d x y : UInt64) : UInt64 × UInt64 × UInt64 × UInt64 :=
  let a := a + b + x
  let d := Row.rotate (d ^^^ a) 32
  let c := c + d
  let b := Row.rotate (b ^^^ c) 24
  let a := a + b + y
  let d := Row.rotate (d ^^^ a) 16
  let c := c + d
  let b := Row.rotate (b ^^^ c) 63
  (a, b, c, d)

/-- One round: the columns and then the diagonals, with the words of the block `m` in the order
`s`. -/
def round (m : Array UInt64) (v : Row) (s : Array Nat) : Row :=
  let ⟨v0, v1, v2, v3, v4, v5, v6, v7, v8, v9, v10, v11, v12, v13, v14, v15⟩ := v
  let (v0, v4, v8, v12) := mix v0 v4 v8 v12 (m.getD (s.getD 0 0) 0) (m.getD (s.getD 1 0) 0)
  let (v1, v5, v9, v13) := mix v1 v5 v9 v13 (m.getD (s.getD 2 0) 0) (m.getD (s.getD 3 0) 0)
  let (v2, v6, v10, v14) := mix v2 v6 v10 v14 (m.getD (s.getD 4 0) 0) (m.getD (s.getD 5 0) 0)
  let (v3, v7, v11, v15) := mix v3 v7 v11 v15 (m.getD (s.getD 6 0) 0) (m.getD (s.getD 7 0) 0)
  let (v0, v5, v10, v15) := mix v0 v5 v10 v15 (m.getD (s.getD 8 0) 0) (m.getD (s.getD 9 0) 0)
  let (v1, v6, v11, v12) := mix v1 v6 v11 v12 (m.getD (s.getD 10 0) 0) (m.getD (s.getD 11 0) 0)
  let (v2, v7, v8, v13) := mix v2 v7 v8 v13 (m.getD (s.getD 12 0) 0) (m.getD (s.getD 13 0) 0)
  let (v3, v4, v9, v14) := mix v3 v4 v9 v14 (m.getD (s.getD 14 0) 0) (m.getD (s.getD 15 0) 0)
  ⟨v0, v1, v2, v3, v4, v5, v6, v7, v8, v9, v10, v11, v12, v13, v14, v15⟩

/-- The chaining words after a block; `count` bytes have been taken, and `last` tells whether the
block is the last one. -/
def compress (h : List UInt64) (block : Bytes) (count : Nat) (last : Bool) : List UInt64 :=
  let m := ((List.range 16).map (Row.wordAt block)).toArray
  let low := UInt64.ofNat count
  let high := UInt64.ofNat (count / UInt64.size)
  let final : UInt64 := if last then 0xffffffffffffffff else 0
  let ends := List.zipWith (· ^^^ ·) (initial.drop 4) [low, high, final, 0]
  let v := schedule.foldl (round m) (Row.ofWords (h ++ initial.take 4 ++ ends))
  List.zipWith (· ^^^ ·) h (List.zipWith (· ^^^ ·) (v.words.take 8) (v.words.drop 8))

/-- The chaining words after the rest of the input, with `count` bytes taken before it. -/
def absorb (h : List UInt64) (count : Nat) (input : Bytes) : List UInt64 :=
  if _h : input.length ≤ 128 then
    compress h input (count + input.length) true
  else
    absorb (compress h (input.take 128) (count + 128) false) (count + 128) (input.drop 128)
termination_by input.length
decreasing_by
  simp only [List.length_drop]
  omega

/-- The chaining words before any input, for a hash of `size` bytes. -/
def start (size : Nat) : List UInt64 :=
  List.zipWith (· ^^^ ·) initial [0x01010000 ^^^ UInt64.ofNat size, 0, 0, 0, 0, 0, 0, 0]

/-- The hash of `size` bytes, at most 64. -/
def hash (size : Nat) (input : Bytes) : Bytes :=
  ((absorb (start size) 0 input).flatMap Row.wordBytes).take size

end ReadOnce.Blake2b
