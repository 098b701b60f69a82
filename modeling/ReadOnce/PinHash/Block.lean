import ReadOnce.PinHash.Row

/-!
# Memory blocks

A block is 1024 bytes, seen as eight rows of sixteen words. `Block.compress` turns two blocks into
one: the rows of their difference are mixed, then its columns of pairs of words, and the difference
is added once more. Columns become rows by `transpose`.
-/

namespace ReadOnce

/-- Eight rows of sixteen words. -/
structure Block where
  (r0 r1 r2 r3 r4 r5 r6 r7 : Row)
  deriving Inhabited

namespace Block

/-- The sum of two words and twice the product of their low halves. -/
@[inline] def blend (a b : UInt64) : UInt64 :=
  a + b + 2 * (a &&& 0xffffffff) * (b &&& 0xffffffff)

@[inline] def mix (a b c d : UInt64) : UInt64 × UInt64 × UInt64 × UInt64 :=
  let a := blend a b
  let d := Row.rotate (d ^^^ a) 32
  let c := blend c d
  let b := Row.rotate (b ^^^ c) 24
  let a := blend a b
  let d := Row.rotate (d ^^^ a) 16
  let c := blend c d
  let b := Row.rotate (b ^^^ c) 63
  (a, b, c, d)

/-- Mixes the columns and then the diagonals of a row. -/
def mixRow (v : Row) : Row :=
  let ⟨v0, v1, v2, v3, v4, v5, v6, v7, v8, v9, v10, v11, v12, v13, v14, v15⟩ := v
  let (v0, v4, v8, v12) := mix v0 v4 v8 v12
  let (v1, v5, v9, v13) := mix v1 v5 v9 v13
  let (v2, v6, v10, v14) := mix v2 v6 v10 v14
  let (v3, v7, v11, v15) := mix v3 v7 v11 v15
  let (v0, v5, v10, v15) := mix v0 v5 v10 v15
  let (v1, v6, v11, v12) := mix v1 v6 v11 v12
  let (v2, v7, v8, v13) := mix v2 v7 v8 v13
  let (v3, v4, v9, v14) := mix v3 v4 v9 v14
  ⟨v0, v1, v2, v3, v4, v5, v6, v7, v8, v9, v10, v11, v12, v13, v14, v15⟩

def mixRows (b : Block) : Block :=
  ⟨mixRow b.r0, mixRow b.r1, mixRow b.r2, mixRow b.r3,
    mixRow b.r4, mixRow b.r5, mixRow b.r6, mixRow b.r7⟩

/-- Swaps rows and columns of pairs of words. -/
def transpose (b : Block) : Block :=
  ⟨
    ⟨b.r0.w0, b.r0.w1, b.r1.w0, b.r1.w1, b.r2.w0, b.r2.w1, b.r3.w0, b.r3.w1,
      b.r4.w0, b.r4.w1, b.r5.w0, b.r5.w1, b.r6.w0, b.r6.w1, b.r7.w0, b.r7.w1⟩,
    ⟨b.r0.w2, b.r0.w3, b.r1.w2, b.r1.w3, b.r2.w2, b.r2.w3, b.r3.w2, b.r3.w3,
      b.r4.w2, b.r4.w3, b.r5.w2, b.r5.w3, b.r6.w2, b.r6.w3, b.r7.w2, b.r7.w3⟩,
    ⟨b.r0.w4, b.r0.w5, b.r1.w4, b.r1.w5, b.r2.w4, b.r2.w5, b.r3.w4, b.r3.w5,
      b.r4.w4, b.r4.w5, b.r5.w4, b.r5.w5, b.r6.w4, b.r6.w5, b.r7.w4, b.r7.w5⟩,
    ⟨b.r0.w6, b.r0.w7, b.r1.w6, b.r1.w7, b.r2.w6, b.r2.w7, b.r3.w6, b.r3.w7,
      b.r4.w6, b.r4.w7, b.r5.w6, b.r5.w7, b.r6.w6, b.r6.w7, b.r7.w6, b.r7.w7⟩,
    ⟨b.r0.w8, b.r0.w9, b.r1.w8, b.r1.w9, b.r2.w8, b.r2.w9, b.r3.w8, b.r3.w9,
      b.r4.w8, b.r4.w9, b.r5.w8, b.r5.w9, b.r6.w8, b.r6.w9, b.r7.w8, b.r7.w9⟩,
    ⟨b.r0.w10, b.r0.w11, b.r1.w10, b.r1.w11, b.r2.w10, b.r2.w11, b.r3.w10, b.r3.w11,
      b.r4.w10, b.r4.w11, b.r5.w10, b.r5.w11, b.r6.w10, b.r6.w11, b.r7.w10, b.r7.w11⟩,
    ⟨b.r0.w12, b.r0.w13, b.r1.w12, b.r1.w13, b.r2.w12, b.r2.w13, b.r3.w12, b.r3.w13,
      b.r4.w12, b.r4.w13, b.r5.w12, b.r5.w13, b.r6.w12, b.r6.w13, b.r7.w12, b.r7.w13⟩,
    ⟨b.r0.w14, b.r0.w15, b.r1.w14, b.r1.w15, b.r2.w14, b.r2.w15, b.r3.w14, b.r3.w15,
      b.r4.w14, b.r4.w15, b.r5.w14, b.r5.w15, b.r6.w14, b.r6.w15, b.r7.w14, b.r7.w15⟩⟩

def zero : Block :=
  ⟨Row.zero, Row.zero, Row.zero, Row.zero, Row.zero, Row.zero, Row.zero, Row.zero⟩

def xor (a b : Block) : Block :=
  ⟨a.r0.xor b.r0, a.r1.xor b.r1, a.r2.xor b.r2, a.r3.xor b.r3,
    a.r4.xor b.r4, a.r5.xor b.r5, a.r6.xor b.r6, a.r7.xor b.r7⟩

/-- The block that two blocks give. -/
def compress (a b : Block) : Block :=
  let d := a.xor b
  d.xor d.mixRows.transpose.mixRows.transpose

def rows (b : Block) : List Row :=
  [b.r0, b.r1, b.r2, b.r3, b.r4, b.r5, b.r6, b.r7]

def toBytes (b : Block) : Bytes :=
  b.rows.flatMap Row.toBytes

/-- The block that a byte string starts with, absent bytes being zero. -/
def ofBytes (b : Bytes) : Block :=
  let r (i : Nat) := Row.ofBytes (b.slice (128 * i) 128)
  ⟨r 0, r 1, r 2, r 3, r 4, r 5, r 6, r 7⟩

/-- The block whose first words are given, the others being zero. -/
def ofWords (ws : List UInt64) : Block :=
  { zero with r0 := Row.ofWords ws }

def words (b : Block) : Array UInt64 :=
  (b.rows.flatMap Row.words).toArray

end Block

end ReadOnce
