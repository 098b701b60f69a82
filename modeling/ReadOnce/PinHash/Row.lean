import ReadOnce.Bytes

/-!
# Rows of sixteen words

The working state of the hash functions here: sixteen words of 64 bits, mixed in four columns and
four diagonals. The words are fields, so that a row is one object without pointers in it.
-/

namespace ReadOnce

/-- Sixteen words of 64 bits. -/
structure Row where
  (w0 w1 w2 w3 w4 w5 w6 w7 w8 w9 w10 w11 w12 w13 w14 w15 : UInt64)
  deriving Inhabited

namespace Row

@[inline] def rotate (w n : UInt64) : UInt64 :=
  (w >>> n) ||| (w <<< (64 - n))

def zero : Row :=
  ⟨0, 0, 0, 0, 0, 0, 0, 0, 0, 0, 0, 0, 0, 0, 0, 0⟩

/-- The words of two rows combined in pairs. -/
@[inline] def zipWith (f : UInt64 → UInt64 → UInt64) (r s : Row) : Row :=
  ⟨f r.w0 s.w0, f r.w1 s.w1, f r.w2 s.w2, f r.w3 s.w3,
    f r.w4 s.w4, f r.w5 s.w5, f r.w6 s.w6, f r.w7 s.w7,
    f r.w8 s.w8, f r.w9 s.w9, f r.w10 s.w10, f r.w11 s.w11,
    f r.w12 s.w12, f r.w13 s.w13, f r.w14 s.w14, f r.w15 s.w15⟩

def xor (r s : Row) : Row :=
  zipWith (· ^^^ ·) r s

def words (r : Row) : List UInt64 :=
  [r.w0, r.w1, r.w2, r.w3, r.w4, r.w5, r.w6, r.w7,
    r.w8, r.w9, r.w10, r.w11, r.w12, r.w13, r.w14, r.w15]

/-- The row that a list of words starts with, absent words being zero. -/
def ofWords (ws : List UInt64) : Row :=
  let w (i : Nat) := ws.getD i 0
  ⟨w 0, w 1, w 2, w 3, w 4, w 5, w 6, w 7,
    w 8, w 9, w 10, w 11, w 12, w 13, w 14, w 15⟩

/-- The eight bytes of a word, least significant first. -/
def wordBytes (w : UInt64) : Bytes :=
  [w.toUInt8, (w >>> 8).toUInt8, (w >>> 16).toUInt8, (w >>> 24).toUInt8,
    (w >>> 32).toUInt8, (w >>> 40).toUInt8, (w >>> 48).toUInt8, (w >>> 56).toUInt8]

def toBytes (r : Row) : Bytes :=
  r.words.flatMap wordBytes

/-- The word at index `i` of a byte string, absent bytes being zero. -/
def wordAt (b : Bytes) (i : Nat) : UInt64 :=
  UInt64.ofNat (Bytes.toNatLE (b.slice (8 * i) 8))

/-- The row that a byte string starts with, absent bytes being zero. -/
def ofBytes (b : Bytes) : Row :=
  ofWords ((List.range 16).map (wordAt b))

end Row

end ReadOnce
