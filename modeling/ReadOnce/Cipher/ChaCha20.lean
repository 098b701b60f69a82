import ReadOnce.Bytes

/-!
# The ChaCha20 stream

The block function turns a key of 32 bytes, a counter and a nonce of 12 bytes into 64 bytes; the
stream is the blocks of successive counters. `subkey` is HChaCha20, which shortens a longer nonce:
it derives a fresh key from the first 16 bytes of it.

`length_stream` says that the stream has as many bytes as were asked for.
-/

namespace ReadOnce.ChaCha20

/-- The sixteen words of the cipher's state, row by row. -/
structure State where
  (a0 a1 a2 a3 b0 b1 b2 b3 c0 c1 c2 c3 d0 d1 d2 d3 : UInt32)

@[inline] def rotate (w : UInt32) (n : UInt32) : UInt32 :=
  (w <<< n) ||| (w >>> (32 - n))

@[inline] def quarter (a b c d : UInt32) : UInt32 × UInt32 × UInt32 × UInt32 :=
  let a := a + b
  let d := rotate (d ^^^ a) 16
  let c := c + d
  let b := rotate (b ^^^ c) 12
  let a := a + b
  let d := rotate (d ^^^ a) 8
  let c := c + d
  let b := rotate (b ^^^ c) 7
  (a, b, c, d)

/-- Mixes the columns and then the diagonals. -/
def State.mix (s : State) : State :=
  let (a0, b0, c0, d0) := quarter s.a0 s.b0 s.c0 s.d0
  let (a1, b1, c1, d1) := quarter s.a1 s.b1 s.c1 s.d1
  let (a2, b2, c2, d2) := quarter s.a2 s.b2 s.c2 s.d2
  let (a3, b3, c3, d3) := quarter s.a3 s.b3 s.c3 s.d3
  let (a0, b1, c2, d3) := quarter a0 b1 c2 d3
  let (a1, b2, c3, d0) := quarter a1 b2 c3 d0
  let (a2, b3, c0, d1) := quarter a2 b3 c0 d1
  let (a3, b0, c1, d2) := quarter a3 b0 c1 d2
  { a0, a1, a2, a3, b0, b1, b2, b3, c0, c1, c2, c3, d0, d1, d2, d3 }

/-- Twenty rounds: ten times columns and diagonals. -/
def State.rounds (s : State) : State :=
  Nat.repeat State.mix 10 s

def State.words (s : State) : List UInt32 :=
  [s.a0, s.a1, s.a2, s.a3, s.b0, s.b1, s.b2, s.b3,
    s.c0, s.c1, s.c2, s.c3, s.d0, s.d1, s.d2, s.d3]

/-- The four bytes of a word, least significant first. -/
def wordBytes (w : UInt32) : Bytes :=
  [w.toUInt8, (w >>> 8).toUInt8, (w >>> 16).toUInt8, (w >>> 24).toUInt8]

/-- The word at index `i` of a byte string, absent bytes being zero. -/
def wordAt (b : Bytes) (i : Nat) : UInt32 :=
  UInt32.ofNat (Bytes.toNatLE (b.slice (4 * i) 4))

/-- The state of a key and sixteen more bytes. -/
def State.init (key input : Bytes) : State where
  a0 := 0x61707865
  a1 := 0x3320646e
  a2 := 0x79622d32
  a3 := 0x6b206574
  b0 := wordAt key 0
  b1 := wordAt key 1
  b2 := wordAt key 2
  b3 := wordAt key 3
  c0 := wordAt key 4
  c1 := wordAt key 5
  c2 := wordAt key 6
  c3 := wordAt key 7
  d0 := wordAt input 0
  d1 := wordAt input 1
  d2 := wordAt input 2
  d3 := wordAt input 3

/-- The 64 bytes of the stream at a counter. -/
def block (key nonce : Bytes) (counter : Nat) : Bytes :=
  let s := State.init key (Bytes.ofNatLE 4 counter ++ nonce)
  (List.zipWith (· + ·) s.words s.rounds.words).flatMap wordBytes

/-- The first `n` bytes of the stream from a counter on. -/
def stream (key nonce : Bytes) (counter n : Nat) : Bytes :=
  ((List.range ((n + 63) / 64)).flatMap fun i => block key nonce (counter + i)).take n

/-- The key that a key and sixteen bytes of nonce derive. -/
def subkey (key nonce : Bytes) : Bytes :=
  let s := (State.init key nonce).rounds
  [s.a0, s.a1, s.a2, s.a3, s.d0, s.d1, s.d2, s.d3].flatMap wordBytes

@[simp] theorem length_block (key nonce : Bytes) (counter : Nat) :
    (block key nonce counter).length = 64 := by
  simp [block, State.words, wordBytes]

@[simp] theorem length_subkey (key nonce : Bytes) : (subkey key nonce).length = 32 := by
  simp [subkey, wordBytes]

@[simp] theorem length_stream (key nonce : Bytes) (counter n : Nat) :
    (stream key nonce counter n).length = n := by
  have h : ∀ (m : Nat), ((List.range m).flatMap fun i => block key nonce (counter + i)).length
      = 64 * m := by
    intro m
    induction m with
    | zero => rfl
    | succ m ih => rw [List.range_succ, List.flatMap_append, List.length_append, ih]; simp; omega
  rw [stream, List.length_take, h]
  omega

end ReadOnce.ChaCha20
