import ReadOnce.PinHash.Blake2b
import ReadOnce.PinHash.Block

/-!
# Argon2

The memory-hard hash of a password and salt, in its three variants and two versions. The memory is
a number of lanes, each cut into four slices; a pass fills the slices in order, and every block is
made from the one before it in its lane and an earlier block picked by a pseudorandom number. The
variants differ in where that number comes from: the memory itself, or a stream of addresses that
depends on the position alone.
-/

namespace ReadOnce.Argon2

/-- Where the positions of reference blocks come from. -/
inductive Variant where
  /-- From the memory. -/
  | d
  /-- From the position. -/
  | i
  /-- From the position in the first half of the first pass, then from the memory. -/
  | id
  deriving DecidableEq, Repr

def Variant.code : Variant → Nat
  | .d => 0
  | .i => 1
  | .id => 2

/-- Whether later passes replace the blocks of the memory or are added to them. -/
inductive Version where
  /-- Version 16: blocks are replaced. -/
  | replacing
  /-- Version 19: blocks are added to. -/
  | adding
  deriving DecidableEq, Repr

def Version.code : Version → Nat
  | .replacing => 16
  | .adding => 19

/-- How much work a hash takes. -/
structure Cost where
  /-- Memory in blocks of 1024 bytes. -/
  memory : UInt32
  time : UInt32
  lanes : UInt32
  deriving DecidableEq, Repr

/-- All that a hash depends on besides the password and the salt. -/
structure Setting where
  variant : Variant
  version : Version
  cost : Cost
  data : Bytes
  size : Nat
  deriving DecidableEq, Repr

/-- A number in four bytes. -/
def number (n : Nat) : Bytes :=
  Bytes.ofNatLE 4 n

/-- A byte string with its length before it. -/
def counted (b : Bytes) : Bytes :=
  number b.length ++ b

/-- The first hash, of everything that is put in. There is no secret key. -/
def seed (s : Setting) (password salt : Bytes) : Bytes :=
  Blake2b.hash 64 <|
    number s.cost.lanes.toNat ++ number s.size ++ number s.cost.memory.toNat ++
      number s.cost.time.toNat ++ number s.version.code ++ number s.variant.code ++
      counted password ++ counted salt ++ counted [] ++ counted s.data

/-- The first halves of successive hashes, and at last the whole of one of the size that remains. -/
def spread : Nat → Bytes → Bytes
  | size, b =>
    if _h : size ≤ 64 then Blake2b.hash size b
    else
      let v := Blake2b.hash 64 b
      v.take 32 ++ spread (size - 32) v
termination_by size => size

/-- A hash of any size. -/
def longHash (size : Nat) (b : Bytes) : Bytes :=
  spread size (number size ++ b)

structure Shape where
  lanes : Nat
  /-- Number of blocks of a slice of a lane. -/
  segment : Nat

/-- The shape that a cost asks for: four slices in every lane, and no more blocks than allowed. -/
def Cost.shape (c : Cost) : Shape :=
  { lanes := c.lanes.toNat
    segment := c.memory.toNat / (4 * c.lanes.toNat) }

def Shape.laneLength (s : Shape) : Nat :=
  4 * s.segment

def Shape.blocks (s : Shape) : Nat :=
  s.lanes * s.laneLength

/-- A position in the course of the passes: pass, slice and lane. -/
structure Position where
  pass : Nat
  slice : Nat
  lane : Nat

/-- Whether reference positions depend on the position alone. -/
def Variant.isIndependent (v : Variant) (pos : Position) : Bool :=
  match v with
  | .d => false
  | .i => true
  | .id => pos.pass == 0 && pos.slice < 2

/-- The addresses numbered `count` of a segment, 128 of them. -/
def addresses (s : Setting) (shape : Shape) (pos : Position) (count : Nat) : Array UInt64 :=
  let input := Block.ofWords <| [pos.pass, pos.lane, pos.slice, shape.blocks, s.cost.time.toNat,
    s.variant.code, count].map UInt64.ofNat
  (Block.zero.compress (Block.zero.compress input)).words

/-- The position in its lane of the reference block, for the block at `index` of a segment: the
pseudorandom number `j` picks among the blocks that are complete, later ones more often. -/
def reference (shape : Shape) (pos : Position) (index : Nat) (same : Bool) (j : UInt64) : Nat :=
  let before := if pos.pass = 0 then pos.slice * shape.segment else shape.laneLength - shape.segment
  let area := if same then before + index - 1 else if index = 0 then before - 1 else before
  let j := (j &&& 0xffffffff).toNat
  let x := j * j / UInt32.size
  let relative := area - 1 - area * x / UInt32.size
  let start := if pos.pass = 0 ∨ pos.slice = 3 then 0 else (pos.slice + 1) * shape.segment
  (start + relative) % shape.laneLength

/-- The memory with one more block of a segment filled. -/
def fillBlock (s : Setting) (shape : Shape) (pos : Position) (index : Nat) (stream : Array UInt64)
    (memory : Array Block) : Array Block :=
  let length := shape.laneLength
  let column := pos.slice * shape.segment + index
  let here := pos.lane * length + column
  let previous := memory.getD (pos.lane * length + (column + length - 1) % length) Block.zero
  let j := if s.variant.isIndependent pos then stream.getD (index % 128) 0 else previous.r0.w0
  let lane :=
    if pos.pass = 0 ∧ pos.slice = 0 then pos.lane else (j >>> 32).toNat % shape.lanes
  let there := lane * length + reference shape pos index (lane == pos.lane) j
  let other := memory.getD there Block.zero
  let made := previous.compress other
  if pos.pass = 0 ∨ s.version = .replacing then memory.setIfInBounds here made
  else memory.setIfInBounds here ((memory.getD here Block.zero).xor made)

/-- The memory with the blocks of a segment filled, `left` of them to go from `index` on. -/
def fillFrom (s : Setting) (shape : Shape) (pos : Position) (index : Nat) (stream : Array UInt64)
    (memory : Array Block) : Nat → Array Block
  | 0 => memory
  | left + 1 =>
    let stream :=
      if s.variant.isIndependent pos ∧ 0 < index ∧ index % 128 = 0 then
        addresses s shape pos (index / 128 + 1)
      else stream
    fillFrom s shape pos (index + 1) stream (fillBlock s shape pos index stream memory) left

/-- The memory with a segment filled. The first two blocks of a lane are there from the start. -/
def fillSegment (s : Setting) (shape : Shape) (memory : Array Block) (pos : Position) :
    Array Block :=
  let first := if pos.pass = 0 ∧ pos.slice = 0 then 2 else 0
  let stream := if s.variant.isIndependent pos then addresses s shape pos 1 else #[]
  fillFrom s shape pos first stream memory (shape.segment - first)

/-- The memory after every slice of every lane in one pass. -/
def fillPass (s : Setting) (shape : Shape) (memory : Array Block) (pass : Nat) : Array Block :=
  (List.range 4).foldl (fun memory slice =>
    (List.range shape.lanes).foldl (fun memory lane =>
      fillSegment s shape memory ⟨pass, slice, lane⟩) memory) memory

/-- The memory before the first pass: the first two blocks of each lane. -/
def start (shape : Shape) (seed : Bytes) : Array Block :=
  (List.range shape.lanes).foldl (fun memory lane =>
    (List.range 2).foldl (fun memory column =>
      memory.setIfInBounds (lane * shape.laneLength + column)
        (Block.ofBytes (longHash 1024 (seed ++ number column ++ number lane)))) memory)
    (Array.replicate shape.blocks Block.zero)

def hash (s : Setting) (password salt : Bytes) : Bytes :=
  let shape := s.cost.shape
  let memory := (List.range s.cost.time.toNat).foldl (fillPass s shape)
    (start shape (seed s password salt))
  let last := (List.range shape.lanes).foldl (fun last lane =>
    last.xor (memory.getD (lane * shape.laneLength + shape.laneLength - 1) Block.zero)) Block.zero
  longHash s.size last.toBytes

end ReadOnce.Argon2
