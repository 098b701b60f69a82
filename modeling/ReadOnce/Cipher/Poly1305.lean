import ReadOnce.Bytes

/-!
# The Poly1305 tag

A message is a polynomial whose coefficients are its blocks of sixteen bytes, each with a one after
its last byte. The tag is the polynomial's value at the first half of the key, modulo 2^130 - 5,
plus the second half, modulo 2^128.
-/

namespace ReadOnce.Poly1305

def modulus : Nat := Nat.pow 2 130 - 5

/-- The bits of the point that are kept. -/
def pointMask : Nat := 0x0ffffffc0ffffffc0ffffffc0fffffff

/-- The number that a block stands for: its bytes and a one after them. -/
def coefficient (block : Bytes) : Nat :=
  Bytes.toNatLE block + Nat.pow 256 block.length

/-- The value of the polynomial that `message` continues, at `point`. -/
def evaluate (point value : Nat) (message : Bytes) : Nat :=
  if _h : message = [] then value
  else
    let value := (value + coefficient (message.take 16)) * point % modulus
    evaluate point value (message.drop 16)
termination_by message.length
decreasing_by
  have := List.length_pos_iff.2 _h
  simp only [List.length_drop]
  omega

/-- The tag of a message under a key of 32 bytes. -/
def tag (key message : Bytes) : Bytes :=
  let point := Bytes.toNatLE (key.take 16) &&& pointMask
  Bytes.ofNatLE 16 (evaluate point 0 message + Bytes.toNatLE (key.drop 16))

@[simp] theorem length_tag (key message : Bytes) : (tag key message).length = 16 := by
  simp [tag]

end ReadOnce.Poly1305
