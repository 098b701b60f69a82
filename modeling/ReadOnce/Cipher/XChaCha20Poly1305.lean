import ReadOnce.Cipher.ChaCha20
import ReadOnce.Cipher.Poly1305

/-!
# Authenticated encryption with a long nonce

XChaCha20-Poly1305 with a key of 32 bytes and a nonce of 24. The first 16 bytes of the nonce derive
a key of their own, under which the other 8 are the nonce of the stream. Block 0 of the stream keys
the tag, the blocks from 1 on hide the text, and the tag covers the hidden text and its length. No
other data is authenticated.

`decrypt?_encrypt` says that opening undoes sealing, and `encrypt_of_decrypt?` that nothing else
opens.
-/

namespace ReadOnce.XChaCha20Poly1305

def keySize : Nat := 32

def nonceSize : Nat := 24

def tagSize : Nat := 16

/-- The stream of a key and nonce, from the block of a counter on. -/
def stream (key nonce : Bytes) (counter n : Nat) : Bytes :=
  ChaCha20.stream (ChaCha20.subkey key (nonce.take 16)) (Bytes.ofNatLE 4 0 ++ nonce.drop 16)
    counter n

/-- Hides a text, and uncovers a hidden one. -/
def mask (key nonce text : Bytes) : Bytes :=
  List.zipWith (· ^^^ ·) text (stream key nonce 1 text.length)

/-- What the tag is taken of: the hidden text filled up to whole blocks, the length of the other
data, which is none, and the length of the hidden text. -/
def tagInput (hidden : Bytes) : Bytes :=
  hidden ++ List.replicate ((16 - hidden.length % 16) % 16) 0 ++ Bytes.ofNatLE 8 0 ++
    Bytes.ofNatLE 8 hidden.length

def tag (key nonce hidden : Bytes) : Bytes :=
  Poly1305.tag (stream key nonce 0 32) (tagInput hidden)

/-- The hidden text and its tag. -/
def encrypt (key nonce text : Bytes) : Bytes :=
  let hidden := mask key nonce text
  hidden ++ tag key nonce hidden

/-- The text of a hidden text with its tag, if the tag is right. -/
def decrypt? (key nonce sealed : Bytes) : Option Bytes :=
  if sealed.length < tagSize then none
  else
    let hidden := sealed.take (sealed.length - tagSize)
    if sealed.drop (sealed.length - tagSize) = tag key nonce hidden then
      some (mask key nonce hidden)
    else none

@[simp] theorem length_stream (key nonce : Bytes) (counter n : Nat) :
    (stream key nonce counter n).length = n := by
  simp [stream]

@[simp] theorem length_mask (key nonce text : Bytes) :
    (mask key nonce text).length = text.length := by
  simp [mask]

@[simp] theorem length_tag (key nonce hidden : Bytes) :
    (tag key nonce hidden).length = tagSize := by
  simp [tag, tagSize]

theorem zipWith_xor_cancel (a b : Bytes) (h : a.length ≤ b.length) :
    List.zipWith (· ^^^ ·) (List.zipWith (· ^^^ ·) a b) b = a := by
  induction a generalizing b with
  | nil => simp
  | cons x a ih =>
    cases b with
    | nil => simp at h
    | cons y b =>
      have hx : x ^^^ y ^^^ y = x := by
        rw [UInt8.xor_assoc, UInt8.xor_self, UInt8.xor_zero]
      simp only [List.zipWith_cons_cons, hx, List.cons.injEq, true_and]
      exact ih b (by simpa using h)

/-- Uncovering undoes hiding. -/
@[simp] theorem mask_mask (key nonce text : Bytes) :
    mask key nonce (mask key nonce text) = text := by
  have h := length_mask key nonce text
  simp only [mask] at h ⊢
  rw [h]
  exact zipWith_xor_cancel _ _ (by simp)

/-- Opening undoes sealing. -/
@[simp] theorem decrypt?_encrypt (key nonce text : Bytes) :
    decrypt? key nonce (encrypt key nonce text) = some text := by
  have hl : (encrypt key nonce text).length = text.length + tagSize := by simp [encrypt]
  have hd : (encrypt key nonce text).length - tagSize = (mask key nonce text).length := by
    simp [hl]
  unfold decrypt?
  rw [if_neg (by omega), hd]
  simp only [encrypt, List.drop_left, List.take_left, if_pos, mask_mask]

/-- What opens is the sealed form of the text that it opens to. -/
theorem encrypt_of_decrypt? {key nonce sealed text : Bytes}
    (h : decrypt? key nonce sealed = some text) : sealed = encrypt key nonce text := by
  unfold decrypt? at h
  split at h
  · contradiction
  · simp only at h
    split at h
    · rename_i ht
      cases h
      rw [encrypt, mask_mask, ← ht]
      exact (List.take_append_drop _ _).symm
    · contradiction

end ReadOnce.XChaCha20Poly1305
