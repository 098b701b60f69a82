import ReadOnce.PinHash.Salted
import ReadOnce.Proofs.PinHash.Phc
import ReadOnce.Proofs.Text.Utf8

/-!
# Pin hashes read back

A stored hash carries all the settings that it was made with, so it is checked by just these,
whatever the cost of the hasher that checks it. `read?_write` says that they are read back, and
`matches?_make` that a pin matches its own hash, for any function in the place of Argon2 that gives
hashes of the size that is asked for. Argon2 does.
-/

namespace ReadOnce

namespace Blake2b

theorem length_compress {h : List UInt64} (hh : h.length = 8) (block : Bytes) (count : Nat)
    (last : Bool) : (compress h block count last).length = 8 := by
  simp [compress, hh, Row.words]

theorem length_absorb {h : List UInt64} (hh : h.length = 8) (count : Nat) (input : Bytes) :
    (absorb h count input).length = 8 := by
  fun_induction absorb h count input with
  | case1 => exact length_compress hh ..
  | case2 h count input hlong ih => exact ih (length_compress hh ..)

theorem length_hash {size : Nat} (h : size ≤ 64) (input : Bytes) :
    (hash size input).length = size := by
  have hwords : (absorb (start size) 0 input).length = 8 := length_absorb rfl 0 input
  have hbytes : ((absorb (start size) 0 input).flatMap Row.wordBytes).length = 64 := by
    simp [List.length_flatMap, Row.wordBytes, List.map_const', hwords]
  rw [hash, List.length_take, hbytes]
  omega

end Blake2b

namespace Argon2

@[simp] theorem length_spread (size : Nat) (b : Bytes) : (spread size b).length = size := by
  fun_induction spread size b with
  | case1 size b h => exact Blake2b.length_hash h b
  | case2 size b h v ih =>
      have hv : v.length = 64 := Blake2b.length_hash (Nat.le_refl _) b
      rw [List.length_append, List.length_take, ih, hv]
      omega

/-- A hash has the size that is asked for. -/
@[simp] theorem length_hash (s : Setting) (password salt : Bytes) :
    (hash s password salt).length = s.size :=
  length_spread ..

end Argon2

namespace PinHash

open Argon2 Phc

variable {cost : Cost} {salt output : Bytes}

/-- The parameters of a cost as they are written. -/
def costParams (cost : Cost) : List (String × String) :=
  [("m", toString cost.memory), ("t", toString cost.time), ("p", toString cost.lanes)]

theorem isParam_number {name : String} (h : name? name.toList = some name) (n : UInt32) :
    IsParam (name, toString n) :=
  ⟨h, value?_toString n.toNat_lt⟩

theorem isParam_costParams {p : String × String} (h : p ∈ costParams cost) : IsParam p := by
  simp only [costParams, List.mem_cons, List.not_mem_nil, or_false] at h
  rcases h with rfl | rfl | rfl <;> exact isParam_number (by decide) _

theorem length_toString_le (n : UInt32) : (toString n).toList.length ≤ 10 := by
  have hdigits : (toString n).toList = Nat.toDigits 10 n.toNat := Nat.toList_repr
  have hlt := n.toNat_lt
  rw [hdigits, Nat.length_toDigits_le_iff (by decide) (by decide)]
  omega

theorem length_costParams_le (cost : Cost) : (paramsText (costParams cost)).length ≤ maxParams := by
  have hm := length_toString_le cost.memory
  have ht := length_toString_le cost.time
  have hp := length_toString_le cost.lanes
  have hnames : "m".toList.length = 1 ∧ "t".toList.length = 1 ∧ "p".toList.length = 1 := by decide
  simp only [paramsText, costParams, List.map_cons, List.map_nil, Text.joinWith, paramText,
    List.length_append, List.length_cons, maxParams]
  omega

/-- The parameters of a cost that passes are read as the cost. -/
theorem ofList?_costParams (h : cost.check = .ok ()) :
    Params.ofList? (costParams cost) = some ⟨cost, []⟩ := by
  have hnumber (n : UInt32) : decimal? (toString n).toList = some n.toNat := by
    have hdigits : (toString n).toList = Nat.toDigits 10 n.toNat := Nat.toList_repr
    rw [hdigits, decimal?_toDigits n.toNat_lt]
  simp only [Params.ofList?, costParams, List.foldlM_cons, List.foldlM_nil, Params.set?, hnumber,
    Option.bind_eq_bind, Option.bind_some, Option.pure_def, UInt32.ofNat_toNat, h]

/-- All that a hash is checked by is read back from what is stored. -/
theorem read?_write (hcost : cost.check = .ok ()) (hsalt : salt.length = saltSize)
    (houtput : output.length = outputSize) :
    read? (write cost salt output) = some (setting cost, salt, output) := by
  have hlength : (Text.Base64.encode salt).length = 22 := by
    rw [Text.Base64.length_encode, hsalt]
    rfl
  have hsalt? : salt? (String.ofList (Text.Base64.encode salt)).toList =
      some (String.ofList (Text.Base64.encode salt)) := by
    have hvalue (c : Char) (hc : c ∈ Text.Base64.encode salt) : isValueChar c = true :=
      Text.Base64.isValueChar_of_mem_encode hc
    rw [String.toList_ofList, salt?, if_pos (by omega), value?,
      if_pos ⟨by omega, List.all_eq_true.2 hvalue⟩]
  have hparse : parse? (text ⟨"argon2id", some 19, costParams cost,
      some (String.ofList (Text.Base64.encode salt)), some output⟩) = _ :=
    parse?_text (by decide) (by decide) (List.cons_ne_nil _ _) (fun _ hp => isParam_costParams hp)
      (length_costParams_le cost) hsalt? (by rw [houtput]; decide)
  have hvariant : Variant.ofName? "argon2id" = some .id := rfl
  have hversion : Version.ofCode? 19 = some .adding := rfl
  have hmin : minSaltSize ≤ salt.length := by rw [hsalt]; decide
  have hwrite : write cost salt output = text ⟨"argon2id", some 19, costParams cost,
      some (String.ofList (Text.Base64.encode salt)), some output⟩ := rfl
  simp only [read?, hwrite, hparse, hvariant, Option.getD_some, hversion, ofList?_costParams hcost,
    String.toList_ofList, Text.Base64.decode?_encode, Option.bind_eq_bind, Option.bind_some,
    if_pos hmin, houtput]
  rfl

/-- A stored hash is short. -/
theorem length_write_le (hsalt : salt.length = saltSize) (houtput : output.length = outputSize) :
    (Text.utf8 (write cost salt output)).length ≤ 1000 := by
  have hparams := length_costParams_le cost
  have hsalt' := Text.Base64.length_encode salt
  have houtput' := Text.Base64.length_encode output
  have hname : "argon2id".toList.length = 8 ∧ (Nat.toDigits 10 19).length = 2 := by decide
  have hwrite : write cost salt output = String.ofList (Text.joinWith '$' [[], "argon2id".toList,
      'v' :: '=' :: Nat.toDigits 10 19, paramsText (costParams cost), Text.Base64.encode salt,
      Text.Base64.encode output]) := by
    simp [write, text, fields, paramsText, costParams]
  have hbytes := Text.length_utf8_ofList_le (Text.joinWith '$' [[], "argon2id".toList,
      'v' :: '=' :: Nat.toDigits 10 19, paramsText (costParams cost), Text.Base64.encode salt,
      Text.Base64.encode output])
  rw [← hwrite] at hbytes
  simp only [Text.joinWith, List.length_append, List.length_cons, List.length_nil, hsalt', hsalt,
    houtput', houtput, saltSize, outputSize, maxParams] at hbytes hparams
  omega

section Digest

variable {digest : Setting → Bytes → Bytes → Bytes}

/-- A pin is checked by the settings that a hash was made with. -/
theorem matches?_make_eq (hcost : cost.check = .ok ()) (hsalt : salt.length = saltSize)
    (hdigest : ∀ s password salt, (digest s password salt).length = s.size) (pin pin' : String) :
    let output := digest (setting cost) (Text.utf8 pin) salt
    matches? digest (make digest cost salt pin) pin' =
      (digest (setting cost) (Text.utf8 pin') salt == output) := by
  intro output
  rw [matches?, make, read?_write hcost hsalt (hdigest ..)]

/-- A pin matches its hash, whatever the cost that the hash was made with. -/
theorem matches?_make (hcost : cost.check = .ok ()) (hsalt : salt.length = saltSize)
    (hdigest : ∀ s password salt, (digest s password salt).length = s.size) (pin : String) :
    matches? digest (make digest cost salt pin) pin = true := by
  rw [matches?_make_eq hcost hsalt hdigest, beq_self_eq_true]

end Digest

end PinHash

namespace PinHasher

/-- Whether a pin matches the hash that is made of it with a salt. -/
def Recognizes (h : PinHasher) (salt : Bytes) : Prop :=
  ∀ pin hash, h.hash salt pin = .ok hash → h.verify hash pin = true

theorem argon2_recognizes {cost : Argon2.Cost} (hcost : cost.check = .ok ()) {salt : Bytes}
    (hsalt : salt.length = PinHash.saltSize) : (argon2 cost).Recognizes salt := by
  intro pin hash h
  obtain rfl := Except.ok.inj h
  exact PinHash.matches?_make hcost hsalt Argon2.length_hash pin

end PinHasher

end ReadOnce
