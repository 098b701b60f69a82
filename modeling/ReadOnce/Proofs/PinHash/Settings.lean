import ReadOnce.Proofs.PinHash.Salted

/-!
# Stored hashes carry their settings

The text of a hash names the variant, the version and the cost that it was made with, and holds the
salt and the output, so whoever checks a pin against it has no need of settings of his own: a hasher
may be given another cost, and the hashes that are stored already are as good as before. This is so
for any function in the place of Argon2 whose outputs have the size that is asked for.

As for `PinHasher.argon2`, a pin has fewer than 2³² bytes.
-/

namespace ReadOnce.PinHash

open Argon2

variable {cost : Cost} {salt : Bytes}

/-- The largest cost that passes. -/
theorem check_largest : Cost.check ⟨4294967295, 4294967295, 16777215⟩ = .ok () := by
  simp [Cost.check]

/-- The text of a hash. -/
theorem write_eq (cost : Cost) (salt output : Bytes) :
    write cost salt output =
      s!"$argon2id$v=19$m={cost.memory},t={cost.time},p={cost.lanes}$" ++
        String.ofList (Text.Base64.encode salt) ++ "$" ++
        String.ofList (Text.Base64.encode output) := by
  have hversion : Nat.toDigits 10 19 = ['1', '9'] := by decide
  have hliteral (s : String) : toString s = s := rfl
  apply String.toList_inj.1
  simp [write, Phc.text, Phc.fields, Phc.paramText, Text.joinWith, hversion, hliteral]

/-- A hash that is made with a cost that passes is read as exactly what it was made of: the variant,
the version, the cost, 32 bytes of output and the salt. So it matches its pin, and any pin is
checked against it under just these settings, whatever the function in the place of Argon2, and
whatever the cost of the hasher that checks it. -/
theorem checked_by_own_settings (hcost : cost.check = .ok ()) (hsalt : salt.length = 16)
    (pin : String) :
    (∀ digest : Setting → Bytes → Bytes → Bytes,
      (∀ s password salt, (digest s password salt).length = s.size) →
      let setting : Setting := ⟨.id, .adding, cost, [], 32⟩
      let output := digest setting (Text.utf8 pin) salt
      let stored := make digest cost salt pin
      stored = s!"$argon2id$v=19$m={cost.memory},t={cost.time},p={cost.lanes}$" ++
        String.ofList (Text.Base64.encode salt) ++ "$" ++
        String.ofList (Text.Base64.encode output) ∧
      read? stored = some (setting, salt, output) ∧ matches? digest stored pin = true ∧
      ∀ pin', matches? digest stored pin' = (digest setting (Text.utf8 pin') salt == output)) ∧
    ∀ other : Cost, ∃ stored, (PinHasher.argon2 cost).hash salt pin = .ok stored ∧
      (PinHasher.argon2 other).verify stored pin = true := by
  constructor
  · intro digest hdigest setting output stored
    exact ⟨write_eq .., read?_write hcost hsalt (hdigest ..), matches?_make hcost hsalt hdigest pin,
      matches?_make_eq hcost hsalt hdigest pin⟩
  · intro other
    exact ⟨_, rfl, matches?_make hcost hsalt Argon2.length_hash pin⟩

/-- The largest cost there is is read back, and a hasher of the usual cost recognizes a pin of two
bytes that was hashed with it. -/
theorem checked_by_own_settings_of_largest :
    let cost : Cost := ⟨4294967295, 4294967295, 16777215⟩
    let salt : Bytes := List.replicate 16 255
    cost.check = .ok () ∧ salt.length = 16 ∧
      (∃ output, read? (make Argon2.hash cost salt "é") =
        some (⟨.id, .adding, cost, [], 32⟩, salt, output)) ∧
      ∃ stored, (PinHasher.argon2 cost).hash salt "é" = .ok stored ∧
        (PinHasher.argon2 .default).verify stored "é" = true := by
  intro cost salt
  have hsalt : salt.length = 16 := by decide
  obtain ⟨hany, hother⟩ := checked_by_own_settings check_largest hsalt "é"
  obtain ⟨-, hread, -, -⟩ := hany Argon2.hash Argon2.length_hash
  exact ⟨check_largest, hsalt, ⟨_, hread⟩, hother .default⟩

end ReadOnce.PinHash
