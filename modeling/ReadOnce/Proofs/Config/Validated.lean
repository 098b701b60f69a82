import ReadOnce.Proofs.Fallible
import ReadOnce.Vault.Opening

/-!
# Configurations that pass

A configuration is checked as a whole before anything is made of it, and most of it is checked again
where something is made of it: the secret and the length of pins when the sign key is derived, the
cost when hashing is set up, the path when the store is chosen. What passes the first check passes
the others, with one exception. Hashing takes 16777215 lanes at most, and a configuration is not
checked for that. `check_eq_ok_iff_lanes` says that there is no other difference between the two
checks of a cost, although one of them cuts the memory of all lanes to what 32 bits hold and the
other one lets it wrap.

`opens_unless_too_many_lanes` says that opening a configuration that passes comes as far as the
store, unless it has more lanes.
-/

namespace ReadOnce

namespace Argon2.Cost

variable {c : Cost}

/-- The checks of a cost, in numbers. Only the memory of all lanes may wrap. -/
theorem check_eq (c : Cost) :
    c.check =
      if c.memory.toNat < 8 then .error .memoryTooSmall
      else if c.memory.toNat < c.lanes.toNat * 8 % 4294967296 then .error .memoryTooSmall
      else if c.time.toNat < 1 then .error .timeTooSmall
      else if c.lanes.toNat < 1 then .error .tooFewLanes
      else if 16777215 < c.lanes.toNat then .error .tooManyLanes
      else .ok () := by
  have hwrapped : (c.lanes * 8).toNat = c.lanes.toNat * 8 % 4294967296 := UInt32.toNat_mul ..
  simp only [check, UInt32.lt_iff_toNat_lt, hwrapped, UInt32.reduceToNat]

/-- The costs that hashing takes. Where the memory of all lanes wraps, there are too many lanes. -/
theorem check_eq_ok_iff :
    c.check = .ok () ↔ 8 ≤ c.memory.toNat ∧ 8 * c.lanes.toNat ≤ c.memory.toNat ∧
      1 ≤ c.time.toNat ∧ 1 ≤ c.lanes.toNat ∧ c.lanes.toNat ≤ 16777215 := by
  simp only [check_eq, ite_error_eq_ok_iff, and_true]
  omega

end Argon2.Cost

namespace Config

open Argon2

theorem validateCost_eq_ok_iff {cost : Cost} :
    validateCost cost = .ok () ↔ 1 ≤ cost.time.toNat ∧ 1 ≤ cost.lanes.toNat ∧
      min (8 * cost.lanes.toNat) 4294967295 ≤ cost.memory.toNat := by
  have hzero (n : UInt32) : n = 0 ↔ n.toNat = 0 := UInt32.toNat_inj.symm
  simp only [validateCost, ite_error_eq_ok_iff, and_true, hzero]
  omega

/-- A cost that passes in a configuration is refused for its lanes or not at all. -/
theorem check_of_validateCost {cost : Cost} (h : validateCost cost = .ok ()) :
    cost.check = if cost.lanes ≤ 16777215 then .ok () else .error .tooManyLanes := by
  have hlanes : cost.lanes ≤ 16777215 ↔ cost.lanes.toNat ≤ 16777215 := UInt32.le_iff_toNat_le
  have hlt := cost.lanes.toNat_lt
  rw [validateCost_eq_ok_iff] at h
  by_cases hfew : cost.lanes ≤ 16777215
  · rw [if_pos hfew, Cost.check_eq_ok_iff]
    have hle := hlanes.1 hfew
    omega
  · have hgt := mt hlanes.2 hfew
    rw [if_neg hfew, Cost.check_eq, if_neg (by omega), if_neg (by omega), if_neg (by omega),
      if_neg (by omega), if_pos (by omega)]

/-- A configuration is checked for all that a cost is, but for the number of lanes. -/
theorem check_eq_ok_iff_lanes {cost : Cost} :
    cost.check = .ok () ↔ validateCost cost = .ok () ∧ cost.lanes ≤ 16777215 := by
  simp only [Cost.check_eq_ok_iff, validateCost_eq_ok_iff, UInt32.le_iff_toNat_le,
    UInt32.reduceToNat]
  omega

/-- What a configuration is checked for. -/
theorem validate_eq_ok_iff {c : Config} :
    c.validate = .ok () ↔ c.signKey ≠ "" ∧ (0 < c.pinSize ∧ c.pinSize < 32) ∧
      c.limits.validate = .ok () ∧ c.storage.validate = .ok () ∧ validateCost c.hasher = .ok () := by
  have hparts : (do c.limits.validate; c.storage.validate; validateCost c.hasher) = .ok () ↔
      c.limits.validate = .ok () ∧ c.storage.validate = .ok () ∧ validateCost c.hasher = .ok () := by
    simp only [bind_eq_ok_iff]
    exact ⟨fun ⟨_, hlimits, _, hstorage, hcost⟩ => ⟨hlimits, hstorage, hcost⟩,
      fun ⟨hlimits, hstorage, hcost⟩ => ⟨(), hlimits, (), hstorage, hcost⟩⟩
  rw [validate, ite_error_eq_ok_iff, ite_error_eq_ok_iff, hparts, not_or, Nat.not_le,
    Nat.pos_iff_ne_zero]
  rfl

/-- There is a sign key exactly for a secret and pins that leave it a byte. -/
theorem exists_deriveSignKey_iff {secret : String} {pinSize : Nat} :
    (∃ key, deriveSignKey secret pinSize = .ok key) ↔ secret ≠ "" ∧ pinSize < 32 := by
  have hempty : (Text.utf8 secret).isEmpty = true ↔ secret = "" := by
    rw [List.isEmpty_iff]
    exact Text.utf8_inj (t := "")
  have hchecks (key : Bytes) : deriveSignKey secret pinSize = .ok key ↔ _ := ite_error_eq_ok_iff
  simp only [hchecks, hempty, not_or, Nat.not_le, exists_and_left, Except.ok.injEq, exists_eq',
    and_true]
  rfl

/-- Storage that passes says where messages are kept. -/
theorem exists_medium?_of_validate {s : Storage} (h : s.validate = .ok ()) :
    ∃ medium, s.medium? = some medium := by
  obtain ⟨-, h⟩ := ite_error_eq_ok_iff.1 h
  obtain ⟨hpath, -⟩ := ite_error_eq_ok_iff.1 h
  obtain ⟨engine, path, inMemory, interval⟩ := s
  cases engine <;> cases inMemory <;> cases path <;> simp_all [Storage.medium?]

/-- A vault that a configuration makes with a sign key. -/
structure Makes (c : Config) (key : Bytes) (v : Vault) : Prop where
  signKey : deriveSignKey c.signKey c.pinSize = .ok key
  cost : c.hasher.check = .ok ()
  eq : v = ⟨c.limits.limits, .secret ⟨key⟩, .argon2 c.hasher⟩

variable {c : Config} {v : Vault} {key : Bytes} {medium : Medium}

theorem makes_of_vault (h : c.vault = .ok v) : ∃ key, c.Makes key v := by
  obtain ⟨_, -, h⟩ := bind_eq_ok_iff.1 h
  obtain ⟨key, hkey, h⟩ := bind_eq_ok_iff.1 h
  obtain ⟨_, hcost, h⟩ := bind_eq_ok_iff.1 h
  exact ⟨key, mapError_eq_ok_iff.1 hkey, mapError_eq_ok_iff.1 hcost, (Except.ok.inj h).symm⟩

theorem vault_of_validate (h : c.validate = .ok ())
    (hkey : deriveSignKey c.signKey c.pinSize = .ok key) :
    c.vault =
      if c.hasher.lanes ≤ 16777215 then .ok ⟨c.limits.limits, .secret ⟨key⟩, .argon2 c.hasher⟩
      else .error (.hasher .tooManyLanes) := by
  obtain ⟨-, -, -, -, hcost⟩ := validate_eq_ok_iff.1 h
  rw [vault, h, hkey, check_of_validateCost hcost]
  split <;> rfl

/-- A configuration that passes opens as its store does, unless hashing does not take its lanes. -/
theorem open_of_validate (h : c.validate = .ok ())
    (hkey : deriveSignKey c.signKey c.pinSize = .ok key) (hmedium : c.storage.medium? = some medium)
    (attended : Bool) (disk : Disk) (clock : Instant) (time : Nat) :
    c.open attended disk clock time =
      if c.hasher.lanes ≤ 16777215 then
        match Service.start attended medium (1000 * c.storage.cleanupIntervalSecs) disk clock
          time with
        | .ok service => .ok (⟨c.limits.limits, .secret ⟨key⟩, .argon2 c.hasher⟩, service)
        | .error e => .error (.store medium e)
      else .error (.hasher .tooManyLanes) := by
  rw [Config.open, vault_of_validate h hkey, hmedium]
  split <;> rfl

/-- A configuration that passes has a sign key and says where messages are kept, and opening it can
fail in opening its store, or because it has more lanes than hashing takes, which is the one thing
about a cost that a configuration is not checked for. -/
theorem opens_unless_too_many_lanes (c : Config) :
    (∀ cost : Cost, cost.check = .ok () ↔ validateCost cost = .ok () ∧ cost.lanes ≤ 16777215) ∧
      (c.validate = .ok () → ∃ key medium, deriveSignKey c.signKey c.pinSize = .ok key ∧
        c.storage.medium? = some medium ∧ ∀ attended disk clock time,
          c.open attended disk clock time =
            if c.hasher.lanes ≤ 16777215 then
              match Service.start attended medium (1000 * c.storage.cleanupIntervalSecs) disk clock
                time with
              | .ok service => .ok (⟨c.limits.limits, .secret ⟨key⟩, .argon2 c.hasher⟩, service)
              | .error e => .error (.store medium e)
            else .error (.hasher .tooManyLanes)) := by
  refine ⟨fun _ => check_eq_ok_iff_lanes, ?_⟩
  intro h
  obtain ⟨hsecret, ⟨-, hpin⟩, -, hstorage, -⟩ := validate_eq_ok_iff.1 h
  obtain ⟨key, hkey⟩ := exists_deriveSignKey_iff.2 ⟨hsecret, hpin⟩
  obtain ⟨medium, hmedium⟩ := exists_medium?_of_validate hstorage
  exact ⟨key, medium, hkey, hmedium, open_of_validate h hkey hmedium⟩

/-- A configuration with pins of four bytes. -/
def trial : Config :=
  { Config.default with signKey := "secret", pinSize := 4 }

/-- With as many lanes as hashing takes, a configuration opens, or fails where its store has nothing
to run its sweeper. With one lane more it passes all the same, and does not open. -/
theorem opens_trial_unless_too_many_lanes :
    let c (lanes : UInt32) : Config := { Config.trial with hasher := ⟨134217728, 1, lanes⟩ }
    let opened (lanes : UInt32) (attended : Bool) := (c lanes).open attended ⟨[]⟩ .epoch 0
    (c 16777215).validate = .ok () ∧ (∃ v service, opened 16777215 true = .ok (v, service)) ∧
      (∃ e, opened 16777215 false = .error (.store .shelf e)) ∧
      (c 16777216).validate = .ok () ∧
        ∀ attended, opened 16777216 attended = .error (.hasher .tooManyLanes) := by
  intro c opened
  have hfew : (c 16777215).validate = .ok () := rfl
  have hmany : (c 16777216).validate = .ok () := rfl
  obtain ⟨key, medium, -, hmedium, hopen⟩ := (opens_unless_too_many_lanes (c 16777215)).2 hfew
  obtain ⟨_, _, -, -, hrefuse⟩ := (opens_unless_too_many_lanes (c 16777216)).2 hmany
  obtain rfl : Medium.shelf = medium := Option.some.inj hmedium
  exact ⟨hfew, ⟨_, _, hopen true ⟨[]⟩ .epoch 0⟩, ⟨_, hopen false ⟨[]⟩ .epoch 0⟩, hmany,
    fun attended => hrefuse attended ⟨[]⟩ .epoch 0⟩

end Config

end ReadOnce
