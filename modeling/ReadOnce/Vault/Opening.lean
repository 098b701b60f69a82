import ReadOnce.Cipher.Secret
import ReadOnce.Config.Basic
import ReadOnce.Store.Service
import ReadOnce.Vault.Basic

/-!
# Opening a vault

From a configuration to a vault and the store that serves it: the sign key is made of the secret,
hashing gets its cost, and the store is opened on its medium with a sweeper.
-/

namespace ReadOnce

namespace Config

/-- Where a storage keeps messages, if it says where. -/
def Storage.medium? (s : Storage) : Option Medium :=
  match s.engine, s.inMemory, s.path with
  | .shelf, _, _ => some .shelf
  | .trees, true, _ => some (.trees none)
  | .table, true, _ => some (.table none)
  | .trees, false, some path => some (.trees (some path))
  | .table, false, some path => some (.table (some path))
  | _, false, none => none

/-- What opening a medium is called in errors. -/
def opening : Medium → String
  | .shelf => "failed to create memory store"
  | .trees none => "failed to open temporary sled store"
  | .trees (some path) => s!"failed to open sled store at {path}"
  | .table none => "failed to open in-memory sqlite store"
  | .table (some path) => s!"failed to open sqlite store at {path}"

/-- Why a vault does not open. -/
inductive OpenError where
  | fault (f : Fault)
  | signKey (e : CipherError)
  | hasher (e : Argon2.CostError)
  | store (medium : Medium) (e : StoreError)

/-- The wording of an error: what was tried, then why it failed. -/
def OpenError.message : OpenError → String
  | fault f => f.message
  | signKey e => s!"failed to derive sign key: {e.message}"
  | hasher e => s!"invalid hasher settings: Invalid parameters: {e.message}"
  | store medium e => s!"{opening medium}: {e.message}"

/-- The vault of a configuration, without its store. -/
def vault (c : Config) : Except OpenError Vault := do
  (c.validate).mapError OpenError.fault
  let signKey ← (deriveSignKey c.signKey c.pinSize).mapError OpenError.signKey
  c.hasher.check.mapError OpenError.hasher
  .ok { limits := c.limits.limits, cipher := .secret ⟨signKey⟩, hasher := .argon2 c.hasher }

/-- Opens the vault of a configuration and its store; `attended` tells whether there is something to
run the sweeper. -/
def «open» (c : Config) (attended : Bool) (disk : Disk) (clock : Instant) (time : Nat) :
    Except OpenError (Vault × Service) := do
  let vault ← c.vault
  match c.storage.medium? with
  | none => .error (.fault (.noPath c.storage.engine))
  | some medium =>
    let period := 1000 * c.storage.cleanupIntervalSecs
    match Service.start attended medium period disk clock time with
    | .ok service => .ok (vault, service)
    | .error e => .error (.store medium e)

end Config

end ReadOnce
