import ReadOnce.PinHash.Salted
import ReadOnce.Text.Quoted
import ReadOnce.Vault.Limits

/-!
# Configuration

What an operator chooses: the secret and the length of pins, the limits, where messages are kept
and how often they are swept, the cost of hashing, and the log. Everything but the secret has a
default.
-/

namespace ReadOnce

namespace Config

/-- The ways to keep messages. -/
inductive Engine where
  | shelf
  | trees
  | table
  deriving DecidableEq, Repr

def Engine.all : List Engine :=
  [shelf, trees, table]

def Engine.name : Engine → String
  | shelf => "memory"
  | trees => "sled"
  | table => "sqlite"

def Engine.debug : Engine → String
  | shelf => "Memory"
  | trees => "Sled"
  | table => "Sqlite"

def Engine.ofName? (s : String) : Option Engine :=
  all.find? (·.name == s)

/-- The limits as they are written, where zero stands for the default. -/
structure LimitSettings where
  maxDurationSecs : Nat
  maxPinAttempts : UInt32
  maxFileSize : Nat
  deriving DecidableEq, Repr

namespace LimitSettings

/-- The limits unless others are chosen. -/
def default : LimitSettings where
  maxDurationSecs := Limits.default.maxDuration.seconds
  maxPinAttempts := Limits.default.maxPinAttempts
  maxFileSize := Limits.default.maxFileSize

/-- The limits that a vault takes. -/
def limits (l : LimitSettings) : Limits :=
  Limits.normalized ⟨.ofSeconds l.maxDurationSecs, l.maxPinAttempts, l.maxFileSize⟩

def debug (l : LimitSettings) : String :=
  s!"LimitsConfig \x7b max_duration_secs: {l.maxDurationSecs}, " ++
    s!"max_pin_attempts: {l.maxPinAttempts}, max_file_size: {l.maxFileSize} \x7d"

end LimitSettings

structure Storage where
  engine : Engine
  /-- The path of what is kept on a disk. -/
  path : Option String
  /-- Whether nothing is kept on a disk, whatever the path. -/
  inMemory : Bool
  cleanupIntervalSecs : Nat
  deriving DecidableEq, Repr

namespace Storage

/-- The storage unless another is chosen: in memory, swept every five minutes. -/
def default : Storage :=
  ⟨.shelf, none, false, 300⟩

def cleanupInterval (s : Storage) : Span :=
  .ofSeconds s.cleanupIntervalSecs

/-- A path that may be missing. -/
def debugPath : Option String → String
  | none => "None"
  | some path => s!"Some({Text.quoted path})"

def debug (s : Storage) : String :=
  s!"StorageConfig \x7b engine: {s.engine.debug}, path: {debugPath s.path}, " ++
    s!"in_memory: {s.inMemory}, cleanup_interval_secs: {s.cleanupIntervalSecs} \x7d"

end Storage

/-- A cost with the names that a configuration gives to its parts. -/
def debugCost (c : Argon2.Cost) : String :=
  s!"HasherConfig \x7b m_cost: {c.memory}, t_cost: {c.time}, p_cost: {c.lanes} \x7d"

structure Log where
  level : String
  json : Bool
  deriving DecidableEq, Repr

namespace Log

/-- The log unless another is chosen. -/
def default : Log :=
  ⟨"info", false⟩

def debug (l : Log) : String :=
  s!"LogConfig \x7b level: {Text.quoted l.level}, json: {l.json} \x7d"

end Log

end Config

open Config

structure Config where
  signKey : String
  pinSize : Nat
  limits : LimitSettings
  storage : Storage
  hasher : Argon2.Cost
  log : Log
  deriving DecidableEq

namespace Config

/-- The configuration in which nothing is chosen. -/
def default : Config where
  signKey := ""
  pinSize := 5
  limits := .default
  storage := .default
  hasher := .default
  log := .default

/-- A configuration for a log, without the secret. -/
def debug (c : Config) : String :=
  let hidden := Text.quoted "<redacted>"
  s!"BurnboxConfig \x7b sign_key: {hidden}, pin_size: {c.pinSize}, " ++
    s!"limits: {c.limits.debug}, storage: {c.storage.debug}, " ++
    s!"hasher: {debugCost c.hasher}, log: {c.log.debug} \x7d"

/-- The least length that a pin cannot have, since a sign key has at least one byte. -/
def pinSizeBound : Nat := 32

/-- The longest lifetime in seconds that may be chosen: a hundred years. -/
def maxDurationLimitSecs : Nat := 100 * 365 * 24 * 3600

/-- What is wrong with a configuration. -/
inductive Fault where
  | noSignKey
  /-- A pin would leave no sign key, or be empty. -/
  | pinSize
  /-- The longest lifetime is more than a hundred years. -/
  | maxDuration
  /-- There is no time between sweeps. -/
  | noInterval
  /-- An engine that keeps messages on a disk is not told where. -/
  | noPath (engine : Engine)
  /-- Hashing has no pass or no lane. -/
  | zeroCost
  /-- Hashing has too little memory for its lanes. -/
  | lowMemory
  deriving DecidableEq, Repr

def Fault.message : Fault → String
  | noSignKey => "sign_key must be set"
  | pinSize => s!"pin_size must be between 1 and {pinSizeBound - 1}"
  | maxDuration => s!"limits.max_duration_secs must be at most {maxDurationLimitSecs}"
  | noInterval => "cleanup_interval_secs must be > 0"
  | noPath engine => s!"storage.path is required for the {engine.name} engine"
  | zeroCost => "hasher t_cost and p_cost must be > 0"
  | lowMemory => "hasher m_cost must be at least 8 * p_cost"

def LimitSettings.validate (l : LimitSettings) : Except Fault Unit :=
  if maxDurationLimitSecs < l.maxDurationSecs then .error .maxDuration else .ok ()

def Storage.validate (s : Storage) : Except Fault Unit :=
  if s.cleanupIntervalSecs = 0 then .error .noInterval
  else if s.engine ≠ .shelf ∧ ¬ s.inMemory ∧ s.path = none then .error (.noPath s.engine)
  else .ok ()

/-- Checks a cost. The memory of all lanes is cut to what 32 bits hold. -/
def validateCost (c : Argon2.Cost) : Except Fault Unit :=
  if c.time = 0 ∨ c.lanes = 0 then .error .zeroCost
  else if c.memory.toNat < min (8 * c.lanes.toNat) 4294967295 then .error .lowMemory
  else .ok ()

/-- Checks a configuration; the first fault counts. -/
def validate (c : Config) : Except Fault Unit := do
  if c.signKey = "" then .error .noSignKey
  else if c.pinSize = 0 ∨ pinSizeBound ≤ c.pinSize then .error .pinSize
  else
    c.limits.validate
    c.storage.validate
    validateCost c.hasher

end Config

end ReadOnce
