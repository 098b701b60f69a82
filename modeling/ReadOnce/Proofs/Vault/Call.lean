import Mathlib.Control.Monad.Basic
import ReadOnce.Vault.Basic

/-!
# Calls on a message

A call that may give a message away asks the store at most three times and looks at the clock once.
`Phase` tells how far it has come and what it remembers: the message as it was when the call read
it, which other callers may have changed or taken since. The functions from one phase to the next
say all that a call can do, and `runs_program` that the programs of a vault do just that, so that
what is said of phases is said of the programs.
-/

namespace ReadOnce

theorem Program.map_map {α β γ : Type} (f : α → β) (g : β → γ) (p : Program α) :
    (p.map f).map g = p.map (g ∘ f) := by
  induction p with
  | done a => rfl
  | now next ih => simp only [Program.map, ih]
  | ask r next ih => simp only [Program.map, ih]

/-- A call on the message under a key. -/
inductive Call where
  | load (pin : String)
  | reveal (pin : String)
  | isFile
  deriving DecidableEq

/-- What a call comes to. -/
inductive Outcome where
  | loaded (result : Except VaultError Message)
  | revealed (result : Except VaultError Revealed)
  | classified (file : Bool)
  deriving DecidableEq

/-- Whether a call has been given the content of a message. -/
def Outcome.isHandedOver : Outcome → Bool
  | loaded (.ok _) => true
  | revealed (.ok _) => true
  | _ => false

/-- Why a call was refused the content, if it was. -/
def Outcome.refusal? : Outcome → Option VaultError
  | loaded (.error e) => some e
  | revealed (.error e) => some e
  | _ => none

/-- What a message that has been taken out reveals. -/
def Vault.revealedOf (result : Except VaultError Message) : Except VaultError Revealed :=
  match result with
  | .error e => .error e
  | .ok m => (secretOf m).map fun secret => ⟨m.key, secret⟩

namespace Call

/-- The pin of a call that may take a message out. -/
def pin? : Call → Option String
  | load pin | reveal pin => some pin
  | isFile => none

/-- What a call comes to when the message is taken out, or is not. -/
def outcome : Call → Except VaultError Message → Outcome
  | load _, result => .loaded result
  | reveal _, result => .revealed (Vault.revealedOf result)
  | isFile, _ => .classified false

/-- The program of a call. -/
def program (v : Vault) (key : Key) : Call → Program Outcome
  | load pin => (v.load key pin).map .loaded
  | reveal pin => (v.reveal key pin).map .revealed
  | isFile => (Vault.isFile key).map .classified

theorem program_of_pin? {call : Call} {pin : String} (h : call.pin? = some pin) (v : Vault)
    (key : Key) : call.program v key = (v.load key pin).map call.outcome := by
  cases call with
  | load p =>
      obtain rfl : p = pin := Option.some.inj h
      rfl
  | reveal p =>
      obtain rfl : p = pin := Option.some.inj h
      exact Program.map_map _ _ _
  | isFile => contradiction

theorem refusal?_outcome_of_pin? {call : Call} {pin : String} (h : call.pin? = some pin)
    (e : VaultError) : (call.outcome (.error e)).refusal? = some e := by
  cases call with
  | isFile => contradiction
  | _ => rfl

theorem eq_isFile_of_pin? {call : Call} (h : call.pin? = none) : call = isFile := by
  cases call with
  | isFile => rfl
  | _ => contradiction

/-- A call that is refused is given nothing. -/
@[simp] theorem isHandedOver_refused (call : Call) (e : VaultError) :
    (call.outcome (.error e)).isHandedOver = false := by
  cases call <;> rfl

end Call

/-- How far a call has come. -/
inductive Phase where
  /-- It has yet to ask for the message. -/
  | asking
  /-- It has read the message and has yet to look at the clock. -/
  | dating (m : Message)
  /-- It found the deadline reached and drops the message. -/
  | expiring
  /-- The pin was right, and it takes the message out. -/
  | claiming (m : Message) (pin : String)
  /-- The pin was wrong, and it counts that. -/
  | counting (m : Message)
  /-- It counted the last wrong pin allowed and drops the message. -/
  | exhausting (m : Message)
  | ended (o : Outcome)

namespace Phase

variable (v : Vault) (call : Call)

/-- What follows once the store has been asked for the message. -/
def afterLoad : Except StoreError Message → Phase
  | .ok m => dating m
  | .error .loadRejected => ended (call.outcome (.error .notFound))
  | .error e => ended (call.outcome (.error (.store e)))

/-- What follows once the clock has been looked at. -/
def afterClock (m : Message) (now : Instant) : Phase :=
  match call.pin? with
  | none => ended (.classified (!m.clientEncrypted && !m.isExpired now && Framing.isFile m.data))
  | some pin =>
    if m.isExpired now then expiring
    else if v.hasher.verify m.pinHash pin then claiming m pin
    else counting m

/-- What follows once the message has been dropped, or was not there to be dropped. -/
def afterClaim (m : Message) (pin : String) : Except StoreError Bool → Phase
  | .ok false => ended (call.outcome (.error .notFound))
  | _ => ended (call.outcome (v.openPayload m pin))

/-- What follows once a wrong pin has been counted. -/
def afterCount (m : Message) : Except StoreError UInt32 → Phase
  | .error .loadRejected => ended (call.outcome (.error .badPin))
  | .error e => ended (call.outcome (.error (.store e)))
  | .ok attempts =>
    if v.limits.maxPinAttempts ≤ attempts then exhausting m
    else ended (call.outcome (.error (.badPinAttempt attempts { m with errors := attempts })))

/-- What a call asks the store in a phase, and the phase that an answer leads to. -/
inductive Asks (v : Vault) (key : Key) (call : Call) :
    Phase → (r : Request) → r.Reply → Phase → Prop where
  | load (reply : Except StoreError Message) :
      Asks v key call asking (.load key) reply (afterLoad call reply)
  | expire (reply : Except StoreError Bool) :
      Asks v key call expiring (.remove key) reply (ended (call.outcome (.error .expired)))
  | claim (m : Message) (pin : String) (reply : Except StoreError Bool) :
      Asks v key call (claiming m pin) (.remove key) reply (afterClaim v call m pin reply)
  | count (m : Message) (reply : Except StoreError UInt32) :
      Asks v key call (counting m) (.increment m.key) reply (afterCount v call m reply)
  | exhaust (m : Message) (reply : Except StoreError Bool) :
      Asks v key call (exhausting m) (.remove m.key) reply (ended (call.outcome (.error .badPin)))

/-- A program does what is left of a call in a phase. -/
inductive Runs (v : Vault) (key : Key) (call : Call) : Phase → Program Outcome → Prop where
  | asking {next : Except StoreError Message → Program Outcome}
      (h : ∀ reply, Runs v key call (afterLoad call reply) (next reply)) :
      Runs v key call asking (.ask (.load key) next)
  | dating {m : Message} {next : Instant → Program Outcome}
      (h : ∀ now, Runs v key call (afterClock v call m now) (next now)) :
      Runs v key call (dating m) (.now next)
  | expiring {next : Except StoreError Bool → Program Outcome}
      (h : ∀ reply, Runs v key call (ended (call.outcome (.error .expired))) (next reply)) :
      Runs v key call expiring (.ask (.remove key) next)
  | claiming {m : Message} {pin : String} {next : Except StoreError Bool → Program Outcome}
      (h : ∀ reply, Runs v key call (afterClaim v call m pin reply) (next reply)) :
      Runs v key call (claiming m pin) (.ask (.remove key) next)
  | counting {m : Message} {next : Except StoreError UInt32 → Program Outcome}
      (h : ∀ reply, Runs v key call (afterCount v call m reply) (next reply)) :
      Runs v key call (counting m) (.ask (.increment m.key) next)
  | exhausting {m : Message} {next : Except StoreError Bool → Program Outcome}
      (h : ∀ reply, Runs v key call (ended (call.outcome (.error .badPin))) (next reply)) :
      Runs v key call (exhausting m) (.ask (.remove m.key) next)
  | ended {o : Outcome} : Runs v key call (ended o) (.done o)

variable {v call} {key : Key}

theorem runs_claim (m : Message) (pin : String) :
    Runs v key call (claiming m pin) ((v.claim m key pin).map call.outcome) := by
  refine .claiming ?_
  intro reply
  rcases reply with e | _ | _ <;> exact .ended

theorem runs_recordBadPin (m : Message) :
    Runs v key call (counting m) ((v.recordBadPin m).map call.outcome) := by
  refine .counting ?_
  intro reply
  rcases reply with e | attempts
  · cases e <;> exact .ended
  · simp only [afterCount]
    split
    · exact .exhausting fun _ => .ended
    · exact .ended

theorem runs_load {pin : String} (hpin : call.pin? = some pin) :
    Runs v key call asking ((v.load key pin).map call.outcome) := by
  refine .asking ?_
  intro reply
  rcases reply with e | m
  · cases e <;> exact .ended
  · refine .dating ?_
    intro now
    simp only [afterClock, hpin]
    split
    · exact .expiring fun _ => .ended
    · split
      · exact runs_claim m pin
      · exact runs_recordBadPin m

/-- The program of a call goes through the phases. -/
theorem runs_program (v : Vault) (key : Key) (call : Call) :
    Runs v key call asking (call.program v key) := by
  cases hpin : call.pin? with
  | some pin =>
      rw [Call.program_of_pin? hpin]
      exact runs_load hpin
  | none =>
      obtain rfl := Call.eq_isFile_of_pin? hpin
      refine .asking ?_
      intro reply
      rcases reply with e | m
      · cases e <;> exact .ended
      · exact .dating fun now => .ended

end Phase

end ReadOnce
