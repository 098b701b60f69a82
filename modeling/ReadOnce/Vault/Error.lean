import ReadOnce.Message.Basic
import ReadOnce.Store.Error

/-!
# Answers of a vault that are no secret

Why a vault does not take in or hand out a message. Only a wrong pin that leaves the message in
place invites another try.
-/

namespace ReadOnce

/-- Why a vault refuses. -/
inductive VaultError where
  /-- The pin is empty, the last try is used up, or the sealed payload does not open. -/
  | badPin
  /-- The pin is wrong and the message stays: `attempts` wrong pins have been counted. -/
  | badPinAttempt (attempts : UInt32) (message : Message)
  /-- The lifetime asked for is longer than the longest allowed, or than the clock can hold. -/
  | badDuration (requested max : Span)
  | badFileName
  | badContentType
  | fileTooLarge (size max : Nat)
  | crypto (why : String)
  /-- Hashing has failed, or what a message holds is not what it says. -/
  | internal (why : String)
  | expired
  | notFound
  | store (e : StoreError)
  deriving DecidableEq

namespace VaultError

def message : VaultError → String
  | badPin => "wrong pin"
  | badPinAttempt attempts _ => s!"wrong pin attempt ({attempts} so far)"
  | badDuration requested max => s!"bad duration: {requested.text} exceeds maximum {max.text}"
  | badFileName => "invalid file name"
  | badContentType => "invalid content type"
  | fileTooLarge size max => s!"file too large: {size} bytes exceeds maximum {max}"
  | crypto why => s!"crypto error: {why}"
  | internal why => s!"internal error: {why}"
  | expired => "message expired"
  | notFound => "message not found"
  | store e => e.message

/-- Whether another pin may be tried. -/
def isRetryable : VaultError → Bool
  | badPinAttempt _ _ => true
  | _ => false

def debug : VaultError → String
  | badPin => "BadPin"
  | badPinAttempt attempts m =>
    s!"BadPinAttempt \x7b attempts: {attempts}, message: {m.debug} \x7d"
  | badDuration requested max =>
    s!"BadDuration \x7b requested: {requested.text}, max: {max.text} \x7d"
  | badFileName => "BadFileName"
  | badContentType => "BadContentType"
  | fileTooLarge size max => s!"FileTooLarge \x7b size: {size}, max: {max} \x7d"
  | crypto why => s!"Crypto({Text.quoted why})"
  | internal why => s!"Internal({Text.quoted why})"
  | expired => "Expired"
  | notFound => "NotFound"
  | store e => s!"Store({e.debug})"

end VaultError

end ReadOnce
