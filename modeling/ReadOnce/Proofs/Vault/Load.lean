import ReadOnce.Proofs.Store.Record
import ReadOnce.Vault.Basic

/-!
# One call at a time

What becomes of a call that nothing comes in between. `run_load_of_keeps` has all four answers of a
load that finds a message: past the deadline, for the right pin, for a wrong pin, and for the last
wrong pin allowed. In each case it says what the store is left with.
-/

namespace ReadOnce

/-- Changing the result of a program changes nothing that it does. -/
theorem Program.run_map {α β σ : Type} (answer : σ → (r : Request) → r.Reply × σ) (clock : Instant)
    (f : α → β) (p : Program α) (s : σ) :
    (p.map f).run answer clock s = (f (p.run answer clock s).1, (p.run answer clock s).2) := by
  induction p generalizing s with
  | done a => rfl
  | now next ih => exact ih _ s
  | ask r next ih => exact ih _ _

/-- Which keys are served stays the same while a program runs. -/
theorem Program.serves_run {α : Type} (clock : Instant) (p : Program α) {s : Store} {key : Key}
    (h : s.contents.Serves key) : (p.run Store.answer clock s).2.contents.Serves key := by
  induction p generalizing s with
  | done a => exact h
  | now next ih => exact ih _ h
  | ask r next ih => exact ih _ (Store.serves_answer_iff.2 h)

/-- So does the form of a store. -/
@[simp] theorem Program.isTable_run {α : Type} (clock : Instant) (p : Program α) (s : Store) :
    (p.run Store.answer clock s).2.contents.isTable = s.contents.isTable := by
  induction p generalizing s with
  | done a => rfl
  | now next ih => exact ih _ s
  | ask r next ih => exact (ih _ _).trans (s.isTable_answer r)

namespace Vault

variable {v : Vault} {c : Contents} {key : Key} {m : Message} {pin : String} {now : Instant}

theorem run_load_of_missing (htaken : c.refusal? (.load key) = none) (h : c.has key = false) :
    (v.load key pin).run Store.answer now ⟨c, false⟩ = (.error .notFound, ⟨c, false⟩) := by
  have hload := Contents.answer_load_of_missing htaken h
  simp [load, hload]

/-- A message past its deadline is dropped, if the store can drop it. -/
theorem run_load_of_expired (htaken : c.refusal? (.load key) = none) (h : c.Keeps key m)
    (hexpired : m.isExpired now = true) :
    (v.load key pin).run Store.answer now ⟨c, false⟩ =
      (.error .expired, ⟨(c.answer (.remove key)).2, false⟩) := by
  have hload := Contents.answer_load_of_keeps htaken h
  simp [load, hload, hexpired]

/-- What a load of a message that is there comes to, in the order in which it decides. -/
theorem run_load_of_keeps (hserves : c.Serves key) (h : c.Keeps key m) :
    (v.load key pin).run Store.answer now ⟨c, false⟩ =
      if m.isExpired now then (.error .expired, ⟨(c.answer (.remove key)).2, false⟩)
      else if v.hasher.verify m.pinHash pin then
        (v.openPayload m pin, ⟨(c.answer (.remove key)).2, false⟩)
      else (v.recordBadPin m).run Store.answer now ⟨c, false⟩ := by
  have hload := Contents.answer_load_of_keeps hserves.load h
  have hremove : (c.answer (.remove key)).1 = .ok true := by
    rw [(Contents.answer_remove hserves).1, Contents.has_of_keeps h]
  simp only [load, Program.run_ask, Program.run_now, Store.answer_mk_false, hload,
    Contents.answer_load_snd]
  split
  · simp
  · split
    · simp [claim, hremove]
    · rfl

/-- A right pin opens what a store answers, however it is kept and even if it cannot be dropped. -/
theorem run_load_of_loaded {s : Store} (hload : (s.answer (.load key)).1 = .ok m)
    (hnow : m.isExpired now = false) (hverify : v.hasher.verify m.pinHash pin = true) :
    ((v.load key pin).run Store.answer now s).1 = v.openPayload m pin := by
  cases hclosed : s.isClosed with
  | true =>
      rw [Store.answer_of_closed hclosed] at hload
      contradiction
  | false =>
      obtain ⟨c, isClosed⟩ := s
      obtain rfl : isClosed = false := hclosed
      have hload : (c.answer (.load key)).1 = .ok m := hload
      simp only [load, claim, Program.run_ask, Program.run_now, Store.answer_mk_false, hload,
        Contents.answer_load_snd, hnow, hverify, Bool.false_eq_true, if_false, if_true]
      cases hrefusal : c.refusal? (.remove key) with
      | none => rw [(Contents.answer_remove hrefusal).1, Contents.has_of_load hload]; rfl
      | some e => rw [Contents.answer_of_refused hrefusal]; rfl

/-- What a wrong pin comes to, as long as the count has room and is not refused. -/
theorem run_recordBadPin (htaken : c.refusal? (.increment m.key) = none) (h : c.Keeps m.key m)
    (hfits : m.Fits) (hroom : m.errors.toNat + 1 < 4294967296) :
    (v.recordBadPin m).run Store.answer now ⟨c, false⟩ =
      if v.limits.maxPinAttempts ≤ m.errors + 1 then
        (.error .badPin,
          ⟨((c.answer (.increment m.key)).2.answer (.remove m.key)).2, false⟩)
      else
        (.error (.badPinAttempt (m.errors + 1) { m with errors := m.errors + 1 }),
          ⟨(c.answer (.increment m.key)).2, false⟩) := by
  obtain ⟨hcount, -⟩ := Contents.keeps_increment htaken rfl hfits hroom h
  simp only [recordBadPin, Program.run_ask, Store.answer_mk_false, hcount]
  split <;> rfl

/-- A wrong pin that cannot be counted changes nothing. -/
theorem run_recordBadPin_of_refused {e : StoreError}
    (hrefused : c.refusal? (.increment m.key) = some e) :
    (v.recordBadPin m).run Store.answer now ⟨c, false⟩ = (.error (.store e), ⟨c, false⟩) := by
  have hanswer := Contents.answer_of_refused hrefused
  cases e with
  | loadRejected => exact absurd hrefused Contents.refusal?_ne_loadRejected
  | _ => simp [recordBadPin, hanswer]

/-- The form of a message is told without a change to the store. -/
theorem run_isFile_of_keeps (htaken : c.refusal? (.load key) = none) (h : c.Keeps key m) :
    (isFile key).run Store.answer now ⟨c, false⟩ =
      (!m.clientEncrypted && !m.isExpired now && Framing.isFile m.data, ⟨c, false⟩) := by
  have hload := Contents.answer_load_of_keeps htaken h
  simp [isFile, hload]

theorem run_isFile_of_missing (htaken : c.refusal? (.load key) = none)
    (h : c.has key = false) :
    (isFile key).run Store.answer now ⟨c, false⟩ = (false, ⟨c, false⟩) := by
  have hload := Contents.answer_load_of_missing htaken h
  simp [isFile, hload]

end Vault

end ReadOnce
