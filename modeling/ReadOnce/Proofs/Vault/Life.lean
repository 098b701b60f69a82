import ReadOnce.Proofs.Vault.Call
import ReadOnce.Proofs.Vault.Load
import ReadOnce.Proofs.Vault.Sealed

/-!
# The life of a message

As long as calls do not overlap, a message is there with a number of wrong pins counted, or it is
gone. `Life.answer` says what each call comes to and what it makes of the message, without a store,
a cipher or a hash. A vault over a store of any form answers every series of calls in this way, and
what the store holds after them is what the life of the message says, unless the store fails. Only a
table may: a row that a count would make too big is not counted on.
-/

namespace ReadOnce

/-- Where a message is in its life. -/
inductive Life where
  /-- It is there, and so many wrong pins have been counted. -/
  | live (count : Nat)
  | gone
  deriving DecidableEq, Repr

namespace Life

/-- What a wrong pin comes to. -/
def answerWrong (m : Message) (max : Nat) (call : Call) (count : Nat) : Outcome × Life :=
  if count + 1 < max then
    let counted := UInt32.ofNat (count + 1)
    (call.outcome (.error (.badPinAttempt counted { m with errors := counted })), live (count + 1))
  else (call.outcome (.error .badPin), gone)

/-- What a call comes to, and where the message is from then on: `m` is the message as it was taken
in, `i` what was taken in, and `max` the number of wrong pins at which a message is destroyed. -/
def answer (m : Message) (i : Intake) (max : Nat) (now : Instant) (call : Call) :
    Life → Outcome × Life
  | gone => (call.outcome (.error .notFound), gone)
  | live count =>
    match call.pin? with
    | none => (.classified (i.isFile && !decide (m.expiresAt ≤ now)), live count)
    | some pin =>
      if m.expiresAt ≤ now then (call.outcome (.error .expired), gone)
      else if pin = i.pin then
        (call.outcome (.ok { m with data := i.content, errors := UInt32.ofNat count }), gone)
      else answerWrong m max call count

/-- What calls come to in turn, each at an instant, and where the message is after them. -/
def run (m : Message) (i : Intake) (max : Nat) (life : Life) :
    List (Instant × Call) → List Outcome × Life
  | [] => ([], life)
  | (now, call) :: rest =>
    let (outcome, life) := life.answer m i max now call
    let (outcomes, life) := life.run m i max rest
    (outcome :: outcomes, life)

/-- What a store is to answer for a message. -/
def stored (m : Message) : Life → Except StoreError Message
  | live count => .ok { m with errors := UInt32.ofNat count }
  | gone => .error .loadRejected

/-- What is kept of a message is what its life says. -/
def Holds (m : Message) (max : Nat) (c : Contents) : Life → Prop
  | live count => count < max ∧ c.Keeps m.key { m with errors := UInt32.ofNat count }
  | gone => c.has m.key = false

end Life

namespace Vault

/-- What calls on a key come to in turn, each by itself at an instant, and the store after them. -/
def attend (v : Vault) (key : Key) : List (Instant × Call) → Store → List Outcome × Store
  | [], s => ([], s)
  | (now, call) :: rest, s =>
    let (outcome, s) := (call.program v key).run Store.answer now s
    let (outcomes, s) := v.attend key rest s
    (outcome :: outcomes, s)

/-- No call on a key is told that the store failed. Nothing but a table may fail one. -/
def Unfailing (v : Vault) (key : Key) (script : List (Instant × Call)) (s : Store) : Prop :=
  s.contents.isTable = true →
    ∀ o ∈ (v.attend key script s).1, ∀ e, o.refusal? ≠ some (.store e)

/-- A message is what a vault would make of what was taken in, and can be opened. -/
structure Honours (v : Vault) (i : Intake) (m : Message) : Prop where
  opens : ∀ n : Message, n.data = m.data → n.clientEncrypted = m.clientEncrypted →
    v.openPayload n i.pin = .ok { n with data := i.content }
  /-- It shows whether it holds a file. -/
  shows : (!m.clientEncrypted && Framing.isFile m.data) = i.isFile
  verifies : ∀ pin, v.hasher.verify m.pinHash pin = (pin == i.pin)
  /-- Its lengths can be told. -/
  fits : m.Fits
  allows : v.limits.maxPinAttempts ≠ 0

variable {v : Vault} {i : Intake} {m : Message} {c : Contents}

/-- Counts stay in range, since a message does not outlive the last wrong pin allowed. -/
theorem succ_count {max : UInt32} {count : Nat} (h : count < max.toNat) :
    (UInt32.ofNat count).toNat + 1 < 4294967296 ∧
      UInt32.ofNat count + 1 = UInt32.ofNat (count + 1) ∧
        (max ≤ UInt32.ofNat count + 1 ↔ ¬ count + 1 < max.toNat) := by
  have hmax := max.toNat_lt
  have hcount : (UInt32.ofNat count).toNat = count := by
    rw [UInt32.toNat_ofNat']
    omega
  have hsucc : (UInt32.ofNat count + 1).toNat = count + 1 := by
    rw [toNat_succ_count (by omega), hcount]
  refine ⟨by omega, ?_, ?_⟩
  · apply UInt32.toNat_inj.1
    rw [hsucc, UInt32.toNat_ofNat']
    omega
  · rw [UInt32.le_iff_toNat_le, hsucc]
    omega

theorem unfailing_cons {key : Key} {now : Instant} {call : Call} {rest : List (Instant × Call)}
    {s : Store} (h : v.Unfailing key ((now, call) :: rest) s) :
    (s.contents.isTable = true →
      ∀ e, ((call.program v key).run Store.answer now s).1.refusal? ≠ some (.store e)) ∧
    v.Unfailing key rest ((call.program v key).run Store.answer now s).2 := by
  constructor
  · intro htable
    exact h htable _ (List.mem_cons_self ..)
  · intro htable o ho
    rw [Program.isTable_run] at htable
    exact h htable o (List.mem_cons_of_mem _ ho)

/-- A wrong pin is counted if the call that has it is not told that the store failed. -/
theorem refusal?_increment_of_unfailing {n : Message} {call : Call} {pin : String}
    (hpin : call.pin? = some pin) {now : Instant}
    (htold : c.isTable = true → ∀ e, (call.outcome
      ((v.recordBadPin n).run Store.answer now ⟨c, false⟩).1).refusal? ≠ some (.store e)) :
    c.refusal? (.increment n.key) = none := by
  cases htable : c.isTable with
  | false => exact Contents.refusal?_of_isTable_eq_false htable _
  | true =>
      cases hrefusal : c.refusal? (.increment n.key) with
      | none => rfl
      | some e =>
          have htold := htold htable e
          rw [run_recordBadPin_of_refused hrefusal, Call.refusal?_outcome_of_pin? hpin] at htold
          exact absurd rfl htold

theorem run_wrong (hv : v.Honours i m) {count : Nat} (hserves : c.Serves m.key)
    (h : (Life.live count).Holds m v.limits.maxPinAttempts.toNat c) (now : Instant) (call : Call)
    (htaken : c.refusal? (.increment m.key) = none) :
    ∃ c', (call.outcome ((v.recordBadPin { m with errors := UInt32.ofNat count }).run Store.answer
          now ⟨c, false⟩).1, ((v.recordBadPin { m with errors := UInt32.ofNat count }).run
            Store.answer now ⟨c, false⟩).2) =
        ((Life.answerWrong m v.limits.maxPinAttempts.toNat call count).1, ⟨c', false⟩) ∧
      (Life.answerWrong m v.limits.maxPinAttempts.toNat call count).2.Holds m
        v.limits.maxPinAttempts.toNat c' := by
  obtain ⟨hlt, hkeeps⟩ := h
  obtain ⟨hroom, hsucc, hlast⟩ := succ_count hlt
  have hfits : Message.Fits { m with errors := UInt32.ofNat count } :=
    ⟨hv.fits.key, hv.fits.data, hv.fits.pinHash⟩
  obtain ⟨-, hcounted⟩ := Contents.keeps_increment
    (m := { m with errors := UInt32.ofNat count }) htaken rfl hfits hroom hkeeps
  rw [run_recordBadPin (m := { m with errors := UInt32.ofNat count }) htaken hkeeps hfits hroom]
  unfold Life.answerWrong
  by_cases hmore : count + 1 < v.limits.maxPinAttempts.toNat
  · rw [if_neg fun hle => hlast.1 hle hmore, if_pos hmore, hsucc]
    exact ⟨_, rfl, hmore, by rwa [hsucc] at hcounted⟩
  · rw [if_pos (hlast.2 hmore), if_neg hmore]
    exact ⟨_, rfl, (Contents.answer_remove (hserves.answer _)).2⟩

/-- A call that is not told that the store failed comes to what the life of the message says, and
leaves in the store what it says. -/
theorem run_program (hv : v.Honours i m) {life : Life} (hserves : c.Serves m.key)
    (h : life.Holds m v.limits.maxPinAttempts.toNat c) (now : Instant) (call : Call)
    (htold : c.isTable = true →
      ∀ e, ((call.program v m.key).run Store.answer now ⟨c, false⟩).1.refusal? ≠
        some (.store e)) :
    ∃ c', (call.program v m.key).run Store.answer now ⟨c, false⟩ =
        ((life.answer m i v.limits.maxPinAttempts.toNat now call).1, ⟨c', false⟩) ∧
      (life.answer m i v.limits.maxPinAttempts.toNat now call).2.Holds m
        v.limits.maxPinAttempts.toNat c' := by
  cases hpin : call.pin? with
  | none =>
      obtain rfl := Call.eq_isFile_of_pin? hpin
      refine ⟨c, ?_⟩
      cases life with
      | gone =>
          rw [Call.program, Program.run_map, run_isFile_of_missing hserves.load h]
          exact ⟨rfl, h⟩
      | live count =>
          rw [Call.program, Program.run_map, run_isFile_of_keeps hserves.load h.2]
          refine ⟨?_, h⟩
          rw [Life.answer, Call.pin?, ← hv.shows, Bool.and_right_comm]
          rfl
  | some pin =>
      rw [Call.program_of_pin? hpin, Program.run_map] at htold ⊢
      cases life with
      | gone =>
          rw [run_load_of_missing hserves.load h]
          exact ⟨c, rfl, h⟩
      | live count =>
          rw [run_load_of_keeps hserves h.2] at htold ⊢
          have hgone : (c.answer (.remove m.key)).2.has m.key = false :=
            (Contents.answer_remove hserves).2
          simp only [Life.answer, hpin, Message.isExpired, decide_eq_true_eq, hv.verifies,
            beq_iff_eq] at htold ⊢
          by_cases hexpired : m.expiresAt ≤ now
          · simp only [if_pos hexpired]
            exact ⟨_, rfl, hgone⟩
          by_cases hright : pin = i.pin
          · simp only [if_neg hexpired, if_pos hright]
            rw [hright, hv.opens { m with errors := UInt32.ofNat count } rfl rfl]
            exact ⟨_, rfl, hgone⟩
          simp only [if_neg hexpired, if_neg hright] at htold ⊢
          exact run_wrong hv hserves h now call (refusal?_increment_of_unfailing
            (n := { m with errors := UInt32.ofNat count }) hpin htold)

/-- Calls in turn come to what the life of the message says. -/
theorem attend_eq_run (hv : v.Honours i m) {life : Life} (hserves : c.Serves m.key)
    (h : life.Holds m v.limits.maxPinAttempts.toNat c) {script : List (Instant × Call)}
    (hunfailing : v.Unfailing m.key script ⟨c, false⟩) :
    ∃ c', v.attend m.key script ⟨c, false⟩ =
        ((life.run m i v.limits.maxPinAttempts.toNat script).1, ⟨c', false⟩) ∧
      c'.Serves m.key ∧ (life.run m i v.limits.maxPinAttempts.toNat script).2.Holds m
        v.limits.maxPinAttempts.toNat c' := by
  induction script generalizing life c with
  | nil => exact ⟨c, rfl, hserves, h⟩
  | cons entry rest ih =>
      obtain ⟨now, call⟩ := entry
      obtain ⟨htold, hunfailing⟩ := unfailing_cons hunfailing
      obtain ⟨c₁, hcall, hholds⟩ := run_program hv hserves h now call htold
      have hserves := Program.serves_run now (call.program v m.key) (s := ⟨c, false⟩) hserves
      rw [hcall] at hunfailing hserves
      obtain ⟨c₂, hrest, hserves, hholds⟩ := ih hserves hholds hunfailing
      refine ⟨c₂, ?_, hserves, hholds⟩
      simp only [attend, hcall, hrest, Life.run]

end Vault

theorem PinHasher.plain_faithful : PinHasher.plain.Faithful := by
  intro salt pin hash h other
  obtain rfl : "hash:" ++ pin = hash := Except.ok.inj h
  simp only [plain, Bool.beq_eq_decide_eq, String.append_right_inj, eq_comm]

theorem Life.load_of_holds {m : Message} {max : Nat} {c : Contents} {life : Life}
    (hserves : c.Serves m.key) (h : life.Holds m max c) :
    (c.answer (.load m.key)).1 = life.stored m := by
  cases life with
  | live count => exact Contents.answer_load_of_keeps hserves.load h.2
  | gone => exact Contents.answer_load_of_missing hserves.load h

namespace Intake.Saved

variable {v : Vault} {fresh : Fresh} {i : Intake} {t : Instant} {m : Message}
variable {before after : Store} {k : SecretCipher} {l : Limits}

theorem honours (h : i.Saved v fresh t m before after) (hcipher : v.cipher = .secret k)
    (hlimits : v.limits = l.normalized)
    (hnonce : fresh.nonce.length = XChaCha20Poly1305.nonceSize)
    (hmarker : i.isFile = false → i.clientEncrypted = false →
      Framing.marker.isPrefixOf fresh.nonce = false)
    (hverify : ∀ pin, v.hasher.verify m.pinHash pin = (pin == i.pin)) (hfits : m.Fits) :
    v.Honours i m where
  opens _ hdata hflag := h.openPayload hcipher hnonce hmarker hdata hflag
  shows := h.isFile_data hcipher hnonce hmarker
  verifies := hverify
  fits := hfits
  allows := hlimits ▸ l.normalized_maxPinAttempts_ne_zero

/-- A message starts its life with no wrong pin counted. -/
theorem holds (h : i.Saved v fresh t m before after) (hv : v.Honours i m)
    (hleap : m.expiresAt.isLeap = false) :
    (Life.live 0).Holds m v.limits.maxPinAttempts.toNat after.contents := by
  obtain ⟨u, -, heq, hkeeps⟩ := h.keeps_after hv.fits
  have hpos : v.limits.maxPinAttempts.toNat ≠ 0 := fun hzero =>
    hv.allows (UInt32.toNat_inj.1 hzero)
  refine ⟨Nat.pos_of_ne_zero hpos, ?_⟩
  rw [heq hleap] at hkeeps
  have hcount : UInt32.ofNat 0 = m.errors := h.errors.symm
  rwa [hcount]

end Intake.Saved

/-- A message that was taken in lives as `Life` says, over a store of any form that does not fail
and whatever else is in it: that is how calls are answered that do not overlap, with any pins and at
any instants, and what is stored after them. -/
theorem Vault.attend_eq_life {v : Vault} {k : SecretCipher} {l : Limits} {fresh : Fresh}
    {i : Intake} {t : Instant} {m : Message} {before after : Store}
    (hcipher : v.cipher = .secret k) (hlimits : v.limits = l.normalized)
    (hsaved : (i.program v fresh).run Store.answer t before = (.ok m, after)) (hfits : m.Fits)
    (hleap : m.expiresAt.isLeap = false)
    (hnonce : fresh.nonce.length = XChaCha20Poly1305.nonceSize)
    (hmarker : i.isFile = false → i.clientEncrypted = false →
      Framing.marker.isPrefixOf fresh.nonce = false)
    (hverify : ∀ pin, v.hasher.verify m.pinHash pin = (pin == i.pin))
    (script : List (Instant × Call)) (hunfailing : v.Unfailing m.key script after) :
    let life := (Life.live 0).run m i l.normalized.maxPinAttempts.toNat script
    (v.attend m.key script after).1 = life.1 ∧
      ((v.attend m.key script after).2.answer (.load m.key)).1 = life.2.stored m := by
  have hsaved := Intake.saved_of_run hsaved
  have hv := hsaved.honours hcipher hlimits hnonce hmarker hverify hfits
  rw [hsaved.eq_after] at hunfailing
  obtain ⟨c, hattend, hserves, hholds⟩ :=
    Vault.attend_eq_run hv hsaved.serves_after (hsaved.holds hv hleap) hunfailing
  rw [← hlimits, hsaved.eq_after, hattend]
  exact ⟨rfl, Life.load_of_holds hserves hholds⟩

/-- A sealed text is asked about, asked for with a wrong pin, revealed, and asked for again. -/
theorem Vault.attend_trial :
    let v : Vault := { Vault.trial with hasher := .plain }
    let m : Message := .trial (Fresh.sealedTrial [104, 105]) "hash:1234"
    ((Intake.text (.trial [104, 105])).program v .trial).run Store.answer .epoch
        ⟨.shelf .empty, false⟩ = (.ok m, .trial m) ∧
      (v.attend m.key [(.epoch, .isFile), (.epoch, .load "1"), (.epoch, .reveal "1234"),
        (.epoch, .load "1234")] (.trial m)).1 =
        [.classified false, .loaded (.error (.badPinAttempt 1 { m with errors := 1 })),
          .revealed (.ok ⟨m.key, .text [104, 105]⟩), .loaded (.error .notFound)] := by
  intro v m
  have hsaved : ((Intake.text (.trial [104, 105])).program v .trial).run Store.answer .epoch
      ⟨.shelf .empty, false⟩ = (.ok m, .trial m) := rfl
  have hdata : m.data.length ≤ 1000 :=
    (Fresh.length_sealedTrial [104, 105]).trans_le (by decide)
  have hlife := Vault.attend_eq_life (l := .default) rfl rfl hsaved
    (Message.fits_trial hdata (by decide)) rfl rfl (by decide)
    (PinHasher.plain_faithful [] "1234" "hash:1234" rfl)
    [(.epoch, .isFile), (.epoch, .load "1"), (.epoch, .reveal "1234"), (.epoch, .load "1234")]
    (fun htable => absurd htable Bool.false_ne_true)
  exact ⟨hsaved, hlife.1⟩

end ReadOnce
