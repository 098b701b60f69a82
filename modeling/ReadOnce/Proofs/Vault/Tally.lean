import ReadOnce.Proofs.Store.Copy
import ReadOnce.Proofs.Vault.Counting

/-!
# What calls come to

What a call has been told when it counted a wrong pin fixes what it may come to: a count below the
limit is what a wrong pin is answered with, a count from the limit on uses up the message, and a
call that finds nothing to count on is told the same as one that used it up. Whatever else a call
comes to, it comes to with the message gone, unless the store failed.

`Tally` is the invariant. What a call remembers of the message is a copy, so that it counts under
the key it was called with; and what it has been told is in the log, where no other call can change
it.
-/

namespace ReadOnce

variable {ι : Type} {v : Vault} {n : Message}

namespace Outcome

/-- The wrong pins that a refused call was told of, if it may try again. -/
def attempt? (o : Outcome) : Option UInt32 :=
  match o.refusal? with
  | some (.badPinAttempt attempts _) => some attempts
  | _ => none

/-- Whether a call for the message has come to anything but an invitation to try again or a failure
of the store. -/
def isFinal : Outcome → Bool
  | classified _ => false
  | o =>
    match o.refusal? with
    | some (.badPinAttempt _ _) => false
    | some (.store _) => false
    | _ => true

end Outcome

namespace Call

variable {call : Call}

/-- Who may not try again is told of no count. -/
theorem attempt?_refused {e : VaultError} (h : e.isRetryable = false) :
    (call.outcome (.error e)).attempt? = none := by
  cases call with
  | isFile => rfl
  | _ =>
      cases e with
      | badPinAttempt a m => contradiction
      | _ => rfl

theorem attempt?_badPinAttempt {a attempts : UInt32} {m : Message}
    (h : (call.outcome (.error (.badPinAttempt a m))).attempt? = some attempts) :
    a = attempts := by
  cases call with
  | isFile => contradiction
  | _ => exact Option.some.inj h

@[simp] theorem isFinal_storeFailed (e : StoreError) :
    (call.outcome (.error (.store e))).isFinal = false := by
  cases call <;> rfl

@[simp] theorem isFinal_badPinAttempt (attempts : UInt32) (m : Message) :
    (call.outcome (.error (.badPinAttempt attempts m))).isFinal = false := by
  cases call <;> rfl

theorem openPayload_eq_error {m : Message} {pin : String} {e : VaultError}
    (h : v.openPayload m pin = .error e) : e = .badPin := by
  unfold Vault.openPayload at h
  repeat' split at h
  all_goals cases h
  all_goals rfl

/-- To open a payload counts nothing. -/
@[simp] theorem attempt?_opened (m : Message) (pin : String) :
    (call.outcome (v.openPayload m pin)).attempt? = none := by
  cases hopened : v.openPayload m pin with
  | error e =>
      obtain rfl := openPayload_eq_error hopened
      cases call <;> rfl
  | ok m' =>
      cases call with
      | reveal p =>
          simp only [outcome, Vault.revealedOf, Vault.secretOf]
          repeat' split
          all_goals rfl
      | _ => rfl

end Call

/-- What a call has come to agrees with what it was told when it counted a wrong pin, and with
whether the message is gone. -/
structure Outcome.Agrees (v : Vault) (call : Call) (told : Except StoreError UInt32 → Prop)
    (gone : Prop) (o : Outcome) : Prop where
  attempt : ∀ a, o.attempt? = some a → told (.ok a) ∧ a < v.limits.maxPinAttempts
  exhausted : ∀ a, told (.ok a) → v.limits.maxPinAttempts ≤ a →
    o = call.outcome (.error .badPin) ∧ gone
  missed : told (.error .loadRejected) → o = call.outcome (.error .badPin) ∧ gone
  final : o.isFinal = true → gone

namespace Phase

/-- What a call remembers is a copy of the message, and it has been told of a count only once it
has counted. -/
def Agrees (v : Vault) (n : Message) (call : Call) (told : Except StoreError UInt32 → Prop)
    (gone : Prop) : Phase → Prop
  | asking => ∀ reply, ¬ told reply
  | dating m => m.IsCopyOf n ∧ ∀ reply, ¬ told reply
  | expiring => ∀ reply, ¬ told reply
  | claiming m _ => m.IsCopyOf n ∧ ∀ reply, ¬ told reply
  | counting m => m.IsCopyOf n ∧ ∀ reply, ¬ told reply
  | exhausting m => m.IsCopyOf n ∧ ¬ told (.error .loadRejected)
  | ended o => o.Agrees v call told gone

variable {call : Call} {told : Except StoreError UInt32 → Prop} {gone : Prop} {ph : Phase}

theorem Agrees.mono (h : ph.Agrees v n call told gone)
    {told' : Except StoreError UInt32 → Prop} {gone' : Prop}
    (htold : ∀ reply, told' reply ↔ told reply) (hgone : gone → gone') :
    ph.Agrees v n call told' gone' := by
  obtain rfl : told' = told := funext fun reply => propext (htold reply)
  cases ph with
  | ended o =>
      exact ⟨h.attempt, fun a ha hmax => (h.exhausted a ha hmax).imp_right hgone,
        fun hmissed => (h.missed hmissed).imp_right hgone, fun hfinal => hgone (h.final hfinal)⟩
  | _ => exact h

/-- A call that has counted nothing may come to anything that tells of no count, if the message is
gone or the outcome is not final. -/
theorem agrees_ended_of_not_told {o : Outcome} (htold : ∀ reply, ¬ told reply)
    (hattempt : o.attempt? = none) (hfinal : o.isFinal = true → gone) :
    (ended o).Agrees v n call told gone where
  attempt a ha := by simp [hattempt] at ha
  exhausted a ha := (htold _ ha).elim
  missed h := (htold _ h).elim
  final := hfinal

theorem agrees_badPin (hgone : gone) :
    (ended (call.outcome (.error .badPin))).Agrees v n call told gone where
  attempt a ha := by
    rw [Call.attempt?_refused rfl] at ha
    contradiction
  exhausted _ _ _ := ⟨rfl, hgone⟩
  missed _ := ⟨rfl, hgone⟩
  final _ := hgone

theorem agrees_afterLoad {reply : Except StoreError Message} (htold : ∀ reply, ¬ told reply)
    (hcopy : ∀ m, reply = .ok m → m.IsCopyOf n) (hgone : reply = .error .loadRejected → gone) :
    (afterLoad call reply).Agrees v n call told gone := by
  unfold afterLoad
  split
  · rename_i m
    exact ⟨hcopy m rfl, htold⟩
  · exact agrees_ended_of_not_told htold (Call.attempt?_refused rfl) fun _ => hgone rfl
  · refine agrees_ended_of_not_told htold (Call.attempt?_refused rfl) ?_
    intro hfinal
    simp [Call.isFinal_storeFailed] at hfinal

theorem agrees_afterClock {m : Message} (now : Instant) (htold : ∀ reply, ¬ told reply)
    (hcopy : m.IsCopyOf n) : (afterClock v call m now).Agrees v n call told gone := by
  unfold afterClock
  split
  · exact agrees_ended_of_not_told htold rfl nofun
  · split
    · exact htold
    · split <;> exact ⟨hcopy, htold⟩

theorem agrees_afterClaim {m : Message} {pin : String} (reply : Except StoreError Bool)
    (htold : ∀ reply, ¬ told reply) (hgone : gone) :
    (afterClaim v call m pin reply).Agrees v n call told gone := by
  unfold afterClaim
  split
  · exact agrees_ended_of_not_told htold (Call.attempt?_refused rfl) fun _ => hgone
  · exact agrees_ended_of_not_told htold (Call.attempt?_opened m pin) fun _ => hgone

theorem agrees_afterCount {m : Message} {reply : Except StoreError UInt32}
    (htold : ∀ reply', told reply' ↔ reply' = reply) (hcopy : m.IsCopyOf n)
    (hgone : reply = .error .loadRejected → gone) :
    (afterCount v call m reply).Agrees v n call told gone := by
  unfold afterCount
  split
  · exact agrees_badPin (hgone rfl)
  · rename_i e hne
    refine ⟨?_, ?_, ?_, ?_⟩
    · intro a ha
      rw [Call.attempt?_refused rfl] at ha
      contradiction
    · intro a ha
      simp [htold] at ha
    · intro hmissed
      have he : .loadRejected = e := by simpa [htold] using hmissed
      exact absurd he.symm hne
    · intro hfinal
      simp [Call.isFinal_storeFailed] at hfinal
  · rename_i a
    split
    · exact ⟨hcopy, by simp [htold]⟩
    · rename_i hroom
      refine ⟨?_, ?_, ?_, ?_⟩
      · intro a' ha'
        obtain rfl := Call.attempt?_badPinAttempt ha'
        exact ⟨(htold _).2 rfl, UInt32.not_le.1 hroom⟩
      · intro a' ha' hmax
        obtain rfl : a' = a := by simpa [htold] using ha'
        exact absurd hmax hroom
      · intro hmissed
        simp [htold] at hmissed
      · intro hfinal
        simp [Call.isFinal_badPinAttempt] at hfinal

end Phase

namespace Scene

variable {ask : ι → Call} {s : Scene ι} {key : Key} {i : ι}

/-- A call has counted a wrong pin, and this is what it was told. -/
def Counted (s : Scene ι) (key : Key) (i : ι) (reply : Except StoreError UInt32) : Prop :=
  ⟨some i, .increment key, reply⟩ ∈ s.log

theorem counted_asked_of_ne {caller : Option ι} {r : Request}
    (h : caller ≠ some i ∨ r ≠ .increment key) (reply : Except StoreError UInt32) :
    (s.asked caller r).Counted key i reply ↔ s.Counted key i reply := by
  refine ⟨fun hmem => ?_, List.mem_cons_of_mem _⟩
  rcases List.mem_cons.1 hmem with heq | hmem
  · cases heq
    simp at h
  · exact hmem

theorem counted_asked_self (reply : Except StoreError UInt32) :
    (s.asked (some i) (.increment key)).Counted key i reply ↔
      reply = (s.store.answer (.increment key)).1 ∨ s.Counted key i reply := by
  simp [Counted, asked]

/-- Nothing but copies of the message is kept, and every call agrees with what it was told. -/
structure Tally (v : Vault) (n : Message) (ask : ι → Call) (s : Scene ι) : Prop where
  isOpen : s.store.isClosed = false
  serves : s.store.contents.Serves n.key
  kept : s.store.contents.KeepsOnly n.key n
  calls : ∀ i, ∃ ph, Phase.Runs v n.key (ask i) ph (s.calls i) ∧
    ph.Agrees v n (ask i) (s.Counted n.key i) (s.store.contents.has n.key = false)

namespace Tally

theorem start {store : Store} {clock : Instant} (hopen : store.isClosed = false)
    (hserves : store.contents.Serves n.key) (hkept : store.contents.KeepsOnly n.key n) :
    (Scene.start v n.key ask store clock).Tally v n ask where
  isOpen := hopen
  serves := hserves
  kept := hkept
  calls i := ⟨.asking, Phase.runs_program v n.key (ask i), fun _ => List.not_mem_nil⟩

/-- What somebody else asks leaves a call in agreement. -/
theorem agrees_asked (h : s.Tally v n ask) {caller : Option ι} {r : Request}
    (hr : ∀ m, r = .save m → m.key ≠ n.key) (hi : caller ≠ some i) :
    ∃ ph, Phase.Runs v n.key (ask i) ph (s.calls i) ∧
      ph.Agrees v n (ask i) ((s.asked caller r).Counted n.key i)
        ((s.asked caller r).store.contents.has n.key = false) := by
  obtain ⟨ph, hruns, hagrees⟩ := h.calls i
  refine ⟨ph, hruns, hagrees.mono (counted_asked_of_ne (.inl hi)) ?_⟩
  intro hgone
  simp only [asked, Store.answer_of_open h.isOpen]
  exact Contents.has_answer_eq_false hr hgone

/-- What a call asks leads it to a phase in agreement. -/
theorem agrees_of_asks (h : s.Tally v n ask) {ph ph' : Phase} {r : Request}
    (hagrees : ph.Agrees v n (ask i) (s.Counted n.key i) (s.store.contents.has n.key = false))
    (hasks : Phase.Asks v n.key (ask i) ph r (s.store.answer r).1 ph') :
    ph'.Agrees v n (ask i) ((s.asked (some i) r).Counted n.key i)
      ((s.asked (some i) r).store.contents.has n.key = false) := by
  have hcontents : (s.asked (some i) r).store.contents = (s.store.contents.answer r).2 := by
    simp only [asked, Store.answer_of_open h.isOpen]
  have hremoved (hr : r = .remove n.key) :
      (s.asked (some i) r).store.contents.has n.key = false := by
    subst hr
    rw [hcontents]
    exact (Contents.answer_remove h.serves).2
  have huntold (hr : r ≠ .increment n.key) (hnone : ∀ reply, ¬ s.Counted n.key i reply)
      (reply : Except StoreError UInt32) : ¬ (s.asked (some i) r).Counted n.key i reply :=
    fun hmem => hnone reply ((counted_asked_of_ne (.inr hr) reply).1 hmem)
  cases hasks with
  | load =>
      rw [Store.answer_of_open h.isOpen]
      refine Phase.agrees_afterLoad (huntold (by simp) hagrees) (fun m hm => h.kept.isCopyOf hm) ?_
      intro hrejected
      rw [hcontents, Contents.answer_load_snd]
      exact Contents.has_eq_false_of_load hrejected
  | expire =>
      exact Phase.agrees_ended_of_not_told (huntold (by simp) hagrees) (Call.attempt?_refused rfl)
        fun _ => hremoved rfl
  | claim m pin reply =>
      exact Phase.agrees_afterClaim _ (huntold (by simp) hagrees.2) (hremoved rfl)
  | count m =>
      obtain ⟨hcopy, hnone⟩ := hagrees
      -- The call counts under the key of its copy, which is the key it was called with.
      rw [hcopy.key_eq] at hcontents ⊢
      refine Phase.agrees_afterCount ?_ hcopy ?_
      · intro reply
        rw [counted_asked_self]
        simp [hnone]
      · intro hrejected
        rw [Store.answer_of_open h.isOpen] at hrejected
        have hgone := Contents.has_eq_false_of_increment hrejected
        rw [hcontents, Contents.answer_increment_snd_of_missing hgone]
        exact hgone
  | exhaust m =>
      refine Phase.agrees_badPin (hremoved ?_)
      rw [hagrees.1.key_eq]

variable [DecidableEq ι]

theorem step (h : s.Tally v n ask) (hfits : n.Fits) {e : Event ι} (he : e.SavesNot n.key) :
    (s.step e).Tally v n ask := by
  cases e with
  | call i =>
      obtain ⟨ph, hruns, hagrees⟩ := h.calls i
      rcases step_call hruns with ⟨o, -, hstep⟩ | ⟨m, next, rfl, hnext, hstep⟩ |
        ⟨r, ph', next, hasks, hnext, hstep⟩
      · rwa [hstep]
      · rw [hstep]
        refine ⟨h.isOpen, h.serves, h.kept, ?_⟩
        exact forall_calls_resume
          (P := fun j p => ∃ ph, Phase.Runs v n.key (ask j) ph p ∧
            ph.Agrees v n (ask j) (s.Counted n.key j) (s.store.contents.has n.key = false))
          ⟨_, hnext, Phase.agrees_afterClock s.clock hagrees.2 hagrees.1⟩ h.calls
      · rw [hstep]
        have hr (m : Message) (hm : r = .save m) : m.key ≠ n.key :=
          absurd hm (Phase.ne_save_of_asks hasks m)
        refine ⟨?_, ?_, ?_, ?_⟩
        · simp only [resume, asked, Store.answer_of_open h.isOpen]
        · simp only [resume, asked, Store.answer_of_open h.isOpen]
          exact h.serves.answer r
        · simp only [resume, asked, Store.answer_of_open h.isOpen]
          exact h.kept.answer hfits hr
        · -- The call that asked has been told more; the others were told nothing.
          refine forall_calls_resume_of_ne
            (P := fun j p => ∃ ph, Phase.Runs v n.key (ask j) ph p ∧
              ph.Agrees v n (ask j) ((s.asked (some i) r).Counted n.key j)
                ((s.asked (some i) r).store.contents.has n.key = false))
            ⟨ph', hnext, h.agrees_of_asks hagrees hasks⟩ ?_
          intro j hj
          exact h.agrees_asked hr fun hij => hj (Option.some.inj hij).symm
  | clock t => exact ⟨h.isOpen, h.serves, h.kept, h.calls⟩
  | request r =>
      have hr (m : Message) (hm : r = .save m) : m.key ≠ n.key := by
        subst hm
        exact he
      refine ⟨?_, ?_, ?_, fun j => h.agrees_asked hr (by simp)⟩
      · simp only [step_request, asked, Store.answer_of_open h.isOpen]
      · simp only [step_request, asked, Store.answer_of_open h.isOpen]
        exact h.serves.answer r
      · simp only [step_request, asked, Store.answer_of_open h.isOpen]
        exact h.kept.answer hfits hr
  | sweep now place =>
      rw [step_sweep_of_open h.isOpen]
      refine ⟨h.isOpen, Contents.serves_purgeStep_iff.2 h.serves, h.kept.purgeStep now place, ?_⟩
      intro j
      obtain ⟨ph, hruns, hagrees⟩ := h.calls j
      exact ⟨ph, hruns, hagrees.mono (fun _ => Iff.rfl)
        (Contents.has_purgeStep_eq_false now place)⟩
  | close => exact he.elim

theorem run (h : s.Tally v n ask) (hfits : n.Fits) {es : List (Event ι)}
    (hes : ∀ e ∈ es, e.SavesNot n.key) : (s.run es).Tally v n ask :=
  run_induction (fun _ _ hs he => hs.step hfits he) h hes

end Tally

/-- Whatever calls on a message that was taken in come to agrees with what they were told. -/
theorem tally_of_saved [DecidableEq ι] {fresh : Fresh} {intake : Intake} {t : Instant} {m : Message}
    {before after : Store} (hsaved : intake.Saved v fresh t m before after) (hfits : m.Fits)
    (ask : ι → Call) (clock : Instant) {es : List (Event ι)} (hes : ∀ e ∈ es, e.SavesNot m.key) :
    ∃ u, ((Scene.start v m.key ask after clock).run es).Tally v { m with expiresAt := u } ask := by
  obtain ⟨u, -, -, hkeeps⟩ := hsaved.keeps_after hfits
  have hstart : (Scene.start v m.key ask after clock).Tally v { m with expiresAt := u } ask :=
    .start hsaved.open_after hsaved.serves_after (Contents.keepsOnly_of_keeps hkeeps)
  exact ⟨u, hstart.run (hfits.redated u) hes⟩

end Scene

end ReadOnce
