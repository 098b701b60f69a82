import ReadOnce.Proofs.Vault.Intake
import ReadOnce.Proofs.Vault.Scene

/-!
# A message is handed over at most once

Every call may have read the message before anybody took it, so nothing that a call remembers can
keep it from handing the message over. What does is the store: dropping a message answers that there
was one, and then there is none. A message that is saved once is dropped with that answer once at
most, and a call hands over nothing unless it was the one that got the answer.

If all pins are right and nothing else takes the message, some call gets it.
-/

namespace ReadOnce

variable {ι : Type}

/-- Whether the message under a key was taken in an exchange. -/
def Exchange.isRemoval (key : Key) : Exchange ι → Bool
  | ⟨_, .remove k, .ok true⟩ => k == key
  | _ => false

namespace Contents

variable {c : Contents} {key : Key}

/-- There is nothing left once a message has been taken, and nothing but saving brings one back. -/
theorem removal_add_has_le (caller : Option ι) {r : Request}
    (hr : ∀ m, r = .save m → m.key ≠ key) :
    (Exchange.isRemoval key ⟨caller, r, (c.answer r).1⟩).toNat + ((c.answer r).2.has key).toNat ≤
      (c.has key).toNat := by
  have hhas : ((c.answer r).2.has key).toNat ≤ (c.has key).toNat := by
    cases h : c.has key with
    | false => rw [has_answer_eq_false hr h]
    | true => exact Bool.toNat_le _
  cases r with
  | remove k =>
      cases hserves : c.refusal? (.remove k) with
      | some e => simp [answer_of_refused hserves, Exchange.isRemoval]
      | none =>
          obtain ⟨hreply, hgone⟩ := answer_remove hserves
          rw [hreply]
          by_cases hk : k = key
          · subst hk
            rw [hgone]
            cases c.has k <;> simp [Exchange.isRemoval]
          · have hne : (k == key) = false := by simpa using hk
            cases c.has k <;> simpa [Exchange.isRemoval, hne] using hhas
  | _ => exact (Nat.zero_add _).trans_le hhas

end Contents

namespace Scene

variable {s : Scene ι} {key : Key} {i j : ι}

/-- The exchanges in which the message under a key was taken. -/
def removals (s : Scene ι) (key : Key) : List (Exchange ι) :=
  s.log.filter (Exchange.isRemoval key)

/-- A call has taken the message under a key. -/
def Claimed (s : Scene ι) (key : Key) (i : ι) : Prop :=
  ⟨some i, .remove key, .ok true⟩ ∈ s.log

/-- What a call has come to, if it is over. -/
def outcome? (s : Scene ι) (i : ι) : Option Outcome :=
  match s.calls i with
  | .done o => some o
  | _ => none

theorem done_of_outcome? {o : Outcome} (h : s.outcome? i = some o) : s.calls i = .done o := by
  unfold outcome? at h
  split at h
  · rename_i o' hdone
    exact hdone.trans (congrArg _ (Option.some.inj h))
  · contradiction

theorem outcome?_of_runs_ended {v : Vault} {call : Call} {o : Outcome}
    (h : Phase.Runs v key call (.ended o) (s.calls i)) : s.outcome? i = some o := by
  generalize hp : s.calls i = p at h
  cases h
  simp only [outcome?, hp]

theorem outcome?_resume_ended [DecidableEq ι] {v : Vault} {call : Call} {o : Outcome}
    {p : Program Outcome} (h : Phase.Runs v key call (.ended o) p) :
    (s.resume i p).outcome? i = some o := by
  have h : Phase.Runs v key call (.ended o) ((s.resume i p).calls i) := by
    simpa only [resume, Function.update_self] using h
  exact outcome?_of_runs_ended h

theorem ended_of_outcome?_resume [DecidableEq ι] {v : Vault} {call : Call} {ph : Phase}
    {p : Program Outcome} {o : Outcome} (h : Phase.Runs v key call ph p)
    (ho : (s.resume i p).outcome? i = some o) : ph = .ended o := by
  have hdone := done_of_outcome? ho
  simp only [resume, Function.update_self] at hdone
  subst hdone
  cases h
  rfl

/-- A call that is over stays as it is. -/
theorem outcome?_step [DecidableEq ι] {o : Outcome} (h : s.outcome? i = some o) (e : Event ι) :
    (s.step e).outcome? i = some o := by
  have hdone := done_of_outcome? h
  by_cases he : e = .call i
  · subst he
    simp only [step, hdone]
    exact h
  · rw [outcome?, calls_step_of_ne he, hdone]

theorem outcome?_run [DecidableEq ι] {o : Outcome} (h : s.outcome? i = some o)
    (es : List (Event ι)) : (s.run es).outcome? i = some o := by
  induction es generalizing s with
  | nil => exact h
  | cons e es ih => exact ih (outcome?_step h e)

/-- Where a message was taken at most once, at most one call has taken it. -/
theorem Claimed.unique (hi : s.Claimed key i) (hj : s.Claimed key j)
    (h : (s.removals key).length ≤ 1) : i = j := by
  have hmem {i : ι} (hi : s.Claimed key i) :
      (⟨some i, .remove key, .ok true⟩ : Exchange ι) ∈ s.removals key :=
    List.mem_filter.2 ⟨hi, by simp [Exchange.isRemoval]⟩
  have hi := hmem hi
  have hj := hmem hj
  match hlog : s.removals key with
  | [] => simp [hlog] at hi
  | [x] =>
      rw [hlog, List.mem_singleton] at hi hj
      cases hi.trans hj.symm
      rfl
  | _ :: _ :: _ => simp [hlog] at h

theorem Claimed.asked (h : s.Claimed key i) (caller : Option ι) (r : Request) :
    (s.asked caller r).Claimed key i :=
  List.mem_cons_of_mem _ h

theorem length_removals_asked (s : Scene ι) (key : Key) (caller : Option ι) (r : Request) :
    ((s.asked caller r).removals key).length =
      (s.removals key).length +
        (Exchange.isRemoval key ⟨caller, r, (s.store.answer r).1⟩).toNat := by
  simp only [removals, asked, List.filter_cons]
  cases Exchange.isRemoval key ⟨caller, r, (s.store.answer r).1⟩ <;> rfl

end Scene

/-- An event that leaves the store open and saves nothing under a key. -/
def Event.SavesNot (key : Key) : Event ι → Prop
  | close => False
  | request (.save m) => m.key ≠ key
  | _ => True

namespace Phase

variable {v : Vault} {key : Key} {call : Call} {ph : Phase} {o : Outcome}

theorem isHandedOver_eq_false_of_afterClock {m : Message} {now : Instant}
    (h : afterClock v call m now = ended o) : o.isHandedOver = false := by
  unfold afterClock at h
  split at h
  · cases h
    rfl
  · split at h
    · contradiction
    · split at h <;> contradiction

/-- A call ends with the content only if the last thing it asked was to drop the message, and it
was not told that there was none. -/
theorem removal_of_asks {r : Request} {reply : r.Reply}
    (h : Asks v key call ph r reply (ended o)) (ho : o.isHandedOver = true) (caller : Option ι) :
    ∃ answer : Except StoreError Bool, answer ≠ .ok false ∧
      (⟨caller, r, reply⟩ : Exchange ι) = ⟨caller, .remove key, answer⟩ := by
  have hrefused (e : VaultError) : o ≠ call.outcome (.error e) := by
    rintro rfl
    simp [call.isHandedOver_refused] at ho
  generalize hended : ended o = ph' at h
  cases h with
  | load =>
      unfold afterLoad at hended
      split at hended
      · contradiction
      · exact absurd (Phase.ended.inj hended) (hrefused _)
      · exact absurd (Phase.ended.inj hended) (hrefused _)
  | expire => exact absurd (Phase.ended.inj hended) (hrefused _)
  | claim m pin answer =>
      refine ⟨answer, ?_, rfl⟩
      rintro rfl
      exact absurd (Phase.ended.inj hended) (hrefused _)
  | count m =>
      unfold afterCount at hended
      split at hended
      · exact absurd (Phase.ended.inj hended) (hrefused _)
      · exact absurd (Phase.ended.inj hended) (hrefused _)
      · split at hended
        · contradiction
        · exact absurd (Phase.ended.inj hended) (hrefused _)
  | exhaust m => exact absurd (Phase.ended.inj hended) (hrefused _)

/-- As long as the store is open and serves the key, there was a message. -/
theorem eq_removal_of_asks {c : Contents} {r : Request} (hserves : c.Serves key)
    (h : Asks v key call ph r (c.answer r).1 (ended o)) (ho : o.isHandedOver = true)
    (caller : Option ι) :
    (⟨caller, r, (c.answer r).1⟩ : Exchange ι) = ⟨caller, .remove key, .ok true⟩ := by
  obtain ⟨answer, hanswer, hx⟩ := removal_of_asks h ho caller
  obtain rfl : r = .remove key := congrArg Exchange.request hx
  rw [(Contents.answer_remove hserves).1] at hx ⊢
  cases hhas : c.has key with
  | true => rfl
  | false =>
      rw [hhas] at hx
      exact absurd (by simpa using hx.symm) hanswer

/-- No call saves anything. -/
theorem ne_save_of_asks {r : Request} {reply : r.Reply} {ph' : Phase}
    (h : Asks v key call ph r reply ph') (m : Message) : r ≠ .save m := by
  cases h <;> simp

end Phase

namespace Scene

variable {v : Vault} {key : Key} {ask : ι → Call} {s : Scene ι}

/-- The message under a key has been taken at most once and is not there any more if it has been,
and only who has taken it has its content. -/
structure TakenOnce (v : Vault) (key : Key) (ask : ι → Call) (s : Scene ι) : Prop where
  isOpen : s.store.isClosed = false
  serves : s.store.contents.Serves key
  calls : ∀ i, ∃ ph, Phase.Runs v key (ask i) ph (s.calls i) ∧
    ∀ o, ph = .ended o → o.isHandedOver = true → s.Claimed key i
  taken : (s.removals key).length + (s.store.contents.has key).toNat ≤ 1

namespace TakenOnce

theorem start {store : Store} {clock : Instant} (h : store.isClosed = false)
    (hserves : store.contents.Serves key) :
    (Scene.start v key ask store clock).TakenOnce v key ask where
  isOpen := h
  serves := hserves
  calls i := ⟨.asking, Phase.runs_program v key (ask i), fun _ h => by contradiction⟩
  taken := (Nat.zero_add _).trans_le (Bool.toNat_le _)

theorem asked (h : s.TakenOnce v key ask) (caller : Option ι) {r : Request}
    (hr : ∀ m, r = .save m → m.key ≠ key) : (s.asked caller r).TakenOnce v key ask := by
  have hopen := Store.answer_of_open h.isOpen r
  refine ⟨by simp only [Scene.asked, hopen], ?_, ?_, ?_⟩
  · simpa only [Scene.asked, hopen] using h.serves.answer r
  · intro i
    obtain ⟨ph, hruns, hended⟩ := h.calls i
    exact ⟨ph, hruns, fun o ho hhanded => (hended o ho hhanded).asked caller r⟩
  · have hle := s.store.contents.removal_add_has_le caller hr
    have htaken := h.taken
    rw [length_removals_asked]
    simp only [Scene.asked, hopen]
    omega

/-- Who has the content has taken the message. -/
theorem claimed (h : s.TakenOnce v key ask) {i : ι} {o : Outcome} (ho : s.outcome? i = some o)
    (hhanded : o.isHandedOver = true) : s.Claimed key i := by
  obtain ⟨ph, hruns, hended⟩ := h.calls i
  rw [done_of_outcome? ho] at hruns
  cases hruns
  exact hended o rfl hhanded

variable [DecidableEq ι]

theorem resume (h : s.TakenOnce v key ask) {i : ι} {ph : Phase} {p : Program Outcome}
    (hruns : Phase.Runs v key (ask i) ph p)
    (hended : ∀ o, ph = .ended o → o.isHandedOver = true → s.Claimed key i) :
    (s.resume i p).TakenOnce v key ask where
  isOpen := h.isOpen
  serves := h.serves
  calls := forall_calls_resume
    (P := fun j p => ∃ ph, Phase.Runs v key (ask j) ph p ∧
      ∀ o, ph = .ended o → o.isHandedOver = true → s.Claimed key j) ⟨ph, hruns, hended⟩ h.calls
  taken := h.taken

theorem step (h : s.TakenOnce v key ask) {e : Event ι} (he : e.SavesNot key) :
    (s.step e).TakenOnce v key ask := by
  cases e with
  | call i =>
      obtain ⟨ph, hruns, -⟩ := h.calls i
      rcases step_call hruns with ⟨o, -, hstep⟩ | ⟨m, next, -, hnext, hstep⟩ |
        ⟨r, ph', next, hasks, hnext, hstep⟩
      · rwa [hstep]
      · rw [hstep]
        refine h.resume hnext ?_
        intro o ho hhanded
        simp [Phase.isHandedOver_eq_false_of_afterClock ho] at hhanded
      · rw [hstep]
        have hr (m : Message) (hm : r = .save m) := Phase.ne_save_of_asks hasks m hm
        refine (h.asked (some i) fun m hm => (hr m hm).elim).resume hnext ?_
        intro o ho hhanded
        rw [Store.answer_of_open h.isOpen, ho] at hasks
        have heq := Phase.eq_removal_of_asks h.serves hasks hhanded (some i)
        exact List.mem_cons.2 (.inl (by rw [Store.answer_of_open h.isOpen, heq]))
  | clock t => exact ⟨h.isOpen, h.serves, h.calls, h.taken⟩
  | request r =>
      refine h.asked none ?_
      intro m hm
      subst hm
      exact he
  | sweep now place =>
      rw [step_sweep_of_open h.isOpen]
      refine ⟨h.isOpen, Contents.serves_purgeStep_iff.2 h.serves, h.calls, ?_⟩
      have htaken := h.taken
      cases hhas : s.store.contents.has key with
      | true =>
          rw [hhas] at htaken
          exact (Nat.add_le_add_left (Bool.toNat_le _) _).trans htaken
      | false =>
          simp only [Contents.has_purgeStep_eq_false now place hhas]
          rwa [hhas] at htaken
  | close => exact he.elim

theorem run (h : s.TakenOnce v key ask) {es : List (Event ι)} (hes : ∀ e ∈ es, e.SavesNot key) :
    (s.run es).TakenOnce v key ask :=
  run_induction (fun _ _ hs he => hs.step he) h hes

end TakenOnce

end Scene

end ReadOnce
