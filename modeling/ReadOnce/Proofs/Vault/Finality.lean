import ReadOnce.Proofs.Vault.Attempts

/-!
# Final answers

A call that is told anything but to try again leaves nothing behind, whoever removed the message:
this call, or another one that got there first. Nothing brings the message back, so a call that
begins afterwards finds none, and the clock has no say in it because the call ends before it looks
at the clock.

To use up a message takes two requests: the last wrong pin allowed is counted, and the message is
dropped. A call that takes a message out does not look at the count, so it may come between the two
and be given a message whose wrong pins are used up, as long as everybody who has counted to the
limit has yet to drop it. The answer of one who has is final.
-/

namespace ReadOnce

variable {ι : Type}

/-- An event that leaves the store open and that, unless it is a step of a call, is about other keys
or about none. -/
def Event.Ignores (key : Key) : Event ι → Prop
  | request r => r.key? ≠ some key
  | close => False
  | _ => True

theorem Event.Ignores.savesNot {key : Key} {e : Event ι} (h : e.Ignores key) : e.SavesNot key := by
  cases e with
  | request r =>
      cases r with
      | save m => exact fun hkey => h (congrArg some hkey)
      | _ => trivial
  | close => exact h.elim
  | _ => trivial

namespace Scene

variable {v : Vault} {key : Key} {ask : ι → Call} {s : Scene ι}

/-- Whoever asked about a key is one of the calls. -/
def OnlyCallsAsk (s : Scene ι) (key : Key) : Prop :=
  ∀ x ∈ s.log, x.request.key? = some key → x.caller ≠ none

theorem OnlyCallsAsk.asked (h : s.OnlyCallsAsk key) {caller : Option ι} {r : Request}
    (hcaller : r.key? = some key → caller ≠ none) : (s.asked caller r).OnlyCallsAsk key := by
  intro x hx
  rcases List.mem_cons.1 hx with rfl | hx
  · exact hcaller
  · exact h x hx

/-- Every count was told to a call. -/
theorem OnlyCallsAsk.counted (h : s.OnlyCallsAsk key) {a : UInt32} (ha : a ∈ s.counts key) :
    ∃ j, s.Counted key j (.ok a) := by
  obtain ⟨x, hx, hcount⟩ := List.mem_filterMap.1 (List.mem_reverse.1 ha)
  obtain ⟨caller, rfl⟩ := Exchange.count?_eq_some_iff.1 hcount
  obtain ⟨j, rfl⟩ := Option.ne_none_iff_exists'.1 (h _ hx rfl)
  exact ⟨j, hx⟩

variable [DecidableEq ι]

theorem OnlyCallsAsk.step (h : s.OnlyCallsAsk key) {e : Event ι} (he : e.Ignores key) :
    (s.step e).OnlyCallsAsk key := by
  cases e with
  | call i =>
      simp only [Scene.step]
      split
      · exact h
      · exact h
      · exact h.asked fun _ => by simp
  | clock t => exact h
  | request r => exact h.asked fun hkey => absurd hkey he
  | sweep now place =>
      simp only [Scene.step]
      split <;> exact h
  | close => exact he.elim

theorem OnlyCallsAsk.run (h : s.OnlyCallsAsk key) {es : List (Event ι)}
    (hes : ∀ e ∈ es, e.Ignores key) : (s.run es).OnlyCallsAsk key :=
  run_induction (P := fun s => s.OnlyCallsAsk key)
    (fun _ _ hs he => OnlyCallsAsk.step hs he) h hes

/-- Once a call for a message has come to anything but an invitation to try again or a failure of
the store, every call that begins later is told that there is no message, or no file, whatever its
pin, and whatever calls, purges and settings of the clock come in between. -/
theorem final_answer_is_final {fresh : Fresh} {intake : Intake} {t : Instant} {m : Message}
    {before after : Store}
    (hsaved : (intake.program v fresh).run Store.answer t before = (.ok m, after))
    (hfits : m.Fits) (ask : ι → Call) (clock : Instant) {es es' : List (Event ι)}
    (hes : ∀ e ∈ es, e.SavesNot m.key) (hes' : ∀ e ∈ es', e.SavesNot m.key) {i : ι} {o : Outcome}
    (ho : ((start v m.key ask after clock).run es).outcome? i = some o) (hfinal : o.isFinal = true)
    {j : ι} (hlate : .call j ∉ es) (hbegun : .call j ∈ es') :
    ((start v m.key ask after clock).run (es ++ es')).outcome? j =
      some ((ask j).outcome (.error .notFound)) := by
  have hsaved := Intake.saved_of_run hsaved
  obtain ⟨u, htally⟩ := tally_of_saved hsaved hfits ask clock hes
  have hrunning : ((start v m.key ask after clock).run es).Running v m.key ask :=
    (Running.start hsaved.open_after hsaved.serves_after).run hes
  have hgone := (htally.agrees_of_outcome? ho).final hfinal
  rw [run_append]
  exact hrunning.outcome?_run_of_missing hgone (calls_run_of_not_mem hlate) hes' hbegun

/-- Once the first of three calls has been given the message, the others find none, also if the
clock is set back. -/
theorem final_answer_of_first :
    let ask : Fin 3 → Call := fun
      | 0 => .load "1234"
      | 1 => .reveal "1234"
      | 2 => .isFile
    let m := Message.plainTrial
    let late : Instant := ⟨59, 0, by decide, by decide, by decide⟩
    let es : List (Event (Fin 3)) := [.call 0, .clock late, .call 0, .call 0]
    let es' : List (Event (Fin 3)) := [.clock .epoch, .call 1, .call 2]
    let s := start (.plainTrial 3) m.key ask (.trial m) .epoch
    (s.run es).outcome? 0 = some (.loaded (.ok .openedTrial)) ∧
      (s.run (es ++ es')).outcome? 1 = some (.revealed (.error .notFound)) := by
  intro ask m late es es' s
  have hsaved := Intake.run_plainTrial 3 (c := .shelf .empty) rfl
  have hfirst : (s.run es).outcome? 0 = some (.loaded (.ok .openedTrial)) := rfl
  refine ⟨hfirst, ?_⟩
  refine final_answer_is_final hsaved Message.fits_plainTrial ask .epoch ?_ ?_ hfirst rfl ?_ ?_
  · simp [es, Event.SavesNot]
  · simp [es', Event.SavesNot]
  · simp [es]
  · simp [es']

/-- A message that was taken in is taken out by a call only if fewer wrong pins than allowed have
been counted, or if somebody has counted the last one and has yet to drop the message. Once one who
has counted it is over, no call is given the content that did not have it before. -/
theorem handed_over_before_last_is_dropped {fresh : Fresh} {intake : Intake} {t : Instant}
    {m : Message} {before after : Store}
    (hsaved : (intake.program v fresh).run Store.answer t before = (.ok m, after))
    (hfits : m.Fits) (hmax : v.limits.maxPinAttempts ≠ 0) (ask : ι → Call) (clock : Instant)
    {es : List (Event ι)} (hes : ∀ e ∈ es, e.Ignores m.key) :
    let s := (start v m.key ask after clock).run es
    (∀ i o, s.outcome? i = none → (s.step (.call i)).outcome? i = some o → o.isHandedOver = true →
      (s.step (.call i)).log = ⟨some i, .remove m.key, .ok true⟩ :: s.log ∧
      ((s.counts m.key).length < v.limits.maxPinAttempts.toNat ∨
        ∃ j, j ≠ i ∧ s.Counted m.key j (.ok v.limits.maxPinAttempts)) ∧
      ∀ j a, s.Counted m.key j (.ok a) → v.limits.maxPinAttempts ≤ a → s.outcome? j = none) ∧
    ∀ j a, s.Counted m.key j (.ok a) → v.limits.maxPinAttempts ≤ a → s.outcome? j ≠ none →
      ∀ es' : List (Event ι), (∀ e ∈ es', e.Ignores m.key) → ∀ i o,
        (s.run es').outcome? i = some o → o.isHandedOver = true → s.outcome? i = some o := by
  intro s
  have hsaved := Intake.saved_of_run hsaved
  have hes' (e : Event ι) (he : e ∈ es) : e.SavesNot m.key := (hes e he).savesNot
  obtain ⟨u, htally⟩ := tally_of_saved hsaved hfits ask clock hes'
  have hrunning : s.Running v m.key ask :=
    (Running.start hsaved.open_after hsaved.serves_after).run hes'
  have hcallers : s.OnlyCallsAsk m.key :=
    OnlyCallsAsk.run (fun x hx => absurd hx List.not_mem_nil) hes
  have hgone (j : ι) (a : UInt32) (ha : s.Counted m.key j (.ok a))
      (hlast : v.limits.maxPinAttempts ≤ a) (hover : s.outcome? j ≠ none) :
      s.store.contents.has m.key = false := by
    obtain ⟨o, ho⟩ := Option.ne_none_iff_exists'.1 hover
    exact ((htally.agrees_of_outcome? ho).exhausted a ha hlast).2
  constructor
  · intro i o hbefore ho hhanded
    obtain ⟨hlog, hhas⟩ := (hrunning.handed_over_step ho hhanded).resolve_left (by simp [hbefore])
    refine ⟨hlog, ?_, ?_⟩
    · rcases counts_of_saved hsaved hfits ask clock v.limits.maxPinAttempts.toNat_lt hes' with
        ⟨k, hk, hcounts⟩ | hfirst
      · exact .inl (by rwa [hcounts, length_firstCounts])
      · have hlast : v.limits.maxPinAttempts ∈ s.counts m.key := by
          refine hfirst.subset ((mem_firstCounts_iff v.limits.maxPinAttempts.toNat_lt).2 ?_)
          exact ⟨UInt32.pos_iff_ne_zero.2 hmax, Nat.le_refl _⟩
        obtain ⟨j, hj⟩ := hcallers.counted hlast
        refine .inr ⟨j, ?_, hj⟩
        -- Had the call itself counted the last one, it would be refused in this step.
        rintro rfl
        have hrefused := htally.outcome?_of_exhausted hj UInt32.le_rfl
        rw [hrefused] at ho
        obtain rfl := Option.some.inj ho
        simp [Call.isHandedOver_refused] at hhanded
    · intro j a ha hlast
      by_contra hover
      simp [hgone j a ha hlast hover] at hhas
  · intro j a ha hlast hover es' hes' i o ho hhanded
    exact hrunning.handed_over_run_of_missing (hgone j a ha hlast hover)
      (fun e he => (hes' e he).savesNot) ho hhanded

/-- The only wrong pin allowed is counted, and before the message is dropped for it, a call with the
right pin takes the message out. -/
theorem handed_over_after_last_was_counted :
    let ask (right : Bool) : Call := if right then .reveal "1234" else .load "3"
    let m := Message.plainTrial
    let s := (start (.plainTrial 1) m.key ask (.trial m) .epoch).run
      [.call true, .call true, .call false, .call false, .call false]
    s.counts m.key = [1] ∧
      (s.step (.call true)).outcome? true = some (.revealed (.ok ⟨m.key, .text [1, 2]⟩)) ∧
      s.outcome? false = none := by
  intro ask m s
  have hsaved := Intake.run_plainTrial 1 (c := .shelf .empty) rfl
  have ho : (s.step (.call true)).outcome? true =
      some (.revealed (.ok ⟨m.key, .text [1, 2]⟩)) := rfl
  have hcounted : s.Counted m.key false (.ok 1) := List.mem_cons_self ..
  refine ⟨by decide, ho, ?_⟩
  refine ((handed_over_before_last_is_dropped hsaved Message.fits_plainTrial ?_ ask .epoch ?_).1
    true _ rfl ho rfl).2.2 false 1 hcounted (UInt32.le_refl 1)
  · decide
  · simp [Event.Ignores]

end Scene

end ReadOnce
