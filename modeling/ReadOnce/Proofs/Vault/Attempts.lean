import Mathlib.Data.List.Pairwise
import Mathlib.Data.List.Perm.Subperm
import ReadOnce.Proofs.Vault.Tally

/-!
# Wrong pins are counted in turn

Callers who guess at the same time hold copies of the message that say how many wrong pins there had
been when they read it. None of them uses that number: each is told what the store counted, and the
store counts in turn. So no two of them are told the same, and no more of them may try again than
the limit leaves room for.
-/

namespace ReadOnce

variable {ι : Type}

/-- Two exchanges in which not the same was counted. -/
def Exchange.CountedApart (key : Key) (x y : Exchange ι) : Prop :=
  ∀ a, count? key x = some a → ∀ b, count? key y = some b → a ≠ b

instance (key : Key) : Std.Symm (@Exchange.CountedApart ι key) where
  symm _ _ h a ha b hb := (h b hb a ha).symm

namespace Scene

variable {v : Vault} {n : Message} {ask : ι → Call} {s : Scene ι} {key : Key} {i j : ι}

/-- The count that a call has been sent away with to try again. -/
def attempt? (s : Scene ι) (i : ι) : Option UInt32 :=
  (s.outcome? i).bind Outcome.attempt?

theorem Counted.mem_counts {a : UInt32} (h : s.Counted key i (.ok a)) : a ∈ s.counts key :=
  List.mem_reverse.2 (List.mem_filterMap.2 ⟨_, h, Exchange.count?_eq_some_iff.2 ⟨_, rfl⟩⟩)

/-- Where no count was answered twice, no two calls were told the same. -/
theorem Counted.unique {a : UInt32} (hi : s.Counted key i (.ok a)) (hj : s.Counted key j (.ok a))
    (h : (s.counts key).Nodup) : i = j := by
  have hpairs : s.log.Pairwise (Exchange.CountedApart key) :=
    List.pairwise_filterMap.1 (List.nodup_reverse.1 h)
  by_contra hne
  have hx : (⟨some i, .increment key, .ok a⟩ : Exchange ι) ≠ ⟨some j, .increment key, .ok a⟩ := by
    intro heq
    cases heq
    exact hne rfl
  exact hpairs.forall hi hj hx a (Exchange.count?_eq_some_iff.2 ⟨_, rfl⟩) a
    (Exchange.count?_eq_some_iff.2 ⟨_, rfl⟩) rfl

namespace Tally

/-- What a call is over with agrees with what it was told. -/
theorem agrees_of_outcome? (h : s.Tally v n ask) {o : Outcome} (ho : s.outcome? i = some o) :
    o.Agrees v (ask i) (s.Counted n.key i) (s.store.contents.has n.key = false) := by
  obtain ⟨ph, hruns, hagrees⟩ := h.calls i
  rw [done_of_outcome? ho] at hruns
  cases hruns
  exact hagrees

theorem counted_of_attempt? (h : s.Tally v n ask) {a : UInt32} (ha : s.attempt? i = some a) :
    s.Counted n.key i (.ok a) ∧ a < v.limits.maxPinAttempts := by
  obtain ⟨o, ho, hattempt⟩ := Option.bind_eq_some_iff.1 ha
  exact (h.agrees_of_outcome? ho).attempt a hattempt

/-- A call that has found nothing to count on is over. -/
theorem outcome?_of_missed (h : s.Tally v n ask)
    (hmissed : s.Counted n.key i (.error .loadRejected)) :
    s.outcome? i = some ((ask i).outcome (.error .badPin)) := by
  obtain ⟨ph, hruns, hagrees⟩ := h.calls i
  cases ph with
  | asking => exact absurd hmissed (hagrees _)
  | dating m => exact absurd hmissed (hagrees.2 _)
  | expiring => exact absurd hmissed (hagrees _)
  | claiming m pin => exact absurd hmissed (hagrees.2 _)
  | counting m => exact absurd hmissed (hagrees.2 _)
  | exhausting m => exact absurd hmissed hagrees.2
  | ended o =>
      obtain ⟨rfl, -⟩ := hagrees.missed hmissed
      exact outcome?_of_runs_ended hruns

variable [DecidableEq ι]

/-- A call that has counted the last wrong pin allowed is over with its next step. -/
theorem outcome?_of_exhausted (h : s.Tally v n ask) {a : UInt32}
    (ha : s.Counted n.key i (.ok a)) (hmax : v.limits.maxPinAttempts ≤ a) :
    (s.step (.call i)).outcome? i = some ((ask i).outcome (.error .badPin)) := by
  obtain ⟨ph, hruns, hagrees⟩ := h.calls i
  cases ph with
  | asking => exact absurd ha (hagrees _)
  | dating m => exact absurd ha (hagrees.2 _)
  | expiring => exact absurd ha (hagrees _)
  | claiming m pin => exact absurd ha (hagrees.2 _)
  | counting m => exact absurd ha (hagrees.2 _)
  | exhausting m =>
      rcases step_call hruns with ⟨_, h, -⟩ | ⟨_, _, h, -⟩ | ⟨r, ph', next, hasks, hnext, hstep⟩
      · contradiction
      · contradiction
      · cases hasks
        rw [hstep]
        exact outcome?_resume_ended hnext
  | ended o =>
      obtain ⟨rfl, -⟩ := hagrees.exhausted a ha hmax
      exact outcome?_step (outcome?_of_runs_ended hruns) _

/-- A call that finds nothing to count on changes nothing. -/
theorem store_step_of_missed (h : s.Tally v n ask)
    (hlog : (s.step (.call i)).log =
      ⟨some i, .increment n.key, .error .loadRejected⟩ :: s.log) :
    (s.step (.call i)).store = s.store := by
  obtain ⟨ph, hruns, -⟩ := h.calls i
  rcases step_call hruns with ⟨o, -, hstep⟩ | ⟨m, next, -, -, hstep⟩ |
    ⟨r, ph', next, -, -, hstep⟩
  · rw [hstep]
  · rw [hstep]
    rfl
  · rw [hstep] at hlog ⊢
    obtain ⟨hx, -⟩ := List.cons.inj hlog
    obtain rfl : r = .increment n.key := congrArg Exchange.request hx
    have hreply : (s.store.answer (.increment n.key)).1 = .error .loadRejected := by
      simpa using hx
    have hopen := Store.answer_of_open h.isOpen (.increment n.key)
    rw [hopen] at hreply
    have hgone := Contents.has_eq_false_of_increment hreply
    show (s.store.answer (.increment n.key)).2 = s.store
    rw [hopen, Contents.answer_increment_snd_of_missing hgone, ← h.isOpen]

end Tally

/-- The calls that may try again are fewer than the wrong pins allowed, if no two of them were told
the same. -/
theorem length_le_of_attempts {max : UInt32} {is : List ι} (hnodup : is.Nodup)
    (hsome : ∀ i ∈ is, ∃ a, s.attempt? i = some a)
    (hrange : ∀ i a, s.attempt? i = some a → 1 ≤ a ∧ a < max)
    (hinj : ∀ i j a, s.attempt? i = some a → s.attempt? j = some a → i = j) :
    is.length ≤ max.toNat - 1 := by
  have hmax : max.toNat - 1 < 4294967296 := by
    have hlt := max.toNat_lt
    omega
  have hnodup : (is.filterMap s.attempt?).Nodup := by
    refine hnodup.filterMap ?_
    intro i j a hi hj
    exact hinj i j a hi hj
  have hsub : is.filterMap s.attempt? ⊆ firstCounts (max.toNat - 1) := by
    intro a ha
    obtain ⟨i, -, hi⟩ := List.mem_filterMap.1 ha
    obtain ⟨hpos, hlt⟩ := hrange i a hi
    rw [mem_firstCounts_iff hmax]
    rw [UInt32.le_iff_toNat_le] at hpos
    rw [UInt32.lt_iff_toNat_lt] at hlt
    exact ⟨hpos, by omega⟩
  calc is.length = (is.filterMap s.attempt?).length := by
        refine (List.filterMap_length_eq_length.2 ?_).symm
        intro i hi
        exact Option.isSome_iff_exists.2 (hsome i hi)
    _ ≤ (firstCounts (max.toNat - 1)).length := (List.Nodup.subperm hnodup hsub).length_le
    _ = max.toNat - 1 := length_firstCounts _

/-- Whatever calls, purges and settings of the clock come in between, the counts that are answered
for a message are 1, 2, 3 and so on, as long as 32 bits can hold them. So the calls that are sent
away to try again are told distinct counts below the limit, and there are fewer of them than that;
one that counted to the limit is told that the pin was wrong, and so is one that found nothing to
count on, which changes nothing. -/
theorem wrong_pins_counted_in_turn [DecidableEq ι] {fresh : Fresh} {intake : Intake} {t : Instant}
    {m : Message} {before after : Store}
    (hsaved : (intake.program v fresh).run Store.answer t before = (.ok m, after))
    (hfits : m.Fits) (ask : ι → Call) (clock : Instant) {es : List (Event ι)}
    (hes : ∀ e ∈ es, e.SavesNot m.key)
    (hroom : (((start v m.key ask after clock).run es).counts m.key).length < 4294967296) :
    let final := (start v m.key ask after clock).run es
    final.counts m.key = firstCounts (final.counts m.key).length ∧
    (∀ i a, final.attempt? i = some a →
      final.Counted m.key i (.ok a) ∧ 1 ≤ a ∧ a < v.limits.maxPinAttempts) ∧
    (∀ i j a, final.attempt? i = some a → final.attempt? j = some a → i = j) ∧
    (∀ is : List ι, is.Nodup → (∀ i ∈ is, ∃ a, final.attempt? i = some a) →
      is.length ≤ v.limits.maxPinAttempts.toNat - 1) ∧
    (∀ i a, final.Counted m.key i (.ok a) → v.limits.maxPinAttempts ≤ a →
      (final.step (.call i)).outcome? i = some ((ask i).outcome (.error .badPin))) ∧
    (∀ i, final.Counted m.key i (.error .loadRejected) →
      final.outcome? i = some ((ask i).outcome (.error .badPin))) ∧
    ∀ i, (final.step (.call i)).log =
        ⟨some i, .increment m.key, .error .loadRejected⟩ :: final.log →
      (final.step (.call i)).store = final.store := by
  intro final
  have hsaved := Intake.saved_of_run hsaved
  obtain ⟨u, htally⟩ := tally_of_saved hsaved hfits ask clock hes
  have hcounts := counts_eq_of_saved hsaved hfits ask clock hes hroom
  have hattempt (i : ι) (a : UInt32) (ha : final.attempt? i = some a) :
      final.Counted m.key i (.ok a) ∧ 1 ≤ a ∧ a < v.limits.maxPinAttempts := by
    obtain ⟨hcounted, hlt⟩ := htally.counted_of_attempt? ha
    have hmem := hcounted.mem_counts
    rw [hcounts, mem_firstCounts_iff hroom] at hmem
    exact ⟨hcounted, UInt32.le_iff_toNat_le.2 hmem.1, hlt⟩
  have hunique (i j : ι) (a : UInt32) (hi : final.attempt? i = some a)
      (hj : final.attempt? j = some a) : i = j := by
    refine (hattempt i a hi).1.unique (hattempt j a hj).1 ?_
    rw [hcounts]
    exact nodup_firstCounts hroom
  refine ⟨hcounts, hattempt, hunique, ?_, ?_, ?_, ?_⟩
  · intro is hnodup hsome
    exact length_le_of_attempts hnodup hsome (fun i a ha => (hattempt i a ha).2) hunique
  · intro i a ha hmax
    exact htally.outcome?_of_exhausted ha hmax
  · intro i hmissed
    exact htally.outcome?_of_missed hmissed
  · intro i hlog
    exact htally.store_step_of_missed hlog

/-- Two wrong pins, of calls that read the message before either was counted. -/
theorem wrong_pins_counted_of_two :
    let ask (second : Bool) : Call := if second then .reveal "4" else .load "3"
    let m := Message.plainTrial
    let final := (start (.plainTrial 3) m.key ask (.trial m) .epoch).run [.call false, .call true,
      .call true, .call false, .request (.purge .epoch), .call true, .call false]
    (final.counts m.key).length < 4294967296 ∧ final.attempt? true = some 1 ∧
      final.attempt? false = some 2 ∧ final.Counted m.key false (.ok 2) := by
  intro ask m final
  have hsaved := Intake.run_plainTrial 3 (c := .shelf .empty) rfl
  have hroom : (final.counts m.key).length < 4294967296 := by decide
  have hsecond : final.attempt? false = some 2 := by decide
  refine ⟨hroom, by decide, hsecond, ?_⟩
  refine ((wrong_pins_counted_in_turn hsaved Message.fits_plainTrial ask .epoch ?_ hroom).2.1
    false 2 hsecond).1
  simp [Event.SavesNot]

end Scene

end ReadOnce
