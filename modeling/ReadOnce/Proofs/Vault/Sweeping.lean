import Mathlib.Data.List.Forall2
import ReadOnce.Proofs.Store.Service
import ReadOnce.Proofs.Vault.Readable

/-!
# Sweeping does not show

A vault is put to use over a store in service: secrets are taken in, calls are made on keys, and the
clock is set, forwards only. In between the store may be purged at what the clock shows, or time may
pass and sweeps run. However that is done, the answers are the same, except that a call on a message
past its deadline is told so where the message is still there, and that there is none where it has
been swept.

A store in service is compared deed by deed with one that is put to the same uses and is never
purged, and keeps all that the first keeps (`Service.Swept`). Two stores are compared with each
other by means of it.
-/

namespace ReadOnce

/-- A use of a vault. -/
inductive Use where
  /-- Something is taken in, under fresh values. -/
  | take (i : Intake) (fresh : Fresh)
  /-- A call is made on a key. -/
  | call (key : Key) (call : Call)
  /-- The clock is set. -/
  | clock (t : Instant)

namespace Use

/-- The key that is used first, if one is. -/
def freshKey? : Use → Option Key
  | take _ fresh => some fresh.key
  | _ => none

/-- What the clock is set to, if it is. -/
def clock? : Use → Option Instant
  | clock t => some t
  | _ => none

/-- The fresh keys of uses in turn. -/
def freshKeys (uses : List Use) : List Key :=
  uses.filterMap freshKey?

/-- What the clock shows in turn. -/
def clocks (now : Instant) (uses : List Use) : List Instant :=
  now :: uses.filterMap clock?

/-- Fresh keys are distinct, the clock is plain and never set back, and what is taken in fits. -/
structure Fair (v : Vault) (now : Instant) (uses : List Use) : Prop where
  keys : (freshKeys uses).Nodup
  clocks : (clocks now uses).Pairwise (· ≤ ·)
  plain : ∀ t ∈ Use.clocks now uses, t.IsPlain
  fits : ∀ i fresh, take i fresh ∈ uses → i.Fits v fresh

end Use

/-- What is done to a store in service that a vault uses. -/
inductive Deed where
  /-- The vault is put to use. -/
  | use (u : Use)
  /-- The store is purged at what the clock shows. -/
  | purge
  /-- Some milliseconds pass, and sweeps run. -/
  | pass (how : Passing) (ms : Nat)

/-- The use of the vault, if it is one. -/
def Deed.use? : Deed → Option Use
  | use u => some u
  | _ => none

/-- The uses of the vault among deeds. -/
def Deed.uses (deeds : List Deed) : List Use :=
  deeds.filterMap use?

/-- What a vault answers. -/
inductive Answer where
  /-- To something that is taken in. -/
  | taken (result : Except VaultError Message)
  /-- To a call. -/
  | came (o : Outcome)

/-- Two answers are the same, except that a message past its deadline may be missing for one. -/
inductive Answer.Alike : Answer → Answer → Prop where
  /-- They are the same. -/
  | same (a : Answer) : Alike a a
  /-- Only the second finds the message swept. -/
  | later (call : Call) :
      Alike (came (call.outcome (.error .expired))) (came (call.outcome (.error .notFound)))
  /-- Only the first finds the message swept. -/
  | sooner (call : Call) :
      Alike (came (call.outcome (.error .notFound))) (came (call.outcome (.error .expired)))

namespace Vault

/-- What is answered to a use, and the store in service after it. -/
def use (v : Vault) (s : Service) : Use → List Answer × Service
  | .take i fresh =>
    let (result, s) := (i.program v fresh).run Service.answer s.clock s
    ([.taken result], s)
  | .call key call =>
    let (outcome, s) := (call.program v key).run Service.answer s.clock s
    ([.came outcome], s)
  | .clock t => ([], s.setClock t)

/-- What is answered to a deed, and the store in service after it. -/
def deed (v : Vault) (s : Service) : Deed → List Answer × Service
  | .use u => v.use s u
  | .purge => ([], (s.answer (.purge s.clock)).2)
  | .pass how ms => ([], s.pass how ms)

/-- What is answered to deeds in turn. -/
def serve (v : Vault) (s : Service) : List Deed → List Answer
  | [] => []
  | d :: ds => (v.deed s d).1 ++ v.serve (v.deed s d).2 ds

end Vault

/-- An answer, with a message past its deadline taken for a missing one. -/
def Answer.settled : Answer → Answer
  | taken result => taken result
  | came o => came o.settled

theorem Outcome.settled_cases (o : Outcome) :
    o.settled = o ∨ o = (Call.load "").outcome (.error .expired) ∨
      o = (Call.reveal "").outcome (.error .expired) := by
  unfold settled
  split
  · exact .inr (.inl rfl)
  · exact .inr (.inr rfl)
  · exact .inl rfl

theorem Answer.alike_of_settled_eq {a b : Answer} (h : a.settled = b.settled) : a.Alike b := by
  cases a with
  | taken result =>
      cases b with
      | taken result' =>
          obtain rfl := Answer.taken.inj h
          exact .same _
      | came o => contradiction
  | came o =>
      cases b with
      | taken result => contradiction
      | came o' =>
          have h : o.settled = o'.settled := Answer.came.inj h
          -- Either outcome is settled already, or tells a load or a reveal of a deadline.
          rcases o.settled_cases with ho | rfl | rfl <;>
            rcases o'.settled_cases with ho' | rfl | rfl
          · rw [ho, ho'] at h
            exact h ▸ .same _
          · rw [ho] at h
            exact h ▸ .sooner (.load "")
          · rw [ho] at h
            exact h ▸ .sooner (.reveal "")
          · rw [ho'] at h
            exact h ▸ .later (.load "")
          · exact .same _
          · contradiction
          · rw [ho'] at h
            exact h ▸ .later (.reveal "")
          · contradiction
          · exact .same _

/-- Two services show the same and fail no calls for trial, and their stores are open and keep the
same but for some messages past their deadline. -/
structure Service.Swept (s s' : Service) (v : Vault) (new : List Key) : Prop where
  clock : s.clock = s'.clock
  stored : ∃ c c', s.stored = ⟨⟨c, false⟩, []⟩ ∧ s'.stored = ⟨⟨c', false⟩, []⟩ ∧
    c.Swept c' v s'.clock new

/-- Without faults, a service runs a program as its store does. -/
theorem Service.run_answer {α : Type} (p : Program α) {s : Service} (h : s.stored.faults = [])
    (now : Instant) :
    p.run Service.answer now s =
      ((p.run Store.answer now s.stored.store).1,
        { s with stored := ⟨(p.run Store.answer now s.stored.store).2, []⟩ }) := by
  obtain ⟨medium, period, disk, ⟨store, faults⟩, clock, time, sweeper⟩ := s
  obtain rfl : faults = [] := h
  induction p generalizing store with
  | done a => rfl
  | now next ih => exact ih now store
  | ask r next ih => exact ih _ _

namespace Service.Swept

variable {s s' : Service} {v : Vault} {new : List Key} {u : Use} {us : List Use}

theorem purge (h : s.Swept s' v new) (hnow : s'.clock.IsPlain) :
    (s.answer (.purge s.clock)).2.Swept s' v new := by
  obtain ⟨hclock, c, c', hstored, hstored', hc⟩ := h
  refine ⟨hclock, _, c', ?_, hstored', hc.purge hnow⟩
  rw [answer, hstored, hclock]
  rfl

theorem pass (h : s.Swept s' v new) (hnow : s'.clock.IsPlain) (how : Passing) (ms : Nat) :
    (s.pass how ms).Swept s' v new := by
  obtain ⟨hclock, c, c', hstored, hstored', hc⟩ := h
  obtain ⟨d, hd, hswept⟩ :=
    stored_pass (Q := fun f => ∃ d, f = ⟨⟨d, false⟩, []⟩ ∧ d.Swept c' v s'.clock new)
      (by
        rintro f ⟨d, rfl, hd⟩
        rw [hclock]
        exact ⟨_, rfl, hd.purge hnow⟩)
      ⟨c, hstored, hc⟩ how ms
  exact ⟨(clock_pass s how ms).trans hclock, d, c', hd, hstored', hswept⟩

/-- A use of a vault is answered alike by both, up to what is settled. -/
theorem use (h : s.Swept s' v (Use.freshKeys (u :: us))) (hfair : Use.Fair v s'.clock (u :: us)) :
    (v.use s u).1.map Answer.settled = (v.use s' u).1.map Answer.settled ∧
      (v.use s u).2.Swept (v.use s' u).2 v (Use.freshKeys us) := by
  obtain ⟨hclock, c, c', hstored, hstored', hc⟩ := h
  have hfaults : s.stored.faults = [] := by rw [hstored]
  have hfaults' : s'.stored.faults = [] := by rw [hstored']
  cases u with
  | take i fresh =>
      obtain ⟨hnot, -⟩ := List.nodup_cons.1 hfair.keys
      obtain ⟨hmissing, hnew⟩ := List.forall_mem_cons.1 hc.new
      have hnow := hfair.plain s'.clock (List.mem_cons_self ..)
      have hfits := hfair.fits i fresh (List.mem_cons_self ..)
      have hc : c.Swept c' v s'.clock (Use.freshKeys us) :=
        ⟨hc.isReadOnly, hc.slots, hc.rests, hnew⟩
      obtain ⟨result, d, d', hrun, hrun', hd⟩ :=
        Intake.run_program_of_swept hc hmissing hnot hnow.isLeap hfits
      simp only [Vault.use, run_answer _ hfaults, run_answer _ hfaults', hclock, hstored, hstored',
        hrun, hrun']
      exact ⟨trivial, rfl, d, d', rfl, rfl, hd⟩
  | call key call =>
      obtain ⟨o, o', d, d', hrun, hrun', hsettled, hd⟩ := Call.run_program_of_swept key call hc
      simp only [Vault.use, run_answer _ hfaults, run_answer _ hfaults', hclock, hstored, hstored',
        hrun, hrun']
      exact ⟨congrArg (fun o => [Answer.came o]) hsettled, rfl, d, d', rfl, rfl, hd⟩
  | clock t =>
      have hle : s'.clock ≤ t := (List.pairwise_cons.1 hfair.clocks).1 t (List.mem_cons_self ..)
      exact ⟨rfl, rfl, c, c', hstored, hstored', hc.later hle⟩

end Service.Swept

@[simp] theorem Service.clock_run {α : Type} (p : Program α) (now : Instant) (s : Service) :
    (p.run Service.answer now s).2.clock = s.clock := by
  induction p generalizing s with
  | done a => rfl
  | now next ih => exact ih now s
  | ask r next ih => exact ih _ _

theorem Vault.clock_use (v : Vault) (s : Service) (u : Use) :
    (v.use s u).2.clock = u.clock?.getD s.clock := by
  cases u with
  | take i fresh => exact Service.clock_run _ _ s
  | call key call => exact Service.clock_run _ _ s
  | clock t => rfl

/-- The rest of a fair script is fair. -/
theorem Use.Fair.rest {v : Vault} {now : Instant} {u : Use} {us : List Use}
    (h : Use.Fair v now (u :: us)) : Use.Fair v (u.clock?.getD now) us := by
  have hfits (i : Intake) (fresh : Fresh) (hmem : .take i fresh ∈ us) : i.Fits v fresh :=
    h.fits i fresh (List.mem_cons_of_mem _ hmem)
  cases u with
  | take i fresh => exact ⟨(List.nodup_cons.1 h.keys).2, h.clocks, h.plain, hfits⟩
  | call key call => exact ⟨h.keys, h.clocks, h.plain, hfits⟩
  | clock t =>
      exact ⟨h.keys, (List.pairwise_cons.1 h.clocks).2, (List.forall_mem_cons.1 h.plain).2, hfits⟩

/-- Deeds in turn are answered as the uses among them are by a store that is never purged. -/
theorem Service.Swept.serve {s s' : Service} {v : Vault} {deeds : List Deed}
    (h : s.Swept s' v (Use.freshKeys (Deed.uses deeds)))
    (hfair : Use.Fair v s'.clock (Deed.uses deeds)) :
    (v.serve s deeds).map Answer.settled =
      (v.serve s' ((Deed.uses deeds).map .use)).map Answer.settled := by
  -- The first store changes with every deed, the second with uses only.
  induction deeds generalizing s s' with
  | nil => rfl
  | cons d ds ih =>
      have hnow := hfair.plain s'.clock (List.mem_cons_self ..)
      cases d with
      | use u =>
          have huses : Deed.uses (.use u :: ds) = u :: Deed.uses ds := rfl
          rw [huses] at h hfair ⊢
          obtain ⟨hanswers, hnext⟩ := h.use hfair
          have hrest := hfair.rest
          rw [← v.clock_use s' u] at hrest
          simp only [Vault.serve, Vault.deed, List.map_cons, List.map_append]
          rw [hanswers, ih hnext hrest]
      | purge => exact ih (h.purge hnow) hfair
      | pass how ms => exact ih (h.pass hnow how ms) hfair

/-- Two series of answers agree one by one once they are settled. -/
theorem Answer.alike_of_map_settled_eq {as bs : List Answer}
    (h : as.map Answer.settled = bs.map Answer.settled) : List.Forall₂ Answer.Alike as bs := by
  have hsettled : List.Forall₂ (· = ·) (as.map Answer.settled) (bs.map Answer.settled) :=
    h ▸ List.forall₂_same.2 fun _ _ => rfl
  rw [List.forall₂_map_left_iff, List.forall₂_map_right_iff] at hsettled
  exact hsettled.imp fun _ _ => Answer.alike_of_settled_eq

/-- Two stores in service that begin with the same records and the same clock, but are purged and
swept at different times, give a vault that puts them to the same uses the same answers, except that
a call on a message past its deadline may find it in one and not in the other. That is so whatever
is taken in and asked for, with any pins and under any keys, as long as fresh keys are new, the
clock is plain and not set back, and records that were there before have tries left. -/
theorem Vault.serve_alike {v : Vault} {s s' : Service} (hstored : s'.stored = s.stored)
    (hclock : s'.clock = s.clock) (hopen : s.stored.store.isClosed = false)
    (hfaults : s.stored.faults = [])
    (hstands : ∀ key, s.contents.has key = false ∨ ∃ m, s.contents.Stands v key m)
    {deeds deeds' : List Deed} (hsame : Deed.uses deeds' = Deed.uses deeds)
    (hfair : Use.Fair v s.clock (Deed.uses deeds))
    (hnew : ∀ key ∈ Use.freshKeys (Deed.uses deeds),
      s.contents.has key = false) :
    List.Forall₂ Answer.Alike (v.serve s deeds) (v.serve s' deeds') := by
  have hopened : s.stored = ⟨⟨s.contents, false⟩, []⟩ := by
    rw [← hopen, ← hfaults]
    rfl
  -- Both stores are compared with the first, as if it were never purged.
  have hswept : s.Swept s v (Use.freshKeys (Deed.uses deeds)) :=
    ⟨rfl, s.contents, s.contents, hopened, hopened, .refl hstands hnew⟩
  have hswept' : s'.Swept s v (Use.freshKeys (Deed.uses deeds')) :=
    ⟨hclock, s.contents, s.contents, hstored.trans hopened, hopened,
      .refl hstands (hsame ▸ hnew)⟩
  have hanswers := hswept.serve hfair
  have hanswers' := hswept'.serve (hsame ▸ hfair)
  rw [hsame] at hanswers'
  exact Answer.alike_of_map_settled_eq (hanswers.trans hanswers'.symm)

/-- An empty store in memory. -/
def Service.shelfTrial (sweeper : Sweeper) : Service :=
  ⟨.shelf, 1000, ⟨[]⟩, ⟨⟨.shelf .empty, false⟩, []⟩, .epoch, 0, sweeper⟩

/-- A text is asked for with a wrong pin and, at its deadline, with the right one; in between
something may be done. -/
def Deed.trial (between : List Deed) : List Deed :=
  [.use (.take (.text (.trial [1, 2])) .trial), .use (.call Fresh.trial.key (.load "1")),
    .use (.clock Message.plainTrial.expiresAt)] ++ between ++
      [.use (.call Fresh.trial.key (.load "1234"))]

/-- What the vault answers, up to the last call. -/
def Answer.trial (last : VaultError) : List Answer :=
  [.taken (.ok .plainTrial),
    .came (.loaded (.error (.badPinAttempt 1 { Message.plainTrial with errors := 1 }))),
    .came (.loaded (.error last))]

/-- The deadline of the text is past, or a sweep has been sooner. -/
theorem Vault.serve_alike_at_deadline :
    let v := Vault.plainTrial 3
    let unswept := Service.shelfTrial .disabled
    let swept := Service.shelfTrial ⟨some ⟨1000, 1000⟩, true⟩
    v.serve unswept (Deed.trial []) = Answer.trial .expired ∧
      v.serve swept (Deed.trial [.pass .sleep 1000]) = Answer.trial .notFound ∧
      List.Forall₂ Answer.Alike (v.serve unswept (Deed.trial []))
        (v.serve swept (Deed.trial [.pass .sleep 1000])) := by
  refine ⟨rfl, rfl, ?_⟩
  have hfair : Use.Fair (.plainTrial 3) .epoch (Deed.uses (Deed.trial [])) := by
    refine ⟨by decide, by decide, ?_, ?_⟩
    · intro t ht
      have ht : t = .epoch ∨ Message.plainTrial.expiresAt = t := by
        simpa [Deed.trial, Deed.uses, Deed.use?, Use.clocks, Use.clock?] using ht
      rcases ht with rfl | rfl
      · exact ⟨rfl, by decide, by decide⟩
      · exact ⟨rfl, by decide, by decide⟩
    · intro i fresh hmem data pinHash hprepared t
      obtain ⟨rfl, rfl⟩ : i = .text (.trial [1, 2]) ∧ fresh = .trial := by
        simpa [Deed.trial, Deed.uses, Deed.use?] using hmem
      rw [Intake.prepared_plainTrial] at hprepared
      cases hprepared
      exact Message.fits_plainTrial.redated t
  have hstored : (Service.shelfTrial ⟨some ⟨1000, 1000⟩, true⟩).stored =
      (Service.shelfTrial .disabled).stored := rfl
  have hsame : Deed.uses (Deed.trial [.pass .sleep 1000]) = Deed.uses (Deed.trial []) := rfl
  refine Vault.serve_alike hstored rfl rfl rfl ?_ hsame hfair ?_
  · exact fun _ => .inl rfl
  · exact fun _ _ => rfl

end ReadOnce
