import ReadOnce.Proofs.Store.Sound

/-!
# Purges that overlap

A purge of trees is not one change. It reads the index, and makes one change for each entry that it
has read. Other callers come in between, other purges among them, so an entry may be out of date by
the time it is visited: its message has been dropped, or saved again with another deadline.

`Traffic` is trees with any number of purges under way, and `Traffic.conserved` says what holds in
every order of the steps that they and others take. No message is lost or counted twice, no message
is without an entry of its own in the index, and no purge drops what has not reached its deadline.

A purge may read entries in any order, as far ahead as it likes, and more than once. One that nobody
disturbs, and that reads all there is to read, is a purge in one change: `Traffic.run_purge`.
-/

namespace ReadOnce

namespace Trees

/-- A purge under way. -/
structure Round where
  /-- The instant that it is made at. -/
  now : Instant
  /-- The entries of the index that it has read and not visited yet. -/
  ahead : List Bytes
  /-- The messages that it has dropped. -/
  count : Nat
  /-- What has stopped it. -/
  failure : Option StoreError

namespace Round

/-- A purge that begins. -/
def start (now : Instant) : Round :=
  ⟨now, [], 0, none⟩

/-- A purge that has read an entry, if there is such an entry and it has to be visited. -/
def read (r : Round) (t : Trees) (entry : Bytes) : Round :=
  if r.failure.isNone ∧ entry ∈ t.expiry.keysBelow (purgeBound r.now) then
    { r with ahead := r.ahead ++ [entry] }
  else r

/-- A purge that has visited the first of the entries ahead of it, and the trees from then on. -/
def visit (r : Round) (t : Trees) : Round × Trees :=
  match r.ahead with
  | [] => (r, t)
  | entry :: ahead =>
    match t.purgeEntry r.now entry with
    | (.error e, t) => ({ r with ahead := [], failure := some e }, t)
    | (.ok dropped, t) => ({ r with ahead, count := if dropped then r.count + 1 else r.count }, t)

/-- What a purge answers that has nothing more to visit. -/
def result (r : Round) : Except StoreError Nat :=
  match r.failure with
  | none => .ok r.count
  | some e => .error e

/-- A visit leaves each message its entry, stops no purge, and counts the message that it costs. -/
theorem visit_of_sound {t : Trees} (h : t.Sound) (r : Round) :
    (r.visit t).2.Sound ∧ (r.visit t).1.failure = r.failure ∧
      (r.visit t).2.messages.entries.length + (r.visit t).1.count =
        t.messages.entries.length + r.count := by
  unfold visit
  split
  · exact ⟨h, rfl, rfl⟩
  · rename_i entry ahead _
    obtain ⟨⟨dropped, hdropped⟩, hsound⟩ := h.purgeEntry r.now entry
    have hlength := length_purgeEntry hdropped
    split
    · rename_i heq
      rw [heq] at hdropped
      contradiction
    · rename_i dropped' t' heq
      rw [heq] at hdropped hsound hlength
      obtain rfl : dropped' = dropped := Except.ok.inj hdropped
      refine ⟨hsound, rfl, ?_⟩
      cases dropped'
      · exact congrArg (· + r.count) hlength
      · have hlength : t'.messages.entries.length + 1 = t.messages.entries.length := hlength
        simp only [if_true]
        omega

/-- A visit costs no bytes but those of a message that has reached its deadline. -/
theorem get?_visit {t : Trees} {key b : Bytes} (hget : t.messages.get? key = some b) (r : Round) :
    (r.visit t).2.messages.get? key = some b ∨
      ∃ m, Message.decode b = .ok m ∧ m.isExpired r.now = true := by
  unfold visit
  split
  · exact .inl hget
  · rename_i entry ahead _
    have hvisit := t.get?_purgeEntry r.now entry key
    rw [hget, Option.filter_some] at hvisit
    have hkept : (t.purgeEntry r.now entry).2.messages.get? key = some b ∨
        isReached r.now b = true := by
      cases hreached : isReached r.now b with
      | true => exact .inr rfl
      | false => exact .inl (by simpa [hreached] using hvisit)
    rw [isReached_eq_true_iff] at hkept
    split
    · rename_i heq
      rwa [heq] at hkept
    · rename_i heq
      rwa [heq] at hkept

end Round

/-- Trees that any number of callers use at once. -/
structure Traffic where
  trees : Trees
  /-- The purges that have begun, in the order of their beginnings. -/
  rounds : List Round
  /-- What has been answered, last first. -/
  log : List Answered

namespace Traffic

/-- What may happen next. -/
inductive Event where
  /-- Something is asked. A purge begins, anything else is answered. -/
  | ask (r : Request)
  /-- A purge reads an entry of the index. -/
  | read (i : Nat) (entry : Bytes)
  /-- A purge visits the next of the entries that it has read. -/
  | visit (i : Nat)

/-- Trees without messages, of which nothing has been asked. -/
def empty : Traffic :=
  ⟨.empty, [], []⟩

/-- What a purge under way leads to by going on. -/
def go (s : Traffic) (i : Nat) (f : Round → Trees → Round × Trees) : Traffic :=
  match s.rounds[i]? with
  | none => s
  | some r =>
    { s with trees := (f r s.trees).2, rounds := s.rounds.set i (f r s.trees).1 }

/-- What an event leads to. -/
def step (s : Traffic) : Event → Traffic
  | .ask (.purge now) => { s with rounds := s.rounds ++ [.start now] }
  | .ask r => { s with trees := (s.trees.answer r).2, log := ⟨r, (s.trees.answer r).1⟩ :: s.log }
  | .read i entry => s.go i fun r t => (r.read t entry, t)
  | .visit i => s.go i Round.visit

/-- What events in turn lead to. -/
def run (s : Traffic) (es : List Event) : Traffic :=
  es.foldl step s

/-- The messages saved. -/
def saved (s : Traffic) : Nat :=
  s.log.countP Answered.isSaved

/-- The messages dropped by their keys. -/
def removed (s : Traffic) : Nat :=
  s.log.countP Answered.isRemoved

/-- The messages that purges have dropped so far, as they count them. -/
def purged (s : Traffic) : Nat :=
  (s.rounds.map Round.count).sum

variable {s : Traffic} {i : Nat} {r : Round}

theorem step_ask {q : Request} (h : q.key? ≠ none) :
    s.step (.ask q) =
      { s with trees := (s.trees.answer q).2, log := ⟨q, (s.trees.answer q).1⟩ :: s.log } := by
  cases q with
  | purge now => exact absurd rfl h
  | _ => rfl

theorem go_of_getElem? (h : s.rounds[i]? = some r) (f : Round → Trees → Round × Trees) :
    s.go i f = { s with trees := (f r s.trees).2, rounds := s.rounds.set i (f r s.trees).1 } := by
  simp only [go, h]

/-! ### A purge that nobody disturbs -/

section Undisturbed

variable (t : Trees) (rounds : List Round) (log : List Answered)

/-- The purge that began last goes on. -/
theorem go_last (r : Round) (f : Round → Trees → Round × Trees) :
    go ⟨t, rounds ++ [r], log⟩ rounds.length f = ⟨(f r t).2, rounds ++ [(f r t).1], log⟩ := by
  rw [go_of_getElem? List.getElem?_concat_length, List.set_append_right _ _ (Nat.le_refl _),
    Nat.sub_self]
  rfl

theorem run_read {now : Instant} {places : List Bytes} (ahead : List Bytes) (count : Nat)
    (hplaces : ∀ place ∈ places, place ∈ t.expiry.keysBelow (purgeBound now)) :
    run ⟨t, rounds ++ [⟨now, ahead, count, none⟩], log⟩ (places.map (.read rounds.length)) =
      ⟨t, rounds ++ [⟨now, ahead ++ places, count, none⟩], log⟩ := by
  induction places generalizing ahead with
  | nil => rw [List.append_nil]; rfl
  | cons place places ih =>
      obtain ⟨hplace, hplaces⟩ := List.forall_mem_cons.1 hplaces
      have hread : Round.read ⟨now, ahead, count, none⟩ t place =
          ⟨now, ahead ++ [place], count, none⟩ := if_pos ⟨rfl, hplace⟩
      have hstep := go_last t rounds log ⟨now, ahead, count, none⟩ fun r t => (r.read t place, t)
      rw [hread] at hstep
      show (go _ rounds.length fun r t => (r.read t place, t)).run _ = _
      rw [hstep, ih _ hplaces, List.append_assoc, List.singleton_append]

theorem run_visit (now : Instant) (places : List Bytes) (count : Nat) :
    ∃ r, run ⟨t, rounds ++ [⟨now, places, count, none⟩], log⟩
          (places.map fun _ => .visit rounds.length) =
        ⟨(purgeEntries now places count t).2, rounds ++ [r], log⟩ ∧
      r.result = (purgeEntries now places count t).1 := by
  induction places generalizing t count with
  | nil => exact ⟨_, rfl, rfl⟩
  | cons place places ih =>
      have hstep := go_last t rounds log ⟨now, place :: places, count, none⟩ Round.visit
      show ∃ r, (go _ rounds.length Round.visit).run (places.map fun _ => .visit rounds.length) =
        _ ∧ _
      rw [hstep]
      cases hvisit : t.purgeEntry now place with
      | mk reply t' =>
          simp only [Round.visit, purgeEntries, hvisit]
          cases reply with
          | ok dropped => exact ih ..
          | error e =>
              -- A purge that has been stopped has nothing ahead of it.
              refine ⟨⟨now, [], count, some e⟩, ?_, rfl⟩
              clear ih hvisit hstep
              induction places with
              | nil => rfl
              | cons place places ih => exact (congrArg (run · _) (go_last ..)).trans ih

end Undisturbed

/-- A purge that reads all entries below its bound and visits them, with nobody in between, changes
trees as `purge` does and comes to the same answer. -/
theorem run_purge (s : Traffic) (now : Instant) :
    let places := s.trees.expiry.keysBelow (purgeBound now)
    let i := s.rounds.length
    ∃ r, s.run (.ask (.purge now) :: (places.map (.read i) ++ places.map fun _ => .visit i)) =
        ⟨(s.trees.purge now).2, s.rounds ++ [r], s.log⟩ ∧
      r.result = (s.trees.purge now).1 := by
  intro places i
  have hread := run_read s.trees s.rounds s.log [] 0 fun _ (h : _ ∈ places) => h
  obtain ⟨r, hvisit, hresult⟩ := run_visit s.trees s.rounds s.log now places 0
  refine ⟨r, ?_, hresult⟩
  show run ⟨s.trees, s.rounds ++ [.start now], s.log⟩ _ = _
  rw [run, List.foldl_append]
  exact (congrArg (run · _) hread).trans hvisit

/-! ### Any number of callers -/

/-- Each message has its entry, no purge has been stopped, and the messages are as many as were
saved and not dropped. -/
structure Balanced (s : Traffic) : Prop where
  sound : s.trees.Sound
  going : ∀ r ∈ s.rounds, r.failure = none
  count : s.trees.messages.entries.length + s.removed + s.purged = s.saved

theorem balanced_empty : empty.Balanced where
  sound := sound_empty
  going _ h := absurd h (List.not_mem_nil)
  count := rfl

/-- A purge that goes on changes what all purges have counted by what it counts. -/
theorem sum_count_set {rounds : List Round} (h : rounds[i]? = some r) (r' : Round) :
    ((rounds.set i r').map Round.count).sum + r.count =
      (rounds.map Round.count).sum + r'.count := by
  induction rounds generalizing i with
  | nil => contradiction
  | cons r₀ rounds ih =>
      cases i with
      | zero =>
          obtain rfl : r₀ = r := Option.some.inj h
          simp only [List.set_cons_zero, List.map_cons, List.sum_cons]
          omega
      | succ i =>
          have hrest := ih (i := i) h
          simp only [List.set_cons_succ, List.map_cons, List.sum_cons]
          omega

namespace Balanced

variable (h : s.Balanced)
include h

theorem ask {q : Request} (hkey : q.key? ≠ none) (hfits : ∀ m, q = .save m → m.Fits) :
    (s.step (.ask q)).Balanced := by
  obtain ⟨hsound, hlength⟩ := h.sound.answer hkey hfits
  have hcount := h.count
  rw [step_ask hkey]
  refine ⟨hsound, h.going, ?_⟩
  simp only [removed, saved, purged, List.countP_cons] at hcount ⊢
  cases hr : Answered.isRemoved ⟨q, (s.trees.answer q).1⟩ <;>
    cases hs : Answered.isSaved ⟨q, (s.trees.answer q).1⟩ <;>
    simp only [hr, hs, Bool.toNat_true, Bool.toNat_false, if_true, Bool.false_eq_true, if_false]
      at hlength ⊢ <;>
    omega

theorem begin (now : Instant) : (s.step (.ask (.purge now))).Balanced where
  sound := h.sound
  going := by
    intro r hr
    rcases List.mem_append.1 hr with hr | hr
    · exact h.going r hr
    · obtain rfl := List.mem_singleton.1 hr
      rfl
  count := by
    have hcount := h.count
    simp only [purged, step, List.map_append, List.sum_append] at hcount ⊢
    exact hcount

/-- A purge that goes on leaves the balance as it is if it counts the messages that it costs. -/
theorem go {f : Round → Trees → Round × Trees} (i : Nat)
    (hf : ∀ r, (f r s.trees).2.Sound ∧ (f r s.trees).1.failure = r.failure ∧
      (f r s.trees).2.messages.entries.length + (f r s.trees).1.count =
        s.trees.messages.entries.length + r.count) :
    (s.go i f).Balanced := by
  cases hi : s.rounds[i]? with
  | none =>
      simp only [Traffic.go, hi]
      exact h
  | some r =>
      obtain ⟨hsound, hfailure, hlength⟩ := hf r
      rw [go_of_getElem? hi]
      refine ⟨hsound, ?_, ?_⟩
      · intro r' hr'
        rcases List.mem_or_eq_of_mem_set hr' with hr' | rfl
        · exact h.going r' hr'
        · exact hfailure.trans (h.going r (List.mem_of_getElem? hi))
      · have hcount := h.count
        have hsum := sum_count_set hi (f r s.trees).1
        simp only [removed, saved, purged] at hcount ⊢
        omega

theorem step {e : Event} (hfits : ∀ m, e = .ask (.save m) → m.Fits) : (s.step e).Balanced := by
  cases e with
  | ask q =>
      cases hkey : q.key? with
      | none =>
          cases q with
          | purge now => exact h.begin now
          | _ => contradiction
      | some key => exact h.ask (by simp [hkey]) fun m hm => hfits m (congrArg Event.ask hm)
  | read i entry =>
      refine h.go i fun r => ⟨h.sound, ?_, ?_⟩ <;> unfold Round.read <;> split <;> rfl
  | visit i => exact h.go i (Round.visit_of_sound h.sound)

theorem run {es : List Event} (hfits : ∀ m, .ask (.save m) ∈ es → m.Fits) :
    (s.run es).Balanced := by
  induction es generalizing s with
  | nil => exact h
  | cons e es ih =>
      refine ih (h.step ?_) fun m hm => hfits m (List.mem_cons_of_mem _ hm)
      rintro m rfl
      exact hfits m (List.mem_cons_self ..)

end Balanced

/-- In whatever order callers save, load, count, and drop messages and purges read and visit
entries, from empty trees on: the messages kept are as many as were saved, without those dropped by
their keys and those that purges have counted. Each has an entry of its own in the index. No purge
fails, and a visit leaves all bytes as they are but those of a message that has reached its deadline
at the instant of the purge. -/
theorem conserved {es : List Event} (hfits : ∀ m, .ask (.save m) ∈ es → m.Fits) :
    let s := empty.run es
    s.trees.messages.entries.length + s.removed + s.purged = s.saved ∧ s.trees.Covered ∧
      ∀ i r, s.rounds[i]? = some r → r.failure = none ∧
        ∀ key b, s.trees.messages.get? key = some b →
          (s.step (.visit i)).trees.messages.get? key = some b ∨
            ∃ m, Message.decode b = .ok m ∧ m.isExpired r.now = true := by
  intro s
  have hbalanced : s.Balanced := balanced_empty.run hfits
  refine ⟨hbalanced.count, hbalanced.sound.covered, ?_⟩
  intro i r hi
  refine ⟨hbalanced.going r (List.mem_of_getElem? hi), ?_⟩
  intro key b hget
  have hvisit : s.step (.visit i) = _ := go_of_getElem? hi Round.visit
  rw [hvisit]
  exact Round.get?_visit hget r

/-- A message with a deadline. -/
def trialMessage (key : String) (expiresAt : Instant) : Message :=
  ⟨⟨key⟩, expiresAt, [7], "hash", 0, false⟩

/-- Two purges have read the entry of a message, and the first of them also that of another, which
is dropped and saved again with a later deadline before it is visited. -/
def trialEvents : List Event :=
  let early : Instant := ⟨1, 0, by decide, by decide, Instant.epoch.nanos_lt⟩
  let late : Instant := ⟨9, 0, by decide, by decide, Instant.epoch.nanos_lt⟩
  let one := trialMessage "a" early
  let other := trialMessage "b" early
  [.ask (.save one), .ask (.save other),
    .ask (.purge early), .read 0 (placeOf other), .read 0 (placeOf one),
    .ask (.purge early), .read 1 (placeOf one),
    .ask (.remove other.key), .ask (.save (trialMessage "b" late)),
    .visit 0, .visit 1, .visit 0]

/-- The one message is counted once, and the other stays. -/
theorem conserved_trial :
    let s := empty.run trialEvents
    (∀ m, .ask (.save m) ∈ trialEvents → m.Fits) ∧
      s.saved = 3 ∧ s.removed = 1 ∧ s.purged = 1 ∧ s.trees.messages.entries.length = 1 ∧
      s.trees.Covered ∧ (s.trees.messages.get? (Text.utf8 "b")).isSome = true := by
  intro s
  have hfits : ∀ m, .ask (.save m) ∈ trialEvents → m.Fits := by
    intro m hm
    simp only [trialEvents, List.mem_cons, Event.ask.injEq, Request.save.injEq, reduceCtorEq,
      List.not_mem_nil, or_false, false_or] at hm
    rcases hm with rfl | rfl | rfl
    · exact ⟨by decide, by decide, by decide⟩
    · exact ⟨by decide, by decide, by decide⟩
    · exact ⟨by decide, by decide, by decide⟩
  obtain ⟨hcount, hcovered, -⟩ := conserved hfits
  have hsaved : (empty.run trialEvents).saved = 3 := by decide +kernel
  have hremoved : (empty.run trialEvents).removed = 1 := by decide +kernel
  have hpurged : (empty.run trialEvents).purged = 1 := by decide +kernel
  have hkept : ((empty.run trialEvents).trees.messages.get? (Text.utf8 "b")).isSome = true := by
    decide +kernel
  refine ⟨hfits, hsaved, hremoved, hpurged, ?_, hcovered, hkept⟩
  rw [hsaved, hremoved, hpurged] at hcount
  exact Nat.add_right_cancel (Nat.add_right_cancel hcount)

end Traffic

end Trees

end ReadOnce
