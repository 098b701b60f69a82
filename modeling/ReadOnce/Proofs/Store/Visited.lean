import ReadOnce.Proofs.Store.Index

/-!
# Purges of trees that hold anything

Trees may have been written by others. Bytes that are kept under a key may be no message, and the
index may have entries of messages that are gone, several entries of one message, and entries with
other deadlines than their messages have.

A purge visits the entries below its bound in the order of their bytes, and stops at the first that
names bytes that cannot be read. `Swept` says what visits make of trees, whatever the order in which
they are made, and `purge_cases` that a purge is nothing but visits of the entries before the one
that it stops at. Since visits leave nothing more to do where they have been, a purge that has been
stopped comes to the same entry again and changes nothing.
-/

namespace ReadOnce

namespace Trees

/-- The bytes that an index entry names. -/
def named? (t : Trees) (place : Bytes) : Option Bytes :=
  t.messages.get? (place.drop stampSize)

/-- The milliseconds that an index entry begins with. -/
def stampOf (place : Bytes) : Nat :=
  Bytes.toNatBE (place.take stampSize)

/-- An index entry names bytes that are no message. -/
def NamesUnreadable (t : Trees) (place : Bytes) (why : Message.DecodeError) : Prop :=
  ∃ b, t.named? place = some b ∧ Message.decode b = .error why

/-- An index entry names a message that has not reached its deadline. -/
def NamesLive (t : Trees) (now : Instant) (place : Bytes) : Prop :=
  ∃ b m, t.named? place = some b ∧ Message.decode b = .ok m ∧ m.isExpired now = false

/-- Whether a visit drops an index entry: what it names is missing or has reached its deadline. -/
def drops (t : Trees) (now : Instant) (place : Bytes) : Bool :=
  (t.named? place).all (isReached now)

variable {t t' t'' : Trees} {now : Instant} {place : Bytes} {places visited : List Bytes}
variable {why : Message.DecodeError}

/-- The entries that a purge visits are those with a stamp that is not later. -/
theorem lt_purgeBound_iff (h : stampSize ≤ place.length) :
    place < purgeBound now ↔ stampOf place ≤ stamp now :=
  (Bytes.lt_ofNatBE_iff h (stamp_lt now)).trans Nat.lt_succ_iff

/-- Bytes that are no message have no deadline to reach. -/
theorem drops_of_namesUnreadable (h : t.NamesUnreadable place why) :
    t.drops now place = false := by
  obtain ⟨b, hget, hwhy⟩ := h
  simp [drops, hget, isReached, hwhy]

theorem drops_of_namesLive (h : t.NamesLive now place) : t.drops now place = false := by
  obtain ⟨b, m, hget, hm, hlive⟩ := h
  simp [drops, hget, isReached, hm, hlive]

/-- An entry that a visit neither drops nor stops at names a message that has time left. -/
theorem namesLive_of_drops_eq_false (hdrops : t.drops now place = false)
    (hread : ∀ why, ¬t.NamesUnreadable place why) : t.NamesLive now place := by
  cases hget : t.named? place with
  | none => simp [drops, hget] at hdrops
  | some b =>
      cases hm : Message.decode b with
      | error why => exact absurd ⟨b, hget, hm⟩ (hread why)
      | ok m =>
          refine ⟨b, m, hget, hm, ?_⟩
          simpa [drops, hget, isReached, hm] using hdrops

theorem namesUnreadable_unique {why' : Message.DecodeError} (h : t.NamesUnreadable place why)
    (h' : t.NamesUnreadable place why') : why = why' := by
  obtain ⟨b, hget, hwhy⟩ := h
  obtain ⟨b', hget', hwhy'⟩ := h'
  obtain rfl := Option.some.inj (hget.symm.trans hget')
  exact Except.error.inj (hwhy.symm.trans hwhy')

/-! ### What visits make of trees -/

/-- Visits of index entries have made one pair of trees of another. The messages that the entries
name are gone if they have reached their deadlines, and so are the entries themselves if a visit
drops them. Everything else is as it was. -/
structure Swept (now : Instant) (places : List Bytes) (t t' : Trees) : Prop where
  messages : ∀ key, t'.messages.get? key = (t.messages.get? key).filter fun b =>
    !(isReached now b && places.any (·.drop stampSize == key))
  expiry : ∀ place, t'.expiry.get? place = (t.expiry.get? place).filter fun _ =>
    !(t.drops now place && places.contains place)

theorem filter_eq_self {α : Type} {p : α → Bool} {o : Option α} (h : ∀ a, o = some a → p a = true) :
    o.filter p = o := by
  cases o with
  | none => rfl
  | some a => simp [Option.filter_some, h a rfl]

theorem swept_nil (now : Instant) (t : Trees) : Swept now [] t t where
  messages key := (filter_eq_self fun _ _ => by simp).symm
  expiry place := (filter_eq_self fun _ _ => by simp).symm

theorem swept_purgeEntry (t : Trees) (now : Instant) (place : Bytes) :
    Swept now [place] t (t.purgeEntry now place).2 where
  messages key := by
    rw [t.get?_purgeEntry, List.any_cons, List.any_nil, Bool.or_false]
  expiry other := by
    have hkept (hdrops : t.drops now place = false) :
        t.expiry.get? other = (t.expiry.get? other).filter fun _ =>
          !(t.drops now other && [place].contains other) := by
      refine (filter_eq_self fun _ _ => ?_).symm
      by_cases hother : other = place
      · rw [hother, hdrops]
        rfl
      · simp [hother]
    have hdropped (hdrops : t.drops now place = true) :
        (t.expiry.erase place).get? other = (t.expiry.get? other).filter fun _ =>
          !(t.drops now other && [place].contains other) := by
      by_cases hother : other = place
      · subst hother
        rw [Tree.get?_erase_self]
        cases t.expiry.get? other <;> simp [hdrops]
      · rw [Tree.get?_erase_of_ne _ hother]
        exact (filter_eq_self fun _ _ => by simp [hother]).symm
    obtain ⟨hget, hpurge⟩ | ⟨b, why, hget, hwhy, hpurge⟩ | ⟨b, m, hget, hm, hexpired, hpurge⟩ |
      ⟨b, m, hget, hm, hlive, hpurge⟩ := t.purgeEntry_cases now place
    · rw [hpurge]
      exact hdropped (by simp [drops, named?, hget])
    · rw [hpurge]
      exact hkept (drops_of_namesUnreadable ⟨b, hget, hwhy⟩)
    · rw [hpurge]
      exact hdropped (by simp [drops, named?, hget, isReached, hm, hexpired])
    · rw [hpurge]
      exact hkept (drops_of_namesLive ⟨b, m, hget, hm, hlive⟩)

namespace Swept

variable (h : Swept now places t t')
include h

/-- A message that is named goes only if its entry goes in its own visit. -/
theorem drops_eq (place : Bytes) : t'.drops now place = t.drops now place := by
  have hget : t'.named? place = _ := h.messages (place.drop stampSize)
  rw [drops, drops, hget, named?]
  cases t.messages.get? (place.drop stampSize) with
  | none => rfl
  | some b =>
      rw [Option.filter_some]
      cases hreached : isReached now b with
      | false => simp
      | true => split <;> simp [hreached]

theorem trans {places' : List Bytes} (h' : Swept now places' t' t'') :
    Swept now (places ++ places') t t'' where
  messages key := by
    rw [h'.messages, h.messages, Option.filter_filter]
    congr 1
    funext b
    cases isReached now b <;> simp
  expiry place := by
    rw [h'.expiry, h.expiry, h.drops_eq, Option.filter_filter]
    congr 1
    funext _
    cases t.drops now place <;> simp

/-- No bytes go but those of a message that has reached its deadline. -/
theorem messages_cases (key : Bytes) :
    t'.messages.get? key = t.messages.get? key ∨ t'.messages.get? key = none ∧
      ∃ b m, t.messages.get? key = some b ∧ Message.decode b = .ok m ∧ m.isExpired now = true := by
  rw [h.messages]
  cases hget : t.messages.get? key with
  | none => exact .inl rfl
  | some b =>
      cases hreached : isReached now b with
      | false => exact .inl (filter_eq_self fun b' hb' => by simp [← Option.some.inj hb', hreached])
      | true =>
          obtain ⟨m, hm, hexpired⟩ := isReached_eq_true_iff.1 hreached
          rw [Option.filter_some]
          split
          · exact .inl rfl
          · exact .inr ⟨rfl, b, m, rfl, hm, hexpired⟩

theorem namesUnreadable_iff : t'.NamesUnreadable place why ↔ t.NamesUnreadable place why := by
  rcases h.messages_cases (place.drop stampSize) with hsame | ⟨hnone, b, m, hget, hm, -⟩
  · simp only [NamesUnreadable, named?, hsame]
  · simp [NamesUnreadable, named?, hnone, hget, hm]

/-- An index entry goes only by a visit that drops it. -/
theorem expiry_cases (place : Bytes) :
    t'.expiry.get? place = t.expiry.get? place ∨ t'.expiry.get? place = none ∧
      (t.expiry.get? place).isSome = true ∧ t.drops now place = true ∧ place ∈ places := by
  rw [h.expiry]
  cases hget : t.expiry.get? place with
  | none => exact .inl rfl
  | some value =>
      rw [Option.filter_some]
      split
      · exact .inl rfl
      · rename_i hgone
        simp only [Bool.not_and, Bool.or_eq_true, Bool.not_eq_true', not_or,
          Bool.not_eq_false, List.contains_iff_mem] at hgone
        exact .inr ⟨rfl, rfl, hgone⟩

/-- An entry that is still there once it has been visited names a message that has time left. -/
theorem namesLive (hplace : place ∈ places) (hread : ∀ why, ¬t.NamesUnreadable place why)
    (hleft : (t'.expiry.get? place).isSome = true) : t'.NamesLive now place := by
  refine namesLive_of_drops_eq_false ?_ fun why hwhy => hread why (h.namesUnreadable_iff.1 hwhy)
  rw [h.drops_eq]
  cases hdrops : t.drops now place with
  | false => rfl
  | true =>
      rw [h.expiry] at hleft
      cases hget : t.expiry.get? place <;> simp [hget, hdrops, hplace] at hleft

end Swept

/-! ### What a purge comes to -/

theorem purgeEntries_append (now : Instant) (places places' : List Bytes) (count : Nat)
    (t : Trees) :
    purgeEntries now (places ++ places') count t =
      match purgeEntries now places count t with
      | (.error e, t) => (.error e, t)
      | (.ok n, t) => purgeEntries now places' n t := by
  induction places generalizing count t with
  | nil => rfl
  | cons place places ih =>
      rw [List.cons_append, purgeEntries, purgeEntries]
      split
      · rfl
      · exact ih ..

/-- Visits of entries that name no unreadable bytes do not fail. -/
theorem purgeEntries_of_readable (now : Instant) (count : Nat)
    (hread : ∀ place ∈ places, ∀ why, ¬t.NamesUnreadable place why) :
    ∃ n t', purgeEntries now places count t = (.ok n, t') ∧ Swept now places t t' := by
  induction places generalizing count t with
  | nil => exact ⟨count, t, rfl, swept_nil now t⟩
  | cons place places ih =>
      obtain ⟨hplace, hplaces⟩ := List.forall_mem_cons.1 hread
      have hfirst := t.swept_purgeEntry now place
      cases hvisit : t.purgeEntry now place with
      | mk reply t₁ =>
          rw [hvisit] at hfirst
          cases reply with
          | error e =>
              obtain ⟨-, hpurge⟩ | ⟨b, why, hget, hwhy, -⟩ | ⟨_, _, -, -, -, hpurge⟩ |
                ⟨_, _, -, -, -, hpurge⟩ := t.purgeEntry_cases now place
              · cases hvisit.symm.trans hpurge
              · exact absurd ⟨b, hget, hwhy⟩ (hplace why)
              · cases hvisit.symm.trans hpurge
              · cases hvisit.symm.trans hpurge
          | ok dropped =>
              obtain ⟨n, t₂, hrest, hswept⟩ := ih (if dropped then count + 1 else count)
                fun p hp why hwhy => hplaces p hp why (hfirst.namesUnreadable_iff.1 hwhy)
              refine ⟨n, t₂, ?_, hfirst.trans hswept⟩
              simp only [purgeEntries, hvisit]
              exact hrest

/-- Visits of entries whose messages have time left change nothing. -/
theorem purgeEntries_of_live (count : Nat) (hlive : ∀ place ∈ places, t.NamesLive now place) :
    purgeEntries now places count t = (.ok count, t) := by
  induction places with
  | nil => rfl
  | cons place places ih =>
      obtain ⟨⟨b, m, hget, hm, hplace⟩, hplaces⟩ := List.forall_mem_cons.1 hlive
      have hget : t.messages.get? (place.drop stampSize) = some b := hget
      simp only [purgeEntries, purgeEntry, hget, hm, hplace, Bool.false_eq_true, if_false]
      exact ih hplaces

theorem purgeEntry_of_namesUnreadable (h : t.NamesUnreadable place why) :
    t.purgeEntry now place = (.error (unreadable why), t) := by
  obtain ⟨b, hget, hwhy⟩ := h
  have hget : t.messages.get? (place.drop stampSize) = some b := hget
  simp only [purgeEntry, hget, hwhy]

/-- Of some entries none names unreadable bytes, or there is a first one that does. -/
theorem exists_first_unreadable (t : Trees) (places : List Bytes) :
    ∃ visited ahead, places = visited ++ ahead ∧
      (∀ place ∈ visited, ∀ why, ¬t.NamesUnreadable place why) ∧
        (ahead = [] ∨ ∃ place rest why, ahead = place :: rest ∧ t.NamesUnreadable place why) := by
  induction places with
  | nil => exact ⟨[], [], rfl, fun _ h => absurd h List.not_mem_nil, .inl rfl⟩
  | cons place places ih =>
      by_cases hplace : ∃ why, t.NamesUnreadable place why
      · obtain ⟨why, hwhy⟩ := hplace
        refine ⟨[], _, rfl, fun _ h => absurd h List.not_mem_nil, ?_⟩
        exact .inr ⟨place, places, why, rfl, hwhy⟩
      · obtain ⟨visited, ahead, rfl, hread, hahead⟩ := ih
        refine ⟨place :: visited, ahead, rfl, ?_, hahead⟩
        exact List.forall_mem_cons.2 ⟨fun why hwhy => hplace ⟨why, hwhy⟩, hread⟩

/-- A purge visits the entries below its bound up to the first that names unreadable bytes, where it
stops, or all of them. -/
theorem purge_cases (t : Trees) (now : Instant) :
    ∃ visited ahead n t', t.expiry.keysBelow (purgeBound now) = visited ++ ahead ∧
      (∀ place ∈ visited, ∀ why, ¬t.NamesUnreadable place why) ∧
      purgeEntries now visited 0 t = (.ok n, t') ∧ Swept now visited t t' ∧
      (ahead = [] ∧ t.purge now = (.ok n, t') ∨
        ∃ place rest why, ahead = place :: rest ∧ t.NamesUnreadable place why ∧
          t.purge now = (.error (unreadable why), t')) := by
  obtain ⟨visited, ahead, hplaces, hread, hahead⟩ :=
    t.exists_first_unreadable (t.expiry.keysBelow (purgeBound now))
  obtain ⟨n, t', hvisited, hswept⟩ := purgeEntries_of_readable now 0 hread
  refine ⟨visited, ahead, n, t', hplaces, hread, hvisited, hswept, ?_⟩
  rw [purge, hplaces, purgeEntries_append, hvisited]
  rcases hahead with rfl | ⟨place, rest, why, rfl, hwhy⟩
  · exact .inl ⟨rfl, rfl⟩
  · refine .inr ⟨place, rest, why, rfl, hwhy, ?_⟩
    simp only [purgeEntries, purgeEntry_of_namesUnreadable (hswept.namesUnreadable_iff.2 hwhy)]

end Trees

end ReadOnce
