import ReadOnce.Proofs.Store.Overlap

/-!
# Deadlines that a purge overlooks

A purge visits the index entries up to the millisecond of its instant. The index is in the order of
milliseconds since the epoch, and a deadline that has been reached is not in a later millisecond
than the purge, with one exception. The milliseconds of a leap second are those of the second after
it, so a purge in that next second does not get to the deadlines whose milliseconds are still to
come.

A message with such a deadline stays until a later purge, unless the purge comes upon its key
through an entry that an earlier message under this key has left in the index.
-/

namespace ReadOnce

namespace Trees

/-- A deadline has been reached, but counts as a later millisecond: it lies within a leap second,
and the purge is made in the next one, from the epoch on, and not that far into it. -/
structure Overlooks (now deadline : Instant) : Prop where
  isLeap : deadline.isLeap = true
  next : now.secs = deadline.secs + 1
  since_epoch : 0 ≤ now.secs
  millis_lt : now.nanos / 1000000 + 1000 < deadline.nanos / 1000000

/-- Of the deadlines that have been reached, the overlooked ones are those with a later stamp. -/
theorem stamp_lt_iff_overlooks {now deadline : Instant} (h : deadline ≤ now) :
    stamp now < stamp deadline ↔ Overlooks now deadline := by
  have h : deadline.secs < now.secs ∨ deadline.secs = now.secs ∧ deadline.nanos ≤ now.nanos := h
  have hnanos := deadline.nanos_lt
  simp only [stamp, Instant.unixMillis]
  constructor
  · intro hlt
    exact ⟨decide_eq_true (by omega), by omega, by omega, by omega⟩
  · rintro ⟨-, hnext, hepoch, hmillis⟩
    omega

/-- A purge visits an index entry that names a key. -/
def Visits (t : Trees) (now : Instant) (key : Bytes) : Prop :=
  ∃ place ∈ t.expiry.keysBelow (purgeBound now), place.drop stampSize = key

instance (t : Trees) (now : Instant) (key : Bytes) : Decidable (t.Visits now key) :=
  inferInstanceAs (Decidable (∃ place ∈ _, _))

namespace Sound

variable {t : Trees}

/-- A purge costs the messages that it comes upon and whose deadlines have been reached. -/
theorem get?_purge_eq_none_iff (h : t.Sound) {key b : Bytes} {m : Message} (now : Instant)
    (hget : t.messages.get? key = some b) (hm : Message.decode b = .ok m) :
    (t.purge now).2.messages.get? key = none ↔ m.isExpired now = true ∧ t.Visits now key := by
  have hpurge : (t.purge now).2.messages.get? key = _ := (h.purgeEntries now _ 0).2 key
  rw [hpurge, hget]
  simp [isReached, hm, Visits]

/-- A purge that does not overlook a deadline that has been reached comes upon the message. -/
theorem visits_of_not_overlooks (h : t.Sound) {key b : Bytes} {m : Message} {now : Instant}
    (hget : t.messages.get? key = some b) (hm : Message.decode b = .ok m)
    (hexpired : m.isExpired now = true) (hseen : ¬Overlooks now m.expiresAt) :
    t.Visits now key := by
  obtain ⟨n, hexact, rfl, rfl, hplace⟩ := h key b hget
  obtain rfl : n = m := Except.ok.inj ((Message.decode_encode hexact).symm.trans hm)
  have hstamp : stamp n.expiresAt ≤ stamp now :=
    Nat.not_lt.1 fun hlt => hseen ((stamp_lt_iff_overlooks (of_decide_eq_true hexpired)).1 hlt)
  refine ⟨placeOf n, ?_, drop_placeOf n⟩
  exact Tree.mem_keysBelow_iff.2
    ⟨Option.isSome_of_eq_some hplace, (placeOf_lt_purgeBound_iff n now).2 hstamp⟩

end Sound

namespace Traffic

/-- Whatever callers and purges have made of empty trees, a purge at any instant, before the epoch
or within a leap second too, tells how many messages it has dropped and changes none. It drops those
that have reached their deadline, except that one whose deadline it overlooks goes only if the purge
comes upon its key through another entry. -/
theorem purged_unless_overlooked {es : List Event} (hfits : ∀ m, .ask (.save m) ∈ es → m.Fits)
    (now : Instant) :
    let before := (empty.run es).trees
    let after := (before.purge now).2
    (∃ n, (before.purge now).1 = .ok n ∧
      after.messages.entries.length + n = before.messages.entries.length) ∧
      ∀ key, match before.messages.get? key with
        | none => after.messages.get? key = none
        | some b => ∃ m, Message.decode b = .ok m ∧
          (after.messages.get? key = some b ∨ after.messages.get? key = none) ∧
          (after.messages.get? key = none ↔
            m.isExpired now = true ∧ (Overlooks now m.expiresAt → before.Visits now key)) := by
  intro before after
  have hsound : before.Sound := (balanced_empty.run hfits).sound
  obtain ⟨⟨n, hok⟩, hkept⟩ :=
    hsound.purgeEntries now (before.expiry.keysBelow (purgeBound now)) 0
  have hlength := length_purgeEntries hok
  refine ⟨⟨n, hok, ?_⟩, ?_⟩
  · show (before.purge now).2.messages.entries.length + n = _
    rw [purge]
    omega
  · intro key
    have hafter : after.messages.get? key = _ := hkept key
    split
    · rename_i hget
      rw [hafter, hget, Option.filter_none]
    · rename_i b hget
      obtain ⟨m, hm⟩ := hsound.decode hget
      refine ⟨m, hm, ?_, ?_⟩
      · rw [hafter, hget, Option.filter_some]
        split
        · exact .inl rfl
        · exact .inr rfl
      · refine (hsound.get?_purge_eq_none_iff now hget hm).trans (and_congr_right ?_)
        intro hexpired
        constructor
        · exact fun hvisits _ => hvisits
        · intro hvisits
          by_cases hseen : Overlooks now m.expiresAt
          · exact hvisits hseen
          · exact hsound.visits_of_not_overlooks hget hm hexpired hseen

/-- A message that has reached a deadline within a leap second is still there after a purge at the
beginning of the next second. -/
theorem overlooked_trial :
    let m := trialMessage "a" ⟨59, 1500000000, by decide, by decide, by decide⟩
    let next : Instant := ⟨60, 0, by decide, by decide, by decide⟩
    let es : List Event := [.ask (.save m)]
    let before := (empty.run es).trees
    (∀ m, .ask (.save m) ∈ es → m.Fits) ∧ m.isExpired next = true ∧
      (before.purge next).1 = .ok 0 ∧
      (before.purge next).2.messages.get? (Text.utf8 "a") = some m.encode := by
  intro m next es before
  have hfits : ∀ n, .ask (.save n) ∈ es → n.Fits := by
    intro n hn
    obtain rfl : n = m := by simpa [es] using hn
    exact ⟨by decide, by decide, by decide⟩
  have hget : before.messages.get? (Text.utf8 "a") = some m.encode := by decide +kernel
  have hmissed : ¬before.Visits next (Text.utf8 "a") := by decide +kernel
  have hnone : (before.purge next).1 = .ok 0 := by decide +kernel
  refine ⟨hfits, by decide, hnone, ?_⟩
  obtain ⟨-, hkept⟩ := purged_unless_overlooked hfits next
  have hkept := hkept (Text.utf8 "a")
  simp only [show (empty.run es).trees.messages.get? (Text.utf8 "a") = _ from hget] at hkept
  obtain ⟨n, hn, hkept | hgone, hiff⟩ := hkept
  · exact hkept
  · have hexact : m.IsExact := ⟨hfits m (List.mem_singleton_self _), .inr rfl⟩
    obtain rfl : m = n :=
      Except.ok.inj ((Message.decode_encode hexact).symm.trans hn)
    have hoverlooks : Overlooks next m.expiresAt :=
      ⟨by decide, by decide, by decide, by decide⟩
    exact absurd ((hiff.1 hgone).2 hoverlooks) hmissed

end Traffic

end Trees

end ReadOnce
