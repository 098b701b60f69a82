import ReadOnce.Proofs.Store.Visited

/-!
# Purges that are stopped

What a purge does to trees of any contents, whether it comes to an end or is stopped. Each entry of
the index goes in a change of its own, and takes with it the message that it names. Where the purge
has been, nothing is left that has reached its deadline; where it has not been, nothing has changed.
-/

namespace ReadOnce.Trees

/-- A purge comes to an index entry and finds the trees as the visits before have left them. -/
def ComesTo (t : Trees) (now : Instant) (place : Bytes) (found : Trees) : Prop :=
  ∃ done rest n, t.expiry.keysBelow (purgeBound now) = done ++ place :: rest ∧
    purgeEntries now done 0 t = (.ok n, found)

/-- One change drops an index entry. What the entry names was missing, or is dropped as well. -/
structure DropsEntry (place : Bytes) (found left : Trees) : Prop where
  there : (found.expiry.get? place).isSome = true
  gone : left.expiry.get? place = none
  named : found.named? place = none ∨
    (found.named? place).isSome = true ∧ left.named? place = none

/-- A purge that has left the trees `after` was stopped by an index entry: the first in the order of
bytes that names bytes that are no message. -/
structure StoppedAt (t after : Trees) (now : Instant) (place : Bytes) (why : Message.DecodeError) :
    Prop where
  there : (t.expiry.get? place).isSome = true
  stamp_le : stampOf place ≤ stamp now
  named : t.NamesUnreadable place why
  first : ∀ earlier < place, (t.expiry.get? earlier).isSome = true →
    ∀ why, ¬t.NamesUnreadable earlier why
  /-- The index is as it was from this entry on. -/
  later : ∀ later, place ≤ later → after.expiry.get? later = t.expiry.get? later
  /-- The entries before have been visited. -/
  earlier : ∀ earlier < place, (after.expiry.get? earlier).isSome = true →
    after.NamesLive now earlier
  /-- What no entry before names is as it was. -/
  unnamed : ∀ key, (∀ earlier < place, (t.expiry.get? earlier).isSome = true →
    earlier.drop stampSize ≠ key) → after.messages.get? key = t.messages.get? key

variable {t t' : Trees} {now : Instant} {place : Bytes} {visited ahead rest : List Bytes} {n : Nat}
variable {why : Message.DecodeError}

/-- An entry that a purge has dropped went in its visit. -/
theorem exists_comesTo (hplaces : t.expiry.keysBelow (purgeBound now) = visited ++ ahead)
    (hread : ∀ place ∈ visited, ∀ why, ¬t.NamesUnreadable place why)
    (hthere : (t.expiry.get? place).isSome = true) (hdrops : t.drops now place = true)
    (hplace : place ∈ visited) :
    ∃ found, t.ComesTo now place found ∧ DropsEntry place found (found.purgeEntry now place).2 := by
  obtain ⟨done, more, rfl⟩ := List.append_of_mem hplace
  have hdone : ∀ place ∈ done, ∀ why, ¬t.NamesUnreadable place why :=
    fun place hplace => hread place (List.mem_append_left _ hplace)
  obtain ⟨n, found, hfound, hswept⟩ := purgeEntries_of_readable now 0 hdone
  have hvisit := found.swept_purgeEntry now place
  have hdrops : found.drops now place = true := (hswept.drops_eq place).trans hdrops
  -- Entries are visited in ascending order, so this one has not been visited before.
  have hnew : place ∉ done := by
    have hsorted := t.expiry.pairwise_keysBelow (purgeBound now)
    rw [hplaces, List.append_assoc] at hsorted
    intro hmem
    exact List.lt_irrefl _ ((List.pairwise_append.1 hsorted).2.2 _ hmem _ (List.mem_cons_self ..))
  have hthere : (found.expiry.get? place).isSome = true := by
    rwa [hswept.expiry, filter_eq_self fun _ _ => by simp [hnew]]
  refine ⟨found, ⟨done, more ++ ahead, n, ?_, hfound⟩, hthere, ?_, ?_⟩
  · rw [hplaces, List.append_assoc, List.cons_append]
  · rw [hvisit.expiry, Option.filter_eq_none_iff]
    simp [hdrops]
  · have hleft : (found.purgeEntry now place).2.named? place = _ :=
      hvisit.messages (place.drop stampSize)
    cases hget : found.named? place with
    | none => exact .inl rfl
    | some b =>
        refine .inr ⟨rfl, ?_⟩
        have hreached : isReached now b = true := by simpa [drops, hget] using hdrops
        rw [hleft, Option.filter_eq_none_iff]
        intro b' hb'
        obtain rfl := Option.some.inj (hget.symm.trans hb')
        simp [hreached]

/-- What a purge leaves that has not visited all entries below its bound. -/
theorem stoppedAt_of_visited
    (hplaces : t.expiry.keysBelow (purgeBound now) = visited ++ place :: rest)
    (hindex : ∀ e ∈ t.expiry.entries, stampSize ≤ e.1.length)
    (hread : ∀ place ∈ visited, ∀ why, ¬t.NamesUnreadable place why)
    (hswept : Swept now visited t t') (hwhy : t.NamesUnreadable place why) :
    StoppedAt t t' now place why := by
  have hsorted := t.expiry.pairwise_keysBelow (purgeBound now)
  rw [hplaces, List.pairwise_append, List.pairwise_cons] at hsorted
  obtain ⟨-, ⟨hrest, -⟩, hvisited⟩ := hsorted
  have hreach : ∀ p ∈ visited ++ place :: rest,
      (t.expiry.get? p).isSome = true ∧ p < purgeBound now :=
    fun p hp => Tree.mem_keysBelow_iff.1 (hplaces ▸ hp)
  obtain ⟨hthere, hbound⟩ := hreach place (by simp)
  obtain ⟨value, hget⟩ := Option.isSome_iff_exists.1 hthere
  have hlong := hindex _ (t.expiry.get?_eq_some_iff.1 hget)
  have hbefore (earlier : Bytes) : earlier ∈ visited ↔
      earlier < place ∧ (t.expiry.get? earlier).isSome = true := by
    constructor
    · intro hearlier
      exact ⟨hvisited _ hearlier _ (List.mem_cons_self ..),
        (hreach earlier (List.mem_append_left _ hearlier)).1⟩
    · rintro ⟨hlt, hsome⟩
      have hmem := Tree.mem_keysBelow_iff.2 ⟨hsome, List.lt_trans hlt hbound⟩
      rw [hplaces, List.mem_append, List.mem_cons] at hmem
      rcases hmem with hmem | rfl | hmem
      · exact hmem
      · exact absurd hlt (List.lt_irrefl _)
      · exact absurd hlt (List.lt_asymm (hrest _ hmem))
  refine ⟨hthere, (lt_purgeBound_iff hlong).1 hbound, hwhy, ?_, ?_, ?_, ?_⟩
  · exact fun earlier hlt hsome => hread earlier ((hbefore earlier).2 ⟨hlt, hsome⟩)
  · intro later hle
    have hlater : later ∉ visited := fun hmem => hle ((hbefore later).1 hmem).1
    rw [hswept.expiry, filter_eq_self fun _ _ => by simp [hlater]]
  · intro earlier hlt hleft
    rcases hswept.expiry_cases earlier with hsame | ⟨hgone, -⟩
    · have hearlier := (hbefore earlier).2 ⟨hlt, hsame ▸ hleft⟩
      exact hswept.namesLive hearlier (hread earlier hearlier) hleft
    · simp [hgone] at hleft
  · intro key hkey
    have hnone : visited.any (·.drop stampSize == key) = false := by
      rw [List.any_eq_false]
      intro earlier hearlier
      obtain ⟨hlt, hsome⟩ := (hbefore earlier).1 hearlier
      simpa using hkey earlier hlt hsome
    rw [hswept.messages, filter_eq_self fun _ _ => by simp [hnone]]

/-- A purge that has been stopped is stopped again, and changes nothing more. -/
theorem StoppedAt.purge_again (h : StoppedAt t t' now place why)
    (hswept : Swept now visited t t') (hbound : place < purgeBound now) :
    t'.purge now = (.error (unreadable why), t') := by
  have hwhy : t'.NamesUnreadable place why := hswept.namesUnreadable_iff.2 h.named
  have hmem : place ∈ t'.expiry.keysBelow (purgeBound now) :=
    Tree.mem_keysBelow_iff.2 ⟨h.later place (List.le_refl _) ▸ h.there, hbound⟩
  obtain ⟨visited', ahead, n, t'', hplaces, hread, hvisited, -, hcases⟩ := t'.purge_cases now
  have hnot : place ∉ visited' := fun hplace => hread place hplace why hwhy
  have hsorted := t'.expiry.pairwise_keysBelow (purgeBound now)
  have hreach : ∀ p ∈ visited' ++ ahead, (t'.expiry.get? p).isSome = true ∧ p < purgeBound now :=
    fun p hp => Tree.mem_keysBelow_iff.1 (hplaces ▸ hp)
  rw [hplaces] at hmem hsorted
  rcases hcases with ⟨rfl, -⟩ | ⟨place', rest, why', rfl, hwhy', hpurge⟩
  · exact absurd (by simpa using hmem) hnot
  obtain ⟨-, hrest, hbefore⟩ := List.pairwise_append.1 hsorted
  -- No entry before the one that has stopped the purge names unreadable bytes.
  have hsame : place' = place := by
    rcases List.mem_append.1 hmem with hmem | hmem
    · exact absurd hmem hnot
    rcases List.mem_cons.1 hmem with rfl | hmem
    · rfl
    have hlt : place' < place := (List.pairwise_cons.1 hrest).1 _ hmem
    have hthere := (hreach place' (by simp)).1
    rcases hswept.expiry_cases place' with hkept | ⟨hgone, -⟩
    · exact absurd (hswept.namesUnreadable_iff.1 hwhy') (h.first _ hlt (hkept ▸ hthere) why')
    · simp [hgone] at hthere
  subst hsame
  obtain rfl := namesUnreadable_unique hwhy hwhy'
  have hlive : ∀ earlier ∈ visited', t'.NamesLive now earlier := by
    intro earlier hearlier
    exact h.earlier earlier (hbefore _ hearlier _ (List.mem_cons_self ..))
      (hreach earlier (List.mem_append_left _ hearlier)).1
  rw [purgeEntries_of_live 0 hlive] at hvisited
  obtain ⟨-, rfl⟩ := Prod.mk.inj hvisited
  exact hpurge

/-- A purge of trees that hold anything drops messages that have reached their deadlines and changes
no other bytes. It drops an index entry only in the visit of this entry, in which the message that
it names was missing or goes as well. If it comes to an end, it tells how many messages it has
dropped, and the entries left in its reach name messages that have time left. Otherwise it was
stopped by the first entry that names unreadable bytes, and another purge at the same instant is
stopped there as well and changes nothing. -/
theorem purged_until_stopped (t : Trees)
    (hindex : ∀ e ∈ t.expiry.entries, stampSize ≤ e.1.length) (now : Instant) :
    let after := (t.purge now).2
    (∀ key, after.messages.get? key = t.messages.get? key ∨ after.messages.get? key = none ∧
      ∃ b m, t.messages.get? key = some b ∧ Message.decode b = .ok m ∧ m.isExpired now = true) ∧
    (∀ place, after.expiry.get? place = t.expiry.get? place ∨ after.expiry.get? place = none ∧
      ∃ found, t.ComesTo now place found ∧ DropsEntry place found (found.purgeEntry now place).2) ∧
    match (t.purge now).1 with
    | .ok n => n + after.messages.entries.length = t.messages.entries.length ∧
        ∀ place, (after.expiry.get? place).isSome = true → stampOf place ≤ stamp now →
          after.NamesLive now place
    | .error e => ∃ place why, e = unreadable why ∧ StoppedAt t after now place why ∧
        after.purge now = (.error e, after) := by
  obtain ⟨visited, ahead, n, t', hplaces, hread, hvisited, hswept, hcases⟩ := t.purge_cases now
  intro after
  have hafter : after = t' := by
    rcases hcases with ⟨-, hpurge⟩ | ⟨_, _, _, -, -, hpurge⟩ <;> simp only [after, hpurge]
  rw [hafter]
  refine ⟨hswept.messages_cases, ?_, ?_⟩
  · intro place
    rcases hswept.expiry_cases place with hsame | ⟨hgone, hthere, hdrops, hplace⟩
    · exact .inl hsame
    · exact .inr ⟨hgone, exists_comesTo hplaces hread hthere hdrops hplace⟩
  · rcases hcases with ⟨rfl, hpurge⟩ | ⟨place, rest, why, rfl, hwhy, hpurge⟩
    · rw [hpurge]
      have hlength := length_purgeEntries (congrArg Prod.fst hvisited)
      rw [hvisited, Nat.zero_add] at hlength
      refine ⟨hlength, ?_⟩
      intro place hleft hstamp
      rcases hswept.expiry_cases place with hsame | ⟨hgone, -⟩
      · obtain ⟨value, hget⟩ := Option.isSome_iff_exists.1 hleft
        have hlong := hindex _ (t.expiry.get?_eq_some_iff.1 (hsame.symm.trans hget))
        have hplace : place ∈ visited := by
          rw [List.append_nil] at hplaces
          rw [← hplaces, Tree.mem_keysBelow_iff, lt_purgeBound_iff hlong]
          exact ⟨hsame ▸ hleft, hstamp⟩
        exact hswept.namesLive hplace (hread place hplace) hleft
      · simp [hgone] at hleft
    · rw [hpurge]
      have hstopped := stoppedAt_of_visited hplaces hindex hread hswept hwhy
      have hmem : place ∈ t.expiry.keysBelow (purgeBound now) := hplaces ▸ by simp
      exact ⟨place, why, rfl, hstopped,
        hstopped.purge_again hswept (Tree.mem_keysBelow_iff.1 hmem).2⟩

/-- Trees with an entry of no message, two entries of a message `a`, an entry that stands before the
deadline of its message `c`, bytes under `b` that are no message, and an entry after that of `b`. -/
def writtenTrial : Trees :=
  let early : Instant := ⟨3, 0, by decide, by decide, Instant.epoch.nanos_lt⟩
  let late : Instant := ⟨8, 0, by decide, by decide, Instant.epoch.nanos_lt⟩
  let record (key : String) (expiresAt : Instant) : Bytes × Bytes :=
    (Text.utf8 key, Message.encode ⟨⟨key⟩, expiresAt, [], "", 0, false⟩)
  let entry (millis : Nat) (key : String) : Bytes × Bytes :=
    (Bytes.ofNatBE stampSize millis ++ Text.utf8 key, [])
  { messages := .ofEntries [record "a" early, (Text.utf8 "b", []), record "c" late,
      record "d" early]
    expiry := .ofEntries [entry 0 "x", entry 1 "a", entry 2 "a", entry 2 "c", entry 3 "b",
      entry 4 "d"] }

/-- A purge is stopped by `b`, as often as it is made. The message `a` goes with its two entries and
so does the entry of no message; `d` stays though its deadline has been reached. -/
theorem purged_until_stopped_trial :
    let now : Instant := ⟨5, 0, by decide, by decide, by decide⟩
    let after := (writtenTrial.purge now).2
    (∀ e ∈ writtenTrial.expiry.entries, stampSize ≤ e.1.length) ∧
      (writtenTrial.purge now).1 = .error (unreadable .tooShort) ∧
      after.messages.entries.map Prod.fst = [Text.utf8 "b", Text.utf8 "c", Text.utf8 "d"] ∧
      after.expiry.entries.map (fun e => (stampOf e.1, e.1.drop stampSize)) =
        [(2, Text.utf8 "c"), (3, Text.utf8 "b"), (4, Text.utf8 "d")] ∧
      after.purge now = (.error (unreadable .tooShort), after) := by
  intro now after
  have hindex : ∀ e ∈ writtenTrial.expiry.entries, stampSize ≤ e.1.length := by decide +kernel
  have herror : (writtenTrial.purge now).1 = .error (unreadable .tooShort) := by decide +kernel
  obtain ⟨-, -, hstopped⟩ := purged_until_stopped writtenTrial hindex now
  rw [herror] at hstopped
  obtain ⟨place, why, -, -, hagain⟩ := hstopped
  exact ⟨hindex, herror, by decide +kernel, by decide +kernel, hagain⟩

end ReadOnce.Trees
