import ReadOnce.Proofs.Bytes
import ReadOnce.Proofs.Store.Mirror
import ReadOnce.Proofs.Store.Service
import ReadOnce.Proofs.Time.Instant

/-!
# The index of deadlines

Each message in trees is kept under its key and has one entry in the index, under its deadline, and
there is nothing else in the index. `Trees.Indexed` says so of the trees alone, and
`Service.indexed_after` that it stays so whatever happens to a store in service that began empty.

A purge looks at the entries below a bound in turn. It never fails, and drops the messages that have
reached their deadline among those that it looks at. Outside leap seconds it looks at all of them;
the entry of a deadline within a leap second may stand too far back.
-/

namespace ReadOnce

namespace Trees

/-- A purge tells how many messages it has dropped. -/
theorem length_purgeEntry {t : Trees} {now : Instant} {entry : Bytes} {dropped : Bool}
    (h : (t.purgeEntry now entry).1 = .ok dropped) :
    (t.purgeEntry now entry).2.messages.entries.length + dropped.toNat =
      t.messages.entries.length := by
  obtain ⟨-, hpurge⟩ | ⟨_, _, -, -, hpurge⟩ | ⟨_, _, hget, -, -, hpurge⟩ |
    ⟨_, _, -, -, -, hpurge⟩ := t.purgeEntry_cases now entry
  · rw [hpurge] at h ⊢
    obtain rfl := Except.ok.inj h
    rfl
  · rw [hpurge] at h
    contradiction
  · rw [hpurge] at h ⊢
    obtain rfl := Except.ok.inj h
    exact t.messages.length_erase_of_get? hget
  · rw [hpurge] at h ⊢
    obtain rfl := Except.ok.inj h
    rfl

theorem length_purgeEntries {t : Trees} {now : Instant} {places : List Bytes} {count n : Nat}
    (h : (purgeEntries now places count t).1 = .ok n) :
    n + (purgeEntries now places count t).2.messages.entries.length =
      count + t.messages.entries.length := by
  induction places generalizing t count with
  | nil =>
      obtain rfl : count = n := Except.ok.inj h
      rfl
  | cons place places ih =>
      rw [purgeEntries] at h ⊢
      split at h
      · contradiction
      · rename_i dropped t' heq
        have hstep : (t.purgeEntry now place).1 = .ok dropped := by rw [heq]
        have hlength := length_purgeEntry hstep
        have hrest := ih h
        simp only [heq] at hlength ⊢
        rw [hrest, ← hlength]
        cases dropped with
        | false => rfl
        | true =>
            rw [if_pos rfl, Bool.toNat_true]
            omega

theorem stamp_lt (t : Instant) : stamp t + 1 < Nat.pow 256 stampSize := by
  have hlast := t.le_last
  have hnanos := t.nanos_lt
  have hpow : Nat.pow 256 stampSize = 18446744073709551616 := rfl
  rw [hpow, stamp, Instant.unixMillis]
  omega

/-- The entry of a message is below the bound of a purge if its stamp is not later. -/
theorem placeOf_lt_purgeBound_iff (m : Message) (now : Instant) :
    placeOf m < purgeBound now ↔ stamp m.expiresAt ≤ stamp now := by
  exact (Bytes.ofNatBE_append_lt_iff (Nat.lt_of_succ_lt (stamp_lt m.expiresAt)) (stamp_lt now)
    (Text.utf8 m.key.text)).trans Nat.lt_succ_iff

/-- Outside leap seconds, a purge looks at all messages that have reached their deadline. -/
theorem placeOf_lt_purgeBound {m : Message} {now : Instant} (hleap : m.expiresAt.isLeap = false)
    (h : m.isExpired now = true) : placeOf m < purgeBound now := by
  apply (placeOf_lt_purgeBound_iff m now).2
  exact Int.toNat_le_toNat (Instant.unixMillis_le_of_le hleap (of_decide_eq_true h))

namespace Mirrors

variable {t : Trees} {s : Shelf} {m : Message}

theorem length_eq (h : t.Mirrors s) : t.messages.entries.length = s.messages.length := by
  rw [h.messages.length_eq, List.length_map]

theorem congr {s' : Shelf} (h : t.Mirrors s) (heq : s.messages = s'.messages) : t.Mirrors s' :=
  ⟨heq ▸ h.messages, heq ▸ h.expiry, heq ▸ h.isExact⟩

theorem purgeEntry (h : t.Mirrors s) (now : Instant) (hm : m ∈ s.messages) :
    t.purgeEntry now (placeOf m) =
      if m.isExpired now then
        (.ok true, ⟨t.messages.erase (Text.utf8 m.key.text), t.expiry.erase (placeOf m)⟩)
      else (.ok false, t) := by
  have hget := h.get? m.key
  rw [s.find?_key_of_mem hm, Option.map_some] at hget
  simp only [Trees.purgeEntry, drop_placeOf, hget, Message.decode_encode (h.isExact m hm)]

/-- Entries of the index that are looked at in turn cost the messages among theirs that have reached
their deadline. -/
theorem purgeEntries (h : t.Mirrors s) (now : Instant) {places : List Bytes}
    (hplaces : ∀ place ∈ places, ∃ m ∈ s.messages, placeOf m = place) (hnodup : places.Nodup)
    (count : Nat) :
    (∃ n, (Trees.purgeEntries now places count t).1 = .ok n) ∧
      (Trees.purgeEntries now places count t).2.Mirrors
        (s.filter fun m => !(m.isExpired now && places.contains (placeOf m))) := by
  induction places generalizing t s count with
  | nil =>
      refine ⟨⟨count, rfl⟩, h.congr ?_⟩
      simp [Shelf.filter]
  | cons place places ih =>
      obtain ⟨m, hm, rfl⟩ := hplaces place (List.mem_cons_self ..)
      have hrest (p : Bytes) (hp : p ∈ places) := hplaces p (List.mem_cons_of_mem _ hp)
      obtain ⟨hnot, hnodup⟩ := List.nodup_cons.1 hnodup
      simp only [Trees.purgeEntries, h.purgeEntry now hm]
      have hplace {n : Message} (hn : n ∈ s.messages) : placeOf n = placeOf m ↔ n.key = m.key :=
        ⟨key_eq_of_placeOf_eq, fun hkey => by rw [s.eq_of_key_eq hn hm hkey]⟩
      by_cases hexpired : m.isExpired now = true
      · have hleft : ∀ p ∈ places, ∃ n ∈ (s.filter (·.key != m.key)).messages, placeOf n = p := by
          intro p hp
          obtain ⟨n, hn, rfl⟩ := hrest p hp
          have hne : n.key ≠ m.key := fun hkey => hnot ((hplace hn).2 hkey ▸ hp)
          exact ⟨n, List.mem_filter.2 ⟨hn, by simpa using hne⟩, rfl⟩
        obtain ⟨hok, hmirrors⟩ := ih (h.remove hm) hleft hnodup (count + 1)
        simp only [hexpired, if_true]
        refine ⟨hok, hmirrors.congr ?_⟩
        simp only [Shelf.filter, List.filter_filter]
        refine List.filter_congr ?_
        intro n hn
        by_cases hkey : n.key = m.key
        · obtain rfl := s.eq_of_key_eq hn hm hkey
          simp [hexpired]
        · simp [hkey, (hplace hn).not.2 hkey]
      · obtain ⟨hok, hmirrors⟩ := ih h hrest hnodup count
        simp only [hexpired]
        refine ⟨hok, hmirrors.congr ?_⟩
        refine List.filter_congr ?_
        intro n hn
        by_cases hkey : n.key = m.key
        · obtain rfl := s.eq_of_key_eq hn hm hkey
          simp [hexpired]
        · simp [(hplace hn).not.2 hkey]

theorem mem_keysBelow (h : t.Mirrors s) {bound place : Bytes} :
    place ∈ t.expiry.keysBelow bound ↔ place < bound ∧ ∃ m ∈ s.messages, placeOf m = place := by
  simp only [Tree.keysBelow, List.mem_map, List.mem_filter, h.expiry.mem_iff, decide_eq_true_eq]
  constructor
  · rintro ⟨e, ⟨⟨m, hm, rfl⟩, hlt⟩, rfl⟩
    exact ⟨hlt, m, hm, rfl⟩
  · rintro ⟨hlt, m, hm, rfl⟩
    exact ⟨_, ⟨⟨m, hm, rfl⟩, hlt⟩, rfl⟩

/-- A purge does not fail, and costs the messages that have reached their deadline and stand below
its bound. -/
theorem purge (h : t.Mirrors s) (now : Instant) :
    ∃ n, (t.purge now).1 = .ok n ∧
      (t.purge now).2.Mirrors
        (s.filter fun m => !(m.isExpired now && decide (placeOf m < purgeBound now))) := by
  have hnodup : (t.expiry.keysBelow (purgeBound now)).Nodup :=
    t.expiry.nodup_keys.sublist (List.filter_sublist.map _)
  obtain ⟨⟨n, hok⟩, hmirrors⟩ :=
    h.purgeEntries now (fun place hplace => (h.mem_keysBelow.1 hplace).2) hnodup 0
  refine ⟨n, hok, hmirrors.congr ?_⟩
  refine List.filter_congr ?_
  intro m hm
  have hmem : placeOf m ∈ t.expiry.keysBelow (purgeBound now) ↔ placeOf m < purgeBound now := by
    rw [h.mem_keysBelow]
    exact and_iff_left ⟨m, hm, rfl⟩
  simp [hmem]

/-- Outside leap seconds, a purge costs the messages that have reached their deadline, and tells how
many they were. -/
theorem purge_exact (h : t.Mirrors s) (now : Instant)
    (hleap : ∀ m ∈ s.messages, m.expiresAt.isLeap = false) :
    (t.purge now).1 = .ok (s.messages.countP (·.isExpired now)) ∧
      (t.purge now).2.Mirrors (s.filter fun m => !m.isExpired now) := by
  obtain ⟨n, hok, hmirrors⟩ := h.purge now
  have hleft : (t.purge now).2.Mirrors (s.filter fun m => !m.isExpired now) := by
    refine hmirrors.congr (List.filter_congr ?_)
    intro m hm
    cases hexpired : m.isExpired now with
    | false => rfl
    | true => simp [placeOf_lt_purgeBound (hleap m hm) hexpired]
  refine ⟨?_, hleft⟩
  have hlength : n + (t.purge now).2.messages.entries.length = 0 + t.messages.entries.length :=
    length_purgeEntries hok
  have hdropped : s.messages.length = s.messages.countP (·.isExpired now) +
      (s.messages.filter fun m => !m.isExpired now).length := by
    rw [← List.countP_eq_length_filter, List.length_eq_countP_add_countP (·.isExpired now)]
    simp
  have hkept : (t.purge now).2.messages.entries.length =
      (s.messages.filter fun m => !m.isExpired now).length := hleft.length_eq
  rw [hkept, h.length_eq, hdropped] at hlength
  rw [hok]
  exact congrArg Except.ok (by omega)

end Mirrors

/-- The bytes of each message are kept under its key, and the index has one entry for each message,
under its deadline and its key, and no other. -/
structure Indexed (t : Trees) : Prop where
  records : ∀ e ∈ t.messages.entries, ∃ m, Message.decode e.2 = .ok m ∧ e.1 = Text.utf8 m.key.text
  index : t.expiry.entries.Perm (t.messages.entries.filterMap fun e =>
    (Message.decode e.2).toOption.map fun m => (indexKey m.expiresAt e.1, []))

theorem Mirrors.indexed {t : Trees} {s : Shelf} (h : t.Mirrors s) : t.Indexed where
  records e he := by
    obtain ⟨m, hm, rfl⟩ := List.mem_map.1 (h.messages.mem_iff.1 he)
    exact ⟨m, Message.decode_encode (h.isExact m hm), rfl⟩
  index := by
    refine h.expiry.trans ?_
    refine .trans ?_ (h.messages.filterMap _).symm
    rw [List.filterMap_map]
    refine .of_eq ?_
    rw [← List.filterMap_eq_map]
    refine List.filterMap_congr ?_
    intro m hm
    simp [Message.decode_encode (h.isExact m hm), Except.toOption, placeOf]

/-- Whatever they are asked, trees that mirror a shelf mirror some shelf afterwards. -/
theorem Mirrors.exists_answer {t : Trees} {s : Shelf} (h : t.Mirrors s) {r : Request}
    (hfits : ∀ m, r = .save m → m.Fits) : ∃ s', (t.answer r).2.Mirrors s' := by
  by_cases hkey : r.key? = none
  · cases r with
    | purge now =>
        obtain ⟨n, -, hmirrors⟩ := h.purge now
        exact ⟨_, hmirrors⟩
    | _ => contradiction
  · by_cases hsave : ∃ m, r = .save m
    · obtain ⟨m, rfl⟩ := hsave
      have hexact : ∀ n, Request.save m.onCalendar = .save n → n.IsExact := by
        rintro _ ⟨⟩
        exact (hfits m rfl).isExact_onCalendar
      have hmirrors := (h.answer (r := .save m.onCalendar) (Option.some_ne_none _) hexact).2
      simp only [Trees.answer, save_onCalendar] at hmirrors
      exact ⟨_, hmirrors⟩
    · exact ⟨_, (h.answer hkey fun m hm => absurd ⟨m, hm⟩ hsave).2⟩

end Trees

/-- Messages in trees are indexed by their deadlines, one entry for each and none besides, whatever
has happened to the store in service since it was empty: messages of any keys and deadlines saved,
loaded, counted on, dropped and purged, sweeps at whatever the clock showed, and its closing. -/
theorem Service.indexed_after {s : Service} (hempty : s.contents = .trees .empty)
    {steps : List Step} (hfits : ∀ m, .ask (.save m) ∈ steps → m.Fits) :
    ∃ t, (s.after steps).contents = .trees t ∧ t.Indexed := by
  have hmirrors : ∃ t s', (s.after steps).contents = .trees t ∧ t.Mirrors s' := by
    refine contents_induction (P := fun c => ∃ t s', c = .trees t ∧ t.Mirrors s')
      (R := fun r => ∀ m, r = .save m → m.Fits) ?_ ?_ ?_ ?_
    · rintro c r ⟨t, s', rfl, h⟩ hr
      obtain ⟨s'', h⟩ := h.exists_answer hr
      exact ⟨_, s'', rfl, h⟩
    · intro now m hm
      contradiction
    · exact ⟨.empty, .empty, hempty, Trees.mirrors_empty⟩
    · rintro r hr m rfl
      exact hfits m hr
  obtain ⟨t, s', ht, h⟩ := hmirrors
  exact ⟨t, ht, h.indexed⟩

/-- A message without a key, whose deadline lies within a leap second, is saved and counted on, and
sweeps run while the clock stands still. -/
theorem Service.indexed_after_sweeps :
    let m : Message := ⟨⟨""⟩, ⟨59, 1500000000, by decide, by decide, by decide⟩, [], "", 0, false⟩
    let s : Service := ⟨.trees none, 1000, ⟨[]⟩, ⟨⟨.trees .empty, false⟩, []⟩, .epoch, 0,
      ⟨some ⟨1000, 1000⟩, true⟩⟩
    Service.start true (.trees none) 1000 ⟨[]⟩ .epoch 0 = .ok s ∧ m.Fits ∧
      ∃ t, (s.after [.ask (.save m), .ask (.increment ⟨""⟩), .pass .sleep 2000]).contents =
        .trees t ∧ t.Indexed := by
  intro m s
  have hfits : m.Fits := ⟨by decide, by decide, by decide⟩
  refine ⟨rfl, hfits, Service.indexed_after rfl ?_⟩
  intro n hn
  obtain rfl : n = m := by simpa using hn
  exact hfits

end ReadOnce
