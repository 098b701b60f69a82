import ReadOnce.Proofs.Store.Opened
import ReadOnce.Proofs.Store.Record

/-!
# Stores that are opened again

A store that is closed leaves what it keeps on its medium. What is found there when it is opened
again is what was left, brought to the current layout, or nothing at all: a medium in memory starts
empty, and so does a directory or a file that is missing. What is only read is left as it was found.
Either way there is nothing under a key that was not there before, which is all that the vault needs
to know of opening and closing.
-/

namespace ReadOnce

namespace Disk

variable {d d' : Disk} {p q : Path} {e : Entry}

@[simp] theorem at?_put_self (d : Disk) (p : Path) (e : Entry) : (d.put p e).at? p = some e := by
  cases p <;> simp [at?, put]

theorem at?_put_of_ne (h : q ≠ p) : (d.put p e).at? q = d.at? q := by
  have hp : (p == q) = false := by simpa using h.symm
  have hfind : (d.put p e).entries.find? (·.1 == q) = d.entries.find? (·.1 == q) := by
    simp only [put, List.find?_cons, hp, List.find?_filter]
    congr 1
    funext entry
    by_cases hentry : entry.1 = q <;> simp [hentry, h]
  simp only [at?, hfind]

/-- What stands somewhere still stands there once the directories on a way have been made. -/
theorem at?_makeDirectoriesFrom {names : List Bytes} (h : d.makeDirectoriesFrom p names = .ok d')
    (hq : d.at? q = some e) : d'.at? q = some e := by
  induction names generalizing d p with
  | nil =>
      obtain rfl : d = d' := Except.ok.inj h
      exact hq
  | cons name names ih =>
      simp only [makeDirectoriesFrom] at h
      split at h
      · contradiction
      · split at h
        · rename_i hnone
          -- A directory is made only where nothing stands.
          refine ih h ?_
          rw [at?_put_of_ne, hq]
          rintro rfl
          simp [hnone] at hq
        · split at h
          · exact ih h hq
          · contradiction

/-- What is found by following names stands at the path that they make. -/
theorem at?_of_findFrom {names : List Bytes} (h : d.findFrom p names = .ok (some e)) :
    d.at? (p ++ names) = some e := by
  induction names generalizing p with
  | nil =>
      rw [List.append_nil]
      exact Except.ok.inj h
  | cons name names ih =>
      simp only [findFrom] at h
      split at h
      · simp at h
      · split at h
        · contradiction
        · split at h
          · contradiction
          · have hat := ih h
            rwa [List.append_assoc] at hat

end Disk

namespace Trees

/-- Opening the directory of some trees finds these trees. -/
theorem eq_of_open {path : String} {d d' : Disk} {t t' : Trees}
    (h : Trees.open path d = .ok (t', d')) (hat : d.at? (Path.ofText path) = some (.trees t)) :
    t' = t := by
  simp only [Trees.open] at h
  split at h
  · contradiction
  · split at h
    · contradiction
    · split at h
      · contradiction
      · rename_i d'' hmade
        rw [Disk.at?_makeDirectoriesFrom hmade hat] at h
        cases h
        rfl

end Trees

namespace Table

theorem foldl_step_of_step? {d : Disk} {names : List Bytes} {p q : Path}
    (h : names.foldlM (step? d) p = some q) : names.foldl Path.step p = q := by
  induction names generalizing p with
  | nil => exact Option.some.inj h
  | cons name names ih =>
      obtain ⟨next, hnext, h⟩ := Option.bind_eq_some_iff.1 h
      obtain rfl : p.step name = next := by
        simp only [step?] at hnext
        split at hnext
        · exact Option.some.inj hnext
        · split at hnext
          · contradiction
          · obtain ⟨_, -, hnext⟩ := Option.map_eq_some_iff.1 hnext
            exact hnext
      exact ih h

/-- The path of the file of a table is the one that its address writes. -/
theorem ofBytes_of_path? {d : Disk} {written : Bytes} {p : Path}
    (h : path? d written = some p) : Path.ofBytes written = p := by
  obtain ⟨q, hq, h⟩ := Option.bind_eq_some_iff.1 h
  split at h
  · contradiction
  · obtain rfl : q = p := Option.some.inj h
    exact foldl_step_of_step? hq

/-- Bringing a table to the current layout adds nothing under a key. -/
theorem rowsAt_migrate {t : Table} {key : Key} (h : t.rowsAt key = []) (isLogged : Bool) :
    (Database.ofTable isLogged t).migrate.rowsAt key = [] := by
  simp only [rowsAt, List.filter_eq_nil_iff] at h ⊢
  unfold Database.migrate
  split
  · exact h
  · intro row hrow
    obtain ⟨row', hrow', rfl⟩ := List.mem_map.1 hrow
    exact h row' hrow'

/-- A file of a table holds this table, or it is taken for a new one. -/
theorem eq_or_new_of_file {a : Address} {address : String} {p : Path} {d : Disk}
    {kept found : Database} (h : file a address p d = .ok found)
    (hat : d.at? p = some (.database kept)) : found = kept ∨ found = .new := by
  unfold file at h
  split at h
  · split at h
    · exact .inr (Except.ok.inj h).symm
    · contradiction
  · rename_i found' hfind
    obtain rfl : found' = found := Except.ok.inj h
    have hfound := Disk.at?_of_findFrom hfind
    rw [List.nil_append, hat] at hfound
    cases hfound
    exact .inl rfl
  · split at h
    · exact .inr (Except.ok.inj h).symm
    · contradiction
  · contradiction
  · contradiction

/-- A table that is opened where one was kept has nothing under a key that was not there, unless it
is only read. -/
theorem rowsAt_of_open_keep {address : String} {d d' : Disk} {t t' : Table} {key : Key}
    (h : Table.open address (keep address t d) = .ok (t', d')) (hgone : t.rowsAt key = [])
    (hwritable : ∀ a, Address.ofText address = .ok a → a.inMemory = false →
      a.isReadOnly = false) : t'.rowsAt key = [] := by
  obtain ⟨a, ha, ⟨-, rfl⟩ | ⟨_, _, hread, -⟩ | ⟨p, found, hleads, hfile, rfl, -⟩⟩ := open_cases h
  · rfl
  · have hcontra := hwritable a ha hread.onDisk
    rw [hread.readOnly] at hcontra
    contradiction
  · have hat := Disk.at?_put_self d (Path.ofBytes a.file) (.database (.ofTable a.canLog t))
    have hkeep : keep address t d =
        d.put (Path.ofBytes a.file) (.database (.ofTable a.canLog t)) := by
      simp [keep, ha, hleads.onDisk, hleads.writable]
    rw [← hkeep, ofBytes_of_path? hleads.path] at hat
    rcases eq_or_new_of_file hfile hat with rfl | rfl
    · exact rowsAt_migrate hgone _
    · rfl

end Table

/-- Whether a medium is a file that is only read. -/
def Medium.isReadOnly : Medium → Bool
  | table (some address) =>
    match Address.ofText address with
    | .ok a => !a.inMemory && a.isReadOnly
    | .error _ => false
  | _ => false

theorem Medium.isReadOnly_table {address : String} {a : Address}
    (h : Address.ofText address = .ok a) :
    (table (some address)).isReadOnly = (!a.inMemory && a.isReadOnly) := by
  simp only [isReadOnly, h]

namespace Contents

variable {c c' : Contents} {m : Medium} {key : Key}

/-- Whether contents have the form that a medium keeps. -/
def isOn : Contents → Medium → Bool
  | shelf _, .shelf => true
  | trees _, .trees _ => true
  | table _, .table _ => true
  | _, _ => false

@[simp] theorem isOn_answer (c : Contents) (r : Request) (m : Medium) :
    (c.answer r).2.isOn m = c.isOn m := by
  cases c <;> cases m <;> rfl

@[simp] theorem isOn_purgeStep (c : Contents) (now : Instant) (place : Bytes) (m : Medium) :
    (c.purgeStep now place).isOn m = c.isOn m := by
  cases c <;> cases m <;> rfl

theorem isOn_of_open {d d' : Disk} (h : m.open d = .ok (c, d')) : c.isOn m = true := by
  cases m with
  | shelf =>
      cases h
      rfl
  | trees path =>
      cases path with
      | none =>
          cases h
          rfl
      | some path =>
          obtain ⟨⟨t, d''⟩, -, h⟩ := bind_eq_ok_iff.1 h
          cases h
          rfl
  | table address =>
      cases address with
      | none =>
          cases h
          rfl
      | some address =>
          obtain ⟨⟨t, d''⟩, -, h⟩ := bind_eq_ok_iff.1 h
          cases h
          rfl

/-- Contents are only read exactly if their medium is, and then the disk stays as it is. -/
theorem isReadOnly_of_open {d d' : Disk} (h : m.open d = .ok (c, d')) :
    c.isReadOnly = m.isReadOnly ∧ (m.isReadOnly = true → d' = d) := by
  cases m with
  | shelf =>
      cases h
      exact ⟨rfl, fun _ => rfl⟩
  | trees path =>
      cases path with
      | none =>
          cases h
          exact ⟨rfl, fun _ => rfl⟩
      | some path =>
          obtain ⟨⟨t, d''⟩, -, h⟩ := bind_eq_ok_iff.1 h
          cases h
          exact ⟨rfl, nofun⟩
  | table address =>
      cases address with
      | none =>
          cases h
          exact ⟨rfl, fun _ => rfl⟩
      | some address =>
          obtain ⟨⟨t, d''⟩, hopen, h⟩ := bind_eq_ok_iff.1 h
          cases h
          obtain ⟨a, ha, ⟨hmemory, rfl⟩ | ⟨_, _, hread, rfl⟩ | ⟨_, found, hleads, -, rfl, -⟩⟩ :=
            Table.open_cases hopen
          · simp [Medium.isReadOnly_table ha, hmemory]
          · simp [Medium.isReadOnly_table ha, hread.onDisk, hread.readOnly, hread.eq]
          · simp [Medium.isReadOnly_table ha, hleads.onDisk, hleads.writable]

/-- What is only read is kept nowhere else. -/
theorem keep_of_isReadOnly (h : m.isReadOnly = true) (c : Contents) (d : Disk) :
    m.keep c d = d := by
  cases m with
  | table address =>
      cases address with
      | none => contradiction
      | some address =>
          cases c with
          | table t =>
              cases ha : Address.ofText address with
              | error e => simp only [Medium.keep, Table.keep, ha]
              | ok a =>
                  rw [Medium.isReadOnly_table ha, Bool.and_eq_true] at h
                  simp [Medium.keep, Table.keep, ha, h.2]
          | _ => rfl
  | _ => contradiction

/-- Contents are such as a medium keeps, and are what is found there if it is only read. -/
structure IsOnMedium (c : Contents) (m : Medium) (d : Disk) : Prop where
  isOn : c.isOn m = true
  isReadOnly : c.isReadOnly = m.isReadOnly
  found : m.isReadOnly = true → m.open d = .ok (c, d)

theorem isOnMedium_of_open {d d' : Disk} (h : m.open d = .ok (c, d')) : c.IsOnMedium m d' := by
  obtain ⟨hread, hdisk⟩ := isReadOnly_of_open h
  refine ⟨isOn_of_open h, hread, fun hm => ?_⟩
  obtain rfl : d' = d := hdisk hm
  exact h

namespace IsOnMedium

variable {d d' : Disk}

theorem answer (h : c.IsOnMedium m d) (r : Request) : (c.answer r).2.IsOnMedium m d where
  isOn := (isOn_answer c r m).trans h.isOn
  isReadOnly := (isReadOnly_answer c r).trans h.isReadOnly
  found hm := by
    rw [answer_snd_of_readOnly (h.isReadOnly.trans hm)]
    exact h.found hm

theorem purgeStep (h : c.IsOnMedium m d) (now : Instant) (place : Bytes) :
    (c.purgeStep now place).IsOnMedium m d where
  isOn := (isOn_purgeStep c now place m).trans h.isOn
  isReadOnly := (isReadOnly_purgeStep c now place).trans h.isReadOnly
  found hm := by
    rw [purgeStep_of_readOnly (h.isReadOnly.trans hm)]
    exact h.found hm

/-- A medium serves the same keys whenever it is opened. -/
theorem serves (h : c.IsOnMedium m d) (h' : c'.IsOnMedium m d') (hserves : c.Serves key) :
    c'.Serves key := by
  have hread := h.isReadOnly.trans h'.isReadOnly.symm
  have hon := h.isOn
  have hon' := h'.isOn
  cases c' with
  | table t' =>
      cases c with
      | table t =>
          rw [Serves, refusal?_table, Table.refusal?_remove_eq_none_iff] at hserves ⊢
          exact ⟨hserves.1, hread.symm.trans hserves.2⟩
      | _ => cases m <;> contradiction
  | _ => rfl

end IsOnMedium

/-- What is opened where contents were kept has nothing under a key that was not there. -/
theorem has_of_open_keep {d d' : Disk} (hon : c.IsOnMedium m d)
    (h : m.open (m.keep c d) = .ok (c', d')) (hgone : c.has key = false) :
    c'.has key = false := by
  cases hread : m.isReadOnly with
  | true =>
      rw [keep_of_isReadOnly hread, hon.found hread] at h
      cases h
      exact hgone
  | false =>
      have hon := hon.isOn
      cases m with
      | shelf =>
          cases h
          rfl
      | trees path =>
          cases path with
          | none =>
              cases h
              rfl
          | some path =>
              obtain ⟨⟨t', d''⟩, hopen, h⟩ := bind_eq_ok_iff.1 h
              cases h
              cases c with
              | trees t =>
                  rw [Trees.eq_of_open hopen (Disk.at?_put_self ..)]
                  exact hgone
              | _ => contradiction
      | table address =>
          cases address with
          | none =>
              cases h
              rfl
          | some address =>
              obtain ⟨⟨t', d''⟩, hopen, h⟩ := bind_eq_ok_iff.1 h
              cases h
              cases c with
              | table t =>
                  refine table_has_eq_false_iff.2 (Table.rowsAt_of_open_keep hopen
                    (table_has_eq_false_iff.1 hgone) fun a ha hdisk => ?_)
                  rw [Medium.isReadOnly_table ha] at hread
                  simpa [hdisk] using hread
              | _ => contradiction

end Contents

namespace Service

variable {s s' : Service}

theorem isOnMedium_of_start {attended : Bool} {medium : Medium} {period : Nat} {disk : Disk}
    {clock : Instant} {time : Nat}
    (h : start attended medium period disk clock time = .ok s) :
    s.stored.store.contents.IsOnMedium s.medium s.disk := by
  obtain ⟨⟨c, d⟩, hopen, h⟩ := bind_eq_ok_iff.1 h
  obtain ⟨sweeper, -, h⟩ := bind_eq_ok_iff.1 h
  cases h
  exact Contents.isOnMedium_of_open hopen

/-- A store that was opened again is on the same medium, and has nothing under a key that was not
there. -/
theorem isOnMedium_of_reopen (hon : s.stored.store.contents.IsOnMedium s.medium s.disk)
    (h : s.reopen = .ok s') :
    s'.stored.store.contents.IsOnMedium s'.medium s'.disk ∧ s'.medium = s.medium ∧
      ∀ key, s.stored.store.contents.has key = false →
        s'.stored.store.contents.has key = false := by
  refine ⟨isOnMedium_of_start h, ?_⟩
  obtain ⟨⟨c, d⟩, hopen, h⟩ := bind_eq_ok_iff.1 h
  obtain ⟨sweeper, -, h⟩ := bind_eq_ok_iff.1 h
  cases h
  exact ⟨rfl, fun key hgone => Contents.has_of_open_keep hon hopen hgone⟩

end Service

end ReadOnce
