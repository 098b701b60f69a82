import ReadOnce.Proofs.Store.Way

/-!
# What is kept is found again

A medium on a disk that has been opened once keeps whatever it is given from then on: opened again,
it finds just that, and leaves the disk as it is. The directories on the way have been made, a table
is in the current layout, and its address still leads to its file.
-/

namespace ReadOnce

namespace Disk

variable {d d' d'' : Disk} {p : Path}

theorem isDirectory_makeDirectoriesFrom {names : List Bytes}
    (h : d.makeDirectoriesFrom p names = .ok d') {q : Path} (hq : d.isDirectory q = true) :
    d'.isDirectory q = true := by
  obtain ⟨e, hat, he⟩ := isDirectory_eq_true_iff.1 hq
  exact isDirectory_eq_true_iff.2 ⟨e, at?_makeDirectoriesFrom h hat, he⟩

/-- Directories that have been made on a way need not be made again. -/
theorem makeDirectoriesFrom_again {names : List Bytes} (h : d.makeDirectoriesFrom p names = .ok d')
    (hdirs : ∀ q, d'.isDirectory q = true → d''.isDirectory q = true) :
    d''.makeDirectoriesFrom p names = .ok d'' := by
  induction names generalizing d p with
  | nil => rfl
  | cons name names ih =>
      simp only [makeDirectoriesFrom] at h ⊢
      split at h
      · contradiction
      · rename_i hname
        rw [if_neg hname]
        obtain ⟨d₀, hrest, hnext⟩ : ∃ d₀ : Disk,
            d₀.makeDirectoriesFrom (p.step name) names = .ok d' ∧
            d₀.isDirectory (p.step name) = true := by
          split at h
          · exact ⟨_, h, isDirectory_eq_true_iff.2 ⟨_, at?_put_self .., rfl⟩⟩
          · split at h
            · exact ⟨_, h, isDirectory_eq_true_iff.2 ⟨_, ‹_›, ‹_›⟩⟩
            · contradiction
        obtain ⟨e, hat, he⟩ := isDirectory_eq_true_iff.1
          (hdirs _ (isDirectory_makeDirectoriesFrom hrest hnext))
        simp only [hat, he]
        exact ih hrest

end Disk

/-- Opening a directory of trees again finds what was put there. -/
theorem Trees.open_put {path : String} {d d' : Disk} {t t' : Trees}
    (h : Trees.open path d = .ok (t, d')) :
    Trees.open path (d'.put (Path.ofText path) (.trees t')) =
      .ok (t', d'.put (Path.ofText path) (.trees t')) := by
  simp only [Trees.open] at h ⊢
  split at h
  · contradiction
  · split at h
    · contradiction
    · rename_i hzero hsize
      split at h
      · contradiction
      · rename_i made hmade
        rw [if_neg hzero, if_neg hsize]
        have hdirs (q : Path) (hq : made.isDirectory q = true) :
            (d'.put (Path.ofText path) (.trees t')).isDirectory q = true := by
          by_cases hpath : q = Path.ofText path
          · rw [hpath]
            exact Disk.isDirectory_eq_true_iff.2 ⟨_, Disk.at?_put_self .., rfl⟩
          · rw [Disk.isDirectory_put_of_ne hpath]
            split at h
            · cases h
              exact hq
            · cases h
              rwa [Disk.isDirectory_put_of_ne hpath]
        simp only [Disk.makeDirectories] at hmade ⊢
        rw [Disk.makeDirectoriesFrom_again hmade hdirs]
        simp only [Disk.at?_put_self]

theorem Table.keep_keep (address : String) (t t' : Table) (d : Disk) :
    keep address t (keep address t' d) = keep address t d := by
  cases haddress : Address.ofText address with
  | error e => simp only [keep, haddress]
  | ok a =>
      simp only [keep, haddress]
      split
      · rfl
      · exact Disk.put_put ..

theorem Table.LeadsTo.keep_put {address : String} {d : Disk} {a : Address}
    (h : LeadsTo address d a (Path.ofBytes a.file)) (t : Table) (e : Entry) :
    keep address t (d.put (Path.ofBytes a.file) e) =
      d.put (Path.ofBytes a.file) (.database (.ofTable a.canLog t)) := by
  simp [keep, h.address, h.onDisk, h.writable, Disk.put_put]

theorem Database.currentVersion_le_migrate (d : Database) :
    Table.currentVersion ≤ d.migrate.version := by
  unfold migrate
  split
  · assumption
  · exact Int.le_refl _

namespace Contents

variable {c : Contents}

/-- A table is in the current layout. -/
def IsCurrent : Contents → Prop
  | table t => Table.currentVersion ≤ t.version
  | _ => True

theorem IsCurrent.answer (h : c.IsCurrent) (r : Request) : (c.answer r).2.IsCurrent := by
  cases c with
  | shelf s => trivial
  | trees t => trivial
  | table t => exact le_of_le_of_eq h (t.version_answer r).symm

end Contents

namespace Medium

variable {m : Medium} {c c' : Contents} {d d' : Disk}

/-- Whether a medium is a place on a disk. -/
def IsOnDisk : Medium → Prop
  | trees (some _) => True
  | table (some address) => ∀ a, Address.ofText address = .ok a → a.inMemory = false
  | _ => False

/-- The way to the file of a table does not lead through this file. -/
def IsClear : Medium → Prop
  | table (some address) => ∀ a, Address.ofText address = .ok a →
      (Path.ofBytes a.file).IsClearOf (Path.steps a.file)
  | _ => True

theorem keep_keep (hon : c.isOn m = true) (hon' : c'.isOn m = true) (d : Disk) :
    m.keep c (m.keep c' d) = m.keep c d := by
  cases m with
  | shelf => rfl
  | trees path =>
      cases path with
      | none => rfl
      | some path =>
          cases c <;> cases c' <;> try contradiction
          exact Disk.put_put ..
  | table address =>
      cases address with
      | none => rfl
      | some address =>
          cases c <;> cases c' <;> try contradiction
          exact Table.keep_keep ..

/-- What is opened on a disk are the trees of a directory, the table of a file that an address leads
to, or a table that is only read, whose file no way to it leads through. -/
theorem place_of_open (h : m.open d = .ok (c, d')) (hdisk : m.IsOnDisk) :
    (∃ path t, m = trees (some path) ∧ c = .trees t ∧ Trees.open path d = .ok (t, d')) ∨
      (∃ address a p found, m = table (some address) ∧ c = .table found.migrate ∧
        Table.LeadsTo address d a p ∧ Table.file a address p d = .ok found ∧
        d' = d.put p (.database (.ofTable a.canLog found.migrate))) ∨
      ∃ address a p found t, m = table (some address) ∧ c = .table t ∧
        Address.ofText address = .ok a ∧ Table.IsRead address d a p found t ∧ d' = d := by
  cases m with
  | shelf => contradiction
  | trees path =>
      cases path with
      | none => contradiction
      | some path =>
          obtain ⟨⟨t, d''⟩, hopen, h⟩ := bind_eq_ok_iff.1 h
          cases h
          exact .inl ⟨path, t, rfl, rfl, hopen⟩
  | table address =>
      cases address with
      | none => contradiction
      | some address =>
          obtain ⟨⟨t, d''⟩, hopen, h⟩ := bind_eq_ok_iff.1 h
          cases h
          obtain ⟨a, ha, ⟨hmemory, -⟩ | ⟨p, found, hread, rfl⟩ |
            ⟨p, found, hleads, hfile, rfl, rfl⟩⟩ := Table.open_cases hopen
          · rw [hdisk a ha] at hmemory
            contradiction
          · exact .inr (.inr ⟨address, a, p, found, t, rfl, rfl, ha, hread, rfl⟩)
          · exact .inr (.inl ⟨address, a, p, found, rfl, rfl, hleads, hfile, rfl⟩)

section OnDisk

variable (h : m.open d = .ok (c, d')) (hdisk : m.IsOnDisk)
include h hdisk

theorem isCurrent_of_open : c.IsCurrent := by
  obtain ⟨_, _, -, rfl, -⟩ | ⟨_, _, _, found, -, rfl, -⟩ |
    ⟨_, _, _, found, t, -, rfl, -, hread, -⟩ := place_of_open h hdisk
  · trivial
  · exact found.currentVersion_le_migrate
  · rw [hread.eq]
    exact found.currentVersion_le_migrate

/-- Whatever may be kept where something was opened is found there, and nothing is changed. -/
theorem open_keep (hrooted : d.IsRooted) (hclear : m.IsClear) (hon : c'.isOn m = true)
    (hcurrent : c'.IsCurrent) (hread : c'.isReadOnly = m.isReadOnly)
    (hsame : m.isReadOnly = true → c' = c) : m.open (m.keep c' d') = .ok (c', m.keep c' d') := by
  obtain ⟨path, t, rfl, -, hopen⟩ | ⟨address, a, p, found, rfl, -, hleads, hfile, rfl⟩ |
    ⟨address, a, p, found, t, rfl, rfl, ha, hisRead, rfl⟩ := place_of_open h hdisk
  · cases c' with
    | trees t' =>
        simp only [Medium.open, keep, Trees.open_put hopen]
        rfl
    | _ => contradiction
  · obtain rfl := Table.ofBytes_of_path? hleads.path
    rw [isReadOnly_table hleads.address, hleads.writable, Bool.and_false] at hread
    cases c' with
    | table t' =>
        have hagain := hleads.open_put hfile hrooted (hclear a hleads.address) hcurrent hread
        simp only [Medium.open, keep, hleads.keep_put, hagain]
        rfl
    | _ => contradiction
  · have hmedium : (table (some address)).isReadOnly = true := by
      rw [isReadOnly_table ha, hisRead.onDisk, hisRead.readOnly]
      rfl
    rw [hsame hmedium, Contents.keep_of_isReadOnly hmedium]
    exact h

/-- What is kept where the way leads through the file itself is not found again. -/
theorem open_keep_of_not_isClear (hrooted : d.IsRooted) (hthrough : ¬ m.IsClear)
    (hon : c'.isOn m = true) :
    ∃ address, m = table (some address) ∧
      m.open (m.keep c' d') = .error (Table.noFile address) := by
  obtain ⟨path, t, rfl, -, hopen⟩ | ⟨address, a, p, found, rfl, -, hleads, hfile, rfl⟩ |
    ⟨address, a, p, found, t, rfl, rfl, ha, hisRead, rfl⟩ := place_of_open h hdisk
  · exact absurd trivial hthrough
  · obtain rfl := Table.ofBytes_of_path? hleads.path
    have hnotClear : ¬ (Path.ofBytes a.file).IsClearOf (Path.steps a.file) := by
      refine fun hclear => hthrough fun a' haddress => ?_
      obtain rfl : a = a' := Except.ok.inj (hleads.address.symm.trans haddress)
      exact hclear
    refine ⟨address, rfl, ?_⟩
    cases c' with
    | table t' =>
        have hagain := hleads.open_put_of_not_clear hfile hrooted hnotClear
          (e := .database (.ofTable a.canLog t')) rfl
        simp only [Medium.open, keep, hleads.keep_put, hagain]
        rfl
    | _ => contradiction
  · refine absurd (fun a' haddress => ?_) hthrough
    obtain rfl : a = a' := Except.ok.inj (ha.symm.trans haddress)
    rw [Table.ofBytes_of_path? hisRead.path]
    exact hisRead.isClearOf hrooted

end OnDisk

end Medium

end ReadOnce
