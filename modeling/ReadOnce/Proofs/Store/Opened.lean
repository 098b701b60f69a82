import ReadOnce.Proofs.Fallible
import ReadOnce.Store.Service

/-!
# What opening a table takes

An address leads to a path if it names a file that can be written, and if nothing is in the way to
it. Then the table of the file is opened in the current layout, unless a row would be too big in it,
and the file holds it from then on. A table that is only read is opened if its file is in the
current layout already, and the disk stays as it is. Any other is not opened, unless it is kept in
memory.
-/

namespace ReadOnce

/-- A file that may be written is not promised not to change, so its log is looked at. -/
theorem Address.isImmutable_of_writable {a : Address} (hdisk : a.inMemory = false)
    (hwritable : a.isReadOnly = false) : a.isImmutable = false := by
  cases himmutable : a.isImmutable with
  | false => rfl
  | true => simp_all [Address.isReadOnly, Address.inMemory]

namespace Table

/-- An address leads to the path of a file that can be written. -/
structure LeadsTo (address : String) (d : Disk) (a : Address) (p : Path) : Prop where
  address : Address.ofText address = .ok a
  onDisk : a.inMemory = false
  path : path? d a.file = some p
  permissions : a.permissionsOf.all (hasPermissions d) = true
  writable : a.isReadOnly = false
  name : (p.getLast?.any fun name => maxName < name.length) = false
  /-- A log that is there can be used. -/
  log : ∀ found, d.find p = .ok (some (.database found)) → found.isLogged = true →
    a.canLog = true

/-- A table of a file that is only read. -/
structure IsRead (address : String) (d : Disk) (a : Address) (p : Path) (found : Database)
    (t : Table) : Prop where
  onDisk : a.inMemory = false
  path : path? d a.file = some p
  file : file a address p d = .ok found
  readOnly : a.isReadOnly = true
  current : found.isCurrent = true
  eq : t = { found.migrate with isReadOnly := true }

variable {address : String} {d d' : Disk} {a : Address} {p : Path} {t : Table} {found : Database}

/-- What is found in a file stands there, unless the file is new. -/
theorem find_of_ne_new (h : file a address p d = .ok found) (hnew : found ≠ .new) :
    d.find p = .ok (some (.database found)) := by
  unfold file at h
  split at h
  · split at h
    · exact absurd (Except.ok.inj h).symm hnew
    · contradiction
  · rename_i hfind
    cases h
    exact hfind
  · split at h
    · exact absurd (Except.ok.inj h).symm hnew
    · contradiction
  · contradiction
  · contradiction

/-- A file that holds a table is opened as it stands. -/
theorem eq_of_find {found' : Database} (h : file a address p d = .ok found)
    (hfind : d.find p = .ok (some (.database found'))) : found' = found := by
  rw [file, hfind] at h
  exact Except.ok.inj h

section LeadsTo

variable (h : LeadsTo address d a p) (hfile : file a address p d = .ok found)
include h hfile

theorem LeadsTo.canLog (hlogged : found.isLogged = true) : a.canLog = true :=
  h.log found (find_of_ne_new hfile fun hnew => by simp [hnew, Database.new] at hlogged) hlogged

/-- The table of a file is opened, and the file holds it from then on. -/
theorem LeadsTo.open_eq (hfits : found.overflows = false) :
    Table.open address d =
      .ok (found.migrate, d.put p (.database (.ofTable a.canLog found.migrate))) := by
  have hlog := h.canLog hfile
  simp +contextual [Table.open, h.address, h.onDisk, h.path, h.permissions, hfile,
    h.writable, h.name, hfits, hlog, bind, Except.bind]

/-- A table is not opened if a row would become too big. -/
theorem LeadsTo.open_of_overflows (hfits : found.overflows = true) :
    Table.open address d = .error (failure tooBig) := by
  have hlog := h.canLog hfile
  simp +contextual [Table.open, h.address, h.onDisk, h.path, h.permissions, hfile,
    h.writable, h.name, hfits, hlog, bind, Except.bind]

end LeadsTo

/-- A table that is opened is a new one in memory, or one that is only read, or its address leads to
its file. -/
theorem open_cases (h : Table.open address d = .ok (t, d')) :
    ∃ a, Address.ofText address = .ok a ∧
      (a.inMemory = true ∧ t = Database.new.migrate ∨
        (∃ p found, IsRead address d a p found t ∧ d' = d) ∨
        ∃ p found, LeadsTo address d a p ∧ file a address p d = .ok found ∧
          t = found.migrate ∧ d' = d.put p (.database (.ofTable a.canLog t))) := by
  obtain ⟨a, ha, h⟩ := bind_eq_ok_iff.1 h
  rw [mapError_eq_ok_iff] at ha
  refine ⟨a, ha, ?_⟩
  split at h
  · rename_i hmemory
    split at h
    · contradiction
    · cases h
      exact .inl ⟨hmemory, rfl⟩
  rename_i hdisk
  have hdisk : a.inMemory = false := by simpa using hdisk
  split at h
  · contradiction
  rename_i p hpath
  split at h
  · contradiction
  rename_i hpermissions
  obtain ⟨found, hfile, h⟩ := bind_eq_ok_iff.1 h
  dsimp only at h
  split at h
  · contradiction
  rename_i hlog
  split at h
  · rename_i hread
    split at h
    · rename_i hcurrent
      cases h
      exact .inr (.inl ⟨p, found, ⟨hdisk, hpath, hfile, hread, hcurrent.1, rfl⟩, rfl⟩)
    · contradiction
  rename_i hwritable
  split at h
  · contradiction
  rename_i hname
  split at h
  · contradiction
  cases h
  have hchanges := Address.isImmutable_of_writable hdisk (by simpa using hwritable)
  refine .inr (.inr ⟨p, found, ?_, hfile, rfl, rfl⟩)
  refine ⟨ha, hdisk, hpath, by simpa using hpermissions, by simpa using hwritable,
    by simpa using hname, ?_⟩
  intro found' hfind hlogged
  obtain rfl := eq_of_find hfile hfind
  cases hcan : a.canLog with
  | true => rfl
  | false => exact absurd ⟨hlogged, by simp [hchanges], .inl (by simp [hcan])⟩ hlog

end Table

end ReadOnce
