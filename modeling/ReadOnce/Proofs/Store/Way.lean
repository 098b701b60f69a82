import Mathlib.Data.List.Induction
import ReadOnce.Proofs.Store.Reopened

/-!
# Ways on a disk

Where a way leads depends on where directories stand on it. So a file that is put at the end of a
way is found there by whoever follows the way again, unless the way leads through the file itself:
two dots may take back a name that leads nowhere, but not one that leads on from a file.

A disk is rooted if whatever stands on it stands in a directory.
-/

namespace ReadOnce

namespace Disk

variable {d d' : Disk} {p q : Path} {e : Entry} {found : Option Entry}

/-- Whatever stands on a disk stands in a directory. -/
def IsRooted (d : Disk) : Prop :=
  ∀ p name, (d.at? (p ++ [name])).isSome = true → d.isDirectory p = true

theorem isDirectory_eq_true_iff :
    d.isDirectory p = true ↔ ∃ e, d.at? p = some e ∧ e.isDirectory = true :=
  Option.any_eq_true _ _

theorem isSome_of_isDirectory (h : d.isDirectory p = true) : (d.at? p).isSome = true := by
  obtain ⟨e, hat, -⟩ := isDirectory_eq_true_iff.1 h
  rw [hat]
  rfl

/-- What leads to something that stands on a rooted disk are directories. -/
theorem IsRooted.isDirectory (h : d.IsRooted) {names rest : List Bytes} {name : Bytes}
    (hstands : (d.at? (p ++ names ++ name :: rest)).isSome = true) :
    d.isDirectory (p ++ names) = true := by
  induction rest using List.reverseRecOn with
  | nil => exact h _ _ hstands
  | append_singleton rest last ih =>
      rw [← List.cons_append, ← List.append_assoc] at hstands
      exact ih (isSome_of_isDirectory (h _ _ hstands))

theorem IsRooted.isDirectory_of_dropLast (h : d.IsRooted) {names rest : List Bytes} {name : Bytes}
    (hdir : d.isDirectory (names ++ name :: rest).dropLast = true) :
    d.isDirectory names = true := by
  rw [List.dropLast_append_cons] at hdir
  cases rest with
  | nil => simpa using hdir
  | cons next rest =>
      exact h.isDirectory (p := []) (isSome_of_isDirectory hdir)

@[simp] theorem put_put (d : Disk) (p : Path) (e e' : Entry) :
    (d.put p e).put p e' = d.put p e' := by
  simp [put, List.filter_filter]

theorem isDirectory_put_of_ne (h : q ≠ p) : (d.put p e).isDirectory q = d.isDirectory q := by
  simp only [isDirectory, at?_put_of_ne h]

theorem isSome_at?_put (h : (d.at? q).isSome = true) : ((d.put p e).at? q).isSome = true := by
  by_cases hq : q = p
  · rw [hq, at?_put_self]
    rfl
  · rwa [at?_put_of_ne hq]

theorem findFrom_cons_of_isDirectory (h : d.isDirectory p = true) (name : Bytes)
    (names : List Bytes) :
    d.findFrom p (name :: names) =
      if Path.maxName < name.length then .error .longName else d.findFrom (p ++ [name]) names := by
  obtain ⟨e, hat, he⟩ := isDirectory_eq_true_iff.1 h
  simp [findFrom, hat, he]

theorem isRooted_empty : IsRooted ⟨[]⟩ := by
  intro p name h
  cases p <;> simp [at?] at h

/-- What is put in a directory leaves a disk rooted, unless it takes the place of a directory. -/
theorem IsRooted.put (h : d.IsRooted) {name : Bytes} (hdir : d.isDirectory p = true)
    (hplace : d.isDirectory (p ++ [name]) = false ∨ e.isDirectory = true) :
    (d.put (p ++ [name]) e).IsRooted := by
  intro q last hstands
  by_cases hlast : q ++ [last] = p ++ [name]
  · obtain ⟨rfl, -⟩ := List.append_inj' hlast rfl
    rwa [isDirectory_put_of_ne (by simp)]
  · rw [at?_put_of_ne hlast] at hstands
    have hq := h q last hstands
    by_cases hplaced : q = p ++ [name]
    · subst hplaced
      rcases hplace with hplace | he
      · rw [hplace] at hq
        contradiction
      · exact isDirectory_eq_true_iff.2 ⟨_, at?_put_self .., he⟩
    · rwa [isDirectory_put_of_ne hplaced]

/-- On a way along directories, what stands at its end is found. -/
theorem findFrom_of_isDirectory {names : List Bytes} (h : d.findFrom p names = .ok found)
    (hdirs : ∀ before name after, names = before ++ name :: after →
      d.isDirectory (p ++ before) = true ∧ d'.isDirectory (p ++ before) = true) :
    d'.findFrom p names = .ok (d'.at? (p ++ names)) := by
  induction names generalizing p with
  | nil => rw [findFrom, List.append_nil]
  | cons name names ih =>
      obtain ⟨hd, hd'⟩ := hdirs [] name names rfl
      rw [List.append_nil] at hd hd'
      rw [findFrom_cons_of_isDirectory hd] at h
      rw [findFrom_cons_of_isDirectory hd']
      split at h
      · contradiction
      · rename_i hname
        rw [if_neg hname, ih h, List.append_assoc]
        · rfl
        · rintro before last after rfl
          simpa using hdirs (name :: before) last after rfl

/-- A way does not lead on from a file. -/
theorem findFrom_of_file {before after : List Bytes} {name : Bytes}
    (hdirs : ∀ front next rest, before = front ++ next :: rest → d.isDirectory (p ++ front) = true)
    (hat : d.at? (p ++ before) = some e) (he : e.isDirectory = false) :
    ∃ o, d.findFrom p (before ++ name :: after) = .error o := by
  induction before generalizing p with
  | nil =>
      rw [List.append_nil] at hat
      exact ⟨.file, by simp [findFrom, hat, he]⟩
  | cons first before ih =>
      have hdir := hdirs [] first before rfl
      rw [List.append_nil] at hdir
      rw [List.cons_append, findFrom_cons_of_isDirectory hdir]
      split
      · exact ⟨.longName, rfl⟩
      · apply ih
        · rintro front next rest rfl
          simpa using hdirs (first :: front) next rest rfl
        · simpa using hat

/-- Whether a way can be followed depends on what stands on it, and not at its end. -/
theorem toOption_findFrom_congr {α : Type} (a : α) {names : List Bytes}
    (h : ∀ before name after, names = before ++ name :: after →
      d'.at? (p ++ before) = d.at? (p ++ before)) :
    (d'.findFrom p names).toOption.map (fun _ => a) =
      (d.findFrom p names).toOption.map fun _ => a := by
  induction names generalizing p with
  | nil => rfl
  | cons name names ih =>
      have hfirst := h [] name names rfl
      rw [List.append_nil] at hfirst
      have hrest : (d'.findFrom (p ++ [name]) names).toOption.map (fun _ => a) =
          (d.findFrom (p ++ [name]) names).toOption.map fun _ => a := by
        apply ih
        rintro before last after rfl
        simpa using h (name :: before) last after rfl
      simp only [findFrom, hfirst]
      split
      · rfl
      · split
        · rfl
        · split
          · rfl
          · exact hrest

end Disk

namespace Path

/-- No name on a way leads on from a path or from below it. -/
def IsClearOf (p : Path) (names : List Bytes) : Prop :=
  ∀ before name after, names = before ++ name :: after → name ≠ dots →
    ¬ p <+: before.foldl step []

theorem foldl_step_of_not_mem {p : Path} {names : List Bytes} (h : dots ∉ names) :
    names.foldl step p = p ++ names := by
  induction names generalizing p with
  | nil => rw [List.foldl_nil, List.append_nil]
  | cons name names ih =>
      rw [List.mem_cons, not_or] at h
      rw [List.foldl_cons, ih h.2, step, if_neg (Ne.symm h.1), List.append_assoc]
      rfl

/-- A way that does not go back is clear of its end. -/
theorem isClearOf_of_not_mem {names : List Bytes} (h : dots ∉ names) :
    IsClearOf (names.foldl step []) names := by
  rintro before name after rfl - hprefix
  have hbefore : dots ∉ before := fun hmem => h (List.mem_append_left _ hmem)
  rw [foldl_step_of_not_mem h, foldl_step_of_not_mem hbefore] at hprefix
  have hlength := hprefix.length_le
  simp at hlength

end Path

namespace Table

variable {d d' : Disk} {names : List Bytes} {p q : Path}

theorem foldlM_step?_congr (h : ∀ before name after, names = before ++ name :: after →
    step? d' (before.foldl Path.step p) name = step? d (before.foldl Path.step p) name) :
    names.foldlM (step? d') p = names.foldlM (step? d) p := by
  induction names generalizing p with
  | nil => rfl
  | cons name names ih =>
      rw [List.foldlM_cons, List.foldlM_cons, show step? d' p name = step? d p name from
        h [] name names rfl]
      cases hstep : step? d p name with
      | none => rfl
      | some next =>
          obtain rfl : p.step name = next := by
            show [name].foldl Path.step p = next
            apply foldl_step_of_step? (d := d)
            rw [List.foldlM_cons, hstep]
            rfl
          apply ih
          rintro before last after rfl
          exact h (name :: before) last after rfl

theorem step?_of_foldlM {before after : List Bytes} {name : Bytes}
    (h : (before ++ name :: after).foldlM (step? d) p = some q) :
    ∃ next, step? d (before.foldl Path.step p) name = some next := by
  rw [List.foldlM_append] at h
  obtain ⟨place, hplace, h⟩ := Option.bind_eq_some_iff.1 h
  rw [List.foldlM_cons] at h
  obtain ⟨next, hnext, -⟩ := Option.bind_eq_some_iff.1 h
  exact ⟨next, foldl_step_of_step? hplace ▸ hnext⟩

/-- The way to a file is not changed by what is put there, unless it leads through the file. -/
theorem path?_put {file : Bytes} (hpath : path? d file = some p)
    (hclear : p.IsClearOf (Path.steps file)) (e : Entry) : path? (d.put p e) file = some p := by
  rw [← hpath, path?, path?]
  congr 1
  apply foldlM_step?_congr
  intro before name after hnames
  unfold step?
  by_cases hname : name = Path.dots
  · rw [if_pos hname, if_pos hname]
  rw [if_neg hname, if_neg hname]
  congr 1
  apply Disk.toOption_findFrom_congr
  intro between last rest hbetween
  have hp : between ≠ p := by
    rintro rfl
    have hplace := congrArg List.dropLast hbetween
    rw [Path.step, if_neg hname, List.dropLast_concat, List.dropLast_append_cons] at hplace
    exact hclear before name after hnames hname ⟨_, hplace.symm⟩
  rw [List.nil_append, Disk.at?_put_of_ne hp]

variable {address : String} {a : Address} {found : Database} {t : Table}

/-- A file of a table is missing from a directory, or it is no directory itself. -/
theorem find_of_file (h : file a address p d = .ok found) :
    d.find p = .ok none ∧ d.isDirectory p.dropLast = true ∨
      ∃ e, d.find p = .ok (some e) ∧ e.isDirectory = false := by
  unfold file at h
  split at h
  · split at h
    · rename_i hfind hdir
      exact .inl ⟨hfind, hdir.2⟩
    · contradiction
  · exact .inr ⟨_, ‹_›, rfl⟩
  · exact .inr ⟨_, ‹_›, rfl⟩
  · contradiction
  · contradiction

section Found

variable (hfile : file a address p d = .ok found) (hd : d.IsRooted)
include hfile hd

theorem isDirectory_of_file {before after : Path} {name : Bytes}
    (hp : p = before ++ name :: after) :
    d.isDirectory before = true := by
  rcases find_of_file hfile with ⟨-, hparent⟩ | ⟨e, hfind, -⟩
  · exact hd.isDirectory_of_dropLast (hp ▸ hparent)
  · have hat := Disk.at?_of_findFrom hfind
    rw [List.nil_append, hp] at hat
    exact hd.isDirectory (p := []) (by rw [List.nil_append, hat]; rfl)

/-- Where directories lead to the file, what stands at its path is found. -/
theorem find_of_isDirectory {d' : Disk} (hdirs : ∀ before name after, p = before ++ name :: after →
    d'.isDirectory before = true) : d'.find p = .ok (d'.at? p) := by
  obtain ⟨o, hfind⟩ : ∃ o, d.find p = .ok o := by
    rcases find_of_file hfile with ⟨hfind, -⟩ | ⟨e, hfind, -⟩
    · exact ⟨_, hfind⟩
    · exact ⟨_, hfind⟩
  exact Disk.findFrom_of_isDirectory hfind fun before name after hp =>
    ⟨isDirectory_of_file hfile hd hp, hdirs before name after hp⟩

@[simp] theorem find_put (e : Entry) : (d.put p e).find p = .ok (some e) := by
  rw [find_of_isDirectory hfile hd, Disk.at?_put_self]
  intro before name after hp
  rw [Disk.isDirectory_put_of_ne (by simp [hp])]
  exact isDirectory_of_file hfile hd hp

end Found

theorem hasPermissions_put {e : Entry} {path : String} (h : hasPermissions d path = true) :
    hasPermissions (d.put p e) path = true := by
  simp only [hasPermissions, Bool.and_eq_true] at h ⊢
  exact ⟨h.1, Disk.isSome_at?_put h.2⟩

/-- The address of a file that was opened leads to it again, and finds the table that is kept
there. -/
theorem LeadsTo.open_put (h : LeadsTo address d a p) (hfile : file a address p d = .ok found)
    (hd : d.IsRooted) (hclear : p.IsClearOf (Path.steps a.file))
    (ht : currentVersion ≤ t.version) (hwritable : t.isReadOnly = false) :
    Table.open address (d.put p (.database (.ofTable a.canLog t))) =
      .ok (t, d.put p (.database (.ofTable a.canLog t))) := by
  have hfind := find_put hfile hd (.database (.ofTable a.canLog t))
  have hagain : LeadsTo address (d.put p (.database (.ofTable a.canLog t))) a p :=
    { h with
      path := path?_put h.path hclear _
      permissions := by
        have hpermissions := h.permissions
        cases hof : a.permissionsOf with
        | none => rfl
        | some path =>
            rw [hof] at hpermissions
            exact hasPermissions_put hpermissions
      log := by
        intro kept hkept hlogged
        cases hfind.symm.trans hkept
        exact hlogged }
  have hkept : file a address p (d.put p (.database (.ofTable a.canLog t))) =
      .ok (.ofTable a.canLog t) := by
    simp only [file, hfind]
  have hopen := hagain.open_eq hkept (Database.overflows_of_le ht)
  rwa [Database.migrate_ofTable ht hwritable, Disk.put_put] at hopen

/-- Where a file stands, no way leads that leads through it. -/
theorem path?_of_not_clear {file : Bytes} {e : Entry} (hat : d.at? p = some e)
    (he : e.isDirectory = false) (hdirs : ∀ before name after, p = before ++ name :: after →
      d.isDirectory before = true) (hthrough : ¬ p.IsClearOf (Path.steps file)) :
    path? d file = none := by
  by_contra hsome
  obtain ⟨q, hq⟩ := Option.ne_none_iff_exists'.1 hsome
  obtain ⟨r, hr, -⟩ := Option.bind_eq_some_iff.1 hq
  refine hthrough ?_
  rintro before name after hnames hname ⟨rest, hplace⟩
  rw [hnames] at hr
  obtain ⟨next, hnext⟩ := step?_of_foldlM hr
  obtain ⟨o, ho⟩ : ∃ o, d.find ((p ++ rest).step name) = .error o := by
    obtain ⟨next, after, hafter⟩ := List.exists_cons_of_ne_nil (List.concat_ne_nil name rest)
    rw [Path.step, if_neg hname, List.append_assoc, hafter]
    refine Disk.findFrom_of_file ?_ hat he
    intro front next rest hp
    rw [List.nil_append]
    exact hdirs front next rest hp
  rw [← hplace, step?, if_neg hname, ho] at hnext
  split at hnext <;> contradiction

/-- An address whose way leads through its own file does not lead there any more once the file has
been made. -/
theorem LeadsTo.open_put_of_not_clear (h : LeadsTo address d a p)
    (hfile : file a address p d = .ok found) (hd : d.IsRooted)
    (hthrough : ¬ p.IsClearOf (Path.steps a.file)) {e : Entry} (he : e.isDirectory = false) :
    Table.open address (d.put p e) = .error (noFile address) := by
  have hpath : path? (d.put p e) a.file = none := by
    refine path?_of_not_clear (Disk.at?_put_self ..) he ?_ hthrough
    intro before name after hp
    rw [Disk.isDirectory_put_of_ne (by simp [hp])]
    exact isDirectory_of_file hfile hd hp
  simp [Table.open, h.address, h.onDisk, hpath, bind, Except.bind]

/-- What is only read stands there already, so no way leads through it. -/
theorem IsRead.isClearOf (h : IsRead address d a p found t) (hd : d.IsRooted) :
    p.IsClearOf (Path.steps a.file) := by
  have hfind : d.find p = .ok (some (.database found)) := by
    refine find_of_ne_new h.file fun hnew => ?_
    have hcurrent := h.current
    rw [hnew] at hcurrent
    contradiction
  have hat := Disk.at?_of_findFrom hfind
  by_contra hthrough
  have hpath := path?_of_not_clear hat rfl (fun _ _ _ hp => isDirectory_of_file h.file hd hp)
    hthrough
  rw [h.path] at hpath
  contradiction

end Table

end ReadOnce
