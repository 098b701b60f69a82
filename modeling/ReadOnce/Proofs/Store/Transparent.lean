import ReadOnce.Proofs.Store.Kept
import ReadOnce.Proofs.Store.Service

/-!
# Reopening goes unnoticed

A store that is kept on a disk may be closed and opened again between any two requests, as often as
one likes: it answers as if it had been left open, and keeps the same on its disk. What is opened
for the first time is brought to the current layout; from then on opening changes nothing.

That holds for every directory of trees, and for tables that are only read as well, since nothing is
changed there. The way to the file of a table must not lead through this very file: two dots take
back a name that leads on from the file as long as there is none, and then no more.
-/

namespace ReadOnce

namespace Service

/-- What may happen to a store without a sweeper: it is asked something, or it is closed and opened
again. -/
inductive Act where
  | ask (r : Request)
  | reopen

/-- What is asked in some acts. -/
def Act.asked : List Act → List Request :=
  List.filterMap fun
    | ask r => some r
    | reopen => none

/-- What is answered in an act, and the store in service from then on. -/
def act (s : Service) : Act → Except StoreError (List Answered × Service)
  | .ask r =>
    let (reply, s) := s.answer r
    .ok ([⟨r, reply⟩], s)
  | .reopen => do
    let (closed, s) := s.close
    closed
    .ok ([], ← s.reopen)

/-- What is answered in some acts in turn, and the store in service from then on. -/
def acts (s : Service) : List Act → Except StoreError (List Answered × Service)
  | [] => .ok ([], s)
  | a :: as => do
    let (answered, s) ← s.act a
    let (later, s) ← s.acts as
    .ok (answered ++ later, s)

/-- Contents that a store in service may come to have. -/
structure Allows (s : Service) (c : Contents) : Prop where
  onMedium : c.isOn s.medium = true
  current : c.IsCurrent
  isReadOnly : c.isReadOnly = s.medium.isReadOnly
  same : s.medium.isReadOnly = true → c = s.contents

theorem Allows.answer {s : Service} {c : Contents} (h : s.Allows c) (r : Request) :
    s.Allows (c.answer r).2 where
  onMedium := (c.isOn_answer r s.medium).trans h.onMedium
  current := h.current.answer r
  isReadOnly := (c.isReadOnly_answer r).trans h.isReadOnly
  same hread := (Contents.answer_snd_of_readOnly (h.isReadOnly.trans hread) r).trans (h.same hread)

/-- An open store without faults and sweeper, whose medium keeps what it is given. -/
structure IsSteady (s : Service) : Prop where
  faults : s.stored.faults = []
  isOpen : s.stored.store.isClosed = false
  period : s.period = 0
  sweeper : s.sweeper = .disabled
  allows : s.Allows s.contents
  kept : ∀ c : Contents, s.Allows c →
    s.medium.open (s.medium.keep c s.disk) = .ok (c, s.medium.keep c s.disk)

namespace IsSteady

variable {s : Service} (h : s.IsSteady)
include h

theorem stored_eq : s.stored = ⟨⟨s.contents, false⟩, []⟩ := by
  obtain ⟨medium, period, disk, ⟨⟨c, isClosed⟩, faults⟩, clock, time, sweeper⟩ := s
  obtain rfl : faults = [] := h.faults
  obtain rfl : isClosed = false := h.isOpen
  rfl

theorem ask_eq (r : Request) :
    s.act (.ask r) = .ok ([⟨r, (s.contents.answer r).1⟩],
      { s with stored := ⟨⟨(s.contents.answer r).2, false⟩, []⟩ }) := by
  simp only [act, Service.answer, h.stored_eq]
  rfl

theorem ask (r : Request) :
    IsSteady { s with stored := ⟨⟨(s.contents.answer r).2, false⟩, []⟩ } where
  faults := rfl
  isOpen := rfl
  period := h.period
  sweeper := h.sweeper
  allows :=
    have hnext := h.allows.answer r
    ⟨hnext.onMedium, hnext.current, hnext.isReadOnly, fun _ => rfl⟩
  kept c hc := by
    -- What is only read has not changed, so nothing else is allowed than before.
    refine h.kept c ⟨hc.onMedium, hc.current, hc.isReadOnly, fun hread => ?_⟩
    exact (hc.same hread).trans ((h.allows.answer r).same hread)

theorem reopen_eq : s.act .reopen = .ok ([], { s with disk := s.kept }) := by
  have hopen := h.kept s.contents h.allows
  obtain ⟨medium, period, disk, ⟨⟨c, isClosed⟩, faults⟩, clock, time, sweeper⟩ := s
  obtain rfl : faults = [] := h.faults
  obtain rfl : isClosed = false := h.isOpen
  obtain rfl : period = 0 := h.period
  obtain rfl : sweeper = .disabled := h.sweeper
  have hopen : medium.open (medium.keep c disk) = .ok (c, medium.keep c disk) := hopen
  show (start true medium 0 (medium.keep c disk) clock time >>= fun s => .ok ([], s)) = _
  rw [start, hopen]
  rfl

theorem reopen : IsSteady { s with disk := s.kept } where
  faults := h.faults
  isOpen := h.isOpen
  period := h.period
  sweeper := h.sweeper
  allows := ⟨h.allows.onMedium, h.allows.current, h.allows.isReadOnly, h.allows.same⟩
  kept c hc := by
    have hagain : s.medium.keep c s.kept = s.medium.keep c s.disk :=
      Medium.keep_keep hc.onMedium h.allows.onMedium s.disk
    show s.medium.open (s.medium.keep c s.kept) = .ok (c, s.medium.keep c s.kept)
    rw [hagain]
    exact h.kept c ⟨hc.onMedium, hc.current, hc.isReadOnly, hc.same⟩

/-- In whatever acts, a store answers what it is asked as its contents do, and keeps what they
become. -/
theorem acts_eq (as : List Act) :
    ∃ disk, s.acts as = .ok (s.contents.answers (Act.asked as),
        { s with disk, stored := ⟨⟨s.contents.after (Act.asked as), false⟩, []⟩ }) ∧
      IsSteady { s with disk, stored := ⟨⟨s.contents.after (Act.asked as), false⟩, []⟩ } ∧
      ∀ c : Contents, c.isOn s.medium = true → s.medium.keep c disk = s.medium.keep c s.disk := by
  induction as generalizing s with
  | nil =>
      have hsame : { s with stored := ⟨⟨s.contents, false⟩, []⟩ } = s := by
        rw [← h.stored_eq]
      refine ⟨s.disk, congrArg (fun s => Except.ok ([], s)) hsame.symm, ?_, fun _ _ => rfl⟩
      exact hsame ▸ h
  | cons a as ih =>
      cases a with
      | ask r =>
          obtain ⟨disk, hacts, hsteady, hkeep⟩ := ih (h.ask r)
          refine ⟨disk, ?_, hsteady, hkeep⟩
          rw [acts, h.ask_eq]
          show (acts _ as >>= _) = _
          rw [hacts]
          rfl
      | reopen =>
          obtain ⟨disk, hacts, hsteady, hkeep⟩ := ih h.reopen
          refine ⟨disk, ?_, hsteady, fun c hon => ?_⟩
          · rw [acts, h.reopen_eq]
            show (acts _ as >>= _) = _
            rw [hacts]
            rfl
          · rw [hkeep c hon]
            exact Medium.keep_keep hon h.allows.onMedium s.disk

end IsSteady

/-- What is opened on a disk without a sweeper is steady. -/
theorem isSteady_of_start {attended : Bool} {medium : Medium} {disk : Disk} {clock : Instant}
    {time : Nat} {s : Service} (h : start attended medium 0 disk clock time = .ok s)
    (hmedium : medium.IsOnDisk) (hdisk : disk.IsRooted) (hclear : medium.IsClear) :
    s.IsSteady ∧ s.medium = medium := by
  obtain ⟨⟨c, d⟩, hopen, h⟩ := bind_eq_ok_iff.1 h
  obtain ⟨sweeper, hsweeper, h⟩ := bind_eq_ok_iff.1 h
  cases h
  obtain rfl : Sweeper.disabled = sweeper := Except.ok.inj hsweeper
  have hallows : Allows ⟨medium, 0, d, ⟨⟨c, false⟩, []⟩, clock, time, .disabled⟩ c :=
    ⟨Contents.isOn_of_open hopen, Medium.isCurrent_of_open hopen hmedium,
      (Contents.isReadOnly_of_open hopen).1, fun _ => rfl⟩
  refine ⟨⟨rfl, rfl, rfl, rfl, hallows, fun c' hc => ?_⟩, rfl⟩
  exact Medium.open_keep hopen hmedium hdisk hclear hc.onMedium hc.current hc.isReadOnly hc.same

/-- A store whose way leads through its own file is not opened again. -/
theorem reopen_of_not_isClear {attended : Bool} {medium : Medium} {disk : Disk} {clock : Instant}
    {time : Nat} {s : Service} (h : start attended medium 0 disk clock time = .ok s)
    (hmedium : medium.IsOnDisk) (hdisk : disk.IsRooted) (hthrough : ¬ medium.IsClear) :
    ∃ address, medium = .table (some address) ∧ s.act .reopen = .error (Table.noFile address) := by
  obtain ⟨⟨c, d⟩, hopen, h⟩ := bind_eq_ok_iff.1 h
  obtain ⟨sweeper, -, h⟩ := bind_eq_ok_iff.1 h
  cases h
  obtain ⟨address, rfl, hagain⟩ := Medium.open_keep_of_not_isClear hopen hmedium hdisk hthrough
    (Contents.isOn_of_open hopen)
  refine ⟨address, rfl, ?_⟩
  show (start true (.table (some address)) 0 (Medium.keep _ c d) clock time >>=
    fun s => .ok ([], s)) = _
  rw [start, hagain]
  rfl

@[simp] theorem Act.asked_map_ask (rs : List Request) : Act.asked (rs.map .ask) = rs := by
  induction rs with
  | nil => rfl
  | cons r rs ih => exact congrArg (r :: ·) ih

/-- Once a store is open on a disk, closing it and opening it again goes unnoticed, at any places
between requests and as often as one likes. All is answered, and all is kept in the end, as if it
had been left open: what the first opening found, changed by what was asked and nothing else. Opened
once more, it would find that, and leave the disk as it is. Only a store whose way leads through its
own file, which the first opening has made, is not opened again. -/
theorem reopenings_unnoticed {attended : Bool} {medium : Medium} {disk : Disk} {clock : Instant}
    {time : Nat} {s : Service} (h : start attended medium 0 disk clock time = .ok s)
    (hmedium : medium.IsOnDisk) (hdisk : disk.IsRooted) :
    (medium.IsClear → ∀ as,
      let rs := Act.asked as
      ∃ s₁ s₂, s.acts as = .ok (s.contents.answers rs, s₁) ∧
        s.acts (rs.map .ask) = .ok (s.contents.answers rs, s₂) ∧
        s₁.stored = s₂.stored ∧ s₁.kept = s₂.kept ∧ s₁.contents = s.contents.after rs ∧
        medium.open s₁.kept = .ok (s₁.contents, s₁.kept)) ∧
      (¬ medium.IsClear →
        ∃ address, medium = .table (some address) ∧
          s.act .reopen = .error (Table.noFile address)) := by
  refine ⟨?_, reopen_of_not_isClear h hmedium hdisk⟩
  intro hclear as rs
  obtain ⟨hsteady, rfl⟩ := isSteady_of_start h hmedium hdisk hclear
  obtain ⟨d₁, hacts, hsteady₁, hkeep⟩ := hsteady.acts_eq as
  obtain ⟨d₂, hacts', hsteady₂, hkeep'⟩ := hsteady.acts_eq (rs.map .ask)
  rw [Act.asked_map_ask] at hacts' hsteady₂
  refine ⟨_, _, hacts, hacts', rfl, ?_, rfl, hsteady₁.kept _ hsteady₁.allows⟩
  exact (hkeep _ hsteady₁.allows.onMedium).trans (hkeep' _ hsteady₂.allows.onMedium).symm

/-- A file with a deadline in seconds, and a store on it that is asked something before it is opened
again, then twice more. -/
theorem reopenings_unnoticed_of_seconds :
    let old : Table.OldRow := ⟨.text "a", .integer 1700000000, .blob [7], .text "hash", .integer 2⟩
    let disk : Disk := ⟨[([Text.utf8 "store"], .database ⟨0, .old [old], false, false⟩)]⟩
    let row : Table.Row := { old.flagged with exp := .integer 1700000000000000000 }
    let table : Table := ⟨1, [row], false⟩
    let s : Service := ⟨.table (some "store"), 0,
      ⟨[([Text.utf8 "store"], .database (.ofTable true table))]⟩,
      ⟨⟨.table table, false⟩, []⟩, .epoch, 0, .disabled⟩
    let as : List Act :=
      [.ask (.increment ⟨"a"⟩), .reopen, .ask (.load ⟨"a"⟩), .reopen, .reopen, .ask (.remove ⟨"a"⟩)]
    start true (.table (some "store")) 0 disk .epoch 0 = .ok s ∧
      Medium.IsOnDisk (.table (some "store")) ∧ disk.IsRooted ∧
      Medium.IsClear (.table (some "store")) ∧
      ∃ s₁, s.acts as = .ok (s.contents.answers (Act.asked as), s₁) ∧
        s₁.contents = s.contents.after (Act.asked as) := by
  intro old disk row table s as
  have haddress {a : Address} (h : Address.ofText "store" = .ok a) :
      a = .ofPath (Text.utf8 "store") :=
    (Except.ok.inj h).symm
  have hstart : start true (.table (some "store")) 0 disk .epoch 0 = .ok s := rfl
  have hmedium : Medium.IsOnDisk (.table (some "store")) := by
    intro a ha
    rw [haddress ha]
    rfl
  have hdisk : disk.IsRooted := Disk.isRooted_empty.put (p := []) rfl (.inl rfl)
  have hclear : Medium.IsClear (.table (some "store")) := by
    intro a ha
    rw [haddress ha]
    exact Path.isClearOf_of_not_mem (by decide)
  obtain ⟨s₁, -, hacts, -, -, -, hcontents, -⟩ :=
    (reopenings_unnoticed hstart hmedium hdisk).1 hclear as
  exact ⟨hstart, hmedium, hdisk, hclear, s₁, hacts, hcontents⟩

/-- The way to a file may lead through the file itself as long as nothing stands there. A store is
opened by such a way, but not a second time. -/
theorem not_reopened_through_file :
    let m : Message := ⟨⟨"a"⟩, .epoch, [7], "hash", 0, false⟩
    ∃ s s', start true (.table (some "x/y/..")) 0 ⟨[]⟩ .epoch 0 = .ok s ∧
      s.acts [.ask (.save m), .ask (.load m.key)] =
        .ok ([⟨.save m, .ok ()⟩, ⟨.load m.key, .ok m⟩], s') ∧
      s.acts [.ask (.save m), .reopen, .ask (.load m.key)] =
        .error (Table.noFile "x/y/..") :=
  ⟨_, _, rfl, rfl, rfl⟩

end Service

end ReadOnce
