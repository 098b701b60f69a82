import ReadOnce.Proofs.Vault.AtMostOnce

/-!
# Calls under way

Calls that do what their programs say: that is all there is to know of a scene without looking at
what is kept. Whatever happens is then a request that saves nothing under the key, a step of a
purge, or nothing that the messages or the log would show; and a call is given the content only in a
step in which it asks to drop the message and is not told that there is none.

As long as the store is open, a statement about what is kept and what was asked survives all events
if it survives each request and each step of a purge, which is `Running.contents_induction`. What is
gone stays gone: from then on no call is given the content that did not have it before, and every
call that begins finds nothing.
-/

namespace ReadOnce

variable {ι : Type}

/-- An event that saves nothing under a key. -/
def Event.Spares (key : Key) : Event ι → Prop
  | request (.save m) => m.key ≠ key
  | _ => True

theorem Event.SavesNot.spares {key : Key} {e : Event ι} (h : e.SavesNot key) : e.Spares key := by
  cases e with
  | request r =>
      cases r with
      | save m => exact h
      | _ => trivial
  | _ => trivial

namespace Scene

variable {v : Vault} {key : Key} {ask : ι → Call} {s : Scene ι} {i : ι}

/-- What is left of each call is what its program leaves in some phase. -/
def OnCourse (v : Vault) (key : Key) (ask : ι → Call) (s : Scene ι) : Prop :=
  ∀ i, ∃ ph, Phase.Runs v key (ask i) ph (s.calls i)

theorem OnCourse.start (store : Store) (clock : Instant) :
    (Scene.start v key ask store clock).OnCourse v key ask :=
  fun i => ⟨.asking, Phase.runs_program v key (ask i)⟩

/-- The calls do what their programs say, and the store is open and serves the key. -/
structure Running (v : Vault) (key : Key) (ask : ι → Call) (s : Scene ι) : Prop where
  isOpen : s.store.isClosed = false
  serves : s.store.contents.Serves key
  onCourse : s.OnCourse v key ask

theorem Running.start {store : Store} {clock : Instant} (h : store.isClosed = false)
    (hserves : store.contents.Serves key) :
    (Scene.start v key ask store clock).Running v key ask where
  isOpen := h
  serves := hserves
  onCourse := .start store clock

variable [DecidableEq ι]

theorem OnCourse.step (h : s.OnCourse v key ask) (e : Event ι) : (s.step e).OnCourse v key ask := by
  cases e with
  | call i =>
      obtain ⟨ph, hruns⟩ := h i
      rcases step_call hruns with ⟨o, -, hstep⟩ | ⟨m, next, -, hnext, hstep⟩ |
        ⟨r, ph', next, -, hnext, hstep⟩
      · rwa [hstep]
      · rw [hstep]
        exact forall_calls_resume (P := fun j p => ∃ ph, Phase.Runs v key (ask j) ph p)
          ⟨_, hnext⟩ h
      · rw [hstep]
        exact forall_calls_resume (P := fun j p => ∃ ph, Phase.Runs v key (ask j) ph p)
          ⟨_, hnext⟩ h
  | sweep now place =>
      simp only [Scene.step]
      split <;> exact h
  | _ => exact h

/-- The three things that an event can do to the messages and the log: nothing, a request that saves
nothing under the key, or a step of a purge. -/
theorem OnCourse.contents_step (h : s.OnCourse v key ask) {e : Event ι} (he : e.Spares key) :
    ((s.step e).store.contents = s.store.contents ∧ (s.step e).log = s.log) ∨
      (∃ caller r, (∀ m, r = .save m → m.key ≠ key) ∧
        (s.step e).store.contents = (s.store.answer r).2.contents ∧
        (s.step e).log = ⟨caller, r, (s.store.answer r).1⟩ :: s.log) ∨
      ∃ now place, (s.step e).store.contents = s.store.contents.purgeStep now place ∧
        (s.step e).log = s.log := by
  cases e with
  | call i =>
      obtain ⟨ph, hruns⟩ := h i
      rcases step_call hruns with ⟨o, -, hstep⟩ | ⟨m, next, -, -, hstep⟩ |
        ⟨r, ph', next, hasks, -, hstep⟩
      · exact .inl (by rw [hstep]; exact ⟨rfl, rfl⟩)
      · exact .inl (by rw [hstep]; exact ⟨rfl, rfl⟩)
      · refine .inr (.inl ⟨some i, r, ?_, by rw [hstep]; rfl, by rw [hstep]; rfl⟩)
        intro m hm
        exact absurd hm (Phase.ne_save_of_asks hasks m)
  | clock t => exact .inl ⟨rfl, rfl⟩
  | request r =>
      refine .inr (.inl ⟨none, r, ?_, rfl, rfl⟩)
      intro m hm
      subst hm
      exact he
  | sweep now place =>
      simp only [Scene.step]
      split
      · exact .inl ⟨rfl, rfl⟩
      · exact .inr (.inr ⟨now, place, rfl, rfl⟩)
  | close => exact .inl ⟨rfl, rfl⟩

/-- A call is given the content only in a step in which it asks to drop the message and is not told
that there is none. -/
theorem OnCourse.handed_over_step (h : s.OnCourse v key ask) {e : Event ι} {o : Outcome}
    (ho : (s.step e).outcome? i = some o) (hhanded : o.isHandedOver = true) :
    s.outcome? i = some o ∨
      (s.store.answer (.remove key)).1 ≠ .ok false ∧
        (s.step e).store = (s.store.answer (.remove key)).2 ∧
        (s.step e).log = ⟨some i, .remove key, (s.store.answer (.remove key)).1⟩ :: s.log := by
  by_cases he : e = .call i
  · subst he
    obtain ⟨ph, hruns⟩ := h i
    rcases step_call hruns with ⟨o', -, hstep⟩ | ⟨m, next, -, hnext, hstep⟩ |
      ⟨r, ph', next, hasks, hnext, hstep⟩
    · rw [hstep] at ho
      exact .inl ho
    · rw [hstep] at ho
      have hnot := Phase.isHandedOver_eq_false_of_afterClock (ended_of_outcome?_resume hnext ho)
      simp [hnot] at hhanded
    · rw [hstep] at ho ⊢
      obtain rfl := ended_of_outcome?_resume hnext ho
      obtain ⟨answer, hanswer, hx⟩ := Phase.removal_of_asks hasks hhanded (some i)
      obtain rfl : r = .remove key := congrArg Exchange.request hx
      obtain rfl : (s.store.answer (.remove key)).1 = answer := by simpa using hx
      exact .inr ⟨hanswer, rfl, rfl⟩
  · rw [outcome?, calls_step_of_ne he] at ho
    exact .inl ho

/-- What has been asked stays in the log. -/
theorem log_subset_step (s : Scene ι) (e : Event ι) : s.log ⊆ (s.step e).log := by
  cases e with
  | call i =>
      simp only [Scene.step]
      split
      · exact List.Subset.refl _
      · exact List.Subset.refl _
      · exact List.subset_cons_self ..
  | request r => exact List.subset_cons_self ..
  | sweep now place =>
      simp only [Scene.step]
      split <;> exact List.Subset.refl _
  | _ => exact List.Subset.refl _

/-- Only closing closes. -/
theorem isClosed_step {e : Event ι} (he : e ≠ .close) :
    (s.step e).store.isClosed = s.store.isClosed := by
  cases e with
  | call i =>
      simp only [Scene.step]
      split
      · rfl
      · rfl
      · exact Store.isClosed_answer ..
  | request r => exact Store.isClosed_answer ..
  | sweep now place =>
      simp only [Scene.step]
      split <;> rfl
  | clock t => rfl
  | close => contradiction

/-- The store goes on serving a key. -/
theorem OnCourse.serves_step (h : s.OnCourse v key ask) {e : Event ι} (he : e.Spares key)
    (hserves : s.store.contents.Serves key) : (s.step e).store.contents.Serves key := by
  rcases h.contents_step he with ⟨hcontents, -⟩ | ⟨_, r, -, hcontents, -⟩ |
    ⟨now, place, hcontents, -⟩
  · rwa [hcontents]
  · rw [hcontents]
    exact Store.serves_answer_iff.2 hserves
  · rw [hcontents]
    exact Contents.serves_purgeStep_iff.2 hserves

theorem Running.step (h : s.Running v key ask) {e : Event ι} (he : e.SavesNot key) :
    (s.step e).Running v key ask where
  isOpen := by
    rw [isClosed_step, h.isOpen]
    rintro rfl
    exact he
  serves := h.onCourse.serves_step he.spares h.serves
  onCourse := h.onCourse.step e

theorem Running.run (h : s.Running v key ask) {es : List (Event ι)}
    (hes : ∀ e ∈ es, e.SavesNot key) : (s.run es).Running v key ask :=
  run_induction (fun _ _ hs he => hs.step he) h hes

/-- What holds of the contents and the log, and survives each request and each step of a purge,
holds after any events. -/
theorem Running.contents_induction {P : Contents → List (Exchange ι) → Prop}
    (hasked : ∀ c log caller r, (∀ m, r = .save m → m.key ≠ key) → P c log →
      P (c.answer r).2 (⟨caller, r, (c.answer r).1⟩ :: log))
    (hswept : ∀ c log now place, P c log → P (c.purgeStep now place) log)
    (h : s.Running v key ask) (hs : P s.store.contents s.log) {es : List (Event ι)}
    (hes : ∀ e ∈ es, e.SavesNot key) : P (s.run es).store.contents (s.run es).log := by
  have hboth : (s.run es).Running v key ask ∧ P (s.run es).store.contents (s.run es).log := by
    refine run_induction (P := fun s => s.Running v key ask ∧ P s.store.contents s.log)
      ?_ ⟨h, hs⟩ hes
    rintro s e ⟨h, hs⟩ he
    refine ⟨h.step he, ?_⟩
    rcases h.onCourse.contents_step he.spares with ⟨hcontents, hlog⟩ |
      ⟨caller, r, hr, hcontents, hlog⟩ | ⟨now, place, hcontents, hlog⟩
    · rwa [hcontents, hlog]
    · rw [hcontents, hlog, Store.answer_of_open h.isOpen]
      exact hasked _ _ caller r hr hs
    · rw [hcontents, hlog]
      exact hswept _ _ now place hs
  exact hboth.2

/-- What is gone stays gone. -/
theorem Running.has_run_eq_false (h : s.Running v key ask)
    (hgone : s.store.contents.has key = false) {es : List (Event ι)}
    (hes : ∀ e ∈ es, e.SavesNot key) : (s.run es).store.contents.has key = false :=
  h.contents_induction (P := fun c _ => c.has key = false)
    (fun _ _ _ _ hr => Contents.has_answer_eq_false hr)
    (fun _ _ now place => Contents.has_purgeStep_eq_false now place) hgone hes

/-- As long as the store is open, a call is given the content only in a step that takes the
message. -/
theorem Running.handed_over_step (h : s.Running v key ask) {e : Event ι} {o : Outcome}
    (ho : (s.step e).outcome? i = some o) (hhanded : o.isHandedOver = true) :
    s.outcome? i = some o ∨
      (s.step e).log = ⟨some i, .remove key, .ok true⟩ :: s.log ∧
        s.store.contents.has key = true := by
  refine (h.onCourse.handed_over_step ho hhanded).imp_right ?_
  rintro ⟨hanswer, -, hlog⟩
  rw [Store.answer_of_open h.isOpen, (Contents.answer_remove h.serves).1] at hanswer hlog
  have hhas : s.store.contents.has key = true := by simpa using hanswer
  rw [hhas] at hlog
  exact ⟨hlog, hhas⟩

/-- Once a message is gone, no call is given it any more. -/
theorem Running.handed_over_run_of_missing (h : s.Running v key ask)
    (hgone : s.store.contents.has key = false) {es : List (Event ι)}
    (hes : ∀ e ∈ es, e.SavesNot key) {o : Outcome} (ho : (s.run es).outcome? i = some o)
    (hhanded : o.isHandedOver = true) : s.outcome? i = some o := by
  induction es generalizing s with
  | nil => exact ho
  | cons e es ih =>
      have he := hes e (List.mem_cons_self ..)
      have hone : ∀ e' ∈ [e], e'.SavesNot key := List.forall_mem_singleton.2 he
      have hgone' : (s.step e).store.contents.has key = false := h.has_run_eq_false hgone hone
      have hstep := ih (h.step he) hgone' (fun e' he' => hes e' (List.mem_cons_of_mem _ he')) ho
      rcases h.handed_over_step hstep hhanded with hbefore | ⟨-, hhas⟩
      · exact hbefore
      · simp [hgone] at hhas

/-- A call that begins once the message is gone is over with its first step. -/
theorem Running.outcome?_step_of_missing (h : s.Running v key ask)
    (hgone : s.store.contents.has key = false) (hi : s.calls i = (ask i).program v key) :
    (s.step (.call i)).outcome? i = some ((ask i).outcome (.error .notFound)) := by
  have hruns : Phase.Runs v key (ask i) .asking (s.calls i) := by
    rw [hi]
    exact Phase.runs_program v key (ask i)
  rcases step_call hruns with ⟨_, h, -⟩ | ⟨_, _, h, -⟩ | ⟨r, ph', next, hasks, hnext, hstep⟩
  · contradiction
  · contradiction
  · rw [Store.answer_of_open h.isOpen] at hasks
    cases hasks
    rw [Contents.answer_load_of_missing h.serves.load hgone] at hnext
    rw [hstep]
    exact outcome?_resume_ended hnext

/-- Once a message is gone, every call that begins is told that there is none, whatever happens in
between. -/
theorem Running.outcome?_run_of_missing (h : s.Running v key ask)
    (hgone : s.store.contents.has key = false) (hi : s.calls i = (ask i).program v key)
    {es : List (Event ι)} (hes : ∀ e ∈ es, e.SavesNot key) (hbegun : .call i ∈ es) :
    (s.run es).outcome? i = some ((ask i).outcome (.error .notFound)) := by
  -- Until its first step, a call has its whole program left.
  obtain ⟨before, later, rfl, hnot⟩ := List.eq_append_cons_of_mem hbegun
  have hbefore (e : Event ι) (he : e ∈ before) : e.SavesNot key :=
    hes e (List.mem_append_left _ he)
  have hstep := (h.run hbefore).outcome?_step_of_missing (h.has_run_eq_false hgone hbefore)
    ((calls_run_of_not_mem hnot).trans hi)
  rw [run_append]
  exact outcome?_run hstep later

end Scene

end ReadOnce
