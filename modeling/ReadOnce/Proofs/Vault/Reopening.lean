import ReadOnce.Proofs.Store.Reopened
import ReadOnce.Proofs.Vault.Running

/-!
# Calls across openings of a store

A store may be closed while calls are under way, and another one opened on what it left. A call
keeps to the store that it began with: once that is closed, it is told so whatever it asks.

A call that cannot drop the message because the store is closed hands it over all the same, and the
message stays on its medium for the next opening. So the content may be given to more than one call,
but to one only among those that did not find the store closed when they asked to drop the message.
-/

namespace ReadOnce

variable {ι : Type}

/-- The store once it has answered some requests. -/
def Store.after (s : Store) (rs : List Request) : Store :=
  rs.foldl (fun s r => (s.answer r).2) s

theorem Store.isOnMedium_answer {s : Store} {m : Medium} {d : Disk}
    (h : s.contents.IsOnMedium m d) (r : Request) : (s.answer r).2.contents.IsOnMedium m d := by
  cases hclosed : s.isClosed with
  | false =>
      rw [Store.answer_of_open hclosed]
      exact h.answer r
  | true => rwa [Store.answer_of_closed hclosed]

theorem Store.isOnMedium_after {s : Store} {m : Medium} {d : Disk}
    (h : s.contents.IsOnMedium m d) (rs : List Request) :
    (s.after rs).contents.IsOnMedium m d := by
  induction rs generalizing s with
  | nil => exact h
  | cons r rs ih => exact ih (Store.isOnMedium_answer h r)

/-- There is nothing left once a message has been taken, and a store that has been closed gives
nothing away. -/
theorem Store.removal_add_has_le (s : Store) {key : Key} (caller : Option ι) {r : Request}
    (hr : ∀ m, r = .save m → m.key ≠ key) :
    (Exchange.isRemoval key ⟨caller, r, (s.answer r).1⟩).toNat +
      ((s.answer r).2.contents.has key).toNat ≤ (s.contents.has key).toNat := by
  cases h : s.isClosed with
  | false =>
      rw [Store.answer_of_open h]
      exact s.contents.removal_add_has_le caller hr
  | true =>
      rw [Store.answer_of_closed h]
      cases r <;> exact (Nat.zero_add _).le

/-- A store closed and opened again any number of times, and calls on one message. -/
structure History (ι : Type) where
  service : Service
  /-- How often the store has been opened again. -/
  openings : Nat
  calls : ι → Program Outcome
  /-- What has been asked, last first. -/
  log : List (Exchange ι)

/-- What may happen next: what happens to one store, or that the next one is opened. -/
inductive Turn (ι : Type) where
  | event (e : Event ι)
  | reopen

/-- A turn that saves nothing under a key. -/
def Turn.Spares (key : Key) : Turn ι → Prop
  | event e => e.Spares key
  | reopen => True

namespace Scene

variable {v : Vault} {key : Key} {ask : ι → Call} {s : Scene ι} {i j : ι}

/-- A call found the store closed when it asked to drop the message under a key. -/
def FoundClosed (s : Scene ι) (key : Key) (i : ι) : Prop :=
  ⟨some i, .remove key, .error .closed⟩ ∈ s.log

/-- The calls do what their programs say over a store that serves the key, whoever has the content
has taken the message or found the store closed, and the message was taken at most once and is not
there any more if it was. -/
structure Accounted (v : Vault) (key : Key) (ask : ι → Call) (s : Scene ι) : Prop where
  onCourse : s.OnCourse v key ask
  serves : s.store.contents.Serves key
  entitled : ∀ i o, s.outcome? i = some o → o.isHandedOver = true →
    s.Claimed key i ∨ s.FoundClosed key i
  taken : (s.removals key).length + (s.store.contents.has key).toNat ≤ 1

theorem Accounted.start {store : Store} {clock : Instant} (hserves : store.contents.Serves key) :
    (Scene.start v key ask store clock).Accounted v key ask where
  onCourse := .start store clock
  serves := hserves
  entitled i o ho := by
    have hruns : Phase.Runs v key (ask i) .asking ((Scene.start v key ask store clock).calls i) :=
      Phase.runs_program v key (ask i)
    rw [done_of_outcome? ho] at hruns
    cases hruns
  taken := (Nat.zero_add _).trans_le (Bool.toNat_le _)

variable [DecidableEq ι]

theorem Accounted.step (h : s.Accounted v key ask) {e : Event ι} (he : e.Spares key) :
    (s.step e).Accounted v key ask where
  onCourse := h.onCourse.step e
  serves := h.onCourse.serves_step he h.serves
  entitled i o ho hhanded := by
    rcases h.onCourse.handed_over_step ho hhanded with hbefore | ⟨hanswer, -, hlog⟩
    · have hlog := s.log_subset_step e
      exact (h.entitled i o hbefore hhanded).imp (fun hi => hlog hi) (fun hi => hlog hi)
    · have hmem : ⟨some i, .remove key, (s.store.answer (.remove key)).1⟩ ∈ (s.step e).log := by
        rw [hlog]
        exact List.mem_cons_self ..
      cases hclosed : s.store.isClosed with
      | false =>
          rw [Store.answer_of_open hclosed, (Contents.answer_remove h.serves).1] at hmem hanswer
          have hhas : s.store.contents.has key = true := by simpa using hanswer
          rw [hhas] at hmem
          exact .inl hmem
      | true =>
          rw [Store.answer_of_closed hclosed] at hmem
          exact .inr hmem
  taken := by
    have htaken := h.taken
    rcases h.onCourse.contents_step he with ⟨hcontents, hlog⟩ | ⟨caller, r, hr, hcontents, hlog⟩ |
      ⟨now, place, hcontents, hlog⟩
    · rwa [removals, hcontents, hlog]
    · have hremovals : (s.step e).removals key = (s.asked caller r).removals key := by
        rw [removals, hlog]
        rfl
      have hle := s.store.removal_add_has_le caller hr
      rw [hremovals, length_removals_asked, hcontents]
      omega
    · rw [removals, hcontents, hlog]
      cases hhas : s.store.contents.has key with
      | true =>
          rw [hhas] at htaken
          exact (Nat.add_le_add_left (Bool.toNat_le _) _).trans htaken
      | false =>
          rw [Contents.has_purgeStep_eq_false now place hhas]
          rwa [hhas] at htaken

/-- A step of a call whose store was closed before the present one was opened. -/
def stepBarred (s : Scene ι) (i : ι) : Scene ι :=
  { step { s with store := s.store.close } (.call i) with store := s.store }

theorem store_step_call_of_closed (h : s.store.isClosed = true) (i : ι) :
    (s.step (.call i)).store = s.store := by
  simp only [step]
  split
  · rfl
  · rfl
  · rename_i r next _
    show (s.store.answer r).2 = s.store
    rw [Store.answer_of_closed h]

theorem Accounted.stepBarred (h : s.Accounted v key ask) (i : ι) :
    (s.stepBarred i).Accounted v key ask := by
  have hclosed : Accounted v key ask { s with store := s.store.close } :=
    ⟨h.onCourse, h.serves, h.entitled, h.taken⟩
  have hstep : (Scene.step { s with store := s.store.close } (.call i)).Accounted v key ask :=
    hclosed.step trivial
  have htaken := hstep.taken
  rw [store_step_call_of_closed rfl] at htaken
  exact ⟨hstep.onCourse, h.serves, hstep.entitled, htaken⟩

@[simp] theorem clock_step_call (s : Scene ι) (i : ι) : (s.step (.call i)).clock = s.clock := by
  simp only [step]
  split <;> rfl

/-- A call that is given the content in a step has taken the message, or found the store closed,
which changes nothing there. -/
theorem OnCourse.handed_over_call (h : s.OnCourse v key ask)
    (hserves : s.store.contents.Serves key) (hbefore : s.outcome? i = none) {o : Outcome}
    (ho : (s.step (.call i)).outcome? i = some o) (hhanded : o.isHandedOver = true) :
    (s.step (.call i)).log = ⟨some i, .remove key, .ok true⟩ :: s.log ∧
        s.store.isClosed = false ∨
      (s.step (.call i)).log = ⟨some i, .remove key, .error .closed⟩ :: s.log ∧
        (s.step (.call i)).store = s.store := by
  rcases h.handed_over_step ho hhanded with hover | ⟨hanswer, -, hlog⟩
  · simp [hbefore] at hover
  · cases hclosed : s.store.isClosed with
    | false =>
        rw [Store.answer_of_open hclosed, (Contents.answer_remove hserves).1] at hlog hanswer
        have hhas : s.store.contents.has key = true := by simpa using hanswer
        rw [hhas] at hlog
        exact .inl ⟨hlog, rfl⟩
    | true =>
        rw [Store.answer_of_closed hclosed] at hlog
        exact .inr ⟨hlog, store_step_call_of_closed hclosed i⟩

/-- A call that finds the store closed when it asks to drop the message opens it all the same. -/
theorem outcome?_step_claim_of_closed {call : Call} {n : Message} {pin : String}
    (hcall : s.calls i = (v.claim n key pin).map call.outcome) (hclosed : s.store.isClosed = true) :
    (s.step (.call i)).outcome? i = some (call.outcome (v.openPayload n pin)) := by
  rw [step_of_ask hcall, Store.answer_of_closed hclosed]
  simp only [outcome?, resume, Function.update_self, Program.map]

theorem isOnMedium_step (h : s.OnCourse v key ask) {e : Event ι} (he : e.Spares key) {m : Medium}
    {d : Disk} (hon : s.store.contents.IsOnMedium m d) :
    (s.step e).store.contents.IsOnMedium m d := by
  rcases h.contents_step he with ⟨hcontents, -⟩ | ⟨_, r, -, hcontents, -⟩ |
    ⟨now, place, hcontents, -⟩
  · rwa [hcontents]
  · rw [hcontents]
    exact Store.isOnMedium_answer hon r
  · rw [hcontents]
    exact hon.purgeStep now place

end Scene

/-- A store in service that was opened on an empty disk. -/
def Service.openedTrial : Service where
  medium := .trees (some "d")
  period := 0
  disk := ⟨[(Path.ofText "d", .trees .empty)]⟩
  stored := ⟨⟨.trees .empty, false⟩, []⟩
  clock := .epoch
  time := 0
  sweeper := .disabled

/-- The store once a message has been saved. -/
def Service.trial (m : Message) : Service :=
  { Service.openedTrial with
    stored.store := ⟨((Contents.trees .empty).answer (.save m)).2, false⟩ }

theorem Service.start_trial :
    Service.start false (.trees (some "d")) 0 ⟨[]⟩ .epoch 0 = .ok .openedTrial :=
  rfl

namespace History

variable {v : Vault} {key : Key} {ask : ι → Call} {h : History ι} {i j : ι}

/-- A history before any of its calls has taken a step. -/
def start (v : Vault) (key : Key) (ask : ι → Call) (service : Service) : History ι where
  service
  openings := 0
  calls i := (ask i).program v key
  log := []

/-- The calls, with the store that is in service. -/
def scene (h : History ι) : Scene ι where
  store := h.service.stored.store
  clock := h.service.clock
  calls := h.calls
  log := h.log

/-- The history once its scene has changed. -/
def withScene (h : History ι) (s : Scene ι) : History ι :=
  { h with
    service := { h.service with stored.store := s.store, clock := s.clock }
    calls := s.calls
    log := s.log }

variable [DecidableEq ι]

/-- What a turn makes of a history. Each call belongs to one opening: it does nothing before, and
finds its store closed afterwards. -/
def step (home : ι → Nat) (h : History ι) : Turn ι → History ι
  | .reopen =>
    match h.service.reopen with
    | .ok service => { h with service, openings := h.openings + 1 }
    | .error _ => h.withScene (h.scene.step .close)
  | .event (.call i) =>
    if h.openings < home i then h
    else if home i < h.openings then h.withScene (h.scene.stepBarred i)
    else h.withScene (h.scene.step (.call i))
  | .event e => h.withScene (h.scene.step e)

theorem step_of_lt {home : ι → Nat} (hi : home i < h.openings) :
    h.step home (.event (.call i)) = h.withScene (h.scene.stepBarred i) := by
  simp only [step, if_neg (Nat.lt_asymm hi), if_pos hi]

theorem step_of_eq {home : ι → Nat} (hi : home i = h.openings) :
    h.step home (.event (.call i)) = h.withScene (h.scene.step (.call i)) := by
  simp only [step, hi, Nat.lt_irrefl, if_false]

theorem step_of_gt {home : ι → Nat} (hi : h.openings < home i) :
    h.step home (.event (.call i)) = h := by
  simp only [step, if_pos hi]

/-- What turns one after the other make of a history. -/
def run (home : ι → Nat) (h : History ι) (ts : List (Turn ι)) : History ι :=
  ts.foldl (step home) h

/-- The content is accounted for, and the store in service keeps what its medium keeps. -/
structure Accounted (v : Vault) (key : Key) (ask : ι → Call) (h : History ι) : Prop where
  scene : h.scene.Accounted v key ask
  onMedium : h.service.stored.store.contents.IsOnMedium h.service.medium h.service.disk

namespace Accounted

theorem event (ha : h.Accounted v key ask) {e : Event ι} (he : e.Spares key) :
    (h.withScene (h.scene.step e)).Accounted v key ask where
  scene := ha.scene.step he
  onMedium := Scene.isOnMedium_step ha.scene.onCourse he ha.onMedium

theorem step (ha : h.Accounted v key ask) (home : ι → Nat) {t : Turn ι} (ht : t.Spares key) :
    (h.step home t).Accounted v key ask := by
  cases t with
  | event e =>
      cases e with
      | call i =>
          simp only [History.step]
          split
          · exact ha
          · split
            · exact ⟨ha.scene.stepBarred i, ha.onMedium⟩
            · exact ha.event ht
      | _ => exact ha.event ht
  | reopen =>
      simp only [History.step]
      split
      · rename_i service hreopen
        obtain ⟨hon, hmedium, hgone⟩ := Service.isOnMedium_of_reopen ha.onMedium hreopen
        have hserves := (hmedium ▸ ha.onMedium).serves hon ha.scene.serves
        refine ⟨⟨ha.scene.onCourse, hserves, ha.scene.entitled, ?_⟩, hon⟩
        refine (Nat.add_le_add_left ?_ _).trans ha.scene.taken
        cases hhas : h.scene.store.contents.has key with
        | true => exact Bool.toNat_le _
        | false => exact (congrArg Bool.toNat (hgone key hhas)).le
      · exact ha.event trivial

theorem run (ha : h.Accounted v key ask) (home : ι → Nat) {ts : List (Turn ι)}
    (hts : ∀ t ∈ ts, t.Spares key) : (h.run home ts).Accounted v key ask := by
  induction ts generalizing h with
  | nil => exact ha
  | cons t ts ih =>
      exact ih (ha.step home (hts t (List.mem_cons_self ..)))
        fun t' ht' => hts t' (List.mem_cons_of_mem _ ht')

end Accounted

/-- A call that is given the content in a step has taken the message from the open store that it
belongs to, or found its store closed, which changes nothing. -/
theorem handed_over_call (hcalls : h.scene.OnCourse v key ask)
    (hserves : h.scene.store.contents.Serves key) {home : ι → Nat} {o : Outcome}
    (hbefore : h.scene.outcome? i = none)
    (ho : (h.step home (.event (.call i))).scene.outcome? i = some o)
    (hhanded : o.isHandedOver = true) :
    (h.step home (.event (.call i))).log = ⟨some i, .remove key, .ok true⟩ :: h.log ∧
        home i = h.openings ∧ h.service.stored.store.isClosed = false ∨
      (h.step home (.event (.call i))).log = ⟨some i, .remove key, .error .closed⟩ :: h.log ∧
        (h.step home (.event (.call i))).service = h.service := by
  rcases Nat.lt_trichotomy (home i) h.openings with hi | hi | hi
  · rw [step_of_lt hi] at ho ⊢
    -- The closed store that the call belongs to is put aside again, so nothing is left of it.
    have hcalls : Scene.OnCourse v key ask { h.scene with store := h.scene.store.close } := hcalls
    rcases hcalls.handed_over_call hserves hbefore ho hhanded with ⟨-, hopen⟩ | ⟨hlog, -⟩
    · contradiction
    · refine .inr ⟨hlog, ?_⟩
      have hclock := Scene.clock_step_call { h.scene with store := h.scene.store.close } i
      simp only [withScene, Scene.stepBarred, hclock]
      rfl
  · rw [step_of_eq hi] at ho ⊢
    rcases hcalls.handed_over_call hserves hbefore ho hhanded with ⟨hlog, hopen⟩ | ⟨hlog, hstore⟩
    · exact .inl ⟨hlog, hi, hopen⟩
    · refine .inr ⟨hlog, ?_⟩
      have hclock := h.scene.clock_step_call i
      simp only [withScene, hstore, hclock]
      rfl
  · rw [step_of_gt hi, hbefore] at ho
    contradiction

/-- A call that finds its store closed when it asks to drop the message opens it all the same. -/
theorem outcome?_step_claim {home : ι → Nat} {n : Message} {pin : String}
    (hcall : h.calls i = (v.claim n key pin).map (ask i).outcome)
    (hclosed : home i < h.openings ∨
      home i = h.openings ∧ h.service.stored.store.isClosed = true) :
    (h.step home (.event (.call i))).scene.outcome? i =
      some ((ask i).outcome (v.openPayload n pin)) := by
  rcases hclosed with hi | ⟨hi, hclosed⟩
  · rw [step_of_lt hi]
    exact Scene.outcome?_step_claim_of_closed
      (s := { h.scene with store := h.scene.store.close }) hcall rfl
  · rw [step_of_eq hi]
    exact Scene.outcome?_step_claim_of_closed hcall hclosed

/-- Over all openings of a store, a message that was taken in is given to at most one call that did
not find the store closed when it asked to drop the message. A call is given it in a step that takes
the message, or finds the store closed; then the message stays where it is, and the call opens what
it has read. -/
theorem handed_over_once_unless_found_closed {attended : Bool} {medium : Medium}
    {period time : Nat} {disk : Disk} {now : Instant} {opened : Service}
    (hopened : Service.start attended medium period disk now time = .ok opened) (rs : List Request)
    {fresh : Fresh} {intake : Intake} {t : Instant} {m : Message} {after : Store}
    (hsaved : (intake.program v fresh).run Store.answer t (opened.stored.store.after rs) =
      (.ok m, after))
    (ask : ι → Call) (home : ι → Nat) {ts : List (Turn ι)} (hts : ∀ t ∈ ts, t.Spares m.key) :
    let h := (start v m.key ask { opened with stored.store := after }).run home ts
    (∀ i j oᵢ oⱼ, h.scene.outcome? i = some oᵢ → h.scene.outcome? j = some oⱼ →
      oᵢ.isHandedOver = true → oⱼ.isHandedOver = true →
      ¬ h.scene.FoundClosed m.key i → ¬ h.scene.FoundClosed m.key j → i = j) ∧
    (∀ i o, h.scene.outcome? i = none →
      (h.step home (.event (.call i))).scene.outcome? i = some o → o.isHandedOver = true →
      (h.step home (.event (.call i))).log = ⟨some i, .remove m.key, .ok true⟩ :: h.log ∧
          home i = h.openings ∧ h.service.stored.store.isClosed = false ∨
        (h.step home (.event (.call i))).log =
            ⟨some i, .remove m.key, .error .closed⟩ :: h.log ∧
          (h.step home (.event (.call i))).service = h.service) ∧
    ∀ i n pin, h.calls i = (v.claim n m.key pin).map (ask i).outcome →
      home i < h.openings ∨ home i = h.openings ∧ h.service.stored.store.isClosed = true →
      (h.step home (.event (.call i))).scene.outcome? i =
        some ((ask i).outcome (v.openPayload n pin)) := by
  intro h
  have hsaved := Intake.saved_of_run hsaved
  have hon : after.contents.IsOnMedium opened.medium opened.disk := by
    rw [hsaved.contents]
    exact (Store.isOnMedium_after (Service.isOnMedium_of_start hopened) rs).answer _
  have hstart : (start v m.key ask { opened with stored.store := after }).Accounted v m.key ask :=
    ⟨.start hsaved.serves_after, hon⟩
  have ha : h.Accounted v m.key ask := hstart.run home hts
  refine ⟨?_, ?_, ?_⟩
  · intro i j oᵢ oⱼ hi hj hoᵢ hoⱼ hnotᵢ hnotⱼ
    have hclaimedᵢ := (ha.scene.entitled i oᵢ hi hoᵢ).resolve_right hnotᵢ
    have hclaimedⱼ := (ha.scene.entitled j oⱼ hj hoⱼ).resolve_right hnotⱼ
    exact hclaimedᵢ.unique hclaimedⱼ ((Nat.le_add_right _ _).trans ha.scene.taken)
  · intro i o hbefore ho hhanded
    exact handed_over_call ha.scene.onCourse ha.scene.serves hbefore ho hhanded
  · intro i n pin hcall hclosed
    exact outcome?_step_claim hcall hclosed

/-- A call reads the message, the store is closed, and the call is given the message, which stays
where it is. -/
theorem handed_over_and_kept_after_closing :
    let ask (_ : Bool) : Call := .load "1234"
    let m := Message.plainTrial
    let h := (start (.plainTrial 3) m.key ask (.trial m)).run Bool.toNat
      [.event (.call false), .event (.call false), .event .close]
    let h' := h.step Bool.toNat (.event (.call false))
    h'.scene.outcome? false = some (.loaded (.ok .openedTrial)) ∧ h'.service = h.service := by
  intro ask m h h'
  have hsaved := Intake.run_plainTrial 3 (c := .trees .empty) rfl
  have hbefore : h.scene.outcome? false = none := by decide +kernel
  have hended : h'.scene.outcome? false = some (.loaded (.ok .openedTrial)) := by decide +kernel
  have hclosed : h.service.stored.store.isClosed = true := by decide +kernel
  refine ⟨hended, ?_⟩
  have hts : ∀ t ∈ [.event (.call false), .event (.call false), .event .close],
      Turn.Spares m.key (t : Turn Bool) := by
    simp [Turn.Spares, Event.Spares]
  rcases (handed_over_once_unless_found_closed Service.start_trial [] hsaved ask Bool.toNat hts).2.1
    false _ hbefore hended rfl with ⟨-, -, hopen⟩ | ⟨-, hservice⟩
  · exact absurd (hclosed.symm.trans hopen) (by decide)
  · exact hservice

/-- The message that a call was given after the store had been closed is given to another call once
the store has been opened again. -/
theorem handed_over_again_once_reopened :
    let ask (_ : Bool) : Call := .load "1234"
    let m := Message.plainTrial
    let h := (start (.plainTrial 3) m.key ask (.trial m)).run Bool.toNat
      [.event (.call false), .event (.call false), .event .close, .event (.call false), .reopen,
        .event (.call true), .event (.call true), .event (.call true)]
    ∃ i j, i ≠ j ∧ h.scene.outcome? i = some (.loaded (.ok .openedTrial)) ∧
      h.scene.outcome? j = some (.loaded (.ok .openedTrial)) := by
  intro ask m h
  refine ⟨false, true, nofun, ?_, ?_⟩
  · decide +kernel
  · decide +kernel

end History

end ReadOnce
