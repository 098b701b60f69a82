import ReadOnce.Proofs.Vault.AtMostOnce

/-!
# A race for a message

Calls with right pins that nothing else gets in the way of: the deadline is not reached, and
whatever else happens leaves the message where it is. As long as no call has dropped the message, no
call is over; the one that drops it gets it, and any call that comes later finds nothing.
-/

namespace ReadOnce

variable {ι : Type} {v : Vault} {ask : ι → Call} {n : Message}

/-- An event that may come before the deadline of a message and that is about other keys, or about
none. -/
def Event.Besides (n : Message) : Event ι → Prop
  | call _ => True
  | clock t => n.isExpired t = false
  | request r => r.key? ≠ some n.key
  | sweep _ _ => True
  | close => False

namespace Scene

variable {s : Scene ι} {i : ι}

/-- There is something under a key. -/
def Has (s : Scene ι) (key : Key) : Prop :=
  s.store.contents.has key = true

/-- Of a series of events, only the steps of calls take away what is under a key. -/
def OnlyCallsTake [DecidableEq ι] (key : Key) : Scene ι → List (Event ι) → Prop
  | _, [] => True
  | s, e :: es =>
    (e.isCall = false → s.Has key → (s.step e).Has key) ∧ OnlyCallsTake key (s.step e) es

/-- A call can only come to this once the message is gone: it has taken it, or was told that there
is none. -/
def Settled (s : Scene ι) (key : Key) (call : Call) (i : ι) (o : Outcome) : Prop :=
  s.store.contents.has key = false ∧
    (o = call.outcome (.error .notFound) ∨ s.Claimed key i)

/-- How far a call in a race may have come. -/
def Fair (s : Scene ι) (n : Message) (call : Call) (i : ι) : Phase → Prop
  | .asking => True
  | .dating m => m = n
  | .claiming m _ => m = n
  | .ended o => call.pin? = none ∨ s.Settled n.key call i o
  | _ => False

/-- The message is there until a call has taken it, and calls are over only afterwards. -/
structure Race (v : Vault) (n : Message) (ask : ι → Call) (s : Scene ι) : Prop where
  isOpen : s.store.isClosed = false
  serves : s.store.contents.Serves n.key
  clock : n.isExpired s.clock = false
  calls : ∀ i, ∃ ph, Phase.Runs v n.key (ask i) ph (s.calls i) ∧ s.Fair n (ask i) i ph
  kept : s.store.contents.Keeps n.key n ∨
    s.store.contents.has n.key = false ∧ ∃ i, s.Claimed n.key i

theorem Fair.mono {s' : Scene ι} {call : Call} {ph : Phase} (h : s.Fair n call i ph)
    (hhas : s.store.contents.has n.key = false → s'.store.contents.has n.key = false)
    (hclaimed : s.Claimed n.key i → s'.Claimed n.key i) : s'.Fair n call i ph := by
  cases ph with
  | ended o => exact h.imp_right fun h => ⟨hhas h.1, h.2.imp_right hclaimed⟩
  | _ => exact h

namespace Race

theorem start {store : Store} {clock : Instant} (hopen : store.isClosed = false)
    (hserves : store.contents.Serves n.key) (hclock : n.isExpired clock = false)
    (hkept : store.contents.Keeps n.key n) :
    (Scene.start v n.key ask store clock).Race v n ask where
  isOpen := hopen
  serves := hserves
  clock := hclock
  calls i := ⟨.asking, Phase.runs_program v n.key (ask i), trivial⟩
  kept := .inl hkept

/-- What the store was asked keeps calls fair, also if it takes the message away. -/
theorem fair_asked (h : s.Race v n ask) (caller : Option ι) {r : Request}
    (hr : ∀ m, r = .save m → m.key ≠ n.key) (i : ι) :
    ∃ ph, Phase.Runs v n.key (ask i) ph ((s.asked caller r).calls i) ∧
      (s.asked caller r).Fair n (ask i) i ph := by
  obtain ⟨ph, hruns, hfair⟩ := h.calls i
  refine ⟨ph, hruns, hfair.mono ?_ fun hclaimed => hclaimed.asked caller r⟩
  intro hhas
  simp only [asked, Store.answer_of_open h.isOpen]
  exact Contents.has_answer_eq_false hr hhas

/-- A change that leaves the message where it is, and any other key alone, leaves the race open. -/
theorem kept_of_drops (h : s.Race v n ask) {s' : Scene ι}
    (hclaimed : ∀ i, s.Claimed n.key i → s'.Claimed n.key i)
    (hspared : s.Has n.key → s'.Has n.key)
    (hkeeps : s.store.contents.Keeps n.key n →
      s'.store.contents.Keeps n.key n ∨ s'.store.contents.has n.key = false)
    (hhas : s.store.contents.has n.key = false → s'.store.contents.has n.key = false) :
    s'.store.contents.Keeps n.key n ∨
      s'.store.contents.has n.key = false ∧ ∃ i, s'.Claimed n.key i := by
  rcases h.kept with hkept | ⟨hnone, i, hi⟩
  · refine (hkeeps hkept).imp_right ?_
    intro hnone
    have hhas : s'.store.contents.has n.key = true := hspared (Contents.has_of_keeps hkept)
    simp [hhas] at hnone
  · exact .inr ⟨hhas hnone, i, hclaimed i hi⟩

/-- What a call asks brings it to where it may be, and only takes the message for itself. -/
theorem asked_of_asks (h : s.Race v n ask) {ph ph' : Phase} {r : Request}
    (hfair : s.Fair n (ask i) i ph)
    (hasks : Phase.Asks v n.key (ask i) ph r (s.store.answer r).1 ph') :
    (s.asked (some i) r).Race v n ask ∧ (s.asked (some i) r).Fair n (ask i) i ph' := by
  have hanswer := Store.answer_of_open h.isOpen r
  have hcalls := h.fair_asked (some i)
    fun m hm => (Phase.ne_save_of_asks hasks m hm).elim
  have hopen : (s.asked (some i) r).store.isClosed = false := by simp only [asked, hanswer]
  have hcontents : (s.asked (some i) r).store.contents = (s.store.contents.answer r).2 := by
    simp only [asked, hanswer]
  have hserves : (s.asked (some i) r).store.contents.Serves n.key :=
    hcontents ▸ h.serves.answer r
  rw [hanswer] at hasks
  cases hasks with
  | load =>
      rw [Contents.answer_load_snd] at hcontents
      rcases h.kept with hkept | ⟨hnone, j, hj⟩
      · refine ⟨⟨hopen, hserves, h.clock, hcalls, .inl (hcontents ▸ hkept)⟩, ?_⟩
        rw [Contents.answer_load_of_keeps h.serves.load hkept]
        rfl
      · have hnone' : (s.asked (some i) (.load n.key)).store.contents.has n.key = false :=
          hcontents ▸ hnone
        refine ⟨⟨hopen, hserves, h.clock, hcalls, .inr ⟨hnone', j, hj.asked _ _⟩⟩, ?_⟩
        rw [Contents.answer_load_of_missing h.serves.load hnone]
        exact .inr ⟨hnone', .inl rfl⟩
  | claim m pin =>
      obtain ⟨hreply, hgone⟩ := Contents.answer_remove h.serves
      have hnone : (s.asked (some i) (.remove n.key)).store.contents.has n.key = false := by
        rw [hcontents]
        exact hgone
      rw [hreply]
      rcases h.kept with hkept | ⟨hmissing, j, hj⟩
      · have hclaimed : (s.asked (some i) (.remove n.key)).Claimed n.key i := by
          refine List.mem_cons.2 (.inl ?_)
          rw [hanswer, hreply, Contents.has_of_keeps hkept]
        rw [Contents.has_of_keeps hkept]
        exact ⟨⟨hopen, hserves, h.clock, hcalls, .inr ⟨hnone, i, hclaimed⟩⟩,
          .inr ⟨hnone, .inr hclaimed⟩⟩
      · rw [hmissing]
        exact ⟨⟨hopen, hserves, h.clock, hcalls, .inr ⟨hnone, j, hj.asked _ _⟩⟩,
          .inr ⟨hnone, .inl rfl⟩⟩
  | expire => exact hfair.elim
  | count => exact hfair.elim
  | exhaust => exact hfair.elim

/-- A look at the clock brings a call to where it may be. -/
theorem fair_afterClock (h : s.Race v n ask)
    (hpin : ∀ pin, (ask i).pin? = some pin → v.hasher.verify n.pinHash pin = true) :
    s.Fair n (ask i) i (.afterClock v (ask i) n s.clock) := by
  unfold Phase.afterClock
  split
  · rename_i hnone
    exact .inl hnone
  · rename_i pin hsome
    rw [h.clock, hpin pin hsome]
    rfl

/-- A call for the message is over only once the message is gone. -/
theorem settled (h : s.Race v n ask) (hpin : (ask i).pin? ≠ none) {o : Outcome}
    (ho : s.outcome? i = some o) : s.Settled n.key (ask i) i o := by
  obtain ⟨ph, hruns, hfair⟩ := h.calls i
  rw [done_of_outcome? ho] at hruns
  cases hruns
  exact Or.resolve_left hfair hpin

/-- Once all calls for the message are over, one of them has taken it, and to all others there was
none. -/
theorem one_claimed (h : s.Race v n ask) (htaken : (s.removals n.key).length ≤ 1)
    (hended : ∀ i, (ask i).pin? ≠ none → s.outcome? i ≠ none) (hsome : ∃ i, (ask i).pin? ≠ none) :
    ∃ i, s.Claimed n.key i ∧ ∀ j, j ≠ i → ¬ s.Claimed n.key j ∧
      ((ask j).pin? ≠ none → s.outcome? j = some ((ask j).outcome (.error .notFound))) := by
  have hsettled (i : ι) (hi : (ask i).pin? ≠ none) :
      ∃ o, s.outcome? i = some o ∧ s.Settled n.key (ask i) i o := by
    obtain ⟨o, ho⟩ := Option.ne_none_iff_exists'.1 (hended i hi)
    exact ⟨o, ho, h.settled hi ho⟩
  obtain ⟨i, hi⟩ : ∃ i, s.Claimed n.key i := by
    rcases h.kept with hkept | ⟨-, hclaimed⟩
    · obtain ⟨i₀, hi₀⟩ := hsome
      obtain ⟨_, -, hnone, -⟩ := hsettled i₀ hi₀
      simp [Contents.has_of_keeps hkept] at hnone
    · exact hclaimed
  refine ⟨i, hi, ?_⟩
  intro j hj
  have hnot : ¬ s.Claimed n.key j := fun hclaimed => hj (hclaimed.unique hi htaken)
  refine ⟨hnot, ?_⟩
  intro hpin
  obtain ⟨o, ho, -, hsettled⟩ := hsettled j hpin
  rw [ho, hsettled.resolve_right hnot]

variable [DecidableEq ι]

theorem resume (h : s.Race v n ask) {ph : Phase} {p : Program Outcome}
    (hruns : Phase.Runs v n.key (ask i) ph p) (hfair : s.Fair n (ask i) i ph) :
    (s.resume i p).Race v n ask where
  isOpen := h.isOpen
  serves := h.serves
  clock := h.clock
  calls := forall_calls_resume
    (P := fun j p => ∃ ph, Phase.Runs v n.key (ask j) ph p ∧ s.Fair n (ask j) j ph)
    ⟨ph, hruns, hfair⟩ h.calls
  kept := h.kept

theorem step (h : s.Race v n ask)
    (hpins : ∀ i pin, (ask i).pin? = some pin → v.hasher.verify n.pinHash pin = true)
    {e : Event ι} (he : e.Besides n)
    (hspared : e.isCall = false → s.Has n.key → (s.step e).Has n.key) :
    (s.step e).Race v n ask := by
  cases e with
  | call i =>
      obtain ⟨ph, hruns, hfair⟩ := h.calls i
      rcases step_call hruns with ⟨o, -, hstep⟩ | ⟨m, next, rfl, hnext, hstep⟩ |
        ⟨r, ph', next, hasks, hnext, hstep⟩
      · rwa [hstep]
      · obtain rfl : m = n := hfair
        rw [hstep]
        exact h.resume hnext (h.fair_afterClock (hpins i))
      · obtain ⟨hrace, hfair'⟩ := h.asked_of_asks hfair hasks
        rw [hstep]
        exact hrace.resume hnext hfair'
  | clock t => exact ⟨h.isOpen, h.serves, he, h.calls, h.kept⟩
  | request r =>
      have hanswer := Store.answer_of_open h.isOpen r
      have hr (m : Message) (hm : r = .save m) : m.key ≠ n.key :=
        fun heq => he (hm ▸ congrArg some heq)
      refine ⟨by simp only [step_request, asked, hanswer], ?_, h.clock, h.fair_asked none hr,
        h.kept_of_drops (fun i hi => hi.asked none r) (hspared rfl) ?_ ?_⟩
      · simp only [step_request, asked, hanswer]
        exact h.serves.answer r
      · simp only [step_request, asked, hanswer]
        exact Contents.keeps_answer_of_ne he
      · simp only [step_request, asked, hanswer]
        exact Contents.has_answer_eq_false hr
  | sweep now place =>
      have hopen := h.isOpen
      have hstep := step_sweep_of_open hopen now place
      refine ⟨by rw [hstep]; exact hopen, ?_, by rw [hstep]; exact h.clock, ?_,
        h.kept_of_drops (fun i hi => by rwa [hstep]) (hspared rfl) ?_ ?_⟩
      · rw [hstep]
        exact Contents.serves_purgeStep_iff.2 h.serves
      · intro i
        obtain ⟨ph, hruns, hfair⟩ := h.calls i
        rw [hstep]
        exact ⟨ph, hruns, hfair.mono (Contents.has_purgeStep_eq_false now place) id⟩
      · rw [hstep]
        exact Contents.keeps_purgeStep now place
      · rw [hstep]
        exact Contents.has_purgeStep_eq_false now place
  | close => exact he.elim

theorem run (h : s.Race v n ask)
    (hpins : ∀ i pin, (ask i).pin? = some pin → v.hasher.verify n.pinHash pin = true)
    {es : List (Event ι)} (hes : ∀ e ∈ es, e.Besides n) (hspared : s.OnlyCallsTake n.key es) :
    (s.run es).Race v n ask := by
  induction es generalizing s with
  | nil => exact h
  | cons e es ih =>
      exact ih (h.step hpins (hes e (List.mem_cons_self ..)) hspared.1)
        (fun e' he' => hes e' (List.mem_cons_of_mem _ he')) hspared.2

end Race

/-- A message that was saved once is handed over to at most one of any calls, however they overlap
with each other, with purges, with settings of the clock and with whatever else the store is asked.
If all pins are right, the deadline is not reached and nothing but calls takes the message, then
once all calls for it are over, if there are any, exactly one has taken it, and to all others there
was none. -/
theorem handed_over_at_most_once [DecidableEq ι] {fresh : Fresh} {intake : Intake} {t : Instant}
    {m : Message} {before after : Store}
    (hsaved : (intake.program v fresh).run Store.answer t before = (.ok m, after))
    (ask : ι → Call) (clock : Instant) {es : List (Event ι)} (hes : ∀ e ∈ es, e.SavesNot m.key) :
    let final := (start v m.key ask after clock).run es
    (∀ i j oᵢ oⱼ, final.outcome? i = some oᵢ → final.outcome? j = some oⱼ →
      oᵢ.isHandedOver = true → oⱼ.isHandedOver = true → i = j) ∧
    (m.Fits → m.isExpired clock = false → (∀ e ∈ es, e.Besides m) →
      (start v m.key ask after clock).OnlyCallsTake m.key es →
      (∀ i pin, (ask i).pin? = some pin → v.hasher.verify m.pinHash pin = true) →
      (∀ i, (ask i).pin? ≠ none → final.outcome? i ≠ none) → (∃ i, (ask i).pin? ≠ none) →
      ∃ i, final.Claimed m.key i ∧ ∀ j, j ≠ i → ¬ final.Claimed m.key j ∧
        ((ask j).pin? ≠ none → final.outcome? j = some ((ask j).outcome (.error .notFound)))) := by
  intro final
  have hsaved := Intake.saved_of_run hsaved
  have hone : final.TakenOnce v m.key ask :=
    (TakenOnce.start hsaved.open_after hsaved.serves_after).run hes
  have htaken : (final.removals m.key).length ≤ 1 := (Nat.le_add_right _ _).trans hone.taken
  constructor
  · intro i j oᵢ oⱼ hi hj hoᵢ hoⱼ
    exact (hone.claimed hi hoᵢ).unique (hone.claimed hj hoⱼ) htaken
  · intro hfits hclock hbesides hspared hpins hended hsome
    obtain ⟨u, hle, -, hkeeps⟩ := hsaved.keeps_after hfits
    have hbesides' (e : Event ι) (he : e ∈ es) : e.Besides { m with expiresAt := u } := by
      have he := hbesides e he
      cases e with
      | clock t => exact Message.isExpired_eq_false_of_le hle he
      | _ => exact he
    have hrace : final.Race v { m with expiresAt := u } ask :=
      (Race.start (n := { m with expiresAt := u }) hsaved.open_after hsaved.serves_after
        (Message.isExpired_eq_false_of_le hle hclock) hkeeps).run hpins hbesides' hspared
    exact hrace.one_claimed htaken hended hsome

/-- Two calls read the same message, and a purge before the deadline comes in between. -/
theorem handed_over_to_one_of_two :
    let v : Vault := ⟨.default, .plain, .plain⟩
    let ask (second : Bool) : Call := if second then .reveal "1" else .load "1"
    let late : Instant := ⟨59, 0, by decide, by decide, by decide⟩
    let m : Message :=
      ⟨⟨"k"⟩, ⟨60, 0, by decide, by decide, by decide⟩, [1, 2], "hash:1", 0, true⟩
    let after : Store := ⟨.shelf ⟨[m], by decide⟩, false⟩
    ((Intake.text ⟨.ofSeconds 60, "1", [1, 2], true⟩).program v ⟨[], [], ⟨"k"⟩⟩).run
        Store.answer .epoch ⟨.shelf .empty, false⟩ = (.ok m, after) ∧
      ∃ i, Claimed ((start v m.key ask after .epoch).run [.call false, .call true, .call true,
        .clock late, .request (.purge late), .call false, .call true, .call false]) m.key i := by
  intro v ask late m after
  have hsaved : ((Intake.text ⟨.ofSeconds 60, "1", [1, 2], true⟩).program v ⟨[], [], ⟨"k"⟩⟩).run
      Store.answer .epoch ⟨.shelf .empty, false⟩ = (.ok m, after) := rfl
  refine ⟨hsaved, ?_⟩
  refine ((handed_over_at_most_once hsaved ask .epoch ?_).2 ?_ ?_ ?_ ?_ ?_ ?_ ?_).imp fun _ h => h.1
  · simp [Event.SavesNot]
  · exact ⟨by decide, by decide, by decide⟩
  · decide
  · have hlate : m.isExpired late = false := by decide
    simp [Event.Besides, Request.key?, hlate]
  · exact ⟨nofun, nofun, nofun, fun _ _ => rfl, fun _ _ => rfl, nofun, nofun, nofun, trivial⟩
  · decide
  · decide
  · exact ⟨true, by decide⟩

end Scene

end ReadOnce
