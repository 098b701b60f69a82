import ReadOnce.Proofs.Store.Mirror
import ReadOnce.Proofs.Store.Saved
import ReadOnce.Proofs.Store.Spared
import ReadOnce.Proofs.Vault.Call
import ReadOnce.Proofs.Vault.Intake
import ReadOnce.Proofs.Vault.Load

/-!
# What can still be read

A message that has reached its deadline may be in the store or may have been purged.
`Contents.Swept` says of two stores that this is all they differ in, and that no record of the
second runs out of tries. To whatever is taken in and to every call both give the same answer, and
they differ in no more afterwards, except for one thing: a call on a message past its deadline says
so if the message is there, and says that there is none if it is not. `Outcome.settled` takes the
one answer for the other.

Where both keep the same under a key, nothing has to be known of the call but that it asks about
this key alone (`Program.run_congr`).
-/

namespace ReadOnce

/-- An outcome, with a message past its deadline taken for a missing one. -/
def Outcome.settled : Outcome → Outcome
  | loaded (.error .expired) => loaded (.error .notFound)
  | revealed (.error .expired) => revealed (.error .notFound)
  | o => o

namespace Program

variable {α β : Type} {key : Key} {clock : Instant}

/-- All that a program asks when it is run is about one key. -/
def AsksOnly (key : Key) (clock : Instant) : Program α → Store → Prop
  | done _, _ => True
  | now next, s => (next clock).AsksOnly key clock s
  | ask r next, s =>
    r.key? = some key ∧ (next (s.answer r).1).AsksOnly key clock (s.answer r).2

theorem asksOnly_map {f : α → β} {p : Program α} {s : Store} (h : p.AsksOnly key clock s) :
    (p.map f).AsksOnly key clock s := by
  induction p generalizing s with
  | done a => trivial
  | now next ih => exact ih clock h
  | ask r next ih => exact ⟨h.1, ih _ h.2⟩

/-- What a program that asks about one key comes to depends on what is kept under the key, and it
leaves all other keys alone. -/
theorem run_congr {p : Program α} {c c' : Contents} (h : p.AsksOnly key clock ⟨c', false⟩)
    (hread : c.isReadOnly = c'.isReadOnly) (hslot : c.slot key = c'.slot key) :
    ∃ a d d', p.run Store.answer clock ⟨c, false⟩ = (a, ⟨d, false⟩) ∧
      p.run Store.answer clock ⟨c', false⟩ = (a, ⟨d', false⟩) ∧
      d.isReadOnly = d'.isReadOnly ∧ d.slot key = d'.slot key ∧
      ∀ key', key' ≠ key → d.slot key' = c.slot key' ∧ d'.slot key' = c'.slot key' := by
  induction p generalizing c c' with
  | done a => exact ⟨a, c, c', rfl, rfl, hread, hslot, fun _ _ => ⟨rfl, rfl⟩⟩
  | now next ih => exact ih clock h hread hslot
  | ask r next ih =>
      obtain ⟨hr, hnext⟩ := h
      rw [Store.answer_mk_false] at hnext
      obtain ⟨hreply, hafter⟩ := Contents.answer_congr hr hread hslot
      obtain ⟨a, d, d', hrun, hrun', hread', hslot', hothers⟩ :=
        ih _ hnext (by simpa using hread) hafter
      refine ⟨a, d, d', ?_, hrun', hread', hslot', fun key' hne => ?_⟩
      · simp only [run, Store.answer_mk_false, hreply]
        exact hrun
      · obtain ⟨hd, hd'⟩ := hothers key' hne
        rw [hd, hd', Contents.slot_answer_of_ne hr hne.symm, Contents.slot_answer_of_ne hr hne.symm]
        exact ⟨rfl, rfl⟩

/-- A program that runs over what is only read changes nothing. -/
theorem run_of_readOnly (p : Program α) {c : Contents} (h : c.isReadOnly = true) (clock : Instant) :
    (p.run Store.answer clock ⟨c, false⟩).2 = ⟨c, false⟩ := by
  induction p with
  | done a => rfl
  | now next ih => exact ih clock
  | ask r next ih =>
      simp only [run, Store.answer_mk_false, Contents.answer_snd_of_readOnly h]
      exact ih _

end Program

namespace Contents

/-- There is one record under a key, which reads as a message of that key with tries left. -/
structure Stands (c : Contents) (v : Vault) (key : Key) (m : Message) : Prop where
  keeps : c.Keeps key m
  key : m.key = key
  fits : m.Fits
  tries : m.errors = 0 ∨ m.errors < v.limits.maxPinAttempts

/-- There is nothing under a key, or one record with tries left. -/
def Rests (c : Contents) (v : Vault) (key : Key) : Prop :=
  c.has key = false ∨ ∃ m, c.Stands v key m

/-- Contents keep the same under a key as others, or nothing where the others keep a message past
its deadline. -/
def SweptAt (c c' : Contents) (now : Instant) (key : Key) : Prop :=
  c.slot key = c'.slot key ∨
    c.slot key = (c'.slot key).emptied ∧ ∃ m, c'.Keeps key m ∧ m.isExpired now = true

/-- Contents keep all that others do but for some messages past their deadline. All messages of the
others have tries left, and there is nothing under some keys. -/
structure Swept (c c' : Contents) (v : Vault) (now : Instant) (new : List Key) : Prop where
  isReadOnly : c.isReadOnly = c'.isReadOnly
  slots : ∀ key, c.SweptAt c' now key
  rests : ∀ key, c'.Rests v key
  new : ∀ key ∈ new, c'.has key = false

variable {c c' d d' : Contents} {v : Vault} {key key' : Key} {m : Message}
variable {now now' : Instant} {new : List Key}

theorem emptied_slot_answer (c : Contents) (r : Request) (key : Key) :
    ((c.answer r).2.slot key).emptied = (c.slot key).emptied := by
  cases c <;> rfl

theorem slot_eq_emptied (h : c.has key = false) : c.slot key = (c.slot key).emptied :=
  Slot.eq_emptied h

/-- Where there is nothing, contents of the same form are the same. -/
theorem slot_eq_of_missing (h : c.has key = false) (h' : c'.has key = false)
    (hform : (c.slot key).emptied = (c'.slot key).emptied) : c.slot key = c'.slot key := by
  rw [slot_eq_emptied h, slot_eq_emptied h', hform]

theorem has_congr (h : c.slot key = c'.slot key) : c.has key = c'.has key :=
  congrArg Slot.isFull h

/-- Whether a key is too long to be loaded depends on the form only. -/
theorem refusal?_load_congr (h : (c.slot key).emptied = (c'.slot key).emptied) :
    c.refusal? (.load key) = c'.refusal? (.load key) := by
  cases c <;> cases c' <;> simp_all [Slot.emptied, Table.refusal?_load]

/-- The tries that are left leave room for one more wrong pin. -/
theorem Stands.room (h : c.Stands v key m) : m.errors.toNat + 1 < 4294967296 := by
  have hmax := v.limits.maxPinAttempts.toNat_lt
  rcases h.tries with hzero | hlt
  · rw [hzero]
    decide
  · rw [UInt32.lt_iff_toNat_lt] at hlt
    omega

/-- A wrong pin that is not the last one allowed leaves a message with tries left. -/
theorem Stands.increment (h : c.Stands v key m) (htaken : c.refusal? (.increment key) = none)
    (hmore : ¬ v.limits.maxPinAttempts ≤ m.errors + 1) :
    (c.answer (.increment key)).2.Stands v key { m with errors := m.errors + 1 } where
  keeps := (keeps_increment htaken h.key h.fits h.room h.keeps).2
  key := h.key
  fits := h.fits.recounted _
  tries := .inr (UInt32.not_le.1 hmore)

theorem Stands.congr (h : c.Stands v key m) (hslot : d.slot key = c.slot key) :
    d.Stands v key m :=
  ⟨by rw [Keeps, hslot]; exact h.keeps, h.key, h.fits, h.tries⟩

theorem Rests.congr (h : c.Rests v key) (hslot : d.slot key = c.slot key) : d.Rests v key :=
  h.imp (has_congr hslot).trans fun ⟨m, hm⟩ => ⟨m, hm.congr hslot⟩

/-- What is loaded has the key that was asked for. -/
theorem Rests.key_of_load (h : c.Rests v key) (hload : (c.answer (.load key)).1 = .ok m) :
    m.key = key := by
  rcases h with hmissing | ⟨n, hn⟩
  · exact absurd (has_of_load hload) (by simp [hmissing])
  · cases hrefusal : c.refusal? (.load key) with
    | none =>
        rw [answer_load_of_keeps hrefusal hn.keeps] at hload
        obtain rfl := Except.ok.inj hload
        exact hn.key
    | some e =>
        rw [answer_of_refused hrefusal] at hload
        contradiction

theorem SweptAt.emptied (h : c.SweptAt c' now key) :
    (c.slot key).emptied = (c'.slot key).emptied := by
  rcases h with hsame | ⟨hgone, -⟩
  · rw [hsame]
  · rw [hgone]
    cases c'.slot key <;> rfl

theorem SweptAt.congr (h : c.SweptAt c' now key) (hd : d.slot key = c.slot key)
    (hd' : d'.slot key = c'.slot key) : d.SweptAt d' now key := by
  unfold SweptAt Keeps
  rwa [hd, hd']

/-- A purge takes nothing away that has not reached its deadline. -/
theorem SweptAt.purge (h : c.SweptAt c' now key) (hrests : c'.Rests v key) (hnow : now.IsPlain) :
    (c.answer (.purge now)).2.SweptAt c' now key := by
  have hform := (emptied_slot_answer c (.purge now) key).trans h.emptied
  have hdrops := slot_purge c now key
  have hgone (hmissing : c.has key = false) :
      (c.answer (.purge now)).2.slot key = (c'.slot key).emptied :=
    (slot_eq_emptied (hdrops.isFull_eq_false hmissing)).trans hform
  rcases h with hsame | ⟨hslot, hexpired⟩
  · rcases hrests with hmissing | ⟨m, hm⟩
    · exact .inl ((hgone ((has_congr hsame).trans hmissing)).trans (slot_eq_emptied hmissing).symm)
    · have hkeeps : c.Keeps key m := (hm.congr hsame).keeps
      cases hexpired : m.isExpired now with
      | false =>
          have hkept := has_of_keeps (keeps_purge_of_live hnow hexpired hkeeps)
          refine .inl (((hdrops.eq_or hkeeps).resolve_right ?_).trans hsame)
          intro hemptied
          rw [has, hemptied, Slot.isFull_emptied] at hkept
          contradiction
      | true =>
          refine (hdrops.eq_or hkeeps).imp (·.trans hsame) fun hemptied => ?_
          exact ⟨hemptied.trans (by rw [hsame]), m, hm.keeps, hexpired⟩
  · refine .inr ⟨hgone ?_, hexpired⟩
    rw [has, hslot, Slot.isFull_emptied]

namespace Swept

theorem refl (hrests : ∀ key, c.Rests v key) (hnew : ∀ key ∈ new, c.has key = false) :
    c.Swept c v now new :=
  ⟨rfl, fun _ => .inl rfl, hrests, hnew⟩

theorem purge (h : c.Swept c' v now new) (hnow : now.IsPlain) :
    (c.answer (.purge now)).2.Swept c' v now new where
  isReadOnly := (isReadOnly_answer c _).trans h.isReadOnly
  slots key := (h.slots key).purge (h.rests key) hnow
  rests := h.rests
  new := h.new

theorem later (h : c.Swept c' v now new) (hle : now ≤ now') : c.Swept c' v now' new where
  isReadOnly := h.isReadOnly
  slots key := (h.slots key).imp_right fun ⟨hgone, m, hm, hexpired⟩ =>
    ⟨hgone, m, hm, Message.isExpired_of_le hle hexpired⟩
  rests := h.rests
  new := h.new

/-- What is done under one key. -/
theorem congr (h : c.Swept c' v now new) (hread : d.isReadOnly = d'.isReadOnly)
    (hslot : d.SweptAt d' now key) (hrests : d'.Rests v key)
    (hnew : key ∈ new → d'.has key = false)
    (hothers : ∀ key', key' ≠ key → d.slot key' = c.slot key' ∧ d'.slot key' = c'.slot key') :
    d.Swept d' v now new where
  isReadOnly := hread
  slots key' := by
    by_cases hkey : key' = key
    · exact hkey ▸ hslot
    · exact (h.slots key').congr (hothers key' hkey).1 (hothers key' hkey).2
  rests key' := by
    by_cases hkey : key' = key
    · exact hkey ▸ hrests
    · exact (h.rests key').congr (hothers key' hkey).2
  new key' hmem := by
    by_cases hkey : key' = key
    · subst hkey
      exact hnew hmem
    · exact (has_congr (hothers key' hkey).2).trans (h.new key' hmem)

/-- What is gone on one side may be dropped on the other. -/
theorem remove (h : c.Swept c' v now new) (hmissing : c.has key = false) :
    c.Swept (c'.answer (.remove key)).2 v now new := by
  cases hserves : c'.refusal? (.remove key) with
  | some e =>
      rw [answer_of_refused hserves]
      exact h
  | none =>
      have hmissing' := (answer_remove hserves).2
      have hform := (h.slots key).emptied.trans (emptied_slot_answer c' (.remove key) key).symm
      refine h.congr (h.isReadOnly.trans (isReadOnly_answer c' _).symm)
        (.inl (slot_eq_of_missing hmissing hmissing' hform)) (.inl hmissing')
        (fun _ => hmissing') fun key' hne => ⟨rfl, ?_⟩
      exact slot_answer_of_ne rfl hne.symm

end Swept

end Contents

namespace Call

variable {v : Vault} {call : Call} {c c' : Contents} {key : Key} {m : Message} {now : Instant}
variable {new : List Key}

/-- What a call asks is about the key that it is made on, if records are kept under their keys. -/
theorem asksOnly_program (call : Call)
    (h : ∀ m, (c.answer (.load key)).1 = .ok m → m.key = key) :
    (call.program v key).AsksOnly key now ⟨c, false⟩ := by
  cases hpin : call.pin? with
  | none =>
      obtain rfl := eq_isFile_of_pin? hpin
      apply Program.asksOnly_map
      refine ⟨rfl, ?_⟩
      rw [Store.answer_mk_false]
      cases (c.answer (.load key)).1 with
      | error e => trivial
      | ok m => trivial
  | some pin =>
      rw [program_of_pin? hpin]
      apply Program.asksOnly_map
      refine ⟨rfl, ?_⟩
      rw [Store.answer_mk_false]
      cases hload : (c.answer (.load key)).1 with
      | error e => cases e <;> trivial
      | ok m =>
          have hkey : some m.key = some key := congrArg some (h m hload)
          simp only [Program.AsksOnly]
          split
          · exact ⟨rfl, trivial⟩
          split
          · refine ⟨rfl, ?_⟩
            dsimp only
            split <;> trivial
          refine ⟨hkey, ?_⟩
          dsimp only
          split
          · trivial
          · trivial
          split
          · exact ⟨hkey, trivial⟩
          · trivial

/-- A call on a key that is too long is told of the failure, unless it is only after the form. -/
theorem run_program_of_refused {e : StoreError} (h : c.refusal? (.load key) = some e) :
    (call.program v key).run Store.answer now ⟨c, false⟩ =
      (call.outcome (.error (.store e)), ⟨c, false⟩) := by
  have hload := Contents.answer_of_refused h
  cases hpin : call.pin? with
  | none =>
      obtain rfl := eq_isFile_of_pin? hpin
      rw [program, Program.run_map]
      simp only [Vault.isFile, Program.run_ask, Program.run_done, Store.answer_mk_false, hload]
      rfl
  | some pin =>
      rw [program_of_pin? hpin, Program.run_map]
      cases e with
      | loadRejected => exact absurd h Contents.refusal?_ne_loadRejected
      | _ => simp [Vault.load, hload]

theorem run_program_of_missing (htaken : c.refusal? (.load key) = none) (h : c.has key = false) :
    (call.program v key).run Store.answer now ⟨c, false⟩ =
      (call.outcome (.error .notFound), ⟨c, false⟩) := by
  cases hpin : call.pin? with
  | none =>
      obtain rfl := eq_isFile_of_pin? hpin
      rw [program, Program.run_map, Vault.run_isFile_of_missing htaken h]
      rfl
  | some pin => rw [program_of_pin? hpin, Program.run_map, Vault.run_load_of_missing htaken h]

/-- A call on a message past its deadline drops it or leaves it, and does not tell it from a missing
one but by what it says. -/
theorem run_program_of_expired (call : Call) (htaken : c.refusal? (.load key) = none)
    (h : c.Keeps key m) (hexpired : m.isExpired now = true) :
    ∃ o d, (call.program v key).run Store.answer now ⟨c, false⟩ = (o, ⟨d, false⟩) ∧
      o.settled = (call.outcome (.error .notFound)).settled ∧
        (d = c ∨ d = (c.answer (.remove key)).2) := by
  cases hpin : call.pin? with
  | none =>
      obtain rfl := eq_isFile_of_pin? hpin
      rw [program, Program.run_map, Vault.run_isFile_of_keeps htaken h]
      refine ⟨_, c, rfl, ?_, .inl rfl⟩
      simp only [hexpired, Bool.not_true, Bool.and_false, Bool.false_and]
      rfl
  | some pin =>
      rw [program_of_pin? hpin, Program.run_map, Vault.run_load_of_expired htaken h hexpired]
      refine ⟨_, _, rfl, ?_, .inr rfl⟩
      cases call <;> rfl

/-- A call finds nothing to change where there is nothing. -/
theorem run_program_snd_of_missing (call : Call) (h : c.has key = false) :
    ((call.program v key).run Store.answer now ⟨c, false⟩).2 = ⟨c, false⟩ := by
  cases hrefusal : c.refusal? (.load key) with
  | none => rw [run_program_of_missing hrefusal h]
  | some e => rw [run_program_of_refused hrefusal]

/-- A call leaves a message with tries left, or none. -/
theorem rests_run_program (call : Call) (h : c.Rests v key) :
    ∃ d, ((call.program v key).run Store.answer now ⟨c, false⟩).2 = ⟨d, false⟩ ∧
      d.Rests v key := by
  by_cases hserves : c.Serves key
  · rcases h with hmissing | ⟨m, hm⟩
    · exact ⟨c, run_program_snd_of_missing call hmissing, .inl hmissing⟩
    cases hpin : call.pin? with
    | none =>
        obtain rfl := eq_isFile_of_pin? hpin
        rw [program, Program.run_map, Vault.run_isFile_of_keeps hserves.load hm.keeps]
        exact ⟨c, rfl, .inr ⟨m, hm⟩⟩
    | some pin =>
        have hgone : (c.answer (.remove key)).2.Rests v key :=
          .inl (Contents.answer_remove hserves).2
        rw [program_of_pin? hpin, Program.run_map, Vault.run_load_of_keeps hserves hm.keeps]
        split
        · exact ⟨_, rfl, hgone⟩
        split
        · exact ⟨_, rfl, hgone⟩
        obtain rfl := hm.key
        cases hrefusal : c.refusal? (.increment m.key) with
        | some e =>
            rw [Vault.run_recordBadPin_of_refused hrefusal]
            exact ⟨c, rfl, .inr ⟨m, hm⟩⟩
        | none =>
            rw [Vault.run_recordBadPin hrefusal hm.keeps hm.fits hm.room]
            split
            · exact ⟨_, rfl, .inl (Contents.answer_remove (hserves.answer _)).2⟩
            · rename_i hmore
              exact ⟨_, rfl, .inr ⟨_, hm.increment hrefusal hmore⟩⟩
  · refine ⟨c, ?_, h⟩
    rcases Contents.refusal?_load_or_isReadOnly hserves with ⟨e, hrefusal⟩ | hread
    · rw [run_program_of_refused hrefusal]
    · exact Program.run_of_readOnly _ hread now

/-- Where messages past their deadline are gone, a call comes to the same, up to what is settled. -/
theorem run_program_of_swept (key : Key) (call : Call) (h : c.Swept c' v now new) :
    ∃ o o' d d', (call.program v key).run Store.answer now ⟨c, false⟩ = (o, ⟨d, false⟩) ∧
      (call.program v key).run Store.answer now ⟨c', false⟩ = (o', ⟨d', false⟩) ∧
      o.settled = o'.settled ∧ d.Swept d' v now new := by
  have hrefusal := Contents.refusal?_load_congr (h.slots key).emptied
  rcases h.slots key with hsame | ⟨hgone, m, hm, hexpired⟩
  · have hasks : (call.program v key).AsksOnly key now ⟨c', false⟩ :=
      asksOnly_program call fun m => (h.rests key).key_of_load
    obtain ⟨o, d, d', hrun, hrun', hread, hslot, hothers⟩ :=
      Program.run_congr hasks h.isReadOnly hsame
    obtain ⟨e, hrests, hd⟩ : ∃ e,
        ((call.program v key).run Store.answer now ⟨c', false⟩).2 = ⟨e, false⟩ ∧ e.Rests v key :=
      rests_run_program call (h.rests key)
    refine ⟨o, o, d, d', hrun, hrun', rfl, h.congr hread (.inl hslot) ?_ ?_ hothers⟩
    · rw [hrun'] at hrests
      cases hrests
      exact hd
    · intro hkey
      have hsnd : ((call.program v key).run Store.answer now ⟨c', false⟩).2 = ⟨c', false⟩ :=
        run_program_snd_of_missing call (h.new key hkey)
      rw [hrun'] at hsnd
      cases hsnd
      exact h.new key hkey
  · have hmissing : c.has key = false := by rw [Contents.has, hgone, Slot.isFull_emptied]
    cases htaken : c'.refusal? (.load key) with
    | some e =>
        exact ⟨_, _, c, c', run_program_of_refused (hrefusal.trans htaken),
          run_program_of_refused htaken, rfl, h⟩
    | none =>
        obtain ⟨o, d', hrun', hsettled, hd'⟩ := run_program_of_expired (v := v) call htaken hm
          hexpired
        refine ⟨_, o, c, d', run_program_of_missing (hrefusal.trans htaken) hmissing, hrun',
          hsettled.symm, ?_⟩
        rcases hd' with rfl | rfl
        · exact h
        · exact h.remove hmissing

end Call

namespace Intake

/-- The lengths of what is stored for something can be told. -/
def Fits (v : Vault) (fresh : Fresh) (i : Intake) : Prop :=
  ∀ data pinHash, i.prepared v fresh = .ok (data, pinHash) →
    ∀ t, Message.Fits ⟨fresh.key, t, data, pinHash, 0, i.clientEncrypted⟩

variable {v : Vault} {c c' : Contents} {fresh : Fresh} {i : Intake} {now expiresAt : Instant}
variable {data : Bytes} {pinHash : String} {new : List Key}

theorem run_of_refused {e : StoreError} (hprepared : i.prepared v fresh = .ok (data, pinHash))
    (hexpires : now.after? i.duration = some expiresAt)
    (hsave : (c.answer (.save ⟨fresh.key, expiresAt, data, pinHash, 0, i.clientEncrypted⟩)).1 =
      .error e) :
    (i.program v fresh).run Store.answer now ⟨c, false⟩ = (.error (.store e), ⟨c, false⟩) := by
  have hsame := Contents.answer_save_of_error hsave
  rw [run_of_not_saved (s := ⟨c, false⟩) hprepared hexpires hsave, Store.answer_of_open rfl, hsame]

/-- What is saved stands, since lifetimes do not lead into leap seconds. -/
theorem stands_of_saved {m : Message} (hfits : m.Fits) (hleap : m.expiresAt.isLeap = false)
    (herrors : m.errors = 0) (hsave : (c.answer (.save m)).1 = .ok ()) :
    (c.answer (.save m)).2.Stands v m.key m := by
  obtain ⟨t, -, -, hexact, hkeeps⟩ := Contents.keeps_save hfits hsave
  rw [hexact.2 (Contents.shifts_of_isLeap_eq_false _ hleap)] at hkeeps
  exact ⟨hkeeps, rfl, hfits, .inl herrors⟩

/-- All that is asked to take something in is about its key. -/
theorem asksOnly_program (s : Store) : (i.program v fresh).AsksOnly fresh.key now s := by
  rw [program_eq_persist]
  unfold Vault.persist
  split
  · trivial
  · simp only [Program.AsksOnly]
    split
    · trivial
    · refine ⟨rfl, ?_⟩
      dsimp only
      split <;> trivial

/-- What is taken in under a new key has its tries left. -/
theorem rests_run_program (hnew : c.has fresh.key = false) (hleap : now.isLeap = false)
    (hfits : i.Fits v fresh) :
    ∃ d, ((i.program v fresh).run Store.answer now ⟨c, false⟩).2 = ⟨d, false⟩ ∧
      d.Rests v fresh.key := by
  cases hprepared : i.prepared v fresh with
  | error e => exact ⟨c, by rw [run_of_error hprepared], .inl hnew⟩
  | ok prepared =>
      obtain ⟨data, pinHash⟩ := prepared
      cases hexpires : now.after? i.duration with
      | none => exact ⟨c, by rw [run_of_beyond hprepared hexpires], .inl hnew⟩
      | some expiresAt =>
          cases hsave : (c.answer (.save
              ⟨fresh.key, expiresAt, data, pinHash, 0, i.clientEncrypted⟩)).1 with
          | error e => exact ⟨c, by rw [run_of_refused hprepared hexpires hsave], .inl hnew⟩
          | ok u =>
              rw [run_of_prepared hprepared hexpires hsave]
              exact ⟨_, rfl, .inr ⟨_, stands_of_saved (hfits _ _ hprepared expiresAt)
                (Instant.isLeap_after? hleap hexpires) rfl hsave⟩⟩

/-- Where messages past their deadline are gone, taking something in under a new key comes to the
same. -/
theorem run_program_of_swept (h : c.Swept c' v now new) (hnew : c'.has fresh.key = false)
    (hnot : fresh.key ∉ new) (hleap : now.isLeap = false) (hfits : i.Fits v fresh) :
    ∃ result d d', (i.program v fresh).run Store.answer now ⟨c, false⟩ = (result, ⟨d, false⟩) ∧
      (i.program v fresh).run Store.answer now ⟨c', false⟩ = (result, ⟨d', false⟩) ∧
      d.Swept d' v now new := by
  have hsame : c.slot fresh.key = c'.slot fresh.key := by
    refine (h.slots fresh.key).resolve_right ?_
    rintro ⟨-, m, hm, -⟩
    exact absurd (Contents.has_of_keeps hm) (by simp [hnew])
  obtain ⟨result, d, d', hrun, hrun', hread, hslot, hothers⟩ :=
    Program.run_congr (asksOnly_program _) h.isReadOnly hsame
  obtain ⟨e, hrests, hd⟩ := rests_run_program hnew hleap hfits
  rw [hrun'] at hrests
  cases hrests
  exact ⟨result, d, d', hrun, hrun',
    h.congr hread (.inl hslot) hd (fun hmem => absurd hmem hnot) hothers⟩

end Intake

end ReadOnce
