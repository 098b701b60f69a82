import Mathlib.Data.List.Nodup
import Mathlib.Data.List.Range
import ReadOnce.Proofs.Vault.Running

/-!
# Counting wrong pins

Every count that the store answers is one more than the count before it, whoever asked and whatever
came in between: the counts of a message are 1, 2, 3 and so on until it is gone. `Numbered` says so
up to a bound that 32 bits can hold, and nothing is said of what is counted beyond it.
-/

namespace ReadOnce

variable {ι : Type}

/-- The count that was answered when a wrong pin was counted on the message under a key. -/
def Exchange.count? (key : Key) : Exchange ι → Option UInt32
  | ⟨_, .increment k, .ok n⟩ => if k = key then some n else none
  | _ => none

theorem Exchange.count?_eq_some_iff {key : Key} {x : Exchange ι} {a : UInt32} :
    count? key x = some a ↔ ∃ caller, x = ⟨caller, .increment key, .ok a⟩ := by
  constructor
  · intro h
    unfold count? at h
    split at h
    · rename_i caller k n
      split at h
      · rename_i hk
        subst hk
        exact ⟨caller, by rw [Option.some.inj h]⟩
      · contradiction
    · contradiction
  · rintro ⟨caller, rfl⟩
    exact if_pos rfl

/-- The first counts, from one on. -/
def firstCounts (n : Nat) : List UInt32 :=
  (List.range' 1 n).map UInt32.ofNat

@[simp] theorem length_firstCounts (n : Nat) : (firstCounts n).length = n := by
  simp [firstCounts]

theorem firstCounts_succ (n : Nat) :
    firstCounts (n + 1) = firstCounts n ++ [UInt32.ofNat (n + 1)] := by
  simp [firstCounts, List.range'_concat, Nat.add_comm]

theorem mem_firstCounts_iff {n : Nat} {a : UInt32} (hn : n < 4294967296) :
    a ∈ firstCounts n ↔ 1 ≤ a.toNat ∧ a.toNat ≤ n := by
  constructor
  · intro h
    obtain ⟨k, hk, rfl⟩ := List.mem_map.1 h
    rw [List.mem_range'_1] at hk
    rw [UInt32.toNat_ofNat']
    omega
  · rintro ⟨hpos, hle⟩
    refine List.mem_map.2 ⟨a.toNat, ?_, UInt32.ofNat_toNat⟩
    rw [List.mem_range'_1]
    omega

theorem nodup_firstCounts {n : Nat} (hn : n < 4294967296) : (firstCounts n).Nodup := by
  refine List.Nodup.map_on ?_ List.nodup_range'
  intro j hj k hk h
  rw [List.mem_range'_1] at hj hk
  have h := congrArg UInt32.toNat h
  rw [UInt32.toNat_ofNat', UInt32.toNat_ofNat'] at h
  omega

theorem toNat_count {k : Nat} (hk : k + 1 < 4294967296) :
    (UInt32.ofNat k).toNat = k ∧ UInt32.ofNat k + 1 = UInt32.ofNat (k + 1) := by
  have hcount : (UInt32.ofNat k).toNat = k := by
    rw [UInt32.toNat_ofNat']
    omega
  refine ⟨hcount, UInt32.toNat_inj.1 ?_⟩
  rw [UInt32.toNat_add, hcount, UInt32.toNat_ofNat']
  rfl

namespace Contents

variable {c : Contents} {n : Message} {bound : Nat} {counts : List UInt32}

/-- A message has been counted on from one on: as long as the counts are below the bound, they are
the first ones, and the message has the last of them or is gone. -/
def Numbered (c : Contents) (n : Message) (bound : Nat) (counts : List UInt32) : Prop :=
  (∃ k < bound, counts = firstCounts k ∧
      (c.Keeps n.key { n with errors := UInt32.ofNat k } ∨ c.has n.key = false)) ∨
    firstCounts bound <+: counts

namespace Numbered

/-- A change that leaves the message as it is, or takes it away, counts nothing. -/
theorem mono (h : c.Numbered n bound counts) {c' : Contents}
    (hkeeps : ∀ m, c.Keeps n.key m → c'.Keeps n.key m ∨ c'.has n.key = false)
    (hhas : c.has n.key = false → c'.has n.key = false) : c'.Numbered n bound counts := by
  refine h.imp_left ?_
  rintro ⟨k, hk, hcounts, hkept | hgone⟩
  · exact ⟨k, hk, hcounts, hkeeps _ hkept⟩
  · exact ⟨k, hk, hcounts, .inr (hhas hgone)⟩

theorem increment (h : c.Numbered n bound counts) (hfits : n.Fits) (hbound : bound < 4294967296)
    (caller : Option ι) :
    (c.answer (.increment n.key)).2.Numbered n bound (counts ++
      (Exchange.count? n.key
        ⟨caller, .increment n.key, (c.answer (.increment n.key)).1⟩).toList) := by
  rcases h with ⟨k, hk, rfl, hkept | hgone⟩ | hfirst
  · have hroom : k + 1 < 4294967296 := by omega
    obtain ⟨hcount, hsucc⟩ := toNat_count hroom
    cases htaken : c.refusal? (.increment n.key) with
    | some e =>
        rw [answer_of_refused htaken]
        exact .inl ⟨k, hk, by simp [Exchange.count?], .inl hkept⟩
    | none =>
        obtain ⟨hreply, hkept⟩ := keeps_increment
          (m := { n with errors := UInt32.ofNat k }) htaken rfl (hfits.recounted _)
          (by rwa [hcount]) hkept
        simp only [hsucc] at hreply hkept
        have hcounts : firstCounts k ++ (Exchange.count? n.key
            ⟨caller, .increment n.key, (c.answer (.increment n.key)).1⟩).toList =
              firstCounts (k + 1) := by
          rw [firstCounts_succ, hreply]
          simp [Exchange.count?]
        rw [hcounts]
        rcases Nat.lt_or_ge (k + 1) bound with hmore | hlast
        · exact .inl ⟨k + 1, hmore, rfl, .inl hkept⟩
        · obtain rfl : bound = k + 1 := by omega
          exact .inr (List.prefix_refl _)
  · have hcount : Exchange.count? n.key
        ⟨caller, .increment n.key, (c.answer (.increment n.key)).1⟩ = none := by
      obtain ⟨e, he⟩ := answer_increment_fst_of_missing hgone
      rw [he]
      rfl
    rw [answer_increment_snd_of_missing hgone, hcount]
    exact .inl ⟨k, hk, List.append_nil _, .inr hgone⟩
  · exact .inr (hfirst.trans (List.prefix_append ..))

theorem answer (h : c.Numbered n bound counts) (hfits : n.Fits) (hbound : bound < 4294967296)
    (caller : Option ι) {r : Request} (hr : ∀ m, r = .save m → m.key ≠ n.key) :
    (c.answer r).2.Numbered n bound
      (counts ++ (Exchange.count? n.key ⟨caller, r, (c.answer r).1⟩).toList) := by
  by_cases hinc : r = .increment n.key
  · subst hinc
    exact h.increment hfits hbound caller
  · have hnone : Exchange.count? n.key ⟨caller, r, (c.answer r).1⟩ = none := by
      cases r with
      | increment k =>
          have hk : k ≠ n.key := fun hk => hinc (hk ▸ rfl)
          generalize (c.answer (.increment k)).1 = reply
          cases reply <;> simp [Exchange.count?, hk]
      | _ => rfl
    rw [hnone, Option.toList_none, List.append_nil]
    refine h.mono ?_ (has_answer_eq_false hr)
    intro m hkept
    by_cases hkey : r.key? = some n.key
    · cases r with
      | save m => exact absurd (Option.some.inj hkey) (hr m rfl)
      | load k => exact .inl (by rwa [answer_load_snd])
      | increment k => exact absurd (congrArg Request.increment (Option.some.inj hkey)) hinc
      | remove k =>
          obtain rfl : k = n.key := Option.some.inj hkey
          cases hserves : c.refusal? (.remove n.key) with
          | none => exact .inr (answer_remove hserves).2
          | some e => exact .inl (by rwa [answer_of_refused hserves])
      | purge now => contradiction
    · exact keeps_answer_of_ne hkey hkept

theorem purgeStep (h : c.Numbered n bound counts) (now : Instant) (place : Bytes) :
    (c.purgeStep now place).Numbered n bound counts :=
  h.mono (fun _ => keeps_purgeStep now place) (has_purgeStep_eq_false now place)

end Numbered

end Contents

namespace Scene

variable {v : Vault} {key : Key} {ask : ι → Call} {s : Scene ι}

/-- The counts of wrong pins that were answered for a key, in turn. -/
def counts (s : Scene ι) (key : Key) : List UInt32 :=
  (s.log.filterMap (Exchange.count? key)).reverse

variable [DecidableEq ι]

/-- The counts of a message that none has been counted on are numbered from one on. -/
theorem Running.numbered_run {n : Message} {bound : Nat} (h : s.Running v n.key ask)
    (hfits : n.Fits) (hbound : bound < 4294967296) (hlog : s.log = [])
    (hkeeps : s.store.contents.Keeps n.key n) (hnone : n.errors = 0) {es : List (Event ι)}
    (hes : ∀ e ∈ es, e.SavesNot n.key) :
    (s.run es).store.contents.Numbered n bound ((s.run es).counts n.key) := by
  have hstart : s.store.contents.Numbered n bound (s.counts n.key) := by
    cases bound with
    | zero => exact .inr List.nil_prefix
    | succ b =>
        refine .inl ⟨0, Nat.succ_pos b, ?_, .inl ?_⟩
        · simp [counts, hlog, firstCounts]
        · have hzero : UInt32.ofNat 0 = n.errors := hnone.symm
          rwa [hzero]
  refine h.contents_induction
    (P := fun c log => c.Numbered n bound (log.filterMap (Exchange.count? n.key)).reverse)
    ?_ (fun _ _ now place hc => hc.purgeStep now place) hstart hes
  intro c log caller r hr hc
  have hcounts : ((⟨caller, r, (c.answer r).1⟩ :: log : List (Exchange ι)).filterMap
      (Exchange.count? n.key)).reverse = (log.filterMap (Exchange.count? n.key)).reverse ++
        (Exchange.count? n.key ⟨caller, r, (c.answer r).1⟩).toList := by
    rw [List.filterMap_cons]
    cases Exchange.count? n.key ⟨caller, r, (c.answer r).1⟩ <;> simp
  rw [hcounts]
  exact hc.answer hfits hbound caller hr

/-- The counts of a message that was taken in are the first ones, as long as they are below a bound
that 32 bits can hold. -/
theorem counts_of_saved {fresh : Fresh} {intake : Intake} {t : Instant} {m : Message}
    {before after : Store} (hsaved : intake.Saved v fresh t m before after) (hfits : m.Fits)
    (ask : ι → Call) (clock : Instant) {bound : Nat} (hbound : bound < 4294967296)
    {es : List (Event ι)} (hes : ∀ e ∈ es, e.SavesNot m.key) :
    (∃ k < bound, ((Scene.start v m.key ask after clock).run es).counts m.key = firstCounts k) ∨
      firstCounts bound <+: ((Scene.start v m.key ask after clock).run es).counts m.key := by
  obtain ⟨u, -, -, hkeeps⟩ := hsaved.keeps_after hfits
  have hrunning : (Scene.start v m.key ask after clock).Running v m.key ask :=
    .start hsaved.open_after hsaved.serves_after
  have hnumbered := Running.numbered_run (n := { m with expiresAt := u }) hrunning
    (hfits.redated u) hbound rfl hkeeps hsaved.errors hes
  refine hnumbered.imp_left ?_
  rintro ⟨k, hk, hcounts, -⟩
  exact ⟨k, hk, hcounts⟩

/-- The counts of a message that was taken in are the first ones, if there are no more of them than
32 bits can hold. -/
theorem counts_eq_of_saved {fresh : Fresh} {intake : Intake} {t : Instant} {m : Message}
    {before after : Store} (hsaved : intake.Saved v fresh t m before after) (hfits : m.Fits)
    (ask : ι → Call) (clock : Instant) {es : List (Event ι)} (hes : ∀ e ∈ es, e.SavesNot m.key)
    (hroom : (((Scene.start v m.key ask after clock).run es).counts m.key).length < 4294967296) :
    ((Scene.start v m.key ask after clock).run es).counts m.key =
      firstCounts (((Scene.start v m.key ask after clock).run es).counts m.key).length := by
  -- The bound is the last count that fits, so that it leaves no room for any beyond it.
  have hbound : 4294967295 < 4294967296 := by decide
  rcases counts_of_saved hsaved hfits ask clock hbound hes with ⟨k, -, hcounts⟩ | hprefix
  · have hlength := congrArg List.length hcounts
    rw [length_firstCounts] at hlength
    rwa [← hlength] at hcounts
  · have hall := hprefix.eq_of_length_le (by rw [length_firstCounts]; omega)
    rw [← hall, length_firstCounts]

end Scene

end ReadOnce
