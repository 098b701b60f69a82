import Mathlib.Data.List.Nodup
import ReadOnce.Store.Tree

/-!
# Looking up in trees

What a tree maps a key to after each change: a change to one key is seen under that key only. The
value of a key is the one that stands with it among the entries, of which no two share a key.
-/

namespace ReadOnce

section Keys

variable {α β : Type} [BEq β] [LawfulBEq β] {key : α → β} {l : List α}

/-- Where no two elements share a key, each is the only one with its key. -/
theorem filter_key_of_nodup (h : (l.map key).Nodup) {a : α} (ha : a ∈ l) :
    l.filter (key · == key a) = [a] := by
  refine List.perm_singleton.1 ((List.perm_ext_iff_of_nodup ?_ (List.nodup_singleton a)).2 ?_)
  · exact (List.Nodup.of_map _ h).filter _
  · intro b
    simp only [List.mem_filter, beq_iff_eq, List.mem_singleton]
    constructor
    · rintro ⟨hb, hkey⟩
      exact List.inj_on_of_nodup_map h hb ha hkey
    · rintro rfl
      exact ⟨ha, rfl⟩

/-- Such a list is any of its elements and those with other keys. -/
theorem perm_cons_filter_of_nodup (h : (l.map key).Nodup) {a : α} (ha : a ∈ l) :
    l.Perm (a :: l.filter (key · != key a)) := by
  have hsplit := List.filter_append_perm (fun b => key b == key a) l
  rw [filter_key_of_nodup h ha] at hsplit
  exact hsplit.symm

end Keys

namespace Tree

variable (t : Tree) {key key' : Bytes}

theorem lt_or_lt_of_ne (h : key ≠ key') : key < key' ∨ key' < key := by
  by_cases hlt : key < key'
  · exact .inl hlt
  · by_cases hgt : key' < key
    · exact .inr hgt
    · exact absurd (List.le_antisymm (List.not_lt.1 hgt) (List.not_lt.1 hlt)) h

/-- Entries that are chosen by their keys are all found or none of them is. -/
theorem find?_filter_key (entries : List (Bytes × Bytes)) (p : Bytes → Bool) (key : Bytes) :
    (entries.filter fun e => p e.1).find? (·.1 == key) =
      if p key then entries.find? (·.1 == key) else none := by
  induction entries with
  | nil => simp
  | cons e entries ih =>
      by_cases he : e.1 = key
      · subst he
        cases hp : p e.1 <;> simp [hp, ih]
      · have hne : (e.1 == key) = false := by simpa using he
        cases hp : p e.1 <;> simp [hp, hne, ih]

@[simp] theorem get?_insert_self (key value : Bytes) :
    (t.insert key value).get? key = some value := by
  have hself : decide (key < key) = false := by simp
  simp only [get?, insert, List.find?_append, find?_filter_key _ (fun k => decide (k < key)), hself]
  simp

theorem get?_insert_of_ne {value : Bytes} (h : key' ≠ key) :
    (t.insert key value).get? key' = t.get? key' := by
  have hkey : (key == key') = false := by simpa using h.symm
  simp only [get?, insert, List.find?_append, List.find?_cons, hkey,
    find?_filter_key _ (fun k => decide (k < key)), find?_filter_key _ (fun k => decide (key < k))]
  rcases lt_or_lt_of_ne h with hlt | hgt
  · simp [hlt, List.lt_asymm hlt]
  · simp [hgt, List.lt_asymm hgt]

@[simp] theorem get?_erase_self (key : Bytes) : (t.erase key).get? key = none := by
  simp [get?, erase, find?_filter_key _ (· != key)]

theorem get?_erase_of_ne (h : key' ≠ key) : (t.erase key).get? key' = t.get? key' := by
  simp [get?, erase, find?_filter_key _ (· != key), h]

theorem nodup_keys : (t.entries.map Prod.fst).Nodup := by
  rw [List.Nodup, List.pairwise_map]
  refine t.sorted.imp ?_
  intro a b hlt heq
  exact List.lt_irrefl _ (heq ▸ hlt)

theorem get?_eq_none_iff : t.get? key = none ↔ ∀ e ∈ t.entries, e.1 ≠ key := by
  simp [get?, List.find?_eq_none]

theorem get?_eq_some_iff {value : Bytes} :
    t.get? key = some value ↔ (key, value) ∈ t.entries := by
  constructor
  · intro h
    obtain ⟨e, he, rfl⟩ := Option.map_eq_some_iff.1 h
    have hkey : e.1 = key := by simpa using List.find?_some he
    rw [← hkey]
    exact List.mem_of_find?_eq_some he
  · intro h
    cases hget : t.get? key with
    | none => exact absurd rfl (t.get?_eq_none_iff.1 hget _ h)
    | some value' =>
        obtain ⟨e, he, rfl⟩ := Option.map_eq_some_iff.1 hget
        have hkey : e.1 = key := by simpa using List.find?_some he
        have heq : e = (key, value) :=
          List.inj_on_of_nodup_map t.nodup_keys (List.mem_of_find?_eq_some he) h hkey
        rw [heq]

/-- A value that is put into a tree takes the place of the one that was there. -/
theorem entries_insert_perm (key value : Bytes) :
    (t.insert key value).entries.Perm ((key, value) :: t.entries.filter (·.1 != key)) := by
  have hbelow : (t.entries.filter (·.1 != key)).filter (·.1 < key) =
      t.entries.filter (·.1 < key) := by
    rw [List.filter_filter]
    refine List.filter_congr ?_
    intro e _
    by_cases he : e.1 = key <;> simp [he]
  have habove : (t.entries.filter (·.1 != key)).filter (fun e => !decide (e.1 < key)) =
      t.entries.filter (key < ·.1) := by
    rw [List.filter_filter]
    refine List.filter_congr ?_
    intro e _
    by_cases he : e.1 = key
    · simp [he]
    · rcases lt_or_lt_of_ne he with hlt | hgt
      · simp [hlt, List.lt_asymm hlt]
      · simp [hgt, List.lt_asymm hgt, he]
  have hsplit := List.filter_append_perm (fun e : Bytes × Bytes => decide (e.1 < key))
    (t.entries.filter (·.1 != key))
  rw [hbelow, habove] at hsplit
  exact List.perm_middle.trans (hsplit.cons _)

/-- A key that is there costs a tree one entry. -/
theorem length_erase_of_get? {value : Bytes} (h : t.get? key = some value) :
    (t.erase key).entries.length + 1 = t.entries.length := by
  have hperm := perm_cons_filter_of_nodup t.nodup_keys (t.get?_eq_some_iff.1 h)
  rw [hperm.length_eq, List.length_cons]
  rfl

theorem length_insert_of_get? {value : Bytes} (value' : Bytes) (h : t.get? key = some value) :
    (t.insert key value').entries.length = t.entries.length :=
  (t.entries_insert_perm key value').length_eq.trans (t.length_erase_of_get? h)

variable {t} in
/-- A key that is not there costs a tree nothing. -/
theorem erase_of_missing (h : t.get? key = none) : t.erase key = t := by
  have hall : t.entries.filter (·.1 != key) = t.entries := by
    rw [List.filter_eq_self]
    simpa using t.get?_eq_none_iff.1 h
  obtain ⟨entries, sorted⟩ := t
  simp only [erase, hall]

variable {t} in
theorem entries_insert_perm_of_missing (h : t.get? key = none) (value : Bytes) :
    (t.insert key value).entries.Perm ((key, value) :: t.entries) := by
  have hperm := t.entries_insert_perm key value
  have hall : t.entries.filter (·.1 != key) = t.entries :=
    congrArg entries (erase_of_missing h)
  rwa [hall] at hperm

theorem length_insert_of_missing {value : Bytes} (h : t.get? key = none) :
    (t.insert key value).entries.length = t.entries.length + 1 :=
  (entries_insert_perm_of_missing h value).length_eq

variable {t} in
theorem mem_keysBelow_iff {bound : Bytes} :
    key ∈ t.keysBelow bound ↔ (t.get? key).isSome = true ∧ key < bound := by
  rw [keysBelow, List.mem_map, Option.isSome_iff_exists]
  constructor
  · rintro ⟨e, he, rfl⟩
    obtain ⟨he, hlt⟩ := List.mem_filter.1 he
    exact ⟨⟨e.2, t.get?_eq_some_iff.2 he⟩, of_decide_eq_true hlt⟩
  · rintro ⟨⟨value, hget⟩, hlt⟩
    exact ⟨(key, value), List.mem_filter.2 ⟨t.get?_eq_some_iff.1 hget, decide_eq_true hlt⟩, rfl⟩

theorem pairwise_keysBelow (bound : Bytes) : (t.keysBelow bound).Pairwise (· < ·) := by
  rw [keysBelow, List.pairwise_map]
  exact t.sorted.filter _

end Tree

end ReadOnce
