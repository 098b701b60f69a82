import ReadOnce.Proofs.Store.Index
import ReadOnce.Proofs.Store.Rows
import ReadOnce.Store.Fault

/-!
# Forms that cannot be told apart

Which of its three forms a store has does not show. Two stores of any forms that begin empty give
the same replies to whatever is done with them, up to the words with which a message is refused, and
keep the same records at every step.

This is so for plain messages and purges at plain instants, as long as no count runs over and
nothing is refused for its size. Deadlines in leap seconds are kept by some forms only, and a purge
of trees may pass them over. Only a table refuses what has too many bytes
(`FaultyStore.not_alikeAlong_of_long_hash`).

The proof compares each store with one shelf, which both of them mirror.
-/

namespace ReadOnce

/-- The message of a row, under the key that it has, if the row reads as one. -/
def Table.Row.record? (row : Table.Row) : Option Message :=
  match row.id with
  | .text key => (row.message ⟨key⟩).toOption
  | _ => none

namespace Contents

/-- Contents without messages. -/
def IsEmpty : Contents → Prop
  | shelf s => s = .empty
  | trees t => t = .empty
  | table t => t = .empty

/-- The records, in any order; none for what does not read as one. -/
def records : Contents → List (Option Message)
  | shelf s => s.messages.map some
  | trees t => t.messages.entries.map fun e => (Message.decode e.2).toOption
  | table t => t.rows.map Table.Row.record?

/-- The messages of a shelf are kept, and nothing besides. -/
def Mirrors : Contents → Shelf → Prop
  | shelf s', s => s' = s
  | trees t, s => t.Mirrors s
  | table t, s => t.Mirrors s

variable {c : Contents} {s : Shelf}

theorem mirrors_empty (h : c.IsEmpty) : c.Mirrors .empty := by
  cases c with
  | shelf s => exact h
  | trees t =>
      obtain rfl : t = .empty := h
      exact Trees.mirrors_empty
  | table t =>
      obtain rfl : t = .empty := h
      exact .nil

theorem Mirrors.records (h : c.Mirrors s) (hs : s.IsPlain) :
    c.records.Perm (s.messages.map some) := by
  cases c with
  | shelf s' =>
      obtain rfl : s' = s := h
      exact .refl _
  | trees t =>
      refine (List.Perm.map _ (Trees.Mirrors.messages h)).trans (.of_eq ?_)
      rw [List.map_map]
      apply List.map_congr_left
      intro m hm
      rw [Function.comp_apply, Message.decode_encode (hs m hm).isExact]
      rfl
  | table t =>
      refine (List.Perm.map Table.Row.record? h).trans (.of_eq ?_)
      rw [List.map_map]
      apply List.map_congr_left
      intro m hm
      have hread : (Table.Row.of m).message ⟨m.key.text⟩ = .ok m :=
        Table.Row.message_of (hs m hm).deadline
      show ((Table.Row.of m).message ⟨m.key.text⟩).toOption = some m
      rw [hread]
      rfl

/-- Plain contents answer as the shelf that they mirror unless they refuse to, and mirror it again
afterwards. -/
theorem Mirrors.answer (h : c.Mirrors s) (hs : s.IsPlain) {r : Request} (hr : r.IsPlain)
    (hroom : s.HasRoom r) (htaken : c.refusal? r = none) :
    unworded (c.answer r).1 = unworded (s.answer r).1 ∧ (c.answer r).2.Mirrors (s.answer r).2 := by
  cases c with
  | shelf s' =>
      obtain rfl : s' = s := h
      exact ⟨rfl, rfl⟩
  | trees t =>
      have h : t.Mirrors s := h
      cases hkey : r.key? with
      | none =>
          cases r with
          | purge now =>
              obtain ⟨hcount, hmirrors⟩ :=
                h.purge_exact now fun m hm => (hs m hm).deadline.isLeap
              exact ⟨congrArg unworded hcount, hmirrors⟩
          | _ => contradiction
      | some key =>
          have hexact : ∀ m, r = .save m → m.IsExact := by
            rintro m rfl
            exact Message.IsPlain.isExact hr
          obtain ⟨hreply, hmirrors⟩ := h.answer (by simp [hkey]) hexact
          exact ⟨congrArg unworded hreply, hmirrors⟩
  | table t => exact Table.Mirrors.answer h hs hr hroom htaken

/-- What the shelf has under a key that is served is what is loaded. -/
theorem Mirrors.answer_load (h : c.Mirrors s) (hs : s.IsPlain) {key : Key} {m : Message}
    (hserves : c.Serves key) (hfind : s.find? key = some m) :
    (c.answer (.load key)).1 = .ok m := by
  have hplain : Request.IsPlain (.load key) := trivial
  have hreply := (h.answer hs hplain trivial hserves.load).1
  rw [Shelf.answer_load_of_find? hfind] at hreply
  cases hload : (c.answer (.load key)).1 with
  | ok n =>
      rw [hload] at hreply
      exact hreply
  | error e =>
      rw [hload] at hreply
      contradiction

end Contents

namespace FaultyStore

/-- What may be done with a store. -/
inductive Act where
  | ask (r : Request)
  | close

namespace Act

/-- The kind of reply that is given. -/
abbrev Reply : Act → Type
  | ask r => r.Reply
  | close => Except StoreError Unit

/-- Two replies are the same, up to the words with which a message is refused. -/
def Agree : (a : Act) → a.Reply → a.Reply → Prop
  | ask _, reply, reply' => unworded reply = unworded reply'
  | close, reply, reply' => unworded reply = unworded reply'

/-- Plain requests, and closing. -/
def IsPlain : Act → Prop
  | ask r => r.IsPlain
  | close => True

end Act

/-- The reply, and the store from then on. -/
def act (s : FaultyStore) : (a : Act) → a.Reply × FaultyStore
  | .ask r => s.answer r
  | .close => s.close

@[simp] theorem act_ask_mk_nil (s : Store) (r : Request) :
    (FaultyStore.mk s []).act (.ask r) = ((s.answer r).1, ⟨(s.answer r).2, []⟩) := rfl

@[simp] theorem act_close_mk_nil (s : Store) :
    (FaultyStore.mk s []).act .close = (.ok (), ⟨s.close, []⟩) := rfl

/-- The records of a store. -/
def records (s : FaultyStore) : List (Option Message) :=
  s.store.contents.records

/-- Where a wrong pin is counted next, there is room for one more. -/
def HasRoom (s : FaultyStore) : Act → Prop
  | .ask (.increment key) =>
    ∀ m, (s.store.contents.answer (.load key)).1 = .ok m → m.errors.toNat + 1 < 4294967296
  | _ => True

/-- What is done next is not refused, if it gets to the store. -/
def Takes (s : FaultyStore) : Act → Prop
  | .ask r =>
    Fault.take? (fun f => f.reply? r) s.faults = none → s.store.isClosed = false →
      s.store.contents.refusal? r = none
  | .close => True

/-- Nothing that is done in turn is refused. -/
def TakesAlong (s : FaultyStore) : List Act → Prop
  | [] => True
  | a :: acts => s.Takes a ∧ (s.act a).2.TakesAlong acts

/-- There is room for one more wrong pin wherever one is counted. -/
def HasRoomAlong (s : FaultyStore) : List Act → Prop
  | [] => True
  | a :: acts => s.HasRoom a ∧ (s.act a).2.HasRoomAlong acts

/-- Two stores keep the same records at every step, and give replies that agree. -/
def AlikeAlong (s s' : FaultyStore) : List Act → Prop
  | [] => s.records.Perm s'.records
  | a :: acts =>
    s.records.Perm s'.records ∧ a.Agree (s.act a).1 (s'.act a).1 ∧
      (s.act a).2.AlikeAlong (s'.act a).2 acts

/-- Only a table refuses anything. -/
theorem takesAlong_of_isTable_eq_false {s : FaultyStore} (h : s.store.contents.isTable = false)
    (acts : List Act) : s.TakesAlong acts := by
  induction acts generalizing s with
  | nil => trivial
  | cons a acts ih =>
      refine ⟨?_, ih ?_⟩
      · cases a with
        | ask r => exact fun _ _ => Contents.refusal?_of_isTable_eq_false h r
        | close => trivial
      · cases a with
        | ask r =>
            simp only [act, FaultyStore.answer]
            split
            · exact h
            · simp only [Store.answer]
              split
              · exact h
              · exact (Contents.isTable_answer _ r).trans h
        | close =>
            simp only [act, FaultyStore.close]
            split <;> exact h

/-- Two stores that mirror one plain shelf and differ in nothing else. -/
structure Twins (s s' : FaultyStore) : Prop where
  faults : s.faults = s'.faults
  isClosed : s.store.isClosed = s'.store.isClosed
  contents : ∃ shelf : Shelf, shelf.IsPlain ∧ s.store.contents.Mirrors shelf ∧
    s'.store.contents.Mirrors shelf

namespace Twins

variable {s s' : FaultyStore} {a : Act}

theorem records (h : Twins s s') : s.records.Perm s'.records := by
  obtain ⟨shelf, hplain, hc, hc'⟩ := h.contents
  exact (hc.records hplain).trans (hc'.records hplain).symm

theorem store_answer (h : Twins s s') {r : Request} (hr : r.IsPlain) (hroom : s.HasRoom (.ask r))
    (htaken : s.store.isClosed = false → s.store.contents.refusal? r = none)
    (htaken' : s'.store.isClosed = false → s'.store.contents.refusal? r = none) :
    unworded (s.store.answer r).1 = unworded (s'.store.answer r).1 ∧
      Twins ⟨(s.store.answer r).2, s.faults⟩ ⟨(s'.store.answer r).2, s.faults⟩ := by
  obtain ⟨⟨c, isClosed⟩, faults⟩ := s
  obtain ⟨⟨c', _⟩, _⟩ := s'
  obtain ⟨rfl, rfl, shelf, hplain, hc, hc'⟩ := h
  cases isClosed with
  | true => exact ⟨rfl, rfl, rfl, shelf, hplain, hc, hc'⟩
  | false =>
      have htaken : c.refusal? r = none := htaken rfl
      have htaken' : c'.refusal? r = none := htaken' rfl
      have hroom : shelf.HasRoom r := by
        cases r with
        | increment key =>
            intro m hfind
            have hserves := Contents.serves_of_increment htaken
            exact hroom m (hc.answer_load hplain hserves hfind)
        | _ => trivial
      obtain ⟨hreply, hnext⟩ := hc.answer hplain hr hroom htaken
      obtain ⟨hreply', hnext'⟩ := hc'.answer hplain hr hroom htaken'
      exact ⟨hreply.trans hreply'.symm, rfl, rfl, _, hplain.answer hr, hnext, hnext'⟩

/-- Whatever is done with twins, their replies agree and they stay twins. -/
theorem act (h : Twins s s') (ha : a.IsPlain) (hroom : s.HasRoom a) (htakes : s.Takes a)
    (htakes' : s'.Takes a) :
    a.Agree (s.act a).1 (s'.act a).1 ∧ Twins (s.act a).2 (s'.act a).2 := by
  cases a with
  | ask r =>
      have htakes' : Fault.take? (fun f => f.reply? r) s.faults = none →
          s'.store.isClosed = false → s'.store.contents.refusal? r = none := by
        rw [h.faults]
        exact htakes'
      simp only [FaultyStore.act, FaultyStore.answer, ← h.faults]
      split
      · exact ⟨rfl, rfl, h.isClosed, h.contents⟩
      · rename_i hfaults
        exact h.store_answer ha hroom (htakes hfaults) (htakes' hfaults)
  | close =>
      simp only [FaultyStore.act, FaultyStore.close, ← h.faults]
      split
      · exact ⟨rfl, rfl, h.isClosed, h.contents⟩
      · exact ⟨rfl, rfl, rfl, h.contents⟩

theorem alikeAlong (h : Twins s s') {acts : List Act} (hplain : ∀ a ∈ acts, a.IsPlain)
    (hroom : s.HasRoomAlong acts) (htakes : s.TakesAlong acts) (htakes' : s'.TakesAlong acts) :
    s.AlikeAlong s' acts := by
  induction acts generalizing s s' with
  | nil => exact h.records
  | cons a acts ih =>
      obtain ⟨ha, hacts⟩ := List.forall_mem_cons.1 hplain
      obtain ⟨hreply, hnext⟩ := h.act ha hroom.1 htakes.1 htakes'.1
      exact ⟨h.records, hreply, ih hnext hacts hroom.2 htakes.2 htakes'.2⟩

end Twins

/-- Two stores of any forms that begin empty, and fail the same calls for trial if any, agree on
every reply and keep the same records at every step, whatever is done with them in turn that neither
refuses: plain messages saved, messages of any keys loaded, dropped and counted on while there is
room, purges at plain instants, and closing. -/
theorem alikeAlong_of_isEmpty {c c' : Contents} (hc : c.IsEmpty) (hc' : c'.IsEmpty)
    (isClosed : Bool) (faults : List Fault) {acts : List Act} (hplain : ∀ a ∈ acts, a.IsPlain)
    (hroom : HasRoomAlong ⟨⟨c, isClosed⟩, faults⟩ acts)
    (htakes : TakesAlong ⟨⟨c, isClosed⟩, faults⟩ acts)
    (htakes' : TakesAlong ⟨⟨c', isClosed⟩, faults⟩ acts) :
    AlikeAlong ⟨⟨c, isClosed⟩, faults⟩ ⟨⟨c', isClosed⟩, faults⟩ acts := by
  have htwins : Twins ⟨⟨c, isClosed⟩, faults⟩ ⟨⟨c', isClosed⟩, faults⟩ := by
    refine ⟨rfl, rfl, .empty, ?_, Contents.mirrors_empty hc, Contents.mirrors_empty hc'⟩
    intro m hm
    contradiction
  exact htwins.alikeAlong hplain hroom htakes htakes'

/-- A message whose deadline is half a second before the epoch is saved twice, counted on and purged
at its deadline. -/
theorem alikeAlong_before_epoch :
    let m : Message := ⟨⟨"k"⟩, ⟨-1, 500000000, by decide, by decide, by decide⟩, [7], "", 0, false⟩
    let acts : List Act := [.ask (.save m), .ask (.save m), .ask (.increment m.key),
      .ask (.purge m.expiresAt), .close, .ask (.load m.key)]
    AlikeAlong ⟨⟨.shelf .empty, false⟩, []⟩ ⟨⟨.trees .empty, false⟩, []⟩ acts ∧
      AlikeAlong ⟨⟨.shelf .empty, false⟩, []⟩ ⟨⟨.table .empty, false⟩, []⟩ acts := by
  intro m acts
  have hm : m.IsPlain := ⟨⟨by decide, by decide, by decide⟩, ⟨rfl, by decide, by decide⟩⟩
  have hplain : ∀ a ∈ acts, a.IsPlain := by
    simp [acts, Act.IsPlain, Request.IsPlain, hm, hm.deadline]
  have hroom : HasRoomAlong ⟨⟨.shelf .empty, false⟩, []⟩ acts := by
    refine ⟨trivial, trivial, ?_, trivial, trivial, trivial, trivial⟩
    intro n hload
    have hn : Except.ok m = Except.ok n := hload
    cases hn
    decide
  have hshelf : TakesAlong ⟨⟨.shelf .empty, false⟩, []⟩ acts :=
    takesAlong_of_isTable_eq_false rfl acts
  have htrees : TakesAlong ⟨⟨.trees .empty, false⟩, []⟩ acts :=
    takesAlong_of_isTable_eq_false rfl acts
  have htable : TakesAlong ⟨⟨.table .empty, false⟩, []⟩ acts := by
    refine ⟨fun _ _ => ?_, fun _ _ => ?_, fun _ _ => ?_, fun _ _ => ?_, trivial, ?_, trivial⟩
    · decide
    · decide
    · decide
    · simp [Table.refusal?_purge_eq_none_iff, Table.empty]
    · simp [Takes]
  have hempty : Contents.IsEmpty (.shelf .empty) := rfl
  have hempty' : Contents.IsEmpty (.trees .empty) := rfl
  have hempty'' : Contents.IsEmpty (.table .empty) := rfl
  constructor
  · exact alikeAlong_of_isEmpty hempty hempty' false [] hplain hroom hshelf htrees
  · exact alikeAlong_of_isEmpty hempty hempty'' false [] hplain hroom hshelf htable

/-- A message whose hash has too many bytes is kept in memory, and a table refuses it. -/
theorem not_agree_save {m : Message} (hplain : m.IsPlain)
    (hlong : Table.maxSize < m.pinHash.utf8ByteSize) :
    ¬(Act.ask (.save m)).Agree (act ⟨⟨.shelf .empty, false⟩, []⟩ (.ask (.save m))).1
      (act ⟨⟨.table .empty, false⟩, []⟩ (.ask (.save m))).1 := by
  have hexp : (Table.nanos? m.expiresAt).isSome = true := by
    rw [Table.nanos?_of_isPlain hplain.deadline]
    rfl
  obtain ⟨e, hrefused⟩ := Table.empty.refusal?_save_of_long_hash hexp hlong
  simp only [Act.Agree, act_ask_mk_nil, Store.answer_mk_false, Contents.answer_shelf,
    Contents.answer_table, Shelf.empty.answer_save_of_missing rfl,
    Table.answer_of_refused hrefused]
  simp [unworded]

/-- So the forms can be told apart by a plain message with a hash of more than a thousand million
bytes. -/
theorem not_alikeAlong_of_long_hash :
    let m : Message :=
      ⟨⟨"k"⟩, .epoch, [], String.ofList (List.replicate 1000100000 'a'), 0, false⟩
    (∀ a ∈ [Act.ask (.save m)], a.IsPlain) ∧
      HasRoomAlong ⟨⟨.shelf .empty, false⟩, []⟩ [.ask (.save m)] ∧
      ¬AlikeAlong ⟨⟨.shelf .empty, false⟩, []⟩ ⟨⟨.table .empty, false⟩, []⟩ [.ask (.save m)] := by
  intro m
  have hhash : (Text.utf8 m.pinHash).length = 1000100000 := Text.length_utf8_replicate _
  have hm : m.IsPlain := by
    refine ⟨⟨by decide, by decide, ?_⟩, ⟨rfl, by decide, by decide⟩⟩
    rw [hhash]
    decide
  have hlong : Table.maxSize < m.pinHash.utf8ByteSize := by
    rw [← Text.length_utf8, hhash]
    decide
  have hplain : ∀ a ∈ [Act.ask (.save m)], a.IsPlain := List.forall_mem_singleton.2 hm
  refine ⟨hplain, ⟨trivial, trivial⟩, ?_⟩
  rintro ⟨-, hreply, -⟩
  exact not_agree_save hm hlong hreply

end FaultyStore

end ReadOnce
