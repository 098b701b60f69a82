import ReadOnce.Proofs.Store.Record

/-!
# What a purge spares

A purge at a plain instant leaves every record that has not reached its deadline as it is, whatever
else the store keeps. At other instants it may not: a table compares numbers of 64 bits only, and
within a leap second it takes the clock for a second later than it is.
-/

namespace ReadOnce

namespace Trees

variable {t : Trees} {now : Instant} {key : Key} {b : Bytes} {m : Message}

theorem bytesAt_purge_of_live (hm : Message.decode b = .ok m) (hlive : m.isExpired now = false)
    (h : t.bytesAt key = some b) : (t.purge now).2.bytesAt key = some b := by
  obtain ⟨visited, hpurge⟩ := t.get?_purgeEntries now (t.expiry.keysBelow (purgeBound now)) 0
    (Text.utf8 key.text)
  have hreached : isReached now b = false := by simp [isReached, hm, hlive]
  have hget : t.messages.get? (Text.utf8 key.text) = some b := h
  rw [hget, Option.filter_some, hreached] at hpurge
  exact hpurge

end Trees

/-- What has not reached its deadline is kept. -/
theorem Contents.keeps_purge_of_live {c : Contents} {key : Key} {m : Message} {now : Instant}
    (hnow : now.IsPlain) (hlive : m.isExpired now = false) (h : c.Keeps key m) :
    (c.answer (.purge now)).2.Keeps key m := by
  cases c with
  | shelf s =>
      have hfind : s.find? key = some m := h
      show (s.filter fun m => !m.isExpired now).find? key = some m
      rw [Shelf.find?_filter, hfind, Option.filter_some, hlive]
      rfl
  | trees t =>
      obtain ⟨b, hb, hm⟩ := h
      exact ⟨b, Trees.bytesAt_purge_of_live hm hlive hb, hm⟩
  | table t =>
      obtain ⟨row, hrow, hm⟩ := h
      have hrow : t.rowsAt key = [row] := hrow
      have hdue := Table.atMost_of_message hm hnow
      refine ⟨row, ?_, hm⟩
      refine Table.answer_snd_of (P := fun t' => t'.rowsAt key = [row]) hrow ?_
      rw [Table.perform_purge, Table.purge, Table.rowsAt_filter, hrow]
      simp [hdue, hlive]

end ReadOnce
