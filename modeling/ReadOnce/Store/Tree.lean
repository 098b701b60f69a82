import ReadOnce.Bytes

/-!
# Trees of byte strings

A tree maps byte strings to byte strings and is read in the order of its keys, byte by byte. Every
tree carries the proof that its entries are in strictly ascending order, so that each key has one
value.
-/

namespace ReadOnce

/-- A map from byte strings to byte strings, in the order of its keys. -/
structure Tree where
  /-- The entries, keys in ascending order. -/
  entries : List (Bytes × Bytes)
  /-- Each key is less than those after it. -/
  sorted : entries.Pairwise (·.1 < ·.1)

namespace Tree

def empty : Tree :=
  ⟨[], .nil⟩

def get? (t : Tree) (key : Bytes) : Option Bytes :=
  (t.entries.find? (·.1 == key)).map Prod.snd

/-- A tree with a value for a key, whether or not the key had one. -/
def insert (t : Tree) (key value : Bytes) : Tree where
  entries := t.entries.filter (·.1 < key) ++ (key, value) :: t.entries.filter (key < ·.1)
  sorted := by
    refine List.pairwise_append.2
      ⟨t.sorted.filter _, List.pairwise_cons.2 ⟨?_, t.sorted.filter _⟩, ?_⟩
    · intro e he
      simpa using (List.mem_filter.1 he).2
    · intro d hd e he
      have hd : d.1 < key := by simpa using (List.mem_filter.1 hd).2
      rcases List.mem_cons.1 he with rfl | he
      · exact hd
      · have he : key < e.1 := by simpa using (List.mem_filter.1 he).2
        exact List.lt_trans hd he

def erase (t : Tree) (key : Bytes) : Tree where
  entries := t.entries.filter (·.1 != key)
  sorted := t.sorted.filter _

/-- The keys of a tree that are less than a bound, in ascending order. -/
def keysBelow (t : Tree) (bound : Bytes) : List Bytes :=
  (t.entries.filter (·.1 < bound)).map Prod.fst

/-- The tree of entries in any order; of a key given twice the last value counts. -/
def ofEntries (entries : List (Bytes × Bytes)) : Tree :=
  entries.foldl (fun t e => t.insert e.1 e.2) empty

end Tree

end ReadOnce
