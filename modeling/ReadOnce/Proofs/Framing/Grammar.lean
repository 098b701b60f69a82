import Mathlib.Data.String.Basic
import ReadOnce.Proofs.Framing

/-!
# The grammar of headers

Data with a header is the marker, a line of text that holds a delimiter and ends inside the window,
a newline, and any bytes after it. The name is what comes before the first delimiter of the line,
and the content type what follows up to the next one or to the end; of three exclamation marks in a
row the first two are the delimiter. The grammar is said here without the functions that read it.

`parse?_exact` says that a header is read from the data of the grammar and from no others, that the
bytes of the file start inside the data, and that nothing after a newline has a say in any of this.
-/

namespace ReadOnce.Framing

/-- The characters that close a field. -/
def delimiter : List Char := ['!', '!']

/-- A text is cut at its first delimiter. -/
structure IsCut (s before after : List Char) : Prop where
  eq : s = before ++ delimiter ++ after
  first : ∀ before' after', s = before' ++ delimiter ++ after' → before.length ≤ before'.length

/-- A field is what comes before the first delimiter of a text, or all of it if there is none. -/
def IsField (s field : List Char) : Prop :=
  (∃ after, IsCut s field after) ∨ ¬ delimiter <:+: s ∧ field = s

/-- Data has a header: a line of text with a delimiter in it, of 4095 bytes at most, stands between
the marker and a newline, and the bytes of the file follow. -/
structure IsHeaded (data : Bytes) (line : String) (rest : Bytes) : Prop where
  eq : data = marker ++ (Text.utf8 line ++ newline :: rest)
  one_line : newline ∉ Text.utf8 line
  length_le : (Text.utf8 line).length ≤ 4095
  delimited : delimiter <:+: line.toList

/-- A header tells what its line does, and where the newline after the line ends. -/
structure Header.IsOf (h : Header) (line : String) : Prop where
  fields : ∃ after, IsCut line.toList h.name.toList after ∧ IsField after h.contentType.toList
  offset : h.dataOffset = 8 + (Text.utf8 line).length + 1

section Cut

variable {s before after : List Char}

theorem IsCut.delimited (h : IsCut s before after) : delimiter <:+: s :=
  ⟨before, after, h.eq.symm⟩

/-- There is only one place to cut a text at. -/
theorem IsCut.unique {before' after' : List Char} (h : IsCut s before after)
    (h' : IsCut s before' after') : before = before' ∧ after = after' := by
  have hlength := Nat.le_antisymm (h.first _ _ h'.eq) (h'.first _ _ h.eq)
  have heq := h.eq.symm.trans h'.eq
  rw [List.append_assoc, List.append_assoc] at heq
  obtain ⟨hbefore, hrest⟩ := List.append_inj heq hlength
  exact ⟨hbefore, List.append_cancel_left hrest⟩

/-- A character that starts no delimiter belongs to the text before the first one. -/
theorem IsCut.cons (h : IsCut s before after) {c : Char} (hc : ¬ delimiter <+: c :: s) :
    IsCut (c :: s) (c :: before) after where
  eq := congrArg (c :: ·) h.eq
  first before' after' heq := by
    cases before' with
    | nil => exact absurd ⟨after', heq.symm⟩ hc
    | cons d before' =>
        rw [List.cons_append, List.cons_append, List.cons.injEq] at heq
        exact Nat.succ_le_succ (h.first _ _ heq.2)

/-- A text is cut at its first delimiter, unless it has none. -/
theorem cut_cases (s : List Char) :
    (∃ before after, cut s = (before, some after) ∧ IsCut s before after) ∨
      cut s = (s, none) ∧ ¬ delimiter <:+: s := by
  induction s with
  | nil => exact .inr ⟨rfl, by decide⟩
  | cons c s ih =>
      by_cases hstart : delimiter <+: c :: s
      · obtain ⟨after, heq⟩ := hstart
        refine .inl ⟨[], after, ?_, heq.symm, fun _ _ _ => Nat.zero_le _⟩
        rw [← heq]
        rfl
      · have hcut : cut (c :: s) = (c :: (cut s).1, (cut s).2) := by
          apply cut_cons
          rintro ⟨rfl, hhead⟩
          obtain ⟨rest, rfl⟩ := List.head?_eq_some_iff.1 hhead
          exact hstart ⟨rest, rfl⟩
        rw [hcut]
        rcases ih with ⟨before, after, hs, his⟩ | ⟨hs, hnone⟩
        · exact .inl ⟨c :: before, after, by rw [hs], his.cons hstart⟩
        · refine .inr ⟨by rw [hs], ?_⟩
          rw [List.infix_cons_iff]
          exact not_or.2 ⟨hstart, hnone⟩

theorem cut_eq_some_iff : cut s = (before, some after) ↔ IsCut s before after := by
  rcases cut_cases s with ⟨before', after', hcut, his⟩ | ⟨hcut, hnone⟩
  · rw [hcut]
    constructor
    · rintro ⟨⟩
      exact his
    · intro h
      obtain ⟨rfl, rfl⟩ := his.unique h
      rfl
  · rw [hcut]
    exact iff_of_false (by simp) fun h => hnone h.delimited

theorem cut_fst_eq_iff {field : List Char} : (cut s).1 = field ↔ IsField s field := by
  rcases cut_cases s with ⟨before, after, hcut, his⟩ | ⟨hcut, hnone⟩
  · rw [hcut]
    constructor
    · rintro rfl
      exact .inl ⟨after, his⟩
    · rintro (⟨after', h⟩ | ⟨hnone, -⟩)
      · exact (his.unique h).1
      · exact absurd his.delimited hnone
  · rw [hcut]
    constructor
    · rintro rfl
      exact .inr ⟨hnone, rfl⟩
    · rintro (⟨after, h⟩ | ⟨-, rfl⟩)
      · exact absurd h.delimited hnone
      · rfl

/-- The fields that are read from a line are cut from it. -/
theorem fields?_eq_some_iff {name contentType : String} :
    fields? s = some (name, contentType) ↔
      ∃ after, IsCut s name.toList after ∧ IsField after contentType.toList := by
  rcases cut_cases s with ⟨before, after, hcut, his⟩ | ⟨hcut, hnone⟩
  · rw [fields?, hcut]
    simp only [Option.some.injEq, Prod.mk.injEq, String.ofList_eq, cut_fst_eq_iff]
    constructor
    · rintro ⟨rfl, hfield⟩
      exact ⟨after, his, hfield⟩
    · rintro ⟨after', hcut', hfield⟩
      obtain ⟨rfl, rfl⟩ := his.unique hcut'
      exact ⟨rfl, hfield⟩
  · rw [fields?, hcut]
    refine iff_of_false (by simp) ?_
    rintro ⟨after, h, -⟩
    exact hnone h.delimited

/-- A line has fields exactly if it holds a delimiter. -/
theorem exists_fields?_iff : (∃ f, fields? s = some f) ↔ delimiter <:+: s := by
  rcases cut_cases s with ⟨before, after, hcut, his⟩ | ⟨hcut, hnone⟩
  · exact iff_of_true ⟨_, by rw [fields?, hcut]⟩ his.delimited
  · rw [fields?, hcut]
    exact iff_of_false (by simp) hnone

end Cut

section Line

variable {data line line' rest rest' : Bytes}

theorem line?_append (h : newline ∉ line) (rest : Bytes) :
    line? (line ++ newline :: rest) = some line := by
  have htake := line?_take h (line ++ newline :: rest).length rest
  rwa [List.take_length, if_pos (by simp)] at htake

/-- Data has one first line. -/
theorem eq_of_append_newline (h : newline ∉ line) (h' : newline ∉ line')
    (heq : line ++ newline :: rest = line' ++ newline :: rest') : line = line' := by
  have hread := line?_append h rest
  rw [heq, line?_append h' rest'] at hread
  exact (Option.some.inj hread).symm

theorem line?_take_eq_some_iff {n : Nat} :
    line? (data.take n) = some line ↔
      ∃ rest, data = line ++ newline :: rest ∧ newline ∉ line ∧ line.length < n := by
  constructor
  · intro h
    by_cases hmem : newline ∈ data
    · obtain ⟨line', rest, rfl, hline⟩ := List.eq_append_cons_of_mem hmem
      rw [line?_take hline] at h
      split at h
      · rename_i hlength
        cases h
        exact ⟨rest, rfl, hline, hlength⟩
      · contradiction
    · rw [line?, if_neg fun htake => hmem (List.mem_of_mem_take htake)] at h
      contradiction
  · rintro ⟨rest, rfl, hline, hlength⟩
    rw [line?_take hline, if_pos hlength]

end Line

variable {data rest : Bytes} {line : String} {h : Header}

/-- A header is read in steps, each of which may fail. -/
theorem parse?_eq_some_steps :
    parse? data = some h ↔ isFile data = true ∧
      ∃ line, line? ((data.drop marker.length).take window) = some line ∧
        ∃ text, Text.ofUtf8? line = some text ∧
          fields? text.toList = some (h.name, h.contentType) ∧
            h.dataOffset = marker.length + line.length + 1 := by
  unfold parse?
  split
  · rename_i hfile
    cases hline : line? ((data.drop marker.length).take window) with
    | none => simp
    | some line =>
        cases htext : Text.ofUtf8? line with
        | none => simp [htext]
        | some text =>
            cases hfields : fields? text.toList with
            | none => simp [hfile, htext, hfields]
            | some f =>
                obtain ⟨name, contentType, dataOffset⟩ := h
                simp [hfile, htext, hfields, Prod.ext_iff, and_assoc, eq_comm]
  · rename_i hfile
    simp [hfile]

/-- A header is read exactly from data of the grammar, and tells what the line does. -/
theorem parse?_eq_some_iff :
    parse? data = some h ↔ ∃ line rest, IsHeaded data line rest ∧ h.IsOf line := by
  rw [parse?_eq_some_steps]
  constructor
  · rintro ⟨hfile, line, hline, text, htext, hfields, hoffset⟩
    obtain ⟨b, rfl⟩ : marker <+: data := by
      rw [isFile, Bool.and_eq_true] at hfile
      exact List.isPrefixOf_iff_prefix.1 hfile.2
    rw [List.drop_left, line?_take_eq_some_iff] at hline
    obtain ⟨rest, rfl, hone, hlength⟩ := hline
    obtain rfl := Text.ofUtf8?_eq_some_iff.1 htext
    obtain ⟨after, hcut, hfield⟩ := fields?_eq_some_iff.1 hfields
    exact ⟨text, rest, ⟨rfl, hone, Nat.le_of_lt_succ hlength, hcut.delimited⟩,
      ⟨after, hcut, hfield⟩, hoffset⟩
  · rintro ⟨line, rest, ⟨rfl, hone, hlength, -⟩, hfields, hoffset⟩
    refine ⟨isFile_marker_append (by simp), Text.utf8 line, ?_, line, Text.ofUtf8?_utf8 line,
      fields?_eq_some_iff.2 hfields, hoffset⟩
    rw [List.drop_left, line?_take_eq_some_iff]
    exact ⟨rest, rfl, hone, Nat.lt_succ_of_le hlength⟩

/-- The line of every header in the grammar tells something. -/
theorem IsHeaded.exists_isOf (h : IsHeaded data line rest) : ∃ h : Header, h.IsOf line := by
  obtain ⟨⟨name, contentType⟩, hfields⟩ := exists_fields?_iff.2 h.delimited
  exact ⟨⟨name, contentType, _⟩, fields?_eq_some_iff.1 hfields, rfl⟩

/-- The bytes of a file start where its header ends, inside the data. -/
theorem IsHeaded.drop_dataOffset (hheaded : IsHeaded data line rest) (hof : h.IsOf line) :
    h.dataOffset ≤ data.length ∧ data.drop h.dataOffset = rest := by
  have hhead : h.dataOffset = (marker ++ (Text.utf8 line ++ [newline])).length := by
    have hmarker : marker.length = 8 := by decide
    simp only [hof.offset, List.length_append, hmarker, List.length_singleton]
    rfl
  have heq : data = (marker ++ (Text.utf8 line ++ [newline])) ++ rest := by
    simp [hheaded.eq]
  rw [hhead, heq]
  exact ⟨by simp, List.drop_left⟩

/-- Where some data has a header, the data that goes on otherwise after any newline has it too. -/
theorem IsHeaded.of_append_newline {head rest' : Bytes}
    (h : IsHeaded (head ++ newline :: rest) line rest') (next : Bytes) :
    ∃ next', IsHeaded (head ++ newline :: next) line next' := by
  obtain ⟨start, tail, hstart, hone⟩ :=
    List.eq_append_cons_of_mem (List.mem_append_right head (List.mem_singleton_self newline))
  have hsplit (b : Bytes) : head ++ newline :: b = start ++ newline :: (tail ++ b) := by
    rw [← List.singleton_append, ← List.append_assoc, hstart]
    simp
  have hmarker : newline ∉ marker := by decide
  have heq := h.eq
  rw [hsplit, ← List.append_assoc] at heq
  have hline : newline ∉ marker ++ Text.utf8 line := by
    simpa [hmarker] using h.one_line
  obtain rfl := eq_of_append_newline hone hline heq
  refine ⟨tail ++ next, ?_, h.one_line, h.length_le, h.delimited⟩
  rw [hsplit, List.append_assoc]

/-- A header is read from the data of the grammar and from no others, and tells what the line of
this data does. The bytes of the file start inside the data, after the newline, and nothing that
follows a newline has a say in what the header is. -/
theorem parse?_exact (data : Bytes) :
    ((∃ h, parse? data = some h) ↔ ∃ line rest, IsHeaded data line rest) ∧
      (∀ h, parse? data = some h ↔ ∃ line rest, IsHeaded data line rest ∧ h.IsOf line) ∧
      (∀ h : Header, ∀ line rest, IsHeaded data line rest → h.IsOf line →
        h.dataOffset ≤ data.length ∧ data.drop h.dataOffset = rest) ∧
      ∀ head rest rest', parse? (head ++ newline :: rest) = parse? (head ++ newline :: rest') := by
  refine ⟨?_, fun _ => parse?_eq_some_iff, fun _ _ _ => IsHeaded.drop_dataOffset, ?_⟩
  · constructor
    · rintro ⟨h, hparse⟩
      obtain ⟨line, rest, hheaded, -⟩ := parse?_eq_some_iff.1 hparse
      exact ⟨line, rest, hheaded⟩
    · rintro ⟨line, rest, hheaded⟩
      obtain ⟨h, hof⟩ := hheaded.exists_isOf
      exact ⟨h, parse?_eq_some_iff.2 ⟨line, rest, hheaded, hof⟩⟩
  · intro head rest rest'
    have hnext {h : Header} {b b' : Bytes} (hparse : parse? (head ++ newline :: b) = some h) :
        parse? (head ++ newline :: b') = some h := by
      obtain ⟨line, next, hheaded, hof⟩ := parse?_eq_some_iff.1 hparse
      obtain ⟨next', hheaded'⟩ := hheaded.of_append_newline b'
      exact parse?_eq_some_iff.2 ⟨line, next', hheaded', hof⟩
    exact Option.ext fun h => ⟨hnext, hnext⟩

/-- Three exclamation marks in a row, two fields and a half, and bytes that are no text. -/
theorem parse?_exact_of_three_marks :
    let data := Text.utf8 "!!FILE!!a!!!b!!c\n" ++ [255, 10]
    parse? data = some ⟨"a", "!b", 17⟩ ∧ 17 ≤ data.length ∧ data.drop 17 = [255, 10] := by
  intro data
  have hname : IsCut "a!!!b!!c".toList "a".toList "!b!!c".toList := cut_eq_some_iff.1 (by decide)
  have htype : IsCut "!b!!c".toList "!b".toList "c".toList := cut_eq_some_iff.1 (by decide)
  have hheaded : IsHeaded data "a!!!b!!c" [255, 10] :=
    ⟨by decide, by decide, by decide, hname.delimited⟩
  have hof : Header.IsOf ⟨"a", "!b", 17⟩ "a!!!b!!c" := ⟨⟨_, hname, .inl ⟨_, htype⟩⟩, by decide⟩
  obtain ⟨-, hread, hdrop, -⟩ := parse?_exact data
  exact ⟨(hread _).2 ⟨_, _, hheaded, hof⟩, hdrop _ _ _ hheaded hof⟩

end ReadOnce.Framing
