import ReadOnce.Framing
import ReadOnce.Proofs.Text.Utf8

/-!
# Headers read back

A header is a line in which the name and the content type are closed by a delimiter each. Neither
may hold a delimiter, but either may end in the character that delimiters are made of, and then the
delimiter is found one character early. `fields?_headerLine` says that this is the only way in which
the fields of a line are not what was written, `parse?_framed` that what is read of framed data are
the fields of its line, if the line ends inside the window, and `parse?_framed_iff` for which names
and content types both are the ones that were framed.
-/

namespace ReadOnce.Framing

theorem isFile_marker_append {b : Bytes} (h : b ≠ []) : isFile (marker ++ b) = true := by
  have hpos := List.length_pos_iff.2 h
  simp [isFile, List.length_pos_iff.2 h]

/-- Whether data that goes on after a nonce is a file shows in the nonce. -/
theorem isFile_append_of_nonce {nonce : Bytes} (hlength : marker.length ≤ nonce.length)
    (hmarker : marker.isPrefixOf nonce = false) (b : Bytes) : isFile (nonce ++ b) = false := by
  have hnot : marker.isPrefixOf (nonce ++ b) = false := by
    rw [Bool.eq_false_iff, ne_eq, List.isPrefixOf_iff_prefix]
    intro hprefix
    have hnonce := List.prefix_of_prefix_length_le hprefix (List.prefix_append nonce b) hlength
    rw [← List.isPrefixOf_iff_prefix, hmarker] at hnonce
    contradiction
  rw [isFile, hnot, Bool.and_false]

/-- The line of a header, without its newline. -/
def headerLine (name contentType : String) : String :=
  name ++ "!!" ++ contentType ++ "!!"

/-- Whether a field runs into the delimiter that closes it. -/
def runsOn (field : String) : Bool :=
  field.toList.getLast? == some '!'

variable {s rest : List Char}

theorem hasPair_cons_cons (a b c d : Char) (s : List Char) :
    hasPair a b (c :: d :: s) = ((c == a && d == b) || hasPair a b (d :: s)) := by
  rw [hasPair, List.head?_cons, Option.some_beq_some]

theorem hasPair_append_singleton (a b c : Char) (s : List Char) :
    hasPair a b (s ++ [c]) = (hasPair a b s || (s.getLast? == some a && c == b)) := by
  induction s with
  | nil => simp [hasPair]
  | cons d s ih =>
      cases s with
      | nil => simp [hasPair]
      | cons e s =>
          rw [List.cons_append] at ih
          rw [List.cons_append, List.cons_append, hasPair_cons_cons, ih, hasPair_cons_cons,
            List.getLast?_cons_cons, Bool.or_assoc]

/-- A character that does not start a delimiter belongs to the text before the first one. -/
theorem cut_cons {c : Char} (h : ¬ (c = '!' ∧ s.head? = some '!')) :
    cut (c :: s) = (c :: (cut s).1, (cut s).2) := by
  rw [cut]
  rintro rest rfl rfl
  exact h ⟨rfl, rfl⟩

/-- A text without a delimiter that does not run on is cut at the delimiter that follows it. -/
theorem cut_append (hpair : hasPair '!' '!' s = false) (hlast : s.getLast? ≠ some '!')
    (rest : List Char) : cut (s ++ '!' :: '!' :: rest) = (s, some rest) := by
  induction s with
  | nil => rfl
  | cons c s ih =>
      cases s with
      | nil =>
          rw [List.cons_append, List.nil_append, cut_cons (fun h => hlast (by simp [h.1]))]
          rfl
      | cons d s =>
          rw [hasPair_cons_cons, Bool.or_eq_false_iff, Bool.and_eq_false_iff] at hpair
          have ih := ih hpair.2 (by rwa [List.getLast?_cons_cons] at hlast)
          have hstart : ¬ (c = '!' ∧ (d :: s ++ '!' :: '!' :: rest).head? = some '!') := by
            rintro ⟨rfl, hd⟩
            simp_all
          rw [List.cons_append, cut_cons hstart, ih]

/-- A text that runs on is cut one character early. -/
theorem cut_append_of_runsOn (hpair : hasPair '!' '!' (s ++ ['!']) = false) (rest : List Char) :
    cut (s ++ '!' :: '!' :: '!' :: rest) = (s, some ('!' :: rest)) := by
  rw [hasPair_append_singleton, Bool.or_eq_false_iff] at hpair
  exact cut_append hpair.1 (by simpa using hpair.2) _

/-- What comes before the delimiter that closes a field is the field unless it runs on. -/
theorem cut_field_iff {field : String} (hpair : hasPair '!' '!' field.toList = false)
    (rest : List Char) :
    ∃ before after, cut (field.toList ++ '!' :: '!' :: rest) = (before, some after) ∧
      (String.ofList before = field ↔ runsOn field = false) ∧
      (runsOn field = false → after = rest) := by
  by_cases hlast : field.toList.getLast? = some '!'
  · obtain ⟨s, hs⟩ := List.getLast?_eq_some_iff.1 hlast
    have hruns : runsOn field = true := by simp [runsOn, hlast]
    refine ⟨s, '!' :: rest, ?_, ?_, by simp [hruns]⟩
    · rw [hs] at hpair ⊢
      rw [List.append_assoc]
      exact cut_append_of_runsOn hpair rest
    · rw [hruns]
      apply iff_of_false _ (by simp)
      intro heq
      have hlength := congrArg List.length (hs.symm.trans (congrArg String.toList heq.symm))
      simp at hlength
  · have hruns : runsOn field = false := by simpa [runsOn] using hlast
    exact ⟨field.toList, rest, cut_append hpair hlast rest, by simp [hruns], fun _ => rfl⟩

/-- The fields of a line are those that were written unless one of them runs on. -/
theorem fields?_headerLine {name contentType : String}
    (hname : hasPair '!' '!' name.toList = false)
    (htype : hasPair '!' '!' contentType.toList = false) :
    ∃ name' contentType',
      fields? (headerLine name contentType).toList = some (name', contentType') ∧
      (name' = name ∧ contentType' = contentType ↔
        runsOn name = false ∧ runsOn contentType = false) := by
  have hline : (headerLine name contentType).toList =
      name.toList ++ '!' :: '!' :: (contentType.toList ++ '!' :: '!' :: []) := by
    simp [headerLine]
  obtain ⟨before, after, hcut, hbefore, hafter⟩ :=
    cut_field_iff hname (contentType.toList ++ '!' :: '!' :: [])
  obtain ⟨before', after', hcut', hbefore', -⟩ := cut_field_iff htype []
  refine ⟨String.ofList before, String.ofList (cut after).1, ?_, ?_⟩
  · rw [hline, fields?, hcut]
  · rw [hbefore]
    refine and_congr_right ?_
    intro hruns
    rw [hafter hruns, hcut', hbefore']

theorem newline_not_mem_headerLine {name contentType : String}
    (hname : name.toList.any Text.isControl = false)
    (htype : contentType.toList.any Text.isControl = false) :
    newline ∉ Text.utf8 (headerLine name contentType) := by
  have hcontrol {s : String} (h : s.toList.any Text.isControl = false) : '\n' ∉ s.toList :=
    fun hmem => by simpa [Text.isControl] using List.any_eq_false.1 h _ hmem
  apply Text.newline_not_mem_utf8
  simp only [headerLine, String.toList_append, List.mem_append, not_or]
  exact ⟨⟨⟨hcontrol hname, by decide⟩, hcontrol htype⟩, by decide⟩

theorem utf8_encodeHeader (name contentType : String) :
    encodeHeader name contentType = Text.utf8 (headerLine name contentType) ++ [newline] := by
  have hline : name ++ "!!" ++ contentType ++ "!!\n" = headerLine name contentType ++ "\n" := by
    simp [headerLine, String.append_assoc]
  rw [encodeHeader, hline, Text.utf8_append]
  rfl

theorem length_headerLine (name contentType : String) :
    (Text.utf8 (headerLine name contentType)).length =
      (Text.utf8 name).length + (Text.utf8 contentType).length + 4 := by
  have hmark : (Text.utf8 "!!").length = 2 := by decide
  simp only [headerLine, Text.utf8_append, List.length_append, hmark]
  omega

/-- A line is found if its end is among the bytes that are looked at. -/
theorem line?_take {line : Bytes} (h : newline ∉ line) (n : Nat) (rest : Bytes) :
    line? ((line ++ newline :: rest).take n) = if line.length < n then some line else none := by
  by_cases hlength : line.length < n
  · obtain ⟨k, rfl⟩ : ∃ k, n = line.length + (k + 1) := ⟨n - line.length - 1, by omega⟩
    have htake : (line ++ newline :: rest).take (line.length + (k + 1)) =
        line ++ newline :: rest.take k := by
      rw [List.take_length_add_append, List.take_succ_cons]
    have hwhile : (line ++ newline :: rest.take k).takeWhile (· != newline) = line := by
      rw [List.takeWhile_append_of_pos fun b hb => by
        simpa using fun heq : b = newline => h (heq ▸ hb)]
      simp
    rw [if_pos hlength, htake, line?, if_pos (by simp), hwhile]
  · have htake : (line ++ newline :: rest).take n = line.take n :=
      List.take_append_of_le_length (Nat.le_of_not_lt hlength)
    rw [if_neg hlength, htake, line?, if_neg fun hmem => h (List.mem_of_mem_take hmem)]

/-- Of framed data the fields of its line are read, if the line ends inside the window, and the
bytes of the file start after it. -/
theorem parse?_framed {name contentType : String} (hname : isValidName name = true)
    (htype : isValidContentType contentType = true) :
    ∃ name' contentType',
      (name' = name ∧ contentType' = contentType ↔
        runsOn name = false ∧ runsOn contentType = false) ∧
      ∀ data, parse? (marker ++ (encodeHeader name contentType ++ data)) =
        if (Text.utf8 name).length + (Text.utf8 contentType).length + 4 < window then
          some ⟨name', contentType', (marker ++ encodeHeader name contentType).length⟩
        else none := by
  simp only [isValidName, Bool.and_eq_true, Bool.not_eq_true'] at hname
  simp only [isValidContentType, Bool.and_eq_true, Bool.not_eq_true'] at htype
  obtain ⟨⟨⟨⟨⟨-, -⟩, hnamePair⟩, -⟩, -⟩, hnameControl⟩ := hname
  obtain ⟨name', contentType', hfields, hsame⟩ := fields?_headerLine hnamePair htype.1
  refine ⟨name', contentType', hsame, ?_⟩
  intro data
  have hline := newline_not_mem_headerLine hnameControl htype.2
  have hfile : isFile (marker ++ (encodeHeader name contentType ++ data)) = true :=
    isFile_marker_append (by simp [utf8_encodeHeader])
  rw [parse?, if_pos hfile, List.drop_left, utf8_encodeHeader, List.append_assoc,
    List.singleton_append, line?_take hline, ← length_headerLine]
  by_cases hshort : (Text.utf8 (headerLine name contentType)).length < window
  · simp only [if_pos hshort, Text.ofUtf8?_utf8, hfields, List.length_append,
      List.length_singleton, Nat.add_assoc]
  · simp only [if_neg hshort]

theorem runsOn_eq_false_iff {field : String} :
    runsOn field = false ↔ field.toList.getLast? ≠ some '!' := by
  simp [runsOn]

/-- What is read of framed data is what was framed, exactly if neither the name nor the content type
ends in the character that delimiters are made of and the line ends inside the window. Where it does
not, nothing is read. -/
theorem parse?_framed_iff {name contentType : String} (hname : isValidName name = true)
    (htype : isValidContentType contentType = true) (data : Bytes) :
    let framed := marker ++ (encodeHeader name contentType ++ data)
    let lineLength := (Text.utf8 name).length + (Text.utf8 contentType).length + 4
    (parse? framed = some ⟨name, contentType, (marker ++ encodeHeader name contentType).length⟩ ↔
        name.toList.getLast? ≠ some '!' ∧ contentType.toList.getLast? ≠ some '!' ∧
          lineLength ≤ 4095) ∧
      (4095 < lineLength → parse? framed = none) := by
  obtain ⟨name', contentType', hsame, hparse⟩ := parse?_framed hname htype
  rw [runsOn_eq_false_iff, runsOn_eq_false_iff] at hsame
  intro framed lineLength
  have hread : parse? framed = if lineLength < window then _ else none := hparse data
  by_cases hshort : lineLength < window
  · rw [hread, if_pos hshort]
    have hle : lineLength ≤ 4095 := Nat.le_of_lt_succ hshort
    refine ⟨?_, fun hlong => absurd hle (Nat.not_le.2 hlong)⟩
    simpa [hle] using hsame
  · rw [hread, if_neg hshort]
    have hlong : ¬ lineLength ≤ 4095 := fun hle => hshort (Nat.lt_succ_of_le hle)
    simp [hlong]

/-- A line may be as long as the window allows, but no longer; and no name may end like a
delimiter. -/
theorem parse?_framed_of_widest :
    let contentType (n : Nat) := String.ofList (List.replicate n 'x')
    let read (name : String) (n : Nat) :=
      parse? (marker ++ (encodeHeader name (contentType n) ++ [1, 2]))
    read "é" 4089 = some ⟨"é", contentType 4089, 4104⟩ ∧ read "é" 4090 = none ∧
      read "é!" 10 ≠ some ⟨"é!", contentType 10, 26⟩ := by
  intro contentType read
  have hpair (n : Nat) : hasPair '!' '!' (List.replicate n 'x') = false := by
    induction n with
    | zero => rfl
    | succ n ih =>
        rw [List.replicate_succ, hasPair, ih]
        rfl
  have htype (n : Nat) : isValidContentType (contentType n) = true := by
    have hplain : Text.isControl 'x' = false := by decide
    simp [isValidContentType, contentType, hpair, hplain]
  have hlength (n : Nat) : (Text.utf8 (contentType n)).length = n := by
    have hone : 'x'.utf8Size = 1 := by decide
    simp [contentType, Text.utf8_ofList, List.length_flatMap, hone]
  have hframe (name : String) (n : Nat) :
      (marker ++ encodeHeader name (contentType n)).length = (Text.utf8 name).length + n + 13 := by
    have hmarker : marker.length = 8 := by decide
    simp only [utf8_encodeHeader, List.length_append, length_headerLine, hlength, hmarker,
      List.length_singleton]
    omega
  have hsize : (Text.utf8 "é").length = 2 ∧ (Text.utf8 "é!").length = 3 := by decide
  have hlast (n : Nat) : (contentType n).toList.getLast? ≠ some '!' := by
    rw [String.toList_ofList, List.getLast?_replicate]
    split <;> simp
  have hread (name : String) (hname : isValidName name = true) (n : Nat) :=
    parse?_framed_iff hname (htype n) [1, 2]
  simp only [hlength, hframe] at hread
  have hwide := hread "é" (by decide)
  rw [hsize.1] at hwide
  refine ⟨(hwide 4089).1.2 ⟨by decide, hlast 4089, by decide⟩, (hwide 4090).2 (by decide), ?_⟩
  intro h
  have hmarked := hread "é!" (by decide) 10
  rw [hsize.2] at hmarked
  exact absurd rfl (hmarked.1.1 h).1

end ReadOnce.Framing
