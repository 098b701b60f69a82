import ReadOnce.PinHash.Phc

/-!
# Password hashes read back from their text

Each field of a password hash holds no separator, so cutting the text gives the fields that it was
joined from, and each field is read back by itself: numbers by their digits, parameters by name and
value, the hash by its Base64.
-/

namespace ReadOnce

namespace Text

variable {α : Type} {sep : α}

/-- Every character of joined fields is a separator or of a field. -/
theorem mem_joinWith {c : α} {fields : List (List α)} (h : c ∈ joinWith sep fields) :
    c = sep ∨ ∃ field ∈ fields, c ∈ field := by
  induction fields with
  | nil => simp [joinWith] at h
  | cons field fields ih =>
      cases fields with
      | nil => exact .inr ⟨field, List.mem_cons_self, h⟩
      | cons next fields =>
          rw [joinWith, List.mem_append, List.mem_cons] at h
          · rcases h with h | rfl | h
            · exact .inr ⟨field, List.mem_cons_self, h⟩
            · exact .inl rfl
            · refine (ih h).imp_right ?_
              rintro ⟨f, hf, hc⟩
              exact ⟨f, List.mem_cons_of_mem _ hf, hc⟩
          · simp

variable [DecidableEq α]

/-- Fields without separators are cut where they were joined. -/
theorem splitAt_joinWith {fields : List (List α)} (hne : fields ≠ [])
    (h : ∀ field ∈ fields, sep ∉ field) : splitAt sep (joinWith sep fields) = fields := by
  induction fields with
  | nil => exact absurd rfl hne
  | cons field fields ih =>
      have hfield : sep ∉ field := h field List.mem_cons_self
      cases fields with
      | nil => exact splitAt_of_not_mem hfield
      | cons next fields =>
          rw [joinWith, splitAt_append hfield,
            ih (by simp) fun f hf => h f (List.mem_cons_of_mem _ hf)]
          simp

theorem isDigit_of_mem_toDigits {n : Nat} {c : Char} (h : c ∈ Nat.toDigits 10 n) :
    isDigit c = true := by
  have hc := Nat.isDigit_of_mem_toDigits (by decide) (by decide) h
  have hrange : 48 ≤ c.val ∧ c.val ≤ 57 := by simpa [Char.isDigit] using hc
  rw [isDigit, Bool.and_eq_true, decide_eq_true_eq, decide_eq_true_eq]
  exact hrange

theorem decimalValue_toDigits (n : Nat) : decimalValue (Nat.toDigits 10 n) = n :=
  Nat.ofDigitChars_ten_toDigits

/-- A number is written without a leading zero. -/
theorem head?_toDigits {n : Nat} (h : 0 < n) : (Nat.toDigits 10 n).head? ≠ some '0' := by
  induction n using Nat.strongRecOn with
  | ind n ih =>
      rw [Nat.toDigits_eq_if (by decide)]
      split
      · rename_i hlt
        have : ∀ d : Fin 10, 0 < d.val → [Nat.digitChar d.val].head? ≠ some '0' := by decide
        exact this ⟨n, hlt⟩ h
      · obtain ⟨c, cs, hcs⟩ := List.exists_cons_of_ne_nil
          (Nat.toDigits_ne_nil (n := n / 10) (b := 10))
        have hhead := ih (n / 10) (by omega) (by omega)
        rwa [hcs] at hhead ⊢

end Text

namespace Text.Base64

theorem length_encode (b : Bytes) : (encode b).length = (4 * b.length + 2) / 3 := by
  fun_induction encode b with
  | case1 => rfl
  | case2 => simp
  | case3 => simp
  | case4 a b c rest n ih =>
      simp only [List.length_cons, ih]
      omega

theorem isValueChar_symbol (n : Nat) : Phc.isValueChar (symbol n) = true := by
  by_cases hn : n < 64
  · have : ∀ n : Fin 64, Phc.isValueChar (symbol n.val) = true := by decide +kernel
    exact this ⟨n, hn⟩
  · have hlength : alphabet.length = 64 := by decide
    rw [symbol, List.getD_eq_getElem?_getD, List.getElem?_eq_none (by omega)]
    rfl

/-- Base64 may stand for a value. -/
theorem isValueChar_of_mem_encode {b : Bytes} {c : Char} (h : c ∈ encode b) :
    Phc.isValueChar c = true := by
  fun_induction encode b with
  | case1 => contradiction
  | case2 a n =>
      simp only [List.mem_cons, List.not_mem_nil, or_false] at h
      rcases h with rfl | rfl <;> exact isValueChar_symbol _
  | case3 a b n =>
      simp only [List.mem_cons, List.not_mem_nil, or_false] at h
      rcases h with rfl | rfl | rfl <;> exact isValueChar_symbol _
  | case4 a b c rest n ih =>
      simp only [List.mem_cons] at h
      rcases h with rfl | rfl | rfl | rfl | h
      · exact isValueChar_symbol _
      · exact isValueChar_symbol _
      · exact isValueChar_symbol _
      · exact isValueChar_symbol _
      · exact ih h

end Text.Base64

namespace Phc

theorem decimal?_toDigits {n : Nat} (h : n < 4294967296) :
    decimal? (Nat.toDigits 10 n) = some n := by
  have hdigits : (Nat.toDigits 10 n).all Text.isDigit = true :=
    List.all_eq_true.2 fun _ hc => Text.isDigit_of_mem_toDigits hc
  have hhead : (Nat.toDigits 10 n).head? = some '0' → (Nat.toDigits 10 n).length = 1 := by
    intro hzero
    obtain rfl : n = 0 := Nat.eq_zero_of_not_pos fun hpos => Text.head?_toDigits hpos hzero
    rfl
  have hne : ¬ (Nat.toDigits 10 n).isEmpty = true := by simp
  rw [decimal?, if_pos ⟨hdigits, hne, hhead⟩, Text.decimalValue_toDigits, if_pos h]

/-- What reads as a name holds only what a name may hold. -/
theorem isNameChar_of_name? {name s : String} (h : name? s.toList = some name) {c : Char}
    (hc : c ∈ s.toList) : isNameChar c = true := by
  unfold name? at h
  split at h
  · rename_i hname
    exact List.all_eq_true.1 hname.2.2 c hc
  · contradiction

theorem isValueChar_of_value? {value s : String} (h : value? s.toList = some value) {c : Char}
    (hc : c ∈ s.toList) : isValueChar c = true := by
  unfold value? at h
  split at h
  · rename_i hvalue
    exact List.all_eq_true.1 hvalue.2 c hc
  · contradiction

/-- A number reads as a value. -/
theorem value?_toString {n : Nat} (h : n < 4294967296) :
    value? (toString n).toList = some (toString n) := by
  have hdigits : (toString n).toList = Nat.toDigits 10 n := Nat.toList_repr
  have hlength : (Nat.toDigits 10 n).length ≤ 10 :=
    (Nat.length_toDigits_le_iff (by decide) (by decide)).2 (by omega)
  have hvalue (c : Char) (hc : c ∈ Nat.toDigits 10 n) : isValueChar c = true := by
    simp [isValueChar, Text.isDigit_of_mem_toDigits hc]
  rw [hdigits, value?, if_pos ⟨by omega, List.all_eq_true.2 hvalue⟩]
  rfl

/-- A parameter whose name and value may stand. -/
def IsParam (p : String × String) : Prop :=
  name? p.1.toList = some p.1 ∧ value? p.2.toList = some p.2

section Params

variable {p : String × String} {params : List (String × String)}

/-- The characters of a parameter are those of its name and value and an equals sign. -/
theorem IsParam.not_mem (h : IsParam p) {c : Char} (hname : isNameChar c = false)
    (hvalue : isValueChar c = false) (hc : c ≠ '=') : c ∉ paramText p := by
  simp only [paramText, List.mem_append, List.mem_cons, not_or]
  refine ⟨?_, hc, ?_⟩
  · intro hmem
    simp [isNameChar_of_name? h.1 hmem] at hname
  · intro hmem
    simp [isValueChar_of_value? h.2 hmem] at hvalue

theorem param?_paramText (h : IsParam p) : param? (paramText p) = some p := by
  have hname : '=' ∉ p.1.toList := fun hmem =>
    absurd (isNameChar_of_name? h.1 hmem) (by decide)
  have hvalue : '=' ∉ p.2.toList := fun hmem =>
    absurd (isValueChar_of_value? h.2 hmem) (by decide)
  rw [param?, paramText, Text.splitAt_append hname, Text.splitAt_of_not_mem hvalue]
  simp only [h.1, h.2, Option.bind_eq_bind, Option.bind_some]

theorem mapM_param? (h : ∀ p ∈ params, IsParam p) :
    (params.map paramText).mapM param? = some params := by
  induction params with
  | nil => rfl
  | cons p params ih =>
      rw [List.map_cons, List.mapM_cons, param?_paramText (h p List.mem_cons_self),
        ih fun p' hp' => h p' (List.mem_cons_of_mem _ hp')]
      rfl

/-- The text of parameters. -/
def paramsText (params : List (String × String)) : List Char :=
  Text.joinWith ',' (params.map paramText)

/-- Parameters are read back if there are any and they are short enough together. -/
theorem params?_paramsText (hne : params ≠ []) (h : ∀ p ∈ params, IsParam p)
    (hlength : (paramsText params).length ≤ maxParams) :
    params? (paramsText params) = some params := by
  have hsep : ∀ field ∈ params.map paramText, ',' ∉ field := by
    intro field hfield
    obtain ⟨p, hp, rfl⟩ := List.mem_map.1 hfield
    exact (h p hp).not_mem (by decide) (by decide) (by decide)
  rw [params?, if_pos hlength, paramsText,
    Text.splitAt_joinWith (by simpa using hne) hsep, mapM_param? h]

end Params

theorem version?_cons {n : Nat} (h : n < 4294967296) (rest : List (List Char)) :
    version? (('v' :: '=' :: Nat.toDigits 10 n) :: rest) = some (some n, rest) := by
  have hcomma : ',' ∉ Nat.toDigits 10 n := fun hmem =>
    absurd (Text.isDigit_of_mem_toDigits hmem) (by decide)
  have hvalue : value? (Nat.toDigits 10 n) = some (toString n) := by
    rw [← value?_toString h]
    exact congrArg value? Nat.toList_repr.symm
  simp only [version?, if_neg hcomma, hvalue, decimal?_toDigits h, Option.bind_eq_bind,
    Option.bind_some]

theorem paramsField?_cons {params : List (String × String)} (hne : params ≠ [])
    (hparams : ∀ p ∈ params, IsParam p) (hlength : (paramsText params).length ≤ maxParams)
    (rest : List (List Char)) :
    paramsField? (paramsText params :: rest) = some (params, rest) := by
  have hequals : '=' ∈ paramsText params := by
    cases params with
    | nil => exact absurd rfl hne
    | cons p params =>
        have hp : '=' ∈ paramText p := by simp [paramText]
        cases params with
        | nil => exact hp
        | cons q params => exact List.mem_append_left _ hp
  simp only [paramsField?, if_pos hequals, params?_paramsText hne hparams hlength,
    Option.bind_eq_bind, Option.bind_some]

/-- The text of a password hash that has all its parts reads as the hash. -/
theorem parse?_text {algorithm salt : String} {version : Nat} {params : List (String × String)}
    {hash : Bytes} (halgorithm : name? algorithm.toList = some algorithm)
    (hversion : version < 4294967296) (hne : params ≠ []) (hparams : ∀ p ∈ params, IsParam p)
    (hlength : (paramsText params).length ≤ maxParams) (hsalt : salt? salt.toList = some salt)
    (hhash : 10 ≤ hash.length ∧ hash.length ≤ 64) :
    parse? (text ⟨algorithm, some version, params, some salt, some hash⟩) =
      some ⟨algorithm, some version, params, some salt, some hash⟩ := by
  have hfields : fields ⟨algorithm, some version, params, some salt, some hash⟩ =
      ['v' :: '=' :: Nat.toDigits 10 version, paramsText params, salt.toList,
        Text.Base64.encode hash] := by
    simp [fields, hne, paramsText]
  have hsaltValue : value? salt.toList = some salt := by
    unfold salt? at hsalt
    split at hsalt
    · exact hsalt
    · contradiction
  have hsep : ∀ field ∈ [] :: algorithm.toList ::
      fields ⟨algorithm, some version, params, some salt, some hash⟩, '$' ∉ field := by
    rw [hfields]
    simp only [List.mem_cons, List.not_mem_nil, or_false]
    rintro field (rfl | rfl | rfl | rfl | rfl | rfl) hmem
    · contradiction
    · exact absurd (isNameChar_of_name? halgorithm hmem) (by decide)
    · simp only [List.mem_cons] at hmem
      rcases hmem with h | h | hmem
      · exact absurd h (by decide)
      · exact absurd h (by decide)
      · exact absurd (Text.isDigit_of_mem_toDigits hmem) (by decide)
    · rcases Text.mem_joinWith hmem with h | ⟨field, hfield, hmem⟩
      · exact absurd h (by decide)
      · obtain ⟨p, hp, rfl⟩ := List.mem_map.1 hfield
        exact (hparams p hp).not_mem (by decide) (by decide) (by decide) hmem
    · exact absurd (isValueChar_of_value? hsaltValue hmem) (by decide)
    · exact absurd (Text.Base64.isValueChar_of_mem_encode hmem) (by decide)
  have hhash? : hash? (Text.Base64.encode hash) = some hash := by
    simp only [hash?, Text.Base64.decode?_encode, Option.bind_eq_bind, Option.bind_some,
      if_pos hhash]
  rw [parse?, text, String.toList_ofList, Text.splitAt_joinWith (by simp) hsep, hfields]
  simp only [halgorithm, version?_cons hversion, paramsField?_cons hne hparams hlength, hsalt,
    hhash?, Option.bind_eq_bind, Option.bind_some]

end Phc

end ReadOnce
