import Mathlib.Data.Set.Card
import ReadOnce.Message.Key

/-!
# Fresh keys are drawn evenly

Bytes are drawn many at a time, and a key is spelled by the first twelve of them that are not passed
over, wherever one draw ends and the next begins. What a key in the making holds is therefore
spelled by the bytes accepted so far, as many as a key takes, and `extend_spelling` says that a draw
keeps this.

A byte spells the character at its residue modulo 62, and 248 is four times 62, so there are four
bytes to each character and equally many ways to draw each key. Which bytes a source gives, and how
likely they are, is not considered.
-/

namespace ReadOnce.Key

@[simp] theorem length_alphabet : alphabet.length = 62 := by decide

theorem nodup_alphabet : alphabet.Nodup := by decide

theorem residue_lt_length (b : UInt8) : b.toNat % 62 < alphabet.length := by
  rw [length_alphabet]
  exact Nat.mod_lt _ (by decide)

/-- The bytes of some draws that are not passed over, in order. -/
def accepted (draws : List Bytes) : Bytes :=
  draws.flatten.filter (· < firstRejected)

/-- The character that a byte spells. -/
def charOfByte (b : UInt8) : Char :=
  alphabet.get ⟨b.toNat % 62, residue_lt_length b⟩

/-- The key that bytes spell. -/
def spelled (bytes : Bytes) : Key :=
  ⟨String.ofList (bytes.map charOfByte)⟩

/-- A key comes of draws, and these are the bytes that were used of them. -/
def IsDrawnFrom (k : Key) (bytes : Bytes) : Prop :=
  ∃ draws : List Bytes, (∀ draw ∈ draws, draw.length = drawSize) ∧
    (accepted draws).take length = bytes ∧ generate? draws = some k

theorem spelled_eq_iff {bytes : Bytes} {k : Key} :
    spelled bytes = k ↔ bytes.map charOfByte = k.text.toList := by
  obtain ⟨text⟩ := k
  rw [spelled, Key.mk.injEq, ← String.toList_inj, String.toList_ofList]

@[simp] theorem length_spelled (bytes : Bytes) : (spelled bytes).text.length = bytes.length := by
  rw [spelled, String.length_ofList, List.length_map]

theorem mem_alphabet_of_mem_spelled {bytes : Bytes} {c : Char}
    (h : c ∈ (spelled bytes).text.toList) : c ∈ alphabet := by
  rw [spelled, String.toList_ofList] at h
  obtain ⟨b, -, rfl⟩ := List.mem_map.1 h
  exact List.get_mem _ _

theorem charOfByte?_eq (b : UInt8) :
    charOfByte? b = if b < firstRejected then some (charOfByte b) else none := by
  rw [charOfByte?, charOfByte, List.get_eq_getElem, List.getElem?_eq_getElem (residue_lt_length b)]

theorem filterMap_charOfByte? (draw : Bytes) :
    draw.filterMap charOfByte? = (draw.filter (· < firstRejected)).map charOfByte := by
  induction draw with
  | nil => rfl
  | cons b draw ih =>
      rw [List.filterMap_cons, charOfByte?_eq, ih]
      by_cases hb : b < firstRejected <;> simp [hb]

section Draws

variable (seen : Bytes)

/-- A draw extends a key in the making by what it adds to the accepted bytes. -/
theorem extend_spelling (draw : Bytes) :
    extend ((seen.take length).map charOfByte) draw =
      ((seen ++ draw.filter (· < firstRejected)).take length).map charOfByte := by
  have hroom : length - ((seen.take length).map charOfByte).length = length - seen.length := by
    rw [List.length_map, List.length_take]
    omega
  rw [extend, filterMap_charOfByte?, hroom, ← List.map_take, ← List.map_append, ← List.take_append]

/-- A key in the making is complete once enough bytes have been accepted. -/
theorem length_spelling_le_iff :
    length ≤ ((seen.take length).map charOfByte).length ↔ length ≤ seen.length := by
  rw [List.length_map, List.length_take]
  omega

theorem generateFrom?_eq (draws : List Bytes) :
    generateFrom? ((seen.take length).map charOfByte) draws =
      if length ≤ (seen ++ accepted draws).length then
        some (spelled ((seen ++ accepted draws).take length))
      else none := by
  induction draws generalizing seen with
  | nil =>
      have hnone : seen ++ accepted [] = seen := List.append_nil seen
      rw [generateFrom?, hnone]
      simp only [length_spelling_le_iff, spelled]
  | cons draw draws ih =>
      have hcons : seen ++ accepted (draw :: draws) =
          seen ++ draw.filter (· < firstRejected) ++ accepted draws := by
        rw [accepted, List.flatten_cons, List.filter_append, List.append_assoc, accepted]
      rw [generateFrom?, extend_spelling, ih, ← hcons]
      by_cases hcomplete : length ≤ seen.length
      · have hmore : length ≤ (seen ++ accepted (draw :: draws)).length := by
          rw [List.length_append]
          omega
        rw [if_pos ((length_spelling_le_iff seen).2 hcomplete), if_pos hmore,
          List.take_append_of_le_length hcomplete, spelled]
      · rw [if_neg (mt (length_spelling_le_iff seen).1 hcomplete)]

end Draws

/-- The first twelve bytes that are accepted spell the key; fewer do not make one. -/
theorem generate?_eq (draws : List Bytes) :
    generate? draws =
      if length ≤ (accepted draws).length then some (spelled ((accepted draws).take length))
      else none :=
  generateFrom?_eq [] draws

section Ways

variable {k : Key} {bytes : Bytes}

theorem mem_accepted {draws : List Bytes} {b : UInt8} (h : b ∈ accepted draws) :
    b < firstRejected := by
  simpa using (List.mem_filter.1 h).2

/-- Any twelve bytes that are not passed over may be the ones that a key is drawn from. -/
theorem isDrawnFrom_iff :
    k.IsDrawnFrom bytes ↔
      bytes.length = length ∧ (∀ b ∈ bytes, b < firstRejected) ∧ spelled bytes = k := by
  constructor
  · rintro ⟨draws, -, rfl, hdraws⟩
    rw [generate?_eq] at hdraws
    split at hdraws
    · rename_i hlength
      exact ⟨List.length_take_of_le hlength, fun b hb => mem_accepted (List.mem_of_mem_take hb),
        Option.some.inj hdraws⟩
    · contradiction
  · rintro ⟨hlength, hbytes, rfl⟩
    -- one draw will do: the twelve bytes, and then only bytes that are passed over
    have hall : accepted [bytes ++ List.replicate 20 255] = bytes := by
      have hrest : (List.replicate 20 255 : Bytes).filter (· < firstRejected) = [] := by decide
      rw [accepted, List.flatten_singleton, List.filter_append, hrest, List.append_nil,
        List.filter_eq_self]
      exact fun b hb => decide_eq_true (hbytes b hb)
    refine ⟨[bytes ++ List.replicate 20 255], ?_, ?_, ?_⟩
    · rintro draw hdraw
      obtain rfl := List.mem_singleton.1 hdraw
      rw [List.length_append, hlength]
      rfl
    · rw [hall, List.take_of_length_le hlength.le]
    · rw [generate?_eq, hall, if_pos hlength.ge, List.take_of_length_le hlength.le]

/-- The bytes with one residue that are not passed over: there are four. -/
theorem ncard_residue {i : Nat} (hi : i < 62) :
    {b : UInt8 | b < firstRejected ∧ b.toNat % 62 = i}.ncard = 4 := by
  have hbyte (j : Nat) (hj : j < 4) : (UInt8.ofNat (62 * j + i)).toNat = 62 * j + i := by
    rw [UInt8.toNat_ofNat']
    omega
  have himage : {b : UInt8 | b < firstRejected ∧ b.toNat % 62 = i} =
      (fun j => UInt8.ofNat (62 * j + i)) '' (Finset.range 4 : Set Nat) := by
    ext b
    have hb : b < firstRejected ↔ b.toNat < 248 := UInt8.lt_iff_toNat_lt
    simp only [Set.mem_ofPred_eq, hb, Set.mem_image, Finset.coe_range, Set.mem_Iio]
    constructor
    · rintro ⟨hlt, rfl⟩
      refine ⟨b.toNat / 62, by omega, UInt8.toNat_inj.1 ?_⟩
      rw [hbyte _ (by omega), Nat.div_add_mod]
    · rintro ⟨j, hj, rfl⟩
      rw [hbyte j hj]
      omega
  have hinj : Set.InjOn (fun j => UInt8.ofNat (62 * j + i)) (Finset.range 4 : Set Nat) := by
    intro j hj j' hj' heq
    have hsame : 62 * j + i = 62 * j' + i := by
      rw [← hbyte j (Finset.mem_range.1 hj), ← hbyte j' (Finset.mem_range.1 hj')]
      exact congrArg UInt8.toNat heq
    omega
  rw [himage, hinj.ncard_image, Set.ncard_coe_finset, Finset.card_range]

/-- Each character of the alphabet is spelled by four bytes. -/
theorem ncard_charOfByte {c : Char} (h : c ∈ alphabet) :
    {b : UInt8 | b < firstRejected ∧ charOfByte b = c}.ncard = 4 := by
  obtain ⟨i, hi, rfl⟩ := List.mem_iff_getElem.1 h
  have hchar (b : UInt8) : charOfByte b = alphabet[i] ↔ b.toNat % 62 = i :=
    nodup_alphabet.getElem_inj_iff
  simp only [hchar]
  exact ncard_residue (length_alphabet ▸ hi)

/-- A text is spelled in as many ways as its characters together. -/
theorem ncard_spelling {cs : List Char} (h : ∀ c ∈ cs, c ∈ alphabet) :
    {bytes : Bytes | (∀ b ∈ bytes, b < firstRejected) ∧ bytes.map charOfByte = cs}.ncard =
      4 ^ cs.length := by
  induction cs with
  | nil =>
      have hnil : {bytes : Bytes | (∀ b ∈ bytes, b < firstRejected) ∧
          bytes.map charOfByte = []} = {[]} := by
        ext bytes
        simp +contextual
      rw [hnil, Set.ncard_singleton]
      rfl
  | cons c cs ih =>
      obtain ⟨hc, hcs⟩ := List.forall_mem_cons.1 h
      -- a first byte and the others, each chosen without regard to the other
      have hpairs : {bytes : Bytes | (∀ b ∈ bytes, b < firstRejected) ∧
          bytes.map charOfByte = c :: cs} =
          (fun p : UInt8 × Bytes => p.1 :: p.2) ''
            ({b | b < firstRejected ∧ charOfByte b = c} ×ˢ
              {bytes | (∀ b ∈ bytes, b < firstRejected) ∧ bytes.map charOfByte = cs}) := by
        ext bytes
        cases bytes with
        | nil => simp
        | cons b bytes =>
            simp only [Set.mem_ofPred_eq, List.forall_mem_cons, List.map_cons, List.cons.injEq,
              Set.mem_image, Set.mem_prod, Prod.exists]
            constructor
            · rintro ⟨⟨hb, hbytes⟩, hchar, hmap⟩
              exact ⟨b, bytes, ⟨⟨hb, hchar⟩, hbytes, hmap⟩, rfl, rfl⟩
            · rintro ⟨_, _, ⟨⟨hb, hchar⟩, hbytes, hmap⟩, rfl, rfl⟩
              exact ⟨⟨hb, hbytes⟩, hchar, hmap⟩
      have hinj : Function.Injective fun p : UInt8 × Bytes => p.1 :: p.2 := by
        rintro ⟨b, bytes⟩ ⟨b', bytes'⟩ heq
        obtain ⟨rfl, rfl⟩ := List.cons.inj heq
        rfl
      rw [hpairs, Set.ncard_image_of_injective _ hinj, Set.ncard_prod, ncard_charOfByte hc, ih hcs,
        List.length_cons, Nat.pow_succ, Nat.mul_comm]

end Ways

/-- The first twelve bytes below 248 of any draws together, whatever their sizes, spell the key,
each by its residue modulo 62, and fewer than twelve make none. A key has twelve characters of the
alphabet, and each such key is drawn from equally many byte strings. -/
theorem drawn_evenly :
    (∀ draws : List Bytes, generate? draws =
      if 12 ≤ (accepted draws).length then some (spelled ((accepted draws).take 12)) else none) ∧
    (∀ draws k, generate? draws = some k →
      k.text.length = 12 ∧ ∀ c ∈ k.text.toList, c ∈ alphabet) ∧
    ∀ k : Key, k.text.length = 12 → (∀ c ∈ k.text.toList, c ∈ alphabet) →
      {bytes | k.IsDrawnFrom bytes}.ncard = 4 ^ 12 := by
  refine ⟨generate?_eq, ?_, ?_⟩
  · intro draws k h
    rw [generate?_eq] at h
    split at h
    · rename_i hlength
      obtain rfl := Option.some.inj h
      refine ⟨?_, fun c hc => mem_alphabet_of_mem_spelled hc⟩
      rw [length_spelled, List.length_take_of_le hlength]
      rfl
    · contradiction
  · intro k hlength hchars
    have hset : {bytes | k.IsDrawnFrom bytes} =
        {bytes | (∀ b ∈ bytes, b < firstRejected) ∧ bytes.map charOfByte = k.text.toList} := by
      ext bytes
      rw [Set.mem_ofPred_eq, Set.mem_ofPred_eq, isDrawnFrom_iff, spelled_eq_iff]
      constructor
      · rintro ⟨-, h⟩
        exact h
      · rintro ⟨hbytes, hmap⟩
        refine ⟨?_, hbytes, hmap⟩
        rw [← List.length_map charOfByte, hmap, String.length_toList, hlength]
        rfl
    rw [hset, ncard_spelling hchars, String.length_toList, hlength]

/-- The key of two draws between which its fourth and fifth characters lie, with bytes that are
passed over on both sides. -/
theorem drawn_evenly_trial :
    let draws : List Bytes := [List.replicate 27 255 ++ [0, 248, 61, 62, 247],
      [250, 10, 11, 12, 13, 14, 15, 16, 17] ++ List.replicate 23 0]
    let k : Key := ⟨"0z0zABCDEFGH"⟩
    generate? draws = some k ∧ k.text.length = 12 ∧
      {bytes | k.IsDrawnFrom bytes}.ncard = 4 ^ 12 := by
  intro draws k
  obtain ⟨hgenerate, hform, hways⟩ := drawn_evenly
  have hdraws : generate? draws = some k := (hgenerate draws).trans (by decide)
  obtain ⟨hlength, hchars⟩ := hform draws k hdraws
  exact ⟨hdraws, hlength, hways k hlength hchars⟩

end ReadOnce.Key
