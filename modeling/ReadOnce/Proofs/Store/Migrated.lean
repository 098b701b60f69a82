import ReadOnce.Proofs.Number.Rounding
import ReadOnce.Proofs.Store.Reopened

/-!
# Tables brought to the current layout

A file may keep its deadlines in seconds, with or without the flag. Opened once, it holds the same
rows in the same order, with deadlines in nanoseconds. Where these leave 64 bits at the upper end,
the row is read with the last deadline there is. At the lower end there is no such bound: the
deadline becomes a floating-point number, and the row cannot be read any more.

A deadline in nanoseconds may take some bytes more. If a row becomes too big by that, the file is
not opened.
-/

namespace ReadOnce

/-- A product that is beyond the lower end of 64 bits stays a floating-point number. -/
theorem Cell.ofFloat_of_atMost {x : Float}
    (h : Binary64.atMost x (-9223372036854775808) = true) : ofFloat x = .real x := by
  have hle : Binary64.numerator x ≤ -9223372036854775808 * (Binary64.denominator x : Int) :=
    of_decide_eq_true h
  have hpos : (0 : Int) < Binary64.denominator x := by
    exact_mod_cast Nat.pow_pos (show 0 < 2 by decide)
  simp only [ofFloat, Binary64.toInt?]
  split
  · rename_i n hn
    split at hn
    · obtain rfl := Option.some.inj hn
      have hdiv := Int.ediv_le_of_le_mul hpos hle
      rw [if_neg (by omega)]
    · contradiction
  · rfl

namespace Table

/-- A number of seconds in nanoseconds, or the end of 64 bits on its side. -/
def saturatedNanos (secs : Int64) : Int64 :=
  Int64.ofInt (max (-9223372036854775808) (min (secs.toInt * 1000000000) 9223372036854775807))

theorem toInt_saturatedNanos (secs : Int64) :
    (saturatedNanos secs).toInt =
      max (-9223372036854775808) (min (secs.toInt * 1000000000) 9223372036854775807) :=
  Int64.toInt_ofInt_of_le (by omega) (by omega)

/-- Saturation keeps the order of deadlines. -/
theorem instantOf_saturatedNanos_le {secs secs' : Int64} (h : secs ≤ secs') :
    instantOf (saturatedNanos secs) ≤ instantOf (saturatedNanos secs') := by
  have h := Int64.le_iff_toInt_le.1 h
  rw [Instant.le_iff_unixNanos_le (isLeap_instantOf _) (isLeap_instantOf _), unixNanos_instantOf,
    unixNanos_instantOf, toInt_saturatedNanos, toInt_saturatedNanos]
  omega

/-- A deadline in seconds beyond 64 bits of nanoseconds. -/
def overflown (secs : Int64) : Float :=
  Float.ofInt secs.toInt * Float.ofInt 1000000000

/-- Deadlines in seconds are saturated at the upper end only. -/
theorem nanosOfSeconds_integer (secs : Int64) :
    nanosOfSeconds (.integer secs) =
      if -9223372036 ≤ secs.toInt then .integer (saturatedNanos secs)
      else .real (overflown secs) := by
  have hlast : lastSecond.toInt = 9223372036 := rfl
  have hfactor : (1000000000 : Int64).toInt = 1000000000 := rfl
  have hfirst := secs.le_toInt
  have hexceeds : (Cell.integer secs).exceeds lastSecond = decide (9223372036 < secs.toInt) := by
    simp only [Cell.exceeds, Cell.atMost, Int64.le_iff_toInt_le, hlast]
    rw [← decide_not, decide_eq_decide]
    omega
  rw [nanosOfSeconds, hexceeds]
  simp only [decide_eq_true_eq]
  by_cases hlarge : 9223372036 < secs.toInt
  · rw [if_pos hlarge, if_pos (by omega)]
    refine congrArg Cell.integer (Int64.toInt_inj.1 ?_)
    have hmax : Int64.maxValue.toInt = 9223372036854775807 := rfl
    rw [toInt_saturatedNanos, hmax]
    omega
  · rw [if_neg hlarge]
    simp only [Cell.times, Cell.numeric, Cell.int64?, hfactor]
    by_cases hsmall : -9223372036 ≤ secs.toInt
    · rw [if_pos (by omega), if_pos hsmall]
      refine congrArg Cell.integer (Int64.toInt_inj.1 ?_)
      rw [Int64.toInt_ofInt_of_le (by omega) (by omega), toInt_saturatedNanos]
      omega
    · rw [if_neg (by omega), if_neg hsmall]
      exact Cell.ofFloat_of_atMost (Binary64.atMost_mul_of_lt hfirst (by omega))

/-- A row keeps a message with the deadline in seconds; the deadline of the message is that one, as
far as 64 bits of nanoseconds reach. -/
structure Row.KeepsInSeconds (row : Row) (m : Message) (secs : Int64) : Prop where
  id : row.id = .text m.key.text
  exp : row.exp = .integer secs
  deadline : m.expiresAt = instantOf (saturatedNanos secs)
  data : row.data = .blob m.data
  pinHash : row.pinHash = .text m.pinHash
  errors : row.errors = .integer (Int64.ofNat m.errors.toNat)
  clientEncrypted : ∃ flag : Int64, row.clientEncrypted = .integer flag ∧
    m.clientEncrypted = (flag != 0)

/-- A row with its deadline in nanoseconds. -/
def Row.inNanos (row : Row) : Row :=
  { row with exp := nanosOfSeconds row.exp }

/-- The cells of a row without the deadline. -/
def Row.undated (row : Row) : Row :=
  { row with exp := .null }

namespace Row.KeepsInSeconds

variable {row : Row} {m : Message} {secs : Int64} (h : row.KeepsInSeconds m secs)
include h

theorem message_inNanos_of_le (hsecs : -9223372036 ≤ secs.toInt) :
    row.inNanos.message m.key = .ok m := by
  obtain ⟨flag, hflag, hset⟩ := h.clientEncrypted
  refine message_eq_ok_iff.2 ⟨saturatedNanos secs, ?_, ?_, ?_, ?_, ?_, rfl, h.deadline⟩
  · simp only [inNanos, h.exp, nanosOfSeconds_integer, if_pos hsecs, Column.integer]
  · simp only [inNanos, h.data, Column.bytes]
  · simp only [inNanos, h.pinHash, Column.text]
  · simp only [inNanos, h.errors, Column.count_ofNat]
  · simp only [inNanos, hflag, hset, Column.flag]

theorem message_inNanos_of_lt (hsecs : secs.toInt < -9223372036) :
    row.inNanos.message m.key = .error ((Column.mk 0 "exp").mistyped (.real (overflown secs))) := by
  simp only [Row.message, inNanos, h.exp, nanosOfSeconds_integer, if_neg (Int.not_le.2 hsecs),
    Column.integer, bind, Except.bind]

end Row.KeepsInSeconds

theorem migrate_of_seconds {found : Database} (h : found.version < currentVersion) :
    found.migrate = ⟨currentVersion, found.layout.rows.map Row.inNanos, false⟩ := by
  rw [Database.migrate, if_neg (Int.not_le.2 h)]
  rfl

/-- A row that is not too big has no key that is too long. -/
theorem overlong?_of_size {row : Row} {key : Key} (hkey : row.id = .text key.text)
    (hsize : row.isTooBig = false) : overlong? key.text.utf8ByteSize = none := by
  have hlarge : key.text.utf8ByteSize ≤ row.id.size := by
    rw [hkey]
    exact Nat.le_add_left ..
  have hsize : row.size ≤ maxSize := Nat.not_lt.1 (of_decide_eq_false hsize)
  unfold Row.size maxSize at hsize
  unfold overlong? maxSize
  rw [if_neg (by omega), if_neg (by omega)]

/-- A row of a table that holds none too big is loaded under its key. -/
theorem answer_load_of_mem {t : Table} {row : Row} {key : Key} (hrow : row ∈ t.rows)
    (hkey : row.id = .text key.text) (hkeys : (t.rows.map Row.id).Nodup)
    (hsize : row.isTooBig = false) : (t.answer (.load key)).1 = row.message key := by
  rw [answer_of_taken (refusal?_load_eq_none_iff.2 (overlong?_of_size hkey hsize)), perform_load]
  exact load_of_mem hrow hkey hkeys

/-- A file with deadlines in seconds is opened in the current layout, in which it is kept from then
on, unless a row becomes too big in it. Its rows stay what they are, in their order, but for the
deadlines. A row that keeps a message is read as this message, with its deadline saturated at the
upper end and with the flag not set if there was none; at the lower end it is not read any more. -/
theorem open_of_seconds {address : String} {d : Disk} {a : Address} {p : Path} {found : Database}
    (haddress : LeadsTo address d a p) (hfile : d.find p = .ok (some (.database found)))
    (hversion : found.version < currentVersion) (hkeys : (found.layout.rows.map Row.id).Nodup) :
    ((∃ row ∈ found.layout.rows, row.inNanos.isTooBig = true) ∧
        Table.open address d = .error (failure tooBig)) ∨
      (∀ row ∈ found.layout.rows, row.inNanos.isTooBig = false) ∧
      ∃ t, Table.open address d = .ok (t, d.put p (.database (.ofTable a.canLog t))) ∧
        t.version = currentVersion ∧
        t.rows.map Row.undated = found.layout.rows.map Row.undated ∧
        ∀ row ∈ found.layout.rows, ∀ m secs, row.KeepsInSeconds m secs →
          ((t.answer (.load m.key)).1 = .ok m ↔ -9223372036 ≤ secs.toInt) ∧
          (secs.toInt < -9223372036 → (t.answer (.load m.key)).1 =
            .error ((Column.mk 0 "exp").mistyped (.real (overflown secs)))) ∧
          (∀ rows, found.layout = .old rows → m.clientEncrypted = false) ∧
          ∀ row' ∈ found.layout.rows, ∀ m' secs', row'.KeepsInSeconds m' secs' → secs ≤ secs' →
            m.expiresAt ≤ m'.expiresAt := by
  have hfound : file a address p d = .ok found := by
    simp only [file, hfile]
  have hmigrate := migrate_of_seconds hversion
  have hoverflows : found.overflows = found.layout.rows.any fun row => row.inNanos.isTooBig := by
    simp [Database.overflows, hversion, hmigrate, List.any_map, Function.comp_def]
  cases hfits : found.overflows with
  | true =>
      rw [hoverflows, List.any_eq_true] at hfits
      exact .inl ⟨hfits, haddress.open_of_overflows hfound (hoverflows ▸ List.any_eq_true.2 hfits)⟩
  | false =>
  have hsizes : ∀ row ∈ found.layout.rows, row.inNanos.isTooBig = false := by
    simpa [hoverflows] using hfits
  have hkeys' : (found.migrate.rows.map Row.id).Nodup := by
    rw [hmigrate, List.map_map]
    exact hkeys
  refine .inr ⟨hsizes, found.migrate, haddress.open_eq hfound hfits, by rw [hmigrate], ?_, ?_⟩
  · rw [hmigrate, List.map_map]
    rfl
  · intro row hrow m secs hkeeps
    have hload : (found.migrate.answer (.load m.key)).1 = row.inNanos.message m.key := by
      refine answer_load_of_mem ?_ hkeeps.id hkeys' (hsizes row hrow)
      rw [hmigrate]
      exact List.mem_map_of_mem hrow
    rw [hload]
    refine ⟨⟨?_, hkeeps.message_inNanos_of_le⟩, hkeeps.message_inNanos_of_lt, ?_, ?_⟩
    · intro hread
      by_contra hsecs
      rw [hkeeps.message_inNanos_of_lt (Int.not_le.1 hsecs)] at hread
      contradiction
    · intro rows hold
      rw [hold] at hrow
      obtain ⟨old, -, rfl⟩ := List.mem_map.1 hrow
      obtain ⟨flag, hflag, hset⟩ := hkeeps.clientEncrypted
      obtain rfl : 0 = flag := Cell.integer.inj hflag
      exact hset
    · intro row' _ m' secs' hkeeps' hle
      rw [hkeeps.deadline, hkeeps'.deadline]
      exact instantOf_saturatedNanos_le hle

/-- Three rows without the flag, the deadlines of two of which do not fit 64 bits of nanoseconds:
the later one is read with the last deadline there is, the earlier one is not read. -/
theorem open_of_seconds_beyond :
    let row (key : String) (secs : Int64) : OldRow :=
      ⟨.text key, .integer secs, .blob [7], .text "hash", .integer 2⟩
    let found : Database :=
      ⟨0, .old [row "a" (-9223372037), row "b" 1700000000, row "c" 9223372037], false, false⟩
    let d : Disk := ⟨[([Text.utf8 "store"], .database found)]⟩
    let m (key : String) (secs : Int64) : Message :=
      ⟨⟨key⟩, instantOf (saturatedNanos secs), [7], "hash", 2, false⟩
    LeadsTo "store" d (.ofPath (Text.utf8 "store")) [Text.utf8 "store"] ∧
      d.find [Text.utf8 "store"] = .ok (some (.database found)) ∧
      found.version < currentVersion ∧ (found.layout.rows.map Row.id).Nodup ∧
      ∃ t, Table.open "store" d =
          .ok (t, d.put [Text.utf8 "store"] (.database (.ofTable true t))) ∧
        (t.answer (.load ⟨"b"⟩)).1 = .ok (m "b" 1700000000) ∧
        (t.answer (.load ⟨"c"⟩)).1 = .ok (m "c" 9223372037) ∧
        (t.answer (.load ⟨"a"⟩)).1 ≠ .ok (m "a" (-9223372037)) := by
  intro row found d m
  have haddress : LeadsTo "store" d (.ofPath (Text.utf8 "store")) [Text.utf8 "store"] := by
    refine ⟨by decide, by decide, by decide, by decide, by decide, by decide, ?_⟩
    exact fun _ _ _ => rfl
  have hfile : d.find [Text.utf8 "store"] = .ok (some (.database found)) := rfl
  have hversion : found.version < currentVersion := by decide
  have hkeys : (found.layout.rows.map Row.id).Nodup := by decide
  have hsizes : ¬∃ row ∈ found.layout.rows, row.inNanos.isTooBig = true := by
    decide +kernel
  rcases open_of_seconds haddress hfile hversion hkeys with
    ⟨hbig, -⟩ | ⟨-, t, hopen, -, -, hrows⟩
  · exact absurd hbig hsizes
  have hkeeps (key : String) (secs : Int64) :
      (row key secs).flagged.KeepsInSeconds (m key secs) secs :=
    ⟨rfl, rfl, rfl, rfl, rfl, rfl, 0, rfl, rfl⟩
  have hread (key : String) (secs : Int64) (hrow : (row key secs).flagged ∈ found.layout.rows) :
      (t.answer (.load ⟨key⟩)).1 = .ok (m key secs) ↔ -9223372036 ≤ secs.toInt :=
    (hrows _ hrow _ _ (hkeeps key secs)).1
  exact ⟨haddress, hfile, hversion, hkeys, t, hopen,
    (hread "b" 1700000000 (.tail _ (.head _))).2 (by decide),
    (hread "c" 9223372037 (.tail _ (.tail _ (.head _)))).2 (by decide),
    mt (hread "a" (-9223372037) (.head _)).1 (by decide)⟩

end Table

end ReadOnce
