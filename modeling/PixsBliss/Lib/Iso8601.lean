import PixsBliss.Lib.Calendar
import PixsBliss.Lib.IntLiteral

/-! # Times as texts

The texts of ISO 8601 as Dart's `DateTime` writes and reads them. A time is a number of microseconds
since the epoch; a local time is the number a UTC clock would have to show the same date and time of
day. The text of a local time does not say where it was local.

* `readFields_format`: the text of a time is read back field by field.
* `Zone.read_text`: a time that is written in one zone and read in another is moved by the
  difference of their offsets. -/

namespace PixsBliss.Lib.Iso8601

open PixsBliss.Lib.Calendar PixsBliss.Lib.IntLiteral

/-! ### Numbers of a fixed width -/

/-- A number, with zeros before it up to a width. -/
def padded (k n : ℕ) : List Char := (digits n).leftpad k '0'

/-- The value of the first `k` characters, if they are digits, and the rest. -/
def takeDigits (k : ℕ) (s : List Char) : Option (ℕ × List Char) :=
  if k ≤ s.length ∧ (s.take k).all Char.isDigit then
    some (Nat.ofDigitChars 10 (s.take k) 0, s.drop k)
  else none

section Widths

variable {k j n : ℕ} {c : Char} {r : List Char}

theorem length_padded (hk : 0 < k) (h : n < 10 ^ k) : (padded k n).length = k := by
  have hle : (digits n).length ≤ k := (Nat.length_toDigits_le_iff (by decide) hk).mpr h
  rw [padded, List.length_leftpad, max_eq_left hle]

theorem isDigit_of_mem_padded (h : c ∈ padded k n) : c.isDigit = true := by
  rcases List.mem_append.mp h with hzero | hdigit
  · rw [List.eq_of_mem_replicate hzero]
    rfl
  · exact isDigit_of_mem_digits hdigit

theorem ofDigitChars_padded (k n : ℕ) : Nat.ofDigitChars 10 (padded k n) 0 = n := by
  rw [padded, List.leftpad, Nat.ofDigitChars_append, Nat.ofDigitChars_replicate_zero, Nat.mul_zero]
  exact Nat.ofDigitChars_ten_toDigits

theorem all_isDigit_padded (k n : ℕ) : (padded k n).all Char.isDigit = true :=
  List.all_eq_true.mpr fun _ hc => isDigit_of_mem_padded hc

/-- A number is read back at its width. -/
theorem takeDigits_padded (hk : 0 < k) (h : n < 10 ^ k) (r : List Char) :
    takeDigits k (padded k n ++ r) = some (n, r) := by
  have hlen := length_padded hk h
  unfold takeDigits
  rw [List.take_left' hlen, List.drop_left' hlen, ofDigitChars_padded, if_pos]
  refine ⟨?_, all_isDigit_padded k n⟩
  rw [List.length_append]
  omega

/-- And at no greater width. -/
theorem takeDigits_short (hj : 0 < j) (hjk : j < k) (h : n < 10 ^ j) (hc : c.isDigit = false)
    (r : List Char) : takeDigits k (padded j n ++ c :: r) = none := by
  have hlen := length_padded hj h
  unfold takeDigits
  rw [if_neg]
  rintro ⟨hle, hall⟩
  have hmem : c ∈ (padded j n ++ c :: r).take k := by
    rw [List.take_append, List.take_of_length_le (by omega), hlen]
    obtain ⟨m, hm⟩ : ∃ m, k - j = m + 1 := ⟨k - j - 1, by omega⟩
    rw [hm, List.take_succ_cons]
    exact List.mem_append_right _ List.mem_cons_self
  rw [List.all_eq_true.mp hall c hmem] at hc
  cases hc

end Widths

/-! ### Writing -/

def dayLength : ℤ := 86400000000

/-- The years from -9999 to 9999 have four digits, the others six and a sign. -/
def yearText (y : ℤ) : List Char :=
  if y.natAbs ≤ 9999 then (if y < 0 then ['-'] else []) ++ padded 4 y.natAbs
  else (if y < 0 then '-' else '+') :: padded 6 y.natAbs

/-- Milliseconds, and microseconds if there are any. -/
def fractionText (microseconds : ℕ) : List Char :=
  padded 3 (microseconds / 1000) ++
    if microseconds % 1000 = 0 then [] else padded 3 (microseconds % 1000)

/-- The microseconds since midnight. -/
def timeOfDay (wall : ℤ) : ℕ := (wall % dayLength).toNat

def hourOf (wall : ℤ) : ℕ := timeOfDay wall / 3600000000

def minuteOf (wall : ℤ) : ℕ := timeOfDay wall / 60000000 % 60

def secondOf (wall : ℤ) : ℕ := timeOfDay wall / 1000000 % 60

def fractionOf (wall : ℤ) : ℕ := timeOfDay wall % 1000000

/-- `toIso8601String`, of the time the clock shows. -/
def format (wall : ℤ) (isUtc : Bool) : List Char :=
  let d := date (wall / dayLength)
  yearText d.year ++ '-' :: (padded 2 d.month ++ '-' :: (padded 2 d.day ++
    'T' :: (padded 2 (hourOf wall) ++ ':' :: (padded 2 (minuteOf wall) ++
      ':' :: (padded 2 (secondOf wall) ++ '.' :: (fractionText (fractionOf wall) ++
        if isUtc then ['Z'] else []))))))

/-! ### Reading -/

/-- What a text says. -/
structure Fields where
  year : ℤ
  month : ℕ
  day : ℕ
  hour : ℕ := 0
  minute : ℕ := 0
  second : ℕ := 0
  microsecond : ℕ := 0
  -- the minutes ahead of UTC
  zone : Option ℤ := none
deriving DecidableEq

/-- An optional character. -/
def skip (c : Char) : List Char → List Char
  | x :: s => if x = c then s else x :: s
  | [] => []

/-- `(\d\d)(?::?(\d\d))?$`, in minutes. -/
def readOffset (s : List Char) : Option ℕ :=
  match takeDigits 2 s with
  | none => none
  | some (h, []) => some (60 * h)
  | some (h, s) =>
    match takeDigits 2 (skip ':' s) with
    | some (m, []) => some (60 * h + m)
    | _ => none

/-- `( ?[zZ]| ?([-+])(\d\d)(?::?(\d\d))?)?$` -/
def readZone (f : Fields) : List Char → Option Fields
  | [] => some f
  | c :: s =>
    match skip ' ' (c :: s) with
    | [] => none
    | x :: r =>
      if x = 'z' ∨ x = 'Z' then if r = [] then some { f with zone := some 0 } else none
      else if x = '-' then (readOffset r).map fun m => { f with zone := some (-m) }
      else if x = '+' then (readOffset r).map fun m => { f with zone := some m }
      else none

/-- The first six digits of a fraction, as microseconds. -/
def microseconds (s : List Char) : ℕ :=
  Nat.ofDigitChars 10 ((s ++ List.replicate 6 '0').take 6) 0

/-- `(?:[.,](\d+))?` and the zone. -/
def readFraction (f : Fields) : List Char → Option Fields
  | [] => some f
  | c :: s =>
    if (c = '.' ∨ c = ',') ∧ s.takeWhile Char.isDigit ≠ [] then
      readZone { f with microsecond := microseconds (s.takeWhile Char.isDigit) }
        (s.dropWhile Char.isDigit)
    else readZone f (c :: s)

/-- `(?::?(\d\d)…)?` for the seconds. -/
def readSecond (f : Fields) (s : List Char) : Option Fields :=
  match takeDigits 2 (skip ':' s) with
  | some (n, r) => readFraction { f with second := n } r
  | none => readZone f s

/-- `(?::?(\d\d)…)?` for the minutes. -/
def readMinute (f : Fields) (s : List Char) : Option Fields :=
  match takeDigits 2 (skip ':' s) with
  | some (n, r) => readSecond { f with minute := n } r
  | none => readZone f s

/-- `(?:[ T](\d\d)…)?$` -/
def readTime (f : Fields) : List Char → Option Fields
  | [] => some f
  | c :: s =>
    if c = ' ' ∨ c = 'T' then
      (takeDigits 2 s).bind fun (n, r) => readMinute { f with hour := n } r
    else none

/-- The sign of a year. -/
def readSign : List Char → ℤ × List Char
  | [] => (1, [])
  | c :: s => if c = '-' then (-1, s) else if c = '+' then (1, s) else (1, c :: s)

/-- `([+-]?\d{k})-?(\d\d)-?(\d\d)` and the time. -/
def readDate (k : ℕ) (s : List Char) : Option Fields :=
  (takeDigits k (readSign s).2).bind fun (y, s') =>
    (takeDigits 2 (skip '-' s')).bind fun (m, s'') =>
      (takeDigits 2 (skip '-' s'')).bind fun (d, r) =>
        readTime { year := (readSign s).1 * y, month := m, day := d } r

/-- The expression of `DateTime.parse`: the year has as many digits as possible. -/
def readFields (s : List Char) : Option Fields :=
  (readDate 6 s).or ((readDate 5 s).or (readDate 4 s))

namespace Fields

/-- `_brokenDownDateToValue`: months and the rest may be out of their range. -/
def value (f : Fields) : ℤ :=
  let y := f.year + ((f.month : ℤ) - 1) / 12
  let m := (((f.month : ℤ) - 1) % 12).toNat
  (dayFromYear y + daysUntilMonth (isLeapYear y) m + (f.day - 1)) * dayLength +
    f.hour * 3600000000 + (f.minute - f.zone.getD 0) * 60000000 + f.second * 1000000 +
    f.microsecond

end Fields

example : readFields "2024-02-30 7:30".toList = none := by decide
example : (readFields "20240230T0730+0530".toList).map Fields.value =
    some 1709258400000000 := by decide

/-! ### The fields of a written text -/

section Reading

variable {f : Fields} {c : Char} {r : List Char} {n : ℕ} {y wall : ℤ}

theorem skip_self (c : Char) (s : List Char) : skip c (c :: s) = s := if_pos rfl

theorem takeWhile_digits {s : List Char} (h : ∀ c ∈ s, c.isDigit = true)
    (hr : ∀ c ∈ r.head?, c.isDigit = false) :
    (s ++ r).takeWhile Char.isDigit = s ∧ (s ++ r).dropWhile Char.isDigit = r := by
  rw [List.takeWhile_append_of_pos h, List.dropWhile_append_of_pos h]
  cases r with
  | nil => exact ⟨List.append_nil s, rfl⟩
  | cons c r =>
    have hc : ¬c.isDigit = true := by simp [hr c rfl]
    rw [List.takeWhile_cons_of_neg hc, List.dropWhile_cons_of_neg hc]
    exact ⟨List.append_nil s, rfl⟩

theorem isDigit_of_mem_fractionText (h : c ∈ fractionText n) : c.isDigit = true := by
  rcases List.mem_append.mp h with hmilli | hmicro
  · exact isDigit_of_mem_padded hmilli
  · split_ifs at hmicro
    · cases hmicro
    · exact isDigit_of_mem_padded hmicro

theorem fractionText_ne_nil (hn : n < 1000000) : fractionText n ≠ [] := by
  have hlen := length_padded (k := 3) (n := n / 1000) (by decide) (by omega)
  intro h
  rw [(List.append_eq_nil_iff.mp h).1] at hlen
  cases hlen

/-- A fraction is read back, with or without its microseconds. -/
theorem microseconds_fractionText (hn : n < 1000000) : microseconds (fractionText n) = n := by
  have hmilli := length_padded (k := 3) (n := n / 1000) (by decide) (by omega)
  have hmicro := length_padded (k := 3) (n := n % 1000) (by decide) (by omega)
  unfold microseconds fractionText
  split_ifs with h
  · rw [List.append_nil, List.take_append, List.take_of_length_le (by omega), hmilli,
      List.take_replicate, Nat.ofDigitChars_append, Nat.ofDigitChars_replicate_zero,
      ofDigitChars_padded]
    show 1000 * (n / 1000) = n
    omega
  · rw [List.take_append_of_le_length (by rw [List.length_append]; omega),
      List.take_of_length_le (by rw [List.length_append]; omega), Nat.ofDigitChars_append,
      Nat.ofDigitChars_eq_ofDigitChars_zero, ofDigitChars_padded, ofDigitChars_padded, hmicro]
    omega

theorem readZone_suffix (f : Fields) (isUtc : Bool) :
    readZone f (if isUtc then ['Z'] else []) =
      some (if isUtc then { f with zone := some 0 } else f) := by
  cases isUtc <;> rfl

theorem readTime_format (f : Fields) {h m s us : ℕ} (hh : h < 100) (hm : m < 100) (hs : s < 100)
    (hus : us < 1000000) (isUtc : Bool) :
    readTime f ('T' :: (padded 2 h ++ ':' :: (padded 2 m ++ ':' :: (padded 2 s ++
      '.' :: (fractionText us ++ if isUtc then ['Z'] else []))))) =
    some { f with
      hour := h, minute := m, second := s, microsecond := us
      zone := if isUtc then some 0 else f.zone } := by
  have hread : ∀ {n} (r : List Char), n < 100 → takeDigits 2 (padded 2 n ++ r) = some (n, r) :=
    fun r hn => takeDigits_padded (by decide) hn r
  have hhead : ∀ c ∈ (if isUtc then ['Z'] else []).head?, c.isDigit = false := by
    intro c hc
    cases isUtc with
    | false => cases hc
    | true =>
      obtain rfl := Option.some.inj hc
      rfl
  obtain ⟨htake, hdrop⟩ := takeWhile_digits (s := fractionText us)
    (fun _ => isDigit_of_mem_fractionText) hhead
  unfold readTime
  simp only [or_true, if_true, hread _ hh, Option.bind_some, readMinute, skip_self, hread _ hm,
    readSecond, hread _ hs, readFraction, htake, hdrop, true_or, true_and, ne_eq,
    fractionText_ne_nil hus, not_false_eq_true, microseconds_fractionText hus, readZone_suffix]
  cases isUtc <;> rfl

/-- The digits a year is written with. -/
def yearWidth (y : ℤ) : ℕ := if y.natAbs ≤ 9999 then 4 else 6

theorem readSign_yearText (y : ℤ) (r : List Char) : readSign (yearText y ++ r) =
    (if y < 0 then -1 else 1, padded (yearWidth y) y.natAbs ++ r) := by
  unfold yearText yearWidth
  split_ifs with hfour hneg hneg
  · rfl
  · -- the first character is a digit
    have hlen := length_padded (k := 4) (n := y.natAbs) (by decide) (by omega)
    cases htext : padded 4 y.natAbs with
    | nil =>
      rw [htext] at hlen
      cases hlen
    | cons c s =>
      have hc : c.isDigit = true := isDigit_of_mem_padded (htext ▸ List.mem_cons_self)
      have hminus : c ≠ '-' := by
        rintro rfl
        cases hc
      have hplus : c ≠ '+' := by
        rintro rfl
        cases hc
      simp only [List.nil_append, List.cons_append, readSign, hminus, hplus, if_false]
  · rfl
  · rfl

/-- The year has as many digits as are read. -/
theorem readFields_of_readDate (hy : y.natAbs < 1000000)
    (h : readDate (yearWidth y) (yearText y ++ '-' :: r) = some f) :
    readFields (yearText y ++ '-' :: r) = some f := by
  have hfail : ∀ k, yearWidth y < k → readDate k (yearText y ++ '-' :: r) = none := by
    intro k hk
    have hwidth : 0 < yearWidth y ∧ y.natAbs < 10 ^ yearWidth y := by
      unfold yearWidth
      split_ifs <;> omega
    unfold readDate
    rw [readSign_yearText, takeDigits_short hwidth.1 hk hwidth.2 rfl]
    rfl
  unfold readFields
  by_cases hfour : y.natAbs ≤ 9999
  · have hwidth : yearWidth y = 4 := if_pos hfour
    rw [hfail 6 (by omega), hfail 5 (by omega), ← hwidth, h]
    rfl
  · have hwidth : yearWidth y = 6 := if_neg hfour
    rw [← hwidth, h]
    rfl

def fieldsOf (wall : ℤ) (isUtc : Bool) : Fields where
  year := (date (wall / dayLength)).year
  month := (date (wall / dayLength)).month
  day := (date (wall / dayLength)).day
  hour := hourOf wall
  minute := minuteOf wall
  second := secondOf wall
  microsecond := fractionOf wall
  zone := if isUtc then some 0 else none

theorem timeOfDay_lt (wall : ℤ) : timeOfDay wall < 86400000000 := by
  unfold timeOfDay dayLength
  omega

/-- **A text is read back field by field.** -/
theorem readFields_format (hy : (date (wall / dayLength)).year.natAbs < 1000000) (isUtc : Bool) :
    readFields (format wall isUtc) = some (fieldsOf wall isUtc) := by
  have ht := timeOfDay_lt wall
  have hmonth := (date (wall / dayLength)).month_le
  have hday := (date (wall / dayLength)).day_le
  have hlast := daysInMonth_le (date (wall / dayLength)).year hmonth
  have hread : ∀ {n} (r : List Char), n < 100 → takeDigits 2 (padded 2 n ++ r) = some (n, r) :=
    fun r hn => takeDigits_padded (by decide) hn r
  have hwidth : 0 < yearWidth (date (wall / dayLength)).year ∧
      (date (wall / dayLength)).year.natAbs < 10 ^ yearWidth (date (wall / dayLength)).year := by
    unfold yearWidth
    split_ifs <;> omega
  refine readFields_of_readDate hy ?_
  unfold readDate
  rw [readSign_yearText, takeDigits_padded hwidth.1 hwidth.2, Option.bind_some]
  simp only [skip_self]
  rw [hread _ (by omega), Option.bind_some]
  simp only [skip_self]
  rw [hread _ (by omega), Option.bind_some]
  have hhour : hourOf wall < 100 := by unfold hourOf; omega
  have hminute : minuteOf wall < 100 := by unfold minuteOf; omega
  have hsecond : secondOf wall < 100 := by unfold secondOf; omega
  have hfraction : fractionOf wall < 1000000 := by unfold fractionOf; omega
  rw [readTime_format _ hhour hminute hsecond hfraction]
  have hyear : (if (date (wall / dayLength)).year < 0 then -1 else 1) *
      ((date (wall / dayLength)).year.natAbs : ℤ) = (date (wall / dayLength)).year := by
    split_ifs <;> omega
  simp only [fieldsOf, hyear]

theorem value_fieldsOf (wall : ℤ) (isUtc : Bool) : (fieldsOf wall isUtc).value = wall := by
  have hday := dayNumber_date (wall / dayLength)
  have hpos := (date (wall / dayLength)).month_pos
  have hle := (date (wall / dayLength)).month_le
  have hdaypos := (date (wall / dayLength)).day_pos
  have hzone : (if isUtc then some (0 : ℤ) else none).getD 0 = 0 := by cases isUtc <;> rfl
  have hmonth : (((date (wall / dayLength)).month : ℤ) - 1) % 12 =
      ((date (wall / dayLength)).month - 1 : ℕ) := by omega
  have hyear : (((date (wall / dayLength)).month : ℤ) - 1) / 12 = 0 := by omega
  unfold Date.dayNumber Date.dayOfYear at hday
  unfold Fields.value
  simp only [fieldsOf, hzone, hmonth, hyear, add_zero, Int.toNat_natCast]
  have hdays : dayFromYear (date (wall / dayLength)).year +
      daysUntilMonth (isLeapYear (date (wall / dayLength)).year)
        ((date (wall / dayLength)).month - 1) + ((date (wall / dayLength)).day - 1) =
      wall / dayLength := by omega
  rw [hdays]
  unfold hourOf minuteOf secondOf fractionOf timeOfDay dayLength
  omega

end Reading

/-! ### Zones -/

def maxTime : ℤ := 8640000000000000000

/-- 100,000,000 days around the epoch. -/
def InRange (t : ℤ) : Prop := -maxTime ≤ t ∧ t ≤ maxTime

instance (t : ℤ) : Decidable (InRange t) := instDecidableAnd

/-- An instant a `DateTime` can be. -/
abbrev Instant := {t : ℤ // InRange t}

/-- **A local zone**: the offset at each instant, and the offset each local time is read with. A
local time that comes once is read as the instant it comes at; one that comes twice or never is read
with some offset. -/
structure Zone where
  offset : ℤ → ℤ
  localOffset : ℤ → ℤ
  offset_bound : ∀ t, -dayLength ≤ offset t ∧ offset t ≤ dayLength
  localOffset_of_once : ∀ t, (∀ t', t' + offset t' = t + offset t → t' = t) →
    localOffset (t + offset t) = offset t

namespace Zone

def fixed (o : ℤ) (h : -dayLength ≤ o ∧ o ≤ dayLength) : Zone :=
  ⟨fun _ => o, fun _ => o, fun _ => h, fun _ _ => rfl⟩

variable (z z' : Zone) {t : ℤ}

/-- The text of a time, in UTC or local. -/
def text (t : ℤ) (isUtc : Bool) : List Char :=
  format (if isUtc then t else t + z.offset t) isUtc

/-- The time of a text: with a zone in UTC, else local. -/
def read (s : List Char) : Option (ℤ × Bool) :=
  (readFields s).bind fun f =>
    if f.zone.isSome then if InRange f.value then some (f.value, true) else none
    else if -maxTime - dayLength ≤ f.value ∧ f.value ≤ maxTime + dayLength ∧
        InRange (f.value - z.localOffset f.value) then
      some (f.value - z.localOffset f.value, false)
    else none

theorem year_bound {wall : ℤ} (hlo : -maxTime - dayLength ≤ wall)
    (hhi : wall ≤ maxTime + dayLength) :
    (date (wall / dayLength)).year.natAbs < 1000000 := by
  have hbounds := (date (wall / dayLength)).dayNumber_bounds
  rw [dayNumber_date] at hbounds
  unfold dayFromYear at hbounds
  unfold maxTime dayLength at hlo hhi
  unfold dayLength at hbounds ⊢
  omega

/-- A time in UTC is read back. -/
theorem read_text_utc (ht : InRange t) : z'.read (z.text t true) = some (t, true) := by
  have hyear : (date (t / dayLength)).year.natAbs < 1000000 := by
    refine year_bound ?_ ?_ <;> unfold InRange at ht <;> unfold dayLength <;> omega
  have hzone : (fieldsOf t true).zone.isSome = true := rfl
  show z'.read (format t true) = _
  unfold read
  rw [readFields_format hyear, Option.bind_some, value_fieldsOf, if_pos hzone, if_pos ht]

/-- **A local time that is read in another zone** is moved by the difference of the offsets. -/
theorem read_text (ht : InRange t) : z'.read (z.text t false) =
    if InRange (t + z.offset t - z'.localOffset (t + z.offset t)) then
      some (t + z.offset t - z'.localOffset (t + z.offset t), false)
    else none := by
  have hoff := z.offset_bound t
  have hwall : -maxTime - dayLength ≤ t + z.offset t ∧ t + z.offset t ≤ maxTime + dayLength := by
    unfold InRange at ht
    omega
  show z'.read (format (t + z.offset t) false) = _
  unfold read
  rw [readFields_format (year_bound hwall.1 hwall.2), Option.bind_some, value_fieldsOf]
  simp only [hwall, true_and]
  rfl

/-- In the zone it was written in, a local time that comes once is read back. -/
theorem read_text_self (ht : InRange t) (honce : ∀ t', t' + z.offset t' = t + z.offset t → t' = t) :
    z.read (z.text t false) = some (t, false) := by
  rw [read_text z z ht, z.localOffset_of_once t honce, add_sub_cancel_right, if_pos ht]

end Zone
end PixsBliss.Lib.Iso8601
