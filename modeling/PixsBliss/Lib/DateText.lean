import PixsBliss.Lib.Calendar
import PixsBliss.Lib.IntLiteral

/-! # Dates without padding

`dateText` writes the year, the month and the day of a date one after the other, without padding and
without anything in between. Where one number ends and the next one begins is then not in the text.

* `Shifted`: the ways to read the text of a date as another date.
* `dateText_eq_iff`: these are all. -/

namespace PixsBliss.Lib.DateText

open PixsBliss.Lib.Calendar PixsBliss.Lib.IntLiteral

/-! ### Digits -/

section Digits

variable {n n' t : ℕ}

theorem digits_injective (h : digits n = digits n') : n = n' := by
  have hvalue := congrArg (fun l => Nat.ofDigitChars 10 l 0) h
  simpa [digits] using hvalue

theorem digits_append (hn : 0 < n) (ht : t < 10) :
    digits n ++ [Nat.digitChar t] = digits (10 * n + t) := by
  have h := Nat.toDigits_append_toDigits (b := 10) (by decide) hn ht
  rwa [Nat.toDigits_of_lt_base ht] at h

/-- A positive number has no leading zero. -/
theorem head_digits (hn : 0 < n) : (digits n).head? ≠ some '0' := by
  induction n using Nat.strong_induction_on with
  | _ n ih =>
    by_cases hlt : n < 10
    · unfold digits
      rw [Nat.toDigits_of_lt_base hlt]
      interval_cases n <;> decide
    · have hsplit := Nat.toDigits_of_base_le (b := 10) (by decide) (not_lt.mp hlt)
      have hrest := ih (n / 10) (by omega) (by omega)
      unfold digits at hrest ⊢
      rw [hsplit, List.head?_append_of_ne_nil _ Nat.toDigits_ne_nil]
      exact hrest

/-- The digits of a number below 100. -/
def digitsOf (n : ℕ) : List ℕ := if n < 10 then [n] else [n / 10, n % 10]

theorem digitsOf_of_lt (h : n < 10) : digitsOf n = [n] := if_pos h

theorem digitsOf_of_le (h : 10 ≤ n) : digitsOf n = [n / 10, n % 10] := if_neg (not_lt.mpr h)

theorem digits_eq_map (h : n < 100) : digits n = (digitsOf n).map Nat.digitChar := by
  unfold digits digitsOf
  split_ifs with hlt
  · exact Nat.toDigits_of_lt_base hlt
  · rw [Nat.toDigits_of_base_le (by decide) (not_lt.mp hlt),
      Nat.toDigits_of_lt_base (by omega : n / 10 < 10)]
    rfl

theorem lt_of_mem_digitsOf (h : n < 100) (ht : t ∈ digitsOf n) : t < 10 := by
  unfold digitsOf at ht
  split_ifs at ht with hlt
  · rw [List.mem_singleton.mp ht]
    exact hlt
  · simp only [List.mem_cons, List.not_mem_nil, or_false] at ht
    omega

end Digits

/-! ### Years -/

/-- A digit behind the number. -/
def appendDigit (y : ℤ) (t : ℕ) : ℤ := if y < 0 then 10 * y - t else 10 * y + t

section Years

variable {y y' : ℤ} {t : ℕ}

def yearText (y : ℤ) : List Char := (toString y).toList

theorem minus_notMem_digits (n : ℕ) : '-' ∉ digits n := fun h =>
  absurd (isDigit_of_mem_digits h) (by decide)

theorem yearText_injective (h : yearText y = yearText y') : y = y' := by
  unfold yearText at h
  rw [toList_toString, toList_toString] at h
  split_ifs at h with hy hy' hy'
  · have hn := digits_injective h
    omega
  · exact absurd (h ▸ List.mem_cons_self) (minus_notMem_digits y.toNat)
  · exact absurd (h.symm ▸ List.mem_cons_self) (minus_notMem_digits y'.toNat)
  · have hn := digits_injective (List.cons.inj h).2
    omega

theorem yearText_append (hy : y ≠ 0) (ht : t < 10) :
    yearText y ++ [Nat.digitChar t] = yearText (appendDigit y t) := by
  unfold yearText appendDigit
  rw [toList_toString, toList_toString]
  by_cases hneg : y < 0
  · have hpos : 0 < (-y).toNat := by omega
    have hn : (-(10 * y - t)).toNat = 10 * (-y).toNat + t := by omega
    rw [if_pos hneg, if_neg (by omega), if_neg (by omega), List.cons_append,
      digits_append hpos ht, hn]
  · have hpos : 0 < y.toNat := by omega
    have hn : (10 * y + t).toNat = 10 * y.toNat + t := by omega
    rw [if_neg hneg, if_pos (by omega), if_pos (by omega), digits_append hpos ht, hn]

/-- Nothing comes after a zero. -/
theorem ne_zero_of_append {p : List Char} (hp : p ≠ []) (h : yearText y = yearText y' ++ p) :
    y' ≠ 0 := by
  rintro rfl
  have hzero : yearText y = '0' :: p := h
  unfold yearText at hzero
  rw [toList_toString] at hzero
  split_ifs at hzero with hy
  · by_cases hpos : 0 < y.toNat
    · exact head_digits hpos (by rw [hzero]; rfl)
    · have hn : y.toNat = 0 := by omega
      rw [hn] at hzero
      exact hp (List.cons.inj hzero).2.symm
  · exact absurd (List.cons.inj hzero).1 (by decide)

theorem appendDigit_ne_zero (hy : y ≠ 0) (ht : t < 10) : appendDigit y t ≠ 0 := by
  unfold appendDigit
  split_ifs <;> omega

end Years

/-! ### Dates -/

/-- The text of a date. -/
def dateText (d : Date) : List Char := yearText d.year ++ (digits d.month ++ digits d.day)

/-- **Another date with the same text**, with its year, month and day in other places; if the years
differ, the date `d` has the longer one. -/
inductive Shifted (d d' : Date) : Prop
  -- a day in January, and one in November or December
  | inYear (hy : d.year = d'.year) (hm : d.month = 1) (hm' : 10 < d'.month) (hd' : d'.day < 10)
    (h : d.day + 100 = 10 * d'.month + d'.day)
  -- the month goes to the year
  | month (h0 : d'.year ≠ 0) (hy : d.year = appendDigit d'.year d'.month) (hm' : d'.month < 10)
    (hd : d.day < 10) (h : d'.day = 10 * d.month + d.day)
  -- the first digit of the month goes to the year
  | monthDigit (h0 : d'.year ≠ 0) (hy : d.year = appendDigit d'.year 1)
    (hm' : d'.month = 10 + d.month) (h : d.day = d'.day)
  -- and the first digit of the day to the month
  | dayDigit (h0 : d'.year ≠ 0) (hy : d.year = appendDigit d'.year 1) (hm' : d'.month = 11)
    (hm : 10 < d.month) (hd : d.day < 10) (h : d'.day + 100 = 10 * d.month + d.day)
  -- both digits of the month go to the year
  | monthDigits (h0 : d'.year ≠ 0) (hm' : 10 ≤ d'.month)
    (hy : d.year = appendDigit (appendDigit d'.year 1) (d'.month - 10)) (hd : d.day < 10)
    (h : d'.day = 10 * d.month + d.day)

section Parts

variable {m d m' d' t u : ℕ}

/-- Month and day in as many digits. -/
theorem parts_eq (hm : 1 ≤ m) (hd : 1 ≤ d) (hm' : 1 ≤ m') (hd' : 1 ≤ d') (hm12 : m ≤ 12)
    (hm12' : m' ≤ 12) (h : digitsOf m ++ digitsOf d = digitsOf m' ++ digitsOf d') :
    (m = m' ∧ d = d') ∨ (m = 1 ∧ 10 < m' ∧ d' < 10 ∧ d + 100 = 10 * m' + d') ∨
      (m' = 1 ∧ 10 < m ∧ d < 10 ∧ d' + 100 = 10 * m + d) := by
  unfold digitsOf at h
  split_ifs at h <;> simp only [List.cons_append, List.nil_append, List.cons.injEq,
    List.cons_ne_nil, List.nil_eq, and_true, and_false] at h <;> omega

/-- One digit less. -/
theorem parts_cons (hm : 1 ≤ m) (hd : 1 ≤ d) (hm12 : m ≤ 12) (hm12' : m' ≤ 12)
    (h : t :: (digitsOf m ++ digitsOf d) = digitsOf m' ++ digitsOf d') :
    (t = m' ∧ m' < 10 ∧ d < 10 ∧ d' = 10 * m + d) ∨ (t = 1 ∧ m' = 10 + m ∧ d = d') ∨
      (t = 1 ∧ m' = 11 ∧ 10 < m ∧ d < 10 ∧ d' + 100 = 10 * m + d) := by
  unfold digitsOf at h
  split_ifs at h <;> simp only [List.cons_append, List.nil_append, List.cons.injEq,
    List.cons_ne_nil, List.nil_eq, and_true, and_false] at h <;> omega

/-- Two digits less. -/
theorem parts_cons_cons (hm12' : m' ≤ 12)
    (h : t :: u :: (digitsOf m ++ digitsOf d) = digitsOf m' ++ digitsOf d') :
    10 ≤ m' ∧ t = 1 ∧ u = m' - 10 ∧ d < 10 ∧ d' = 10 * m + d := by
  unfold digitsOf at h
  split_ifs at h <;> simp only [List.cons_append, List.nil_append, List.cons.injEq,
    List.cons_ne_nil, and_true, and_false] at h
  omega

end Parts

section Texts

variable {d d' : Date} {y y' : ℤ}

theorem day_lt (d : Date) : d.day < 100 := by
  have hle := d.day_le
  have hmonth := daysInMonth_le d.year d.month_le
  omega

/-- Month and day, digit by digit. -/
def parts (d : Date) : List ℕ := digitsOf d.month ++ digitsOf d.day

theorem dateText_eq (d : Date) :
    dateText d = yearText d.year ++ (parts d).map Nat.digitChar := by
  have hmonth := d.month_le
  rw [dateText, parts, List.map_append, digits_eq_map (by omega), digits_eq_map (day_lt d)]

theorem lt_of_mem_parts {t : ℕ} (ht : t ∈ parts d) : t < 10 := by
  have hmonth := d.month_le
  rcases List.mem_append.mp ht with h | h
  · exact lt_of_mem_digitsOf (by omega) h
  · exact lt_of_mem_digitsOf (day_lt d) h

theorem length_parts (d : Date) : 2 ≤ (parts d).length ∧ (parts d).length ≤ 4 := by
  unfold parts digitsOf
  split_ifs <;> simp

theorem digitChar_inj {t u : ℕ} (ht : t < 10) (hu : u < 10)
    (h : Nat.digitChar t = Nat.digitChar u) : t = u := by
  have hval := congrArg Char.toNat h
  rw [Nat.toNat_digitChar_of_lt_ten ht, Nat.toNat_digitChar_of_lt_ten hu] at hval
  omega

theorem map_digitChar_inj {l l' : List ℕ} (hl : ∀ t ∈ l, t < 10) (hl' : ∀ t ∈ l', t < 10)
    (h : l.map Nat.digitChar = l'.map Nat.digitChar) : l = l' := by
  induction l generalizing l' with
  | nil => exact (List.map_eq_nil_iff.mp h.symm).symm
  | cons t l ih =>
    cases l' with
    | nil => cases h
    | cons u l' =>
      obtain ⟨hhead, htail⟩ := List.cons.inj h
      rw [digitChar_inj (hl t List.mem_cons_self) (hl' u List.mem_cons_self) hhead,
        ih (fun x hx => hl x (List.mem_cons_of_mem t hx))
          (fun x hx => hl' x (List.mem_cons_of_mem u hx)) htail]

/-- **What two dates with the same text share**: the year that is not shorter has the digits that
month and day of the other date have more. -/
theorem dateText_split (hlen : (parts d).length ≤ (parts d').length)
    (h : dateText d = dateText d') : ∃ p, parts d' = p ++ parts d ∧
      yearText d.year = yearText d'.year ++ p.map Nat.digitChar := by
  rw [dateText_eq, dateText_eq] at h
  rcases List.append_eq_append_iff.mp h with ⟨q, hyear, hparts⟩ | ⟨q, hyear, hparts⟩
  · -- the other year is not the longer one
    have hnil : q = [] := by
      have hcount := congrArg List.length hparts
      rw [List.length_append, List.length_map, List.length_map] at hcount
      exact List.length_eq_zero_iff.mp (by omega)
    subst hnil
    refine ⟨[], ?_, by simpa using hyear.symm⟩
    exact (map_digitChar_inj (fun _ => lt_of_mem_parts) (fun _ => lt_of_mem_parts) hparts).symm
  · obtain ⟨p, r, hp, rfl, hr⟩ := List.map_eq_append_iff.mp hparts
    have hmem : ∀ t ∈ r, t < 10 := fun t ht => lt_of_mem_parts (d := d') (by rw [hp]; simp [ht])
    have hrest : r = parts d := map_digitChar_inj hmem (fun _ => lt_of_mem_parts) hr
    exact ⟨p, hp.trans (by rw [hrest]), hyear⟩

/-- The first digits of month and day go to the year. -/
theorem dateText_of_cons {t : ℕ} (h0 : d'.year ≠ 0) (ht : t < 10)
    (hy : d.year = appendDigit d'.year t) (hp : parts d' = t :: parts d) :
    dateText d = dateText d' := by
  rw [dateText_eq, dateText_eq, hp, hy, ← yearText_append h0 ht, List.map_cons, List.append_assoc]
  rfl

theorem dateText_of_cons_cons {t u : ℕ} (h0 : d'.year ≠ 0) (ht : t < 10) (hu : u < 10)
    (hy : d.year = appendDigit (appendDigit d'.year t) u) (hp : parts d' = t :: u :: parts d) :
    dateText d = dateText d' := by
  rw [dateText_eq, dateText_eq, hp, hy, ← yearText_append (appendDigit_ne_zero h0 ht) hu,
    ← yearText_append h0 ht, List.map_cons, List.map_cons, List.append_assoc, List.append_assoc]
  rfl

theorem dateText_of_shifted (h : Shifted d d') : dateText d = dateText d' := by
  have hm := d.month_le
  have hm' := d'.month_le
  have hd := d.day_pos
  have hd' := d'.day_pos
  cases h with
  | inYear hy h1 h10 hlt h =>
    have hp : parts d = parts d' := by
      unfold parts
      rw [digitsOf_of_lt (by omega), digitsOf_of_le (by omega), digitsOf_of_le (by omega),
        digitsOf_of_lt hlt]
      simp only [List.cons_append, List.nil_append, List.cons.injEq, and_true]
      omega
    rw [dateText_eq, dateText_eq, hy, hp]
  | month h0 hy hm10 hlt h =>
    have hpos := d.month_pos
    have hle := daysInMonth_le d'.year d'.month_le
    have hday := d'.day_le
    refine dateText_of_cons h0 hm10 hy ?_
    unfold parts
    rw [digitsOf_of_lt hm10, digitsOf_of_le (by omega : 10 ≤ d'.day),
      digitsOf_of_lt (by omega : d.month < 10), digitsOf_of_lt hlt]
    simp only [List.cons_append, List.nil_append, List.cons.injEq, and_true, true_and]
    omega
  | monthDigit h0 hy h10 h =>
    have hpos := d.month_pos
    refine dateText_of_cons h0 (by decide) hy ?_
    unfold parts
    rw [digitsOf_of_le (by omega : 10 ≤ d'.month), digitsOf_of_lt (by omega : d.month < 10), h]
    simp only [List.cons_append, List.nil_append, List.cons.injEq, and_true]
    omega
  | dayDigit h0 hy h11 h10 hlt h =>
    refine dateText_of_cons h0 (by decide) hy ?_
    unfold parts
    rw [digitsOf_of_le (by omega : 10 ≤ d'.month), digitsOf_of_le (by omega : 10 ≤ d'.day),
      digitsOf_of_le (by omega : 10 ≤ d.month), digitsOf_of_lt hlt]
    simp only [List.cons_append, List.nil_append, List.cons.injEq, and_true]
    omega
  | monthDigits h0 h10 hy hlt h =>
    have hpos := d.month_pos
    have hle := daysInMonth_le d'.year d'.month_le
    have hday := d'.day_le
    refine dateText_of_cons_cons h0 (by decide) (by omega) hy ?_
    unfold parts
    rw [digitsOf_of_le h10, digitsOf_of_le (by omega : 10 ≤ d'.day),
      digitsOf_of_lt (by omega : d.month < 10), digitsOf_of_lt hlt]
    simp only [List.cons_append, List.nil_append, List.cons.injEq, and_true]
    omega

theorem shifted_of_dateText (hlen : (parts d).length ≤ (parts d').length)
    (h : dateText d = dateText d') : d = d' ∨ Shifted d d' ∨ Shifted d' d := by
  have hm := d.month_pos
  have hd := d.day_pos
  have hm12 := d.month_le
  have hm12' := d'.month_le
  obtain ⟨p, hp, hyear⟩ := dateText_split hlen h
  have hlt : ∀ t ∈ p, t < 10 := fun t ht => lt_of_mem_parts (d := d') (by rw [hp]; simp [ht])
  match p with
  | [] =>
    have hy : d.year = d'.year := yearText_injective (by simpa using hyear)
    rcases parts_eq hm hd d'.month_pos d'.day_pos hm12 hm12' hp.symm with
      ⟨h1, h2⟩ | ⟨h1, h2, h3, h4⟩ | ⟨h1, h2, h3, h4⟩
    · exact Or.inl (Date.ext_fields hy h1 h2)
    · exact Or.inr (Or.inl (.inYear hy h1 h2 h3 h4))
    · exact Or.inr (Or.inr (.inYear hy.symm h1 h2 h3 h4))
  | [t] =>
    have ht : t < 10 := hlt t (by simp)
    have h0 : d'.year ≠ 0 := ne_zero_of_append (by simp) hyear
    have hy : d.year = appendDigit d'.year t := by
      refine yearText_injective ?_
      rw [← yearText_append h0 ht]
      exact hyear
    refine Or.inr (Or.inl ?_)
    rcases parts_cons hm hd hm12 hm12' hp.symm with
      ⟨rfl, h1, h2, h3⟩ | ⟨rfl, h1, h2⟩ | ⟨rfl, h1, h2, h3, h4⟩
    · exact .month h0 hy h1 h2 h3
    · exact .monthDigit h0 hy h1 h2
    · exact .dayDigit h0 hy h1 h2 h3 h4
  | [t, u] =>
    have ht : t < 10 := hlt t (by simp)
    have hu : u < 10 := hlt u (by simp)
    have h0 : d'.year ≠ 0 := ne_zero_of_append (by simp) hyear
    have hy : d.year = appendDigit (appendDigit d'.year t) u := by
      refine yearText_injective ?_
      rw [← yearText_append (appendDigit_ne_zero h0 ht) hu, ← yearText_append h0 ht,
        List.append_assoc]
      exact hyear
    obtain ⟨h1, rfl, rfl, h2, h3⟩ := parts_cons_cons hm12' hp.symm
    exact Or.inr (Or.inl (.monthDigits h0 h1 hy h2 h3))
  | t :: u :: v :: p =>
    have hcount := congrArg List.length hp
    have h1 := length_parts d
    have h2 := length_parts d'
    simp only [List.length_append, List.length_cons] at hcount
    omega

/-- **The dates with the same text.** -/
theorem dateText_eq_iff : dateText d = dateText d' ↔ d = d' ∨ Shifted d d' ∨ Shifted d' d := by
  constructor
  · intro h
    rcases le_total (parts d).length (parts d').length with hlen | hlen
    · exact shifted_of_dateText hlen h
    · rcases shifted_of_dateText hlen h.symm with heq | hs | hs
      · exact Or.inl heq.symm
      · exact Or.inr (Or.inr hs)
      · exact Or.inr (Or.inl hs)
  · rintro (rfl | h | h)
    · rfl
    · exact dateText_of_shifted h
    · exact (dateText_of_shifted h).symm

/-- Shifted dates differ. -/
theorem Shifted.ne (h : Shifted d d') : d ≠ d' := by
  rintro rfl
  have hpos := d.month_pos
  cases h with
  | inYear hy h1 h10 hlt h => omega
  | month h0 hy hm10 hlt h => omega
  | monthDigit h0 hy h10 h => omega
  | dayDigit h0 hy h11 h10 hlt h => omega
  | monthDigits h0 h10 hy hlt h => omega

end Texts

end PixsBliss.Lib.DateText
