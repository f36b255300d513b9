import Mathlib.Tactic

/-! # Integer literals

The reading of an integer out of a text as `int.tryParse` does it on 64 bits: white space around the
literal is dropped, a sign is optional, and the digits are decimal or, after `0x`, hexadecimal. A
positive hexadecimal literal may use all 64 bits.

* `tryParse_toString`: an integer of 64 bits is read back from its text. -/

namespace PixsBliss.Lib.IntLiteral

/-- The white space of the Unicode standard, and the byte order mark. -/
def isWhitespace (c : Char) : Bool :=
  let n := c.toNat
  (9 ≤ n && n ≤ 13) || n == 0x20 || n == 0x85 || n == 0xA0 || n == 0x1680 ||
    (0x2000 ≤ n && n ≤ 0x200A) || n == 0x2028 || n == 0x2029 || n == 0x202F || n == 0x205F ||
    n == 0x3000 || n == 0xFEFF

def trim (s : List Char) : List Char :=
  ((s.dropWhile isWhitespace).reverse.dropWhile isWhitespace).reverse

/-- The value of a hexadecimal digit. -/
def digitValue (c : Char) : Option ℕ :=
  let n := c.toNat
  if 48 ≤ n ∧ n ≤ 57 then some (n - 48)
  else if 97 ≤ n ∧ n ≤ 102 then some (n - 87)
  else if 65 ≤ n ∧ n ≤ 70 then some (n - 55)
  else none

/-- The value of the digits after those of value `value`. -/
def readDigits (base value : ℕ) : List Char → Option ℕ
  | [] => some value
  | c :: s =>
    match digitValue c with
    | none => none
    | some d => if d < base then readDigits base (base * value + d) s else none

/-- The value of one digit or more. -/
def readNat (base : ℕ) (s : List Char) : Option ℕ := if s.isEmpty then none else readDigits base 0 s

/-- A value of 64 bits. -/
def fits (n : ℤ) : Option ℤ := if -2 ^ 63 ≤ n ∧ n < 2 ^ 63 then some n else none

/-- The 64 bits of a hexadecimal literal, read as a signed value. -/
def fitsBits (n : ℕ) : Option ℤ :=
  if n < 2 ^ 63 then some n else if n < 2 ^ 64 then some (n - 2 ^ 64) else none

def hasHexPrefix : List Char → Bool
  | c :: x :: _ => c == '0' && (x == 'x' || x == 'X')
  | _ => false

/-- The literal after its sign. -/
def readUnsigned (negative : Bool) (s : List Char) : Option ℤ :=
  if hasHexPrefix s then
    (readNat 16 (s.drop 2)).bind fun n => if negative then fits (-n) else fitsBits n
  else (readNat 10 s).bind fun n => fits (if negative then -n else n)

/-- **The integer of a text**, if it is one. -/
def tryParse (s : List Char) : Option ℤ :=
  match trim s with
  | [] => none
  | c :: rest =>
    if c = '-' then readUnsigned true rest
    else if c = '+' then readUnsigned false rest
    else readUnsigned false (c :: rest)

example : tryParse " -0x1F".toList = some (-31) := by decide
example : tryParse "9223372036854775808".toList = none := by decide

/-! ### Texts of integers -/

section Texts

variable {c : Char} {s : List Char}

theorem toNat_of_isDigit (h : c.isDigit = true) : 48 ≤ c.toNat ∧ c.toNat ≤ 57 := by
  simp only [Char.isDigit, Bool.and_eq_true, decide_eq_true_eq] at h
  exact h

theorem digitValue_of_isDigit (h : c.isDigit = true) : digitValue c = some (c.toNat - 48) := by
  have hc := toNat_of_isDigit h
  unfold digitValue
  rw [if_pos hc]

theorem isWhitespace_of_isDigit (h : c.isDigit = true) : isWhitespace c = false := by
  have hc := toNat_of_isDigit h
  simp only [isWhitespace, Bool.or_eq_false_iff, Bool.and_eq_false_iff, decide_eq_false_iff_not,
    beq_eq_false_iff_ne]
  omega

theorem readDigits_digits (h : ∀ c ∈ s, c.isDigit = true) (value : ℕ) :
    readDigits 10 value s = some (Nat.ofDigitChars 10 s value) := by
  induction s generalizing value with
  | nil => rfl
  | cons c s ih =>
    have hc := h c List.mem_cons_self
    have hlt : c.toNat - 48 < 10 := by
      have := toNat_of_isDigit hc
      omega
    unfold readDigits
    simp only [digitValue_of_isDigit hc, hlt, if_true]
    rw [ih fun d hd => h d (List.mem_cons_of_mem c hd)]
    exact (congrArg some Nat.ofDigitChars_cons).symm

theorem dropWhile_whitespace (h : ∀ c ∈ s, isWhitespace c = false) :
    s.dropWhile isWhitespace = s := by
  cases s with
  | nil => rfl
  | cons c s => rw [List.dropWhile_cons_of_neg (by simp [h c List.mem_cons_self])]

theorem trim_eq_self (h : ∀ c ∈ s, isWhitespace c = false) : trim s = s := by
  have hreverse : ∀ c ∈ s.reverse, isWhitespace c = false := fun c hc =>
    h c (List.mem_reverse.mp hc)
  rw [trim, dropWhile_whitespace h, dropWhile_whitespace hreverse, List.reverse_reverse]

theorem hasHexPrefix_digits (h : ∀ c ∈ s, c.isDigit = true) : hasHexPrefix s = false := by
  rcases s with _ | ⟨c, _ | ⟨x, s⟩⟩
  · rfl
  · rfl
  · have hx := toNat_of_isDigit (h x (by simp))
    have h1 : x ≠ 'x' := by
      rintro rfl
      revert hx
      decide
    have h2 : x ≠ 'X' := by
      rintro rfl
      revert hx
      decide
    simp [hasHexPrefix, h1, h2]

/-- The decimal digits of a number. -/
def digits (n : ℕ) : List Char := Nat.toDigits 10 n

theorem isDigit_of_mem_digits {n : ℕ} (h : c ∈ digits n) : c.isDigit = true :=
  Nat.isDigit_of_mem_toDigits (by omega) (by omega) h

theorem digits_ne_nil (n : ℕ) : digits n ≠ [] := Nat.toDigits_ne_nil

theorem readUnsigned_digits (negative : Bool) (n : ℕ) :
    readUnsigned negative (digits n) = fits (if negative then -n else n) := by
  have hdigits : ∀ c ∈ digits n, c.isDigit = true := fun c hc => isDigit_of_mem_digits hc
  have hread : readNat 10 (digits n) = some n := by
    have hne : (digits n).isEmpty = false := by simp [digits_ne_nil]
    unfold readNat
    rw [hne, readDigits_digits hdigits]
    exact congrArg some Nat.ofDigitChars_ten_toDigits
  unfold readUnsigned
  rw [hasHexPrefix_digits hdigits, hread]
  rfl

theorem toList_toString (n : ℤ) :
    (toString n).toList = if 0 ≤ n then digits n.toNat else '-' :: digits (-n).toNat := by
  rw [Int.toString_eq_repr, Int.repr_eq_if]
  split_ifs
  · exact Nat.toList_repr
  · rw [String.toList_append, Nat.toList_repr]
    rfl

theorem mem_toString {n : ℤ} (h : c ∈ (toString n).toList) : c = '-' ∨ c.isDigit = true := by
  rw [toList_toString] at h
  split_ifs at h
  · exact Or.inr (isDigit_of_mem_digits h)
  · rcases List.mem_cons.mp h with rfl | h
    · exact Or.inl rfl
    · exact Or.inr (isDigit_of_mem_digits h)

/-- **What is read back from the text of an integer.** -/
theorem tryParse_toString_eq (n : ℤ) : tryParse (toString n).toList = fits n := by
  rw [toList_toString]
  split_ifs with hn
  · have htrim : trim (digits n.toNat) = digits n.toNat := trim_eq_self fun c hc =>
      isWhitespace_of_isDigit (isDigit_of_mem_digits hc)
    have hread := readUnsigned_digits false n.toNat
    obtain ⟨c, s, hs⟩ := List.exists_cons_of_ne_nil (digits_ne_nil n.toNat)
    have hc := toNat_of_isDigit (isDigit_of_mem_digits (n := n.toNat) (c := c) (by simp [hs]))
    have h1 : c ≠ '-' := by
      rintro rfl
      revert hc
      decide
    have h2 : c ≠ '+' := by
      rintro rfl
      revert hc
      decide
    unfold tryParse
    rw [htrim, hs]
    simp only [h1, h2, if_false]
    rw [← hs, hread]
    simp [Int.toNat_of_nonneg hn]
  · have hneg : ((-n).toNat : ℤ) = -n := Int.toNat_of_nonneg (by omega)
    have htrim : trim ('-' :: digits (-n).toNat) = '-' :: digits (-n).toNat := by
      refine trim_eq_self fun c hc => ?_
      rcases List.mem_cons.mp hc with rfl | hc
      · rfl
      · exact isWhitespace_of_isDigit (isDigit_of_mem_digits hc)
    unfold tryParse
    rw [htrim]
    simp only [if_true]
    rw [readUnsigned_digits, if_pos rfl, hneg, neg_neg]

/-- **An integer is read back from its text.** -/
theorem tryParse_toString {n : ℤ} (h : -2 ^ 63 ≤ n ∧ n < 2 ^ 63) :
    tryParse (toString n).toList = some n := by
  rw [tryParse_toString_eq, fits, if_pos h]

end Texts

end PixsBliss.Lib.IntLiteral
