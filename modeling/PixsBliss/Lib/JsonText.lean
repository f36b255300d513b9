import PixsBliss.Lib.DateText
import PixsBliss.Lib.Iso8601
import PixsBliss.Lib.Linked

/-! # JSON texts

The texts `jsonEncode` writes and `jsonDecode` reads. A number without a fraction and an exponent is
an integer of 64 bits or else, like any other number, a double; how doubles are written and read is
a parameter (`Doubles`). Of the entries of a map with one key the last one counts. A string holds no
half of a pair of surrogates, so an escape that is one is not read.

* `read_write`: a value whose keys are distinct and whose integers have 64 bits is read back.
* `wellFormed_of_read`: every value that is read is such a value. -/

namespace PixsBliss.Lib.JsonText

open PixsBliss.Lib.DateText PixsBliss.Lib.Entries PixsBliss.Lib.IntLiteral PixsBliss.Lib.Iso8601
open PixsBliss.Lib.Linked

/-- A value, over a type of doubles. -/
inductive Json (δ : Type)
  | null
  | bool (b : Bool)
  | int (n : ℤ)
  | double (x : δ)
  | str (s : String)
  | list (l : List (Json δ))
  | map (m : List (String × Json δ))

/-- The texts of doubles. -/
structure Doubles (δ : Type) where
  text : δ → List Char
  parse : List Char → δ

variable {δ : Type} (D : Doubles δ)

/-! ### Writing -/

def hexDigit (n : ℕ) : Char := if n < 10 then Char.ofNat (48 + n) else Char.ofNat (87 + n)

/-- The control characters that have an escape of their own. -/
def shortEscapes : List (Char × Char) :=
  [(Char.ofNat 8, 'b'), (Char.ofNat 9, 't'), (Char.ofNat 10, 'n'), (Char.ofNat 12, 'f'),
    (Char.ofNat 13, 'r')]

/-- A character of a string. -/
def writeChar (c : Char) : List Char :=
  if c = '"' ∨ c = '\\' then ['\\', c]
  else if c.toNat < 32 then
    match lookup c shortEscapes with
    | some e => ['\\', e]
    | none => ['\\', 'u', '0', '0', hexDigit (c.toNat / 16), hexDigit (c.toNat % 16)]
  else [c]

/-- A string after its opening quote. -/
def writeChars (s : List Char) : List Char := s.flatMap writeChar ++ ['"']

mutual

/-- **`jsonEncode`.** -/
def write : Json δ → List Char
  | .null => "null".toList
  | .bool b => (toString b).toList
  | .int n => (toString n).toList
  | .double x => D.text x
  | .str s => '"' :: writeChars s.toList
  | .list l => '[' :: writeItems l
  | .map m => '\x7b' :: writeEntries m

/-- A list after its opening bracket. -/
def writeItems : List (Json δ) → List Char
  | [] => [']']
  | v :: l => write v ++ writeMoreItems l

/-- A list after an item. -/
def writeMoreItems : List (Json δ) → List Char
  | [] => [']']
  | v :: l => ',' :: (write v ++ writeMoreItems l)

/-- A map after its opening bracket. -/
def writeEntries : List (String × Json δ) → List Char
  | [] => ['\x7d']
  | (k, v) :: m => '"' :: (writeChars k.toList ++ ':' :: (write v ++ writeMoreEntries m))

/-- A map after an entry. -/
def writeMoreEntries : List (String × Json δ) → List Char
  | [] => ['\x7d']
  | (k, v) :: m =>
    ',' :: '"' :: (writeChars k.toList ++ ':' :: (write v ++ writeMoreEntries m))

end

/-! ### Reading -/

def isSpace (c : Char) : Bool := c = ' ' || c = '\t' || c = '\n' || c = '\r'

def skipSpace (s : List Char) : List Char := s.dropWhile isSpace

/-- Four hexadecimal digits. -/
def readHex : List Char → Option (ℕ × List Char)
  | a :: b :: c :: d :: s => (readDigits 16 0 [a, b, c, d]).map fun n => (n, s)
  | _ => none

/-- The second half of a pair of surrogates. -/
def readTail (lead : ℕ) : List Char → Option (Char × List Char)
  | '\\' :: 'u' :: s =>
    match readHex s with
    | some (n, s) =>
      if 0xDC00 ≤ n ∧ n < 0xE000 then
        some (Char.ofNat (0x10000 + (lead - 0xD800) * 0x400 + (n - 0xDC00)), s)
      else none
    | none => none
  | _ => none

/-- An escape of a code unit, or of a pair of surrogates. -/
def readUnit (s : List Char) : Option (Char × List Char) :=
  match readHex s with
  | none => none
  | some (n, s) =>
    if n < 0xD800 ∨ 0xE000 ≤ n then some (Char.ofNat n, s)
    else if n < 0xDC00 then readTail n s
    else none

/-- A character after a backslash. -/
def readEscape : List Char → Option (Char × List Char)
  | [] => none
  | c :: s =>
    if c = 'u' then readUnit s
    else if c = '"' ∨ c = '\\' ∨ c = '/' then some (c, s)
    else (lookup c (shortEscapes.map Prod.swap)).map fun e => (e, s)

/-- A character of a string. -/
def readChar (c : Char) (s : List Char) : Option (Char × List Char) :=
  if c = '\\' then readEscape s else if c.toNat < 32 then none else some (c, s)

/-- A string after its opening quote; every turn takes a character or more. -/
def readChars : ℕ → List Char → Option (List Char × List Char)
  | 0, _ => none
  | _ + 1, [] => none
  | fuel + 1, c :: s =>
    if c = '"' then some ([], s)
    else
      match readChar c s with
      | none => none
      | some (x, s) => (readChars fuel s).map fun p => (x :: p.1, p.2)

def readSignOf (signs : List Char) : List Char → List Char × List Char
  | c :: s => if c ∈ signs then ([c], s) else ([], c :: s)
  | [] => ([], [])

/-- Digits, one or more. -/
def readDigitText (s : List Char) : Option (List Char × List Char) :=
  if s.takeWhile Char.isDigit = [] then none
  else some (s.takeWhile Char.isDigit, s.dropWhile Char.isDigit)

def readFractionText : List Char → Option (List Char × List Char)
  | '.' :: s => (readDigitText s).map fun p => ('.' :: p.1, p.2)
  | s => some ([], s)

def readExponentText : List Char → Option (List Char × List Char)
  | c :: s =>
    if c = 'e' ∨ c = 'E' then
      (readDigitText (readSignOf ['+', '-'] s).2).map fun p =>
        (c :: ((readSignOf ['+', '-'] s).1 ++ p.1), p.2)
    else some ([], c :: s)
  | [] => some ([], [])

/-- An integer of more than 64 bits is a double. -/
def integer (sign ds : List Char) : Json δ :=
  match fits (if sign = [] then Nat.ofDigitChars 10 ds 0 else -Nat.ofDigitChars 10 ds 0) with
  | some n => .int n
  | none => .double (D.parse (sign ++ ds))

/-- A number of digits alone is an integer. -/
def number (sign ds rest : List Char) : Json δ :=
  if rest = [] then integer D sign ds else .double (D.parse (sign ++ ds ++ rest))

/-- A number; it has no leading zero. -/
def readNumber (s : List Char) : Option (Json δ × List Char) :=
  (readDigitText (readSignOf ['-'] s).2).bind fun ds =>
    if ds.1.head? = some '0' ∧ ds.1 ≠ ['0'] then none
    else
      (readFractionText ds.2).bind fun f =>
        (readExponentText f.2).map fun e =>
          (number D (readSignOf ['-'] s).1 ds.1 (f.1 ++ e.1), e.2)

/-- A word. -/
def readWord (word : String) (v : Json δ) (s : List Char) : Option (Json δ × List Char) :=
  if word.toList <+: s then some (v, s.drop word.length) else none

/-- The entries of a map, the last one of a key in the place of the first. -/
def mapOf (m : List (String × Json δ)) : List (String × Json δ) :=
  m.foldl (fun m e => setEntry e.1 e.2 m) []

mutual

/-- A value after white space. -/
def readValue : ℕ → List Char → Option (Json δ × List Char)
  | 0, _ => none
  | fuel + 1, s =>
    match skipSpace s with
    | [] => none
    | c :: s =>
      if c = '"' then (readChars (s.length + 1) s).map fun p => (.str (String.ofList p.1), p.2)
      else if c = '[' then
        match skipSpace s with
        | ']' :: s => some (.list [], s)
        | _ => (readItems fuel s).map fun p => (.list p.1, p.2)
      else if c = '\x7b' then
        match skipSpace s with
        | '\x7d' :: s => some (.map [], s)
        | _ => (readEntries fuel s).map fun p => (.map (mapOf p.1), p.2)
      else if c = 'n' then readWord "null" .null (c :: s)
      else if c = 't' then readWord "true" (.bool true) (c :: s)
      else if c = 'f' then readWord "false" (.bool false) (c :: s)
      else readNumber D (c :: s)

/-- The items of a list, one or more, and its closing bracket. -/
def readItems : ℕ → List Char → Option (List (Json δ) × List Char)
  | 0, _ => none
  | fuel + 1, s =>
    match readValue fuel s with
    | none => none
    | some (v, s) =>
      match skipSpace s with
      | ',' :: s => (readItems fuel s).map fun p => (v :: p.1, p.2)
      | ']' :: s => some ([v], s)
      | _ => none

/-- The entries of a map, one or more, and its closing bracket. -/
def readEntries : ℕ → List Char → Option (List (String × Json δ) × List Char)
  | 0, _ => none
  | fuel + 1, s =>
    match skipSpace s with
    | '"' :: s =>
      match readChars (s.length + 1) s with
      | none => none
      | some (k, s) =>
        match skipSpace s with
        | ':' :: s =>
          match readValue fuel s with
          | none => none
          | some (v, s) =>
            match skipSpace s with
            | ',' :: s => (readEntries fuel s).map fun p => ((String.ofList k, v) :: p.1, p.2)
            | '\x7d' :: s => some ([(String.ofList k, v)], s)
            | _ => none
        | _ => none
    | _ => none

end

/-- **`jsonDecode`**: one value, with white space around it. -/
def read (s : List Char) : Option (Json δ) :=
  match readValue D (s.length + 1) s with
  | some (v, s) => if skipSpace s = [] then some v else none
  | none => none

/-! ### Strings -/

section Strings

variable {c : Char} {s r : List Char}

theorem readHex_control : ∀ n < 32,
    readDigits 16 0 ['0', '0', hexDigit (n / 16), hexDigit (n % 16)] = some n := by
  decide

theorem readEscape_short : ∀ p ∈ shortEscapes, p.2 ≠ 'u' ∧ ¬(p.2 = '"' ∨ p.2 = '\\' ∨ p.2 = '/') ∧
    lookup p.2 (shortEscapes.map Prod.swap) = some p.1 := by
  decide

theorem readEscape_self (h : c = '"' ∨ c = '\\') (s : List Char) :
    readEscape (c :: s) = some (c, s) := by
  have hu : c ≠ 'u' := by
    rcases h with rfl | rfl <;> decide
  exact (if_neg hu).trans (if_pos (or_assoc.mp (Or.inl h)))

theorem readEscape_letter {e : Char} (h : lookup c shortEscapes = some e) (s : List Char) :
    readEscape (e :: s) = some (c, s) := by
  obtain ⟨hu, hself, hswap⟩ := readEscape_short (c, e) (mem_of_lookup h)
  refine ((if_neg hu).trans (if_neg hself)).trans ?_
  rw [hswap]
  rfl

/-- The escape of a control character. -/
theorem readEscape_control (h : c.toNat < 32) (s : List Char) :
    readEscape ('u' :: '0' :: '0' :: hexDigit (c.toNat / 16) :: hexDigit (c.toNat % 16) :: s) =
      some (c, s) := by
  have hlow : c.toNat < 0xD800 ∨ 0xE000 ≤ c.toNat := by omega
  show readUnit _ = _
  simp only [readUnit, readHex, readHex_control c.toNat h, Option.map_some, hlow, if_true,
    Char.ofNat_toNat]

theorem readChar_escape (s : List Char) : readChar '\\' s = readEscape s := if_pos rfl

/-- **A character is read back.** -/
theorem readChar_write (c : Char) (r : List Char) : ∃ x s, writeChar c ++ r = x :: s ∧ x ≠ '"' ∧
    readChar x s = some (c, r) := by
  have hback : ('\\' : Char) ≠ '"' := by decide
  unfold writeChar
  split_ifs with hquote hcontrol
  · exact ⟨'\\', c :: r, rfl, hback, (readChar_escape _).trans (readEscape_self hquote r)⟩
  · cases hshort : lookup c shortEscapes with
    | some e =>
      exact ⟨'\\', e :: r, rfl, hback, (readChar_escape _).trans (readEscape_letter hshort r)⟩
    | none =>
      exact ⟨'\\', _, rfl, hback, (readChar_escape _).trans (readEscape_control hcontrol r)⟩
  · push Not at hquote
    exact ⟨c, r, rfl, hquote.1, (if_neg hquote.2).trans (if_neg hcontrol)⟩

theorem length_writeChar_pos (c : Char) : 0 < (writeChar c).length := by
  obtain ⟨x, s, h, -, -⟩ := readChar_write c []
  rw [List.append_nil] at h
  rw [h]
  exact Nat.succ_pos _

/-- **A string is read back.** -/
theorem readChars_write : ∀ (s : List Char) (fuel : ℕ), (writeChars s).length ≤ fuel →
    ∀ r, readChars fuel (writeChars s ++ r) = some (s, r)
  | [], 0, h, _ => absurd h (by simp [writeChars])
  | [], fuel + 1, _, r => by
    show readChars (fuel + 1) ('"' :: r) = _
    unfold readChars
    exact if_pos rfl
  | c :: s, fuel, h, r => by
    have hcons : writeChars (c :: s) = writeChar c ++ writeChars s := by
      simp [writeChars, List.flatMap_cons]
    obtain ⟨x, t, ht, hx, hread⟩ := readChar_write c (writeChars s ++ r)
    have hlen := length_writeChar_pos c
    rw [hcons, List.length_append] at h
    obtain ⟨fuel, rfl⟩ : ∃ n, fuel = n + 1 := ⟨fuel - 1, by omega⟩
    have ih := readChars_write s fuel (by omega) r
    rw [hcons, List.append_assoc, ht]
    unfold readChars
    rw [if_neg hx, hread]
    simp only [ih, Option.map_some]

end Strings

/-! ### Numbers -/

/-- No number goes on here. -/
def Ends (r : List Char) : Prop := ∀ c ∈ r.head?, c.isDigit = false ∧ c ≠ '.' ∧ c ≠ 'e' ∧ c ≠ 'E'

section Numbers

variable {D} {c : Char} {r : List Char} {n : ℤ}

theorem ends_nil : Ends [] := nofun

theorem ends_cons (h : c.isDigit = false ∧ c ≠ '.' ∧ c ≠ 'e' ∧ c ≠ 'E') (r : List Char) :
    Ends (c :: r) := by
  intro x hx
  obtain rfl := Option.some.inj hx
  exact h

theorem readFractionText_of_ends (h : Ends r) : readFractionText r = some ([], r) := by
  unfold readFractionText
  split
  · exact absurd rfl (h _ rfl).2.1
  · rfl

theorem readExponentText_of_ends (h : Ends r) : readExponentText r = some ([], r) := by
  cases r with
  | nil => rfl
  | cons c r =>
    obtain ⟨-, -, he, hE⟩ := h c rfl
    exact if_neg fun hc => hc.elim he hE

/-- **The digits of a number** after its sign. -/
theorem readNumber_digits (m : ℕ) (h : Ends r) {s sign : List Char}
    (hs : readSignOf ['-'] s = (sign, digits m ++ r)) :
    readNumber D s = some (integer D sign (digits m), r) := by
  obtain ⟨htake, hdrop⟩ := takeWhile_digits (s := digits m) (fun _ => isDigit_of_mem_digits)
    fun c hc => (h c hc).1
  have hdigits : readDigitText (digits m ++ r) = some (digits m, r) := by
    unfold readDigitText
    rw [htake, hdrop, if_neg (digits_ne_nil m)]
  have hzero : ¬((digits m).head? = some '0' ∧ digits m ≠ ['0']) := by
    rintro ⟨hhead, hne⟩
    rcases Nat.eq_zero_or_pos m with rfl | hm
    · exact hne rfl
    · exact head_digits hm hhead
  unfold readNumber
  rw [hs, hdigits, Option.bind_some, if_neg hzero, readFractionText_of_ends h, Option.bind_some,
    readExponentText_of_ends h]
  rfl

theorem integer_digits {sign : List Char} {m : ℕ} (hn : -2 ^ 63 ≤ n ∧ n < 2 ^ 63)
    (hsign : (if sign = [] then (m : ℤ) else -m) = n) : integer D sign (digits m) = .int n := by
  have hfits : fits n = some n := if_pos hn
  have hvalue : Nat.ofDigitChars 10 (digits m) 0 = m := Nat.ofDigitChars_ten_toDigits
  unfold integer
  rw [hvalue, hsign, hfits]

theorem readSignOf_digits (m : ℕ) (r : List Char) :
    readSignOf ['-'] (digits m ++ r) = ([], digits m ++ r) := by
  obtain ⟨c, s, hs⟩ := List.exists_cons_of_ne_nil (digits_ne_nil m)
  have hc := toNat_of_isDigit (isDigit_of_mem_digits (n := m) (c := c) (by simp [hs]))
  have hne : c ∉ ['-'] := by
    intro hmem
    rw [List.mem_singleton.mp hmem] at hc
    exact absurd hc (by decide)
  rw [hs]
  exact if_neg hne

/-- **An integer is read back.** -/
theorem readNumber_toString (hn : -2 ^ 63 ≤ n ∧ n < 2 ^ 63) (h : Ends r) :
    readNumber D ((toString n).toList ++ r) = some (.int n, r) := by
  rw [toList_toString]
  split_ifs with hpos
  · have hint : (if ([] : List Char) = [] then (n.toNat : ℤ) else -n.toNat) = n := by
      rw [if_pos rfl, Int.toNat_of_nonneg hpos]
    rw [readNumber_digits _ h (readSignOf_digits _ r), integer_digits hn hint]
  · have hint : (if ['-'] = [] then ((-n).toNat : ℤ) else -(-n).toNat) = n := by
      rw [if_neg (List.cons_ne_nil _ _), Int.toNat_of_nonneg (by omega), neg_neg]
    have hsign : readSignOf ['-'] ('-' :: (digits (-n).toNat ++ r)) =
        (['-'], digits (-n).toNat ++ r) := by simp [readSignOf]
    rw [List.cons_append, readNumber_digits _ h hsign, integer_digits hn hint]

end Numbers

/-! ### Values -/

/-- Doubles whose texts are read back. -/
structure Doubles.ReadsBack (x : δ) : Prop where
  head : ∃ c s, D.text x = c :: s ∧ (c = '-' ∨ c.isDigit = true)
  read : ∀ r, Ends r → readNumber D (D.text x ++ r) = some (.double x, r)

/-- **The keys are distinct**, the integers have 64 bits, and the doubles satisfy `ok`. -/
inductive Good (ok : δ → Prop) : Json δ → Prop
  | null : Good ok .null
  | bool (b : Bool) : Good ok (.bool b)
  | int {n : ℤ} (h : -2 ^ 63 ≤ n ∧ n < 2 ^ 63) : Good ok (.int n)
  | double {x : δ} (h : ok x) : Good ok (.double x)
  | str (s : String) : Good ok (.str s)
  | list {l : List (Json δ)} (h : ∀ v ∈ l, Good ok v) : Good ok (.list l)
  | map {m : List (String × Json δ)} (hkeys : (m.map Prod.fst).Nodup) (h : ∀ e ∈ m, Good ok e.2) :
    Good ok (.map m)

section Values

variable {D} {c : Char} {s r : List Char} {v : Json δ} {l : List (Json δ)}
  {m : List (String × Json δ)}

theorem skipSpace_cons (h : isSpace c = false) (s : List Char) : skipSpace (c :: s) = c :: s :=
  List.dropWhile_cons_of_neg (by simp [h])

/-- What a value cannot begin with. -/
def Begins (c : Char) : Prop := isSpace c = false ∧ c ≠ ']' ∧ c ≠ '\x7d'

instance (c : Char) : Decidable (Begins c) := instDecidableAnd

theorem begins_of_number (h : c = '-' ∨ c.isDigit = true) : Begins c ∧
    c ≠ '"' ∧ c ≠ '[' ∧ c ≠ '\x7b' ∧ c ≠ 'n' ∧ c ≠ 't' ∧ c ≠ 'f' := by
  rcases h with rfl | h
  · decide
  · have hc := toNat_of_isDigit h
    have hne : ∀ x : Char, ¬(48 ≤ x.toNat ∧ x.toNat ≤ 57) → c ≠ x := by
      rintro x hx rfl
      exact hx hc
    have hspace : isSpace c = false := by
      simp [isSpace, hne ' ' (by decide), hne '\t' (by decide), hne '\n' (by decide),
        hne '\r' (by decide)]
    exact ⟨⟨hspace, hne _ (by decide), hne _ (by decide)⟩, hne _ (by decide), hne _ (by decide),
      hne _ (by decide), hne _ (by decide), hne _ (by decide), hne _ (by decide)⟩

theorem toString_head (n : ℤ) :
    ∃ c s, (toString n).toList = c :: s ∧ (c = '-' ∨ c.isDigit = true) := by
  have hne : (toString n).toList ≠ [] := by
    rw [toList_toString]
    split_ifs
    · exact digits_ne_nil _
    · exact List.cons_ne_nil _ _
  obtain ⟨c, s, hs⟩ := List.exists_cons_of_ne_nil hne
  exact ⟨c, s, hs, mem_toString (n := n) (by rw [hs]; exact List.mem_cons_self)⟩

/-- A value begins with a character of its own. -/
theorem write_head (h : Good D.ReadsBack v) : ∃ c s, write D v = c :: s ∧ Begins c := by
  cases h with
  | null => exact ⟨_, _, rfl, by decide⟩
  | bool b => cases b <;> exact ⟨_, _, rfl, by decide⟩
  | @int n _ =>
    obtain ⟨c, s, hs, hc⟩ := toString_head n
    exact ⟨c, s, hs, (begins_of_number hc).1⟩
  | double h =>
    obtain ⟨c, s, hs, hc⟩ := h.head
    exact ⟨c, s, hs, (begins_of_number hc).1⟩
  | str s => exact ⟨_, _, rfl, by decide⟩
  | list _ => exact ⟨_, _, rfl, by decide⟩
  | map _ _ => exact ⟨_, _, rfl, by decide⟩

theorem readWord_append (word : String) (v : Json δ) (r : List Char) :
    readWord word v (word.toList ++ r) = some (v, r) := by
  unfold readWord
  rw [if_pos (List.prefix_append _ _), ← String.length_toList, List.drop_left]

theorem mapOf_append : ∀ (m m' : List (String × Json δ)), ((m' ++ m).map Prod.fst).Nodup →
    m.foldl (fun m e => setEntry e.1 e.2 m) m' = m' ++ m
  | [], m', _ => (List.append_nil m').symm
  | (k, v) :: m, m', h => by
    have hk : k ∉ m'.map Prod.fst := by
      intro hmem
      rw [List.map_append, List.nodup_append] at h
      exact h.2.2 k hmem k (by simp) rfl
    rw [List.foldl_cons, setEntry_of_notMem hk, mapOf_append m _ (by simpa using h),
      List.append_assoc]
    rfl

/-- Distinct keys are kept as they are. -/
theorem mapOf_eq (h : (m.map Prod.fst).Nodup) : mapOf m = m := mapOf_append m [] h

end Values

/-! ### What is written is read back -/

section RoundTrip

variable {D} {c : Char} {s r : List Char} {v : Json δ} {fuel : ℕ}

theorem readValue_str (s : String) (hf : 0 < fuel) (r : List Char) :
    readValue D fuel (write D (.str s) ++ r) = some (.str s, r) := by
  obtain ⟨fuel, rfl⟩ := Nat.exists_eq_add_of_lt hf
  rw [Nat.zero_add]
  have hread := readChars_write s.toList ((writeChars s.toList ++ r).length + 1)
    (by rw [List.length_append]; omega) r
  simp only [write, List.cons_append, readValue, skipSpace_cons (c := '"') rfl, if_true, hread,
    Option.map_some, String.ofList_toList]

theorem readValue_number (hs : ∃ c t, s = c :: t ∧ (c = '-' ∨ c.isDigit = true))
    (hread : readNumber D (s ++ r) = some (v, r)) (hf : 0 < fuel) :
    readValue D fuel (s ++ r) = some (v, r) := by
  obtain ⟨fuel, rfl⟩ := Nat.exists_eq_add_of_lt hf
  obtain ⟨c, t, rfl, hc⟩ := hs
  obtain ⟨hbegins, h1, h2, h3, h4, h5, h6⟩ := begins_of_number hc
  rw [List.cons_append] at hread ⊢
  simp only [Nat.zero_add, readValue, skipSpace_cons hbegins.1, h1, h2, h3, h4, h5, h6, if_false,
    hread]

/-- Behind an opening bracket a value is an item. -/
theorem readValue_items {l : List (Json δ)} (hs : ∃ c t, s = c :: t ∧ Begins c)
    (hread : readItems D fuel s = some (l, r)) :
    readValue D (fuel + 1) ('[' :: s) = some (.list l, r) := by
  obtain ⟨c, t, rfl, hc⟩ := hs
  simp only [readValue, skipSpace_cons (c := '[') rfl, skipSpace_cons hc.1]
  rw [if_neg (by decide), if_pos trivial]
  split
  · next h => exact absurd (List.cons.inj h).1 hc.2.1
  · rw [hread]
    rfl

theorem readValue_entries {m : List (String × Json δ)} (hm : (m.map Prod.fst).Nodup)
    (hread : readEntries D fuel ('"' :: s) = some (m, r)) :
    readValue D (fuel + 1) ('\x7b' :: '"' :: s) = some (.map m, r) := by
  simp only [readValue, skipSpace_cons (c := '\x7b') rfl, skipSpace_cons (c := '"') rfl]
  rw [if_neg (by decide), if_neg (by decide), if_pos trivial, hread, Option.map_some, mapOf_eq hm]
  rfl

theorem readItems_last {r' : List Char} (hread : readValue D fuel s = some (v, ']' :: r')) :
    readItems D (fuel + 1) s = some ([v], r') := by
  simp only [readItems, hread, skipSpace_cons (c := ']') rfl]

theorem readItems_more (s' : List Char) {l : List (Json δ)}
    (hread : readValue D fuel s = some (v, ',' :: s')) (hmore : readItems D fuel s' = some (l, r)) :
    readItems D (fuel + 1) s = some (v :: l, r) := by
  simp only [readItems, hread, skipSpace_cons (c := ',') rfl, hmore, Option.map_some]

/-- An entry up to its value. -/
theorem readEntries_key (k : String) {s₁ s₂ : List Char}
    (hread : readValue D fuel s₁ = some (v, s₂)) :
    readEntries D (fuel + 1) ('"' :: (writeChars k.toList ++ ':' :: s₁)) =
      match skipSpace s₂ with
      | ',' :: s => (readEntries D fuel s).map fun p => ((k, v) :: p.1, p.2)
      | '\x7d' :: s => some ([(k, v)], s)
      | _ => none := by
  have hkey := readChars_write k.toList ((writeChars k.toList ++ ':' :: s₁).length + 1)
    (by rw [List.length_append]; omega) (':' :: s₁)
  simp only [readEntries, skipSpace_cons (c := '"') rfl, hkey, skipSpace_cons (c := ':') rfl, hread,
    String.ofList_toList]

mutual

/-- **A value is read back**, from its text and whatever follows it. -/
theorem readValue_write : ∀ (v : Json δ), Good D.ReadsBack v → ∀ (fuel : ℕ) (r : List Char),
    (write D v).length < fuel → Ends r → readValue D fuel (write D v ++ r) = some (v, r)
  | .null, _, fuel + 1, r, _, _ => by
    rw [readValue]
    exact readWord_append "null" .null r
  | .bool true, _, fuel + 1, r, _, _ => readWord_append "true" (.bool true) r
  | .bool false, _, fuel + 1, r, _, _ => readWord_append "false" (.bool false) r
  | .int n, .int hn, fuel, r, hf, hr =>
    readValue_number (toString_head n) (readNumber_toString hn hr) (by omega)
  | .double x, .double hx, fuel, r, hf, hr =>
    readValue_number hx.head (hx.read r hr) (by omega)
  | .str s, _, fuel, r, hf, _ => readValue_str s (by omega) r
  | .list [], _, fuel + 1, r, _, _ => rfl
  | .list (v :: l), .list h, fuel + 1, r, hf, _ => by
    have hv : Good D.ReadsBack v := h v List.mem_cons_self
    obtain ⟨c, t, hc, hbegins⟩ := write_head hv
    have hlen : (write D v ++ writeMoreItems D l).length < fuel := by
      simpa [write, writeItems] using hf
    refine readValue_items ⟨c, t ++ writeMoreItems D l ++ r, ?_, hbegins⟩
      (readItems_write v l hv (fun v hv => h v (List.mem_cons_of_mem _ hv)) fuel r hlen)
    simp [writeItems, hc]
  | .map [], _, fuel + 1, r, _, _ => rfl
  | .map ((k, v) :: m), .map hkeys h, fuel + 1, r, hf, _ => by
    have hlen : ('"' :: (writeChars k.toList ++ ':' :: (write D v ++ writeMoreEntries D m))).length <
        fuel := by
      simpa [write, writeEntries] using hf
    have hread := readEntries_write k v m (h (k, v) List.mem_cons_self)
      (fun e he => h e (List.mem_cons_of_mem _ he)) fuel r hlen
    exact readValue_entries hkeys hread

theorem readItems_write : ∀ (v : Json δ) (l : List (Json δ)), Good D.ReadsBack v →
    (∀ v ∈ l, Good D.ReadsBack v) → ∀ (fuel : ℕ) (r : List Char),
    (write D v ++ writeMoreItems D l).length < fuel →
      readItems D fuel (write D v ++ writeMoreItems D l ++ r) = some (v :: l, r)
  | v, [], hv, _, fuel + 1, r, hf => by
    rw [List.length_append] at hf
    refine readItems_last ?_
    rw [List.append_assoc]
    exact readValue_write v hv fuel (']' :: r) (by simp [writeMoreItems] at hf; omega)
      (ends_cons (by decide) r)
  | v, v' :: l, hv, hl, fuel + 1, r, hf => by
    simp only [writeMoreItems, List.length_append, List.length_cons] at hf
    refine readItems_more (write D v' ++ writeMoreItems D l ++ r) ?_ ?_
    · rw [List.append_assoc]
      exact readValue_write v hv fuel _ (by omega) (ends_cons (by decide) _)
    · exact readItems_write v' l (hl v' List.mem_cons_self)
        (fun v hv => hl v (List.mem_cons_of_mem _ hv)) fuel r (by rw [List.length_append]; omega)

theorem readEntries_write : ∀ (k : String) (v : Json δ) (m : List (String × Json δ)),
    Good D.ReadsBack v → (∀ e ∈ m, Good D.ReadsBack e.2) → ∀ (fuel : ℕ) (r : List Char),
    ('"' :: (writeChars k.toList ++ ':' :: (write D v ++ writeMoreEntries D m))).length < fuel →
      readEntries D fuel
        ('"' :: (writeChars k.toList ++ ':' :: (write D v ++ writeMoreEntries D m)) ++ r) =
      some ((k, v) :: m, r)
  | k, v, [], hv, _, fuel + 1, r, hf => by
    simp only [writeMoreEntries, List.length_append, List.length_cons] at hf
    have hread := readValue_write v hv fuel ('\x7d' :: r) (by omega) (ends_cons (by decide) r)
    have htext : '"' :: (writeChars k.toList ++ ':' :: (write D v ++ writeMoreEntries D [])) ++ r =
        '"' :: (writeChars k.toList ++ ':' :: (write D v ++ '\x7d' :: r)) := by
      simp [writeMoreEntries]
    rw [htext, readEntries_key k hread, skipSpace_cons (by decide)]
    rfl
  | k, v, (k', v') :: m, hv, hm, fuel + 1, r, hf => by
    simp only [writeMoreEntries, List.length_append, List.length_cons] at hf
    have hmore := readEntries_write k' v' m (hm (k', v') List.mem_cons_self)
      (fun e he => hm e (List.mem_cons_of_mem _ he)) fuel r
      (by simp only [List.length_append, List.length_cons]; omega)
    have hread := readValue_write v hv fuel _ (by omega)
      (ends_cons (c := ',') (by decide)
        ('"' :: (writeChars k'.toList ++ ':' :: (write D v' ++ writeMoreEntries D m)) ++ r))
    have htext : '"' :: (writeChars k.toList ++
          ':' :: (write D v ++ writeMoreEntries D ((k', v') :: m))) ++ r =
        '"' :: (writeChars k.toList ++ ':' :: (write D v ++ ',' ::
          ('"' :: (writeChars k'.toList ++ ':' :: (write D v' ++ writeMoreEntries D m)) ++ r))) := by
      simp [writeMoreEntries]
    rw [htext, readEntries_key k hread, skipSpace_cons (by decide)]
    simp only [hmore, Option.map_some]

end

/-- **`jsonDecode` inverts `jsonEncode`** on the values whose keys are distinct, whose integers have
64 bits and whose doubles are read back. -/
theorem read_write (h : Good D.ReadsBack v) : read D (write D v) = some v := by
  have hread := readValue_write v h ((write D v).length + 1) [] (Nat.lt_succ_self _) ends_nil
  rw [List.append_nil] at hread
  unfold read
  rw [hread]
  rfl

end RoundTrip

/-! ### What is read is good -/

section Reads

variable {D} {c : Char} {s r : List Char} {v : Json δ} {fuel : ℕ}

/-- Keys are distinct and integers have 64 bits, whatever the doubles. -/
abbrev WellFormed : Json δ → Prop := Good fun _ => True

theorem range_of_fits {n m : ℤ} (h : fits n = some m) : -2 ^ 63 ≤ m ∧ m < 2 ^ 63 := by
  unfold fits at h
  split_ifs at h with hn
  cases h
  exact hn

theorem wellFormed_double (x : δ) : WellFormed (.double x) := .double trivial

theorem wellFormed_number (sign ds rest : List Char) : WellFormed (number D sign ds rest) := by
  by_cases hrest : rest = []
  · rw [number, if_pos hrest, integer]
    split
    · next h => exact .int (range_of_fits h)
    · exact wellFormed_double _
  · rw [number, if_neg hrest]
    exact wellFormed_double _

theorem wellFormed_readNumber (h : readNumber D s = some (v, r)) : WellFormed v := by
  obtain ⟨ds, -, h⟩ := Option.bind_eq_some_iff.mp h
  split_ifs at h
  obtain ⟨f, -, h⟩ := Option.bind_eq_some_iff.mp h
  obtain ⟨e, -, h⟩ := Option.map_eq_some_iff.mp h
  obtain ⟨rfl, -⟩ := Prod.mk.inj h
  exact wellFormed_number _ _ _

theorem of_readWord {word : String} {v' : Json δ} (h : readWord word v' s = some (v, r)) :
    v' = v := by
  unfold readWord at h
  split_ifs at h
  exact (Prod.mk.inj (Option.some.inj h)).1

theorem nodup_foldl : ∀ (m m' : List (String × Json δ)), (m'.map Prod.fst).Nodup →
    ((m.foldl (fun m e => setEntry e.1 e.2 m) m').map Prod.fst).Nodup
  | [], _, h => h
  | _ :: m, _, h => nodup_foldl m _ (nodup_setEntry h)

theorem mem_foldl {e : String × Json δ} : ∀ (m m' : List (String × Json δ)),
    e ∈ m.foldl (fun m e => setEntry e.1 e.2 m) m' → e ∈ m ∨ e ∈ m'
  | [], _, h => Or.inr h
  | e' :: m, m', h => by
    rcases mem_foldl m _ h with h | h
    · exact Or.inl (List.mem_cons_of_mem _ h)
    · rcases mem_setEntry h with rfl | h
      · exact Or.inl List.mem_cons_self
      · exact Or.inr h

theorem wellFormed_mapOf {m : List (String × Json δ)} (h : ∀ e ∈ m, WellFormed e.2) :
    WellFormed (.map (mapOf m)) :=
  .map (nodup_foldl m [] List.nodup_nil) fun e he =>
    h e ((mem_foldl m [] he).resolve_right List.not_mem_nil)

/-- **What the three readers give**, by induction on the fuel. -/
theorem wellFormed_readers : ∀ fuel : ℕ,
    (∀ s (v : Json δ) r, readValue D fuel s = some (v, r) → WellFormed v) ∧
    (∀ s (l : List (Json δ)) r, readItems D fuel s = some (l, r) → ∀ v ∈ l, WellFormed v) ∧
    ∀ s (m : List (String × Json δ)) r, readEntries D fuel s = some (m, r) →
      ∀ e ∈ m, WellFormed e.2
  | 0 => ⟨nofun, nofun, nofun⟩
  | fuel + 1 => by
    obtain ⟨hvalue, hitems, hentries⟩ := wellFormed_readers fuel
    refine ⟨fun s v r h => ?_, fun s l r h => ?_, fun s m r h => ?_⟩
    · simp only [readValue] at h
      split at h
      · cases h
      · split_ifs at h
        · obtain ⟨p, -, h⟩ := Option.map_eq_some_iff.mp h
          obtain ⟨rfl, -⟩ := Prod.mk.inj h
          exact .str _
        · split at h
          · obtain ⟨rfl, -⟩ := Prod.mk.inj (Option.some.inj h)
            exact .list nofun
          · obtain ⟨p, hp, h⟩ := Option.map_eq_some_iff.mp h
            obtain ⟨rfl, -⟩ := Prod.mk.inj h
            exact .list (hitems _ _ _ hp)
        · split at h
          · obtain ⟨rfl, -⟩ := Prod.mk.inj (Option.some.inj h)
            exact .map List.nodup_nil nofun
          · obtain ⟨p, hp, h⟩ := Option.map_eq_some_iff.mp h
            obtain ⟨rfl, -⟩ := Prod.mk.inj h
            exact wellFormed_mapOf (hentries _ _ _ hp)
        · exact of_readWord h ▸ .null
        · exact of_readWord h ▸ .bool true
        · exact of_readWord h ▸ .bool false
        · exact wellFormed_readNumber h
    · simp only [readItems] at h
      split at h
      · cases h
      · next v s₁ hv =>
        have hgood := hvalue _ _ _ hv
        split at h
        · obtain ⟨p, hp, h⟩ := Option.map_eq_some_iff.mp h
          obtain ⟨rfl, -⟩ := Prod.mk.inj h
          exact List.forall_mem_cons.mpr ⟨hgood, hitems _ _ _ hp⟩
        · obtain ⟨rfl, -⟩ := Prod.mk.inj (Option.some.inj h)
          exact List.forall_mem_singleton.mpr hgood
        · cases h
    · simp only [readEntries] at h
      split at h
      · split at h
        · cases h
        · split at h
          · split at h
            · cases h
            · next v s₁ hv =>
              have hgood := hvalue _ _ _ hv
              split at h
              · obtain ⟨p, hp, h⟩ := Option.map_eq_some_iff.mp h
                obtain ⟨rfl, -⟩ := Prod.mk.inj h
                exact List.forall_mem_cons.mpr ⟨hgood, hentries _ _ _ hp⟩
              · obtain ⟨rfl, -⟩ := Prod.mk.inj (Option.some.inj h)
                exact List.forall_mem_singleton.mpr hgood
              · cases h
          · cases h
      · cases h

/-- **Every value that is read is well formed.** -/
theorem wellFormed_of_read (h : read D s = some v) : WellFormed v := by
  unfold read at h
  split at h
  · next v' r hread =>
    split_ifs at h
    exact Option.some.inj h ▸ (wellFormed_readers _).1 _ _ _ hread
  · cases h

end Reads

end PixsBliss.Lib.JsonText
