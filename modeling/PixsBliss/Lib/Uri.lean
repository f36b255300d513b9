import PixsBliss.Lib.IntLiteral
import Mathlib.Data.List.TakeWhile
import Mathlib.Tactic

/-! # URI references

The host and the path segments of a URI reference, as `Uri.parse` of the Dart library reads them.
The fragment and the query are cut off, then a scheme and an authority; a backslash counts as a
slash; the dot segments of the path are resolved, and the percent escapes of each segment are
decoded, which fails if the bytes are not UTF-8. A text is a list of characters.

What is left open, as `Rules`, is the reading of a host that is not a plain name and of a `data:`
URI.

* `parse_https`: an `https` URI with a plain host.
* `resolve_cases`: resolving segments over a stack leaves the stack alone or shortens it, and in
  this case what is left of the segments is shorter than they are.
* `pathSegments_eq`, `weight_decodeAll_le`: plain segments are decoded to themselves, and no segment
  to a longer one. -/

namespace PixsBliss.Lib.Uri

/-- A segment of a path. -/
abbrev Segment := List Char

/-- A reference: its host, in lower case, empty without an authority, and what stands between the
slashes of its path, resolved but not decoded. -/
structure Reference where
  host : List Char
  path : List Segment

/-- The readings that are left open (`none`: a `FormatException`): of a host in brackets, with its
port, or with characters that need an escape; and of a `data:` URI. -/
structure Rules where
  host : List Char → Option (List Char)
  dataUri : List Char → Option Reference

/-! ### Characters -/

def isSlash (c : Char) : Bool := c == '/' || c == '\\'

/-- A character of a name of a host that needs no escape. -/
def isNameChar (c : Char) : Bool :=
  c.isAlphanum || "-._~!$&'()*+,;=".toList.contains c

/-- A character of a scheme after the first one. -/
def isSchemeChar (c : Char) : Bool := c.isAlphanum || c == '+' || c == '-' || c == '.'

/-! ### Percent escapes -/

/-- The byte of an escape. -/
def escapedByte (c a b : Char) : Option UInt8 :=
  if c = '%' then do
    let x ← IntLiteral.digitValue a
    let y ← IntLiteral.digitValue b
    return UInt8.ofNat (16 * x + y)
  else none

/-- The bytes of a text with its escapes decoded; a `%` without two digits is itself. -/
def percentDecode : List Char → List UInt8
  | [] => []
  | c :: a :: b :: s =>
    match escapedByte c a b with
    | some byte => byte :: percentDecode s
    | none => String.utf8EncodeChar c ++ percentDecode (a :: b :: s)
  | c :: s => String.utf8EncodeChar c ++ percentDecode s

/-- `Uri.decodeComponent`. -/
def decodeComponent (s : Segment) : Option Segment :=
  (percentDecode s).toByteArray.utf8Decode?.map Array.toList

/-! ### Dot segments -/

def isDot (s : Segment) : Bool := percentDecode s == [46]

def isDotDot (s : Segment) : Bool := percentDecode s == [46, 46]

/-- The last segment is removed; if it is the only one an empty one takes its place. -/
def pop (out : List Segment) : List Segment :=
  if out.isEmpty then [] else if out.dropLast.isEmpty then [[]] else out.dropLast

/-- Segments are resolved over those that are there; a dot segment at the end leaves a slash. -/
def resolve (out : List Segment) : List Segment → List Segment
  | [] => out
  | [s] => if isDotDot s then pop out ++ [[]] else if isDot s then out ++ [[]] else out ++ [s]
  | s :: t :: rest =>
    resolve (if isDotDot s then pop out else if isDot s then out else out ++ [s]) (t :: rest)

/-- The segments of an absolute path. -/
def removeDotSegments (segments : List Segment) : List Segment := resolve [] segments

/-- The segments of a path without a scheme, an authority and a slash before it; it may begin with
`..` segments. -/
def normalizeRelative (segments : List Segment) : List Segment :=
  let dotted := fun s => isDot s || isDotDot s
  if segments.any dotted then
    let out := segments.foldl (fun out s =>
      if isDotDot s then if out.getLast?.all isDotDot then out ++ [s] else out.dropLast
      else if isDot s then out
      else out ++ [s]) []
    if out = [] ∨ out = [[]] then [['.'], []]
    else if segments.getLast?.any dotted then out ++ [[]]
    else out
  else segments

/-! ### References -/

/-- A port: nothing, or a number. -/
def isPort (s : List Char) : Bool := s.isEmpty || (IntLiteral.tryParse s).isSome

/-- The host of an authority, after its user information and before its port. -/
def readAuthority (rules : Rules) (authority : List Char) : Option (List Char) :=
  let userInfo := if authority.contains '@' then authority.takeWhile (· != '@') else []
  let rest := if authority.contains '@' then (authority.dropWhile (· != '@')).tail else authority
  if userInfo.any fun c => c == '[' || c == ']' then none
  else if rest.head? = some '[' then rules.host rest
  else if isPort (rest.dropWhile (· != ':')).tail then
    let name := rest.takeWhile (· != ':')
    if name.all isNameChar then some (name.map Char.toLower) else rules.host name
  else none

/-- The parts of a text: the scheme, if there is one, and the rest. -/
def splitScheme (s : List Char) : Option (List Char) × List Char :=
  let head := s.takeWhile fun c => c != ':' && !isSlash c
  match s.drop head.length with
  | c :: rest => if c = ':' then (some head, rest) else (none, s)
  | [] => (none, s)

def isScheme : List Char → Bool
  | [] => false
  | c :: s => c.isAlpha && s.all isSchemeChar

/-- The authority, if there is one, and the path. -/
def splitAuthority : List Char → Option (List Char) × List Char
  | a :: b :: s =>
    if isSlash a && isSlash b then
      (some (s.takeWhile fun c => !isSlash c), s.dropWhile fun c => !isSlash c)
    else (none, a :: b :: s)
  | s => (none, s)

def isDataUri (s : List Char) : Bool := (s.take 5).map Char.toLower == "data:".toList

/-- A text without its query and its fragment. -/
def withoutQuery (s : List Char) : List Char := s.takeWhile fun c => c != '?' && c != '#'

/-- **`Uri.parse`** (`none`: a `FormatException`). -/
def parse (rules : Rules) (s : List Char) : Option Reference :=
  if isDataUri s then rules.dataUri s
  else
    let scheme := splitScheme (withoutQuery s)
    if scheme.1.any fun name => !isScheme name then none
    else
      let authority := splitAuthority scheme.2
      let segments := authority.2.splitOnP isSlash
      let absolute := scheme.1.isSome || authority.1.isSome || authority.2.head?.any isSlash
      (authority.1.elim (some []) (readAuthority rules)).map fun host =>
        ⟨host, if absolute then removeDotSegments segments else normalizeRelative segments⟩

/-- The texts of the segments, each decoded. -/
def decodeAll (segments : List Segment) : Option (List Segment) := segments.mapM decodeComponent

/-- **`pathSegments`**, without the empty segment before the first slash. -/
def Reference.pathSegments (r : Reference) : Option (List Segment) :=
  let segments := if r.path.head? = some [] then r.path.tail else r.path
  if segments = [[]] then some [] else decodeAll segments

/-! ### Sizes -/

/-- The number of bytes of a text. -/
def size (s : List Char) : ℕ := (s.flatMap String.utf8EncodeChar).length

/-- The size of segments, each with a slash. -/
def weight (l : List Segment) : ℕ := (l.map fun s => size s + 1).sum

@[simp] theorem size_nil : size [] = 0 := rfl

@[simp] theorem size_cons (c : Char) (s : List Char) : size (c :: s) = c.utf8Size + size s := by
  simp [size]

@[simp] theorem size_append (s t : List Char) : size (s ++ t) = size s + size t := by
  simp [size]

@[simp] theorem weight_nil : weight [] = 0 := rfl

@[simp] theorem weight_cons (s : Segment) (l : List Segment) :
    weight (s :: l) = size s + 1 + weight l := by
  simp [weight]

@[simp] theorem weight_append (l l' : List Segment) : weight (l ++ l') = weight l + weight l' := by
  simp [weight]

theorem size_takeWhile_le (p : Char → Bool) (s : List Char) : size (s.takeWhile p) ≤ size s := by
  induction s with
  | nil => exact le_rfl
  | cons c s ih =>
    rw [List.takeWhile_cons]
    split_ifs
    · simpa using ih
    · simp

theorem size_intercalate {l : List Segment} (h : l ≠ []) :
    size (['/'].intercalate l) + 1 = weight l := by
  induction l with
  | nil => exact absurd rfl h
  | cons s l ih =>
    by_cases hl : l = []
    · simp [hl]
    · rw [List.intercalate_cons_of_ne_nil hl, weight_cons, ← ih hl]
      simp [Char.utf8Size]
      omega

theorem mem_intercalate {l : List Segment} {c : Char} (h : c ∈ ['/'].intercalate l) :
    c = '/' ∨ ∃ s ∈ l, c ∈ s := by
  induction l with
  | nil => cases h
  | cons s l ih =>
    by_cases hl : l = []
    · subst hl
      exact Or.inr ⟨s, List.mem_cons_self, by simpa using h⟩
    · rw [List.intercalate_cons_of_ne_nil hl, List.mem_append, List.mem_append,
        List.mem_singleton] at h
      rcases h with (hs | hc) | hc
      · exact Or.inr ⟨s, List.mem_cons_self, hs⟩
      · exact Or.inl hc
      · rcases ih hc with hslash | ⟨t, ht, hct⟩
        · exact Or.inl hslash
        · exact Or.inr ⟨t, List.mem_cons_of_mem _ ht, hct⟩

theorem utf8Size_of_isSlash {c : Char} (h : isSlash c = true) : c.utf8Size = 1 := by
  simp only [isSlash, Bool.or_eq_true, beq_iff_eq] at h
  rcases h with rfl | rfl <;> rfl

theorem weight_splitOnP (s : List Char) : weight (s.splitOnP isSlash) = size s + 1 := by
  induction s with
  | nil => simp
  | cons c s ih =>
    rw [List.splitOnP_cons_eq_if_modifyHead]
    split_ifs with h
    · rw [weight_cons, ih, size_cons, utf8Size_of_isSlash h, size_nil]
      omega
    · obtain ⟨t, l, hl⟩ := List.exists_cons_of_ne_nil (List.splitOnP_ne_nil isSlash s)
      rw [hl] at ih ⊢
      simp only [List.modifyHead_cons, weight_cons, size_cons] at ih ⊢
      omega

/-! ### Segments before a rest -/

/-- Segments, each with a slash after it. -/
def slashed (l : List Segment) : List Char := l.flatMap fun s => s ++ ['/']

section Slashed

variable {l : List Segment}

theorem slashed_cons (s : Segment) (l : List Segment) (rest : List Char) :
    slashed (s :: l) ++ rest = s ++ '/' :: (slashed l ++ rest) := by
  simp [slashed]

theorem splitOnP_slashed (h : ∀ s ∈ l, ∀ c ∈ s, isSlash c = false) (rest : List Char) :
    (slashed l ++ rest).splitOnP isSlash = l ++ rest.splitOnP isSlash := by
  induction l with
  | nil => rfl
  | cons s l ih =>
    rw [slashed_cons, List.splitOnP_append_cons_of_forall_mem (h s List.mem_cons_self) '/' rfl,
      ih fun t ht => h t (List.mem_cons_of_mem s ht), List.cons_append]

theorem withoutQuery_slashed (h : ∀ s ∈ l, ∀ c ∈ s, (c != '?' && c != '#') = true)
    (rest : List Char) : withoutQuery (slashed l ++ rest) = slashed l ++ withoutQuery rest := by
  refine List.takeWhile_append_of_pos fun c hc => ?_
  obtain ⟨s, hs, hcs⟩ := List.mem_flatMap.mp hc
  rcases List.mem_append.mp hcs with hcs | hcs
  · exact h s hs c hcs
  · obtain rfl := List.mem_singleton.mp hcs
    rfl

end Slashed

/-! ### Decoding -/

theorem length_percentDecode_le (s : List Char) : (percentDecode s).length ≤ size s := by
  fun_induction percentDecode s with
  | case1 => simp
  | case2 c a b s byte h ih =>
    have := c.utf8Size_pos
    have := a.utf8Size_pos
    have := b.utf8Size_pos
    simp only [List.length_cons, size_cons]
    omega
  | case3 c a b s h ih => simpa using ih
  | case4 c s h ih => simpa using ih

/-- Without escapes the bytes are those of the text. -/
theorem percentDecode_plain {s : List Char} (h : '%' ∉ s) :
    percentDecode s = s.flatMap String.utf8EncodeChar := by
  fun_induction percentDecode s with
  | case1 => rfl
  | case2 c a b s byte hb ih =>
    have hc : c ≠ '%' := fun hc => h (by simp [hc])
    simp [escapedByte, hc] at hb
  | case3 c a b s hb ih =>
    rw [ih fun hm => h (List.mem_cons_of_mem _ hm)]
    exact List.flatMap_cons.symm
  | case4 c s hs ih =>
    rw [ih fun hm => h (List.mem_cons_of_mem _ hm)]
    exact List.flatMap_cons.symm

theorem decodeComponent_plain {s : Segment} (h : '%' ∉ s) : decodeComponent s = some s := by
  have hs : (percentDecode s).toByteArray = s.utf8Encode := by
    rw [percentDecode_plain h]
    rfl
  simp [decodeComponent, hs]

/-- Decoding does not make a segment longer. -/
theorem size_decodeComponent_le {s t : Segment} (h : decodeComponent s = some t) :
    size t ≤ size s := by
  obtain ⟨a, ha, rfl⟩ := Option.map_eq_some_iff.mp h
  have hsome : (percentDecode s).toByteArray.utf8Decode?.isSome = true := by rw [ha]; rfl
  have henc := ByteArray.utf8Encode_get_utf8Decode? (h := hsome)
  have hsize : size a.toList = (percentDecode s).length := by
    have hcongr := congrArg ByteArray.size henc
    simpa [ha, size, List.utf8Encode] using hcongr
  rw [hsize]
  exact length_percentDecode_le s

@[simp] theorem decodeAll_nil : decodeAll [] = some [] := rfl

theorem decodeAll_cons (s : Segment) (l : List Segment) : decodeAll (s :: l) =
    (decodeComponent s).bind fun t => (decodeAll l).map (t :: ·) := by
  unfold decodeAll
  rw [List.mapM_cons]
  cases decodeComponent s with
  | none => rfl
  | some t => cases List.mapM decodeComponent l <;> rfl

theorem decodeAll_plain_append {l : List Segment} (h : ∀ s ∈ l, '%' ∉ s) (l' : List Segment) :
    decodeAll (l ++ l') = (decodeAll l').map (l ++ ·) := by
  induction l with
  | nil => simp
  | cons s l ih =>
    rw [List.cons_append, decodeAll_cons, decodeComponent_plain (h s List.mem_cons_self),
      ih fun t ht => h t (List.mem_cons_of_mem _ ht)]
    cases decodeAll l' <;> rfl

theorem length_decodeAll {l l' : List Segment} (h : decodeAll l = some l') :
    l'.length = l.length := by
  induction l generalizing l' with
  | nil =>
    obtain rfl := Option.some.inj (decodeAll_nil.symm.trans h)
    rfl
  | cons s l ih =>
    rw [decodeAll_cons] at h
    obtain ⟨t, -, h⟩ := Option.bind_eq_some_iff.mp h
    obtain ⟨l₁, hl, rfl⟩ := Option.map_eq_some_iff.mp h
    rw [List.length_cons, List.length_cons, ih hl]

theorem weight_decodeAll_le {l l' : List Segment} (h : decodeAll l = some l') :
    weight l' ≤ weight l := by
  induction l generalizing l' with
  | nil =>
    obtain rfl := Option.some.inj (decodeAll_nil.symm.trans h)
    exact le_rfl
  | cons s l ih =>
    rw [decodeAll_cons] at h
    obtain ⟨t, ht, h⟩ := Option.bind_eq_some_iff.mp h
    obtain ⟨l₁, hl, rfl⟩ := Option.map_eq_some_iff.mp h
    have hs := size_decodeComponent_le ht
    have hl' := ih hl
    rw [weight_cons, weight_cons]
    omega

/-! ### Resolving -/

theorem flatMap_utf8EncodeChar_inj {s t : List Char}
    (h : s.flatMap String.utf8EncodeChar = t.flatMap String.utf8EncodeChar) : s = t := by
  have henc : s.utf8Encode = t.utf8Encode := congrArg List.toByteArray h
  have hdec := congrArg ByteArray.utf8Decode? henc
  simpa using hdec

theorem isDot_iff {s : Segment} (h : '%' ∉ s) : isDot s = true ↔ s = ['.'] := by
  rw [isDot, percentDecode_plain h, beq_iff_eq]
  exact ⟨fun hs => flatMap_utf8EncodeChar_inj (t := ['.']) hs, fun hs => hs ▸ rfl⟩

theorem isDotDot_iff {s : Segment} (h : '%' ∉ s) : isDotDot s = true ↔ s = ['.', '.'] := by
  rw [isDotDot, percentDecode_plain h, beq_iff_eq]
  exact ⟨fun hs => flatMap_utf8EncodeChar_inj (t := ['.', '.']) hs, fun hs => hs ▸ rfl⟩

/-- A segment that is itself, whatever stands around it. -/
structure Plain (s : Segment) : Prop where
  percent : '%' ∉ s
  dot : s ≠ ['.']
  dotDot : s ≠ ['.', '.']

section Resolve

variable {s t : Segment} {l : List Segment} {out stack : List Segment}

theorem Plain.isDot_eq (h : Plain s) : isDot s = false := by
  rw [← Bool.not_eq_true, isDot_iff h.percent]
  exact h.dot

theorem Plain.isDotDot_eq (h : Plain s) : isDotDot s = false := by
  rw [← Bool.not_eq_true, isDotDot_iff h.percent]
  exact h.dotDot

theorem two_le_size_of_isDotDot (h : isDotDot s = true) : 2 ≤ size s := by
  have hlen := length_percentDecode_le s
  rw [beq_iff_eq.mp h] at hlen
  exact hlen

theorem resolve_cons (hl : l ≠ []) : resolve out (s :: l) =
    resolve (if isDotDot s then pop out else if isDot s then out else out ++ [s]) l := by
  obtain ⟨t, l, rfl⟩ := List.exists_cons_of_ne_nil hl
  rfl

/-- Plain segments are added to those that are there. -/
theorem resolve_plain_append (h : ∀ s ∈ l, Plain s) {l' : List Segment} (hl' : l' ≠ []) :
    resolve out (l ++ l') = resolve (out ++ l) l' := by
  induction l generalizing out with
  | nil => simp
  | cons s l ih =>
    have hs := h s List.mem_cons_self
    rw [List.cons_append, resolve_cons (List.append_ne_nil_of_right_ne_nil l hl'), hs.isDotDot_eq,
      hs.isDot_eq]
    simp only [Bool.false_eq_true, if_false]
    rw [ih fun t ht => h t (List.mem_cons_of_mem _ ht), List.append_assoc]
    rfl

theorem resolve_plain (h : ∀ s ∈ l, Plain s) : resolve out l = out ++ l := by
  induction l generalizing out with
  | nil => simp [resolve]
  | cons s l ih =>
    have hs := h s List.mem_cons_self
    by_cases hl : l = []
    · subst hl
      simp [resolve, hs.isDotDot_eq, hs.isDot_eq]
    · rw [resolve_cons hl, hs.isDotDot_eq, hs.isDot_eq]
      simp only [Bool.false_eq_true, if_false]
      rw [ih fun t ht => h t (List.mem_cons_of_mem _ ht), List.append_assoc]
      rfl

theorem pop_concat (hout : out ≠ []) : pop (out ++ [s]) = out := by
  simp [pop, hout]

/-- What is left of a stack that begins with the empty segment, and of what was added to it. -/
def Left (stack out : List Segment) (n : ℕ) : Prop :=
  ∃ a b, out = a ++ b ∧ a <+: stack ∧ a ≠ [] ∧ weight b ≤ n

theorem Left.mono {n m : ℕ} (h : Left stack out n) (hnm : n ≤ m) : Left stack out m := by
  obtain ⟨a, b, rfl, ha, hne, hb⟩ := h
  exact ⟨a, b, rfl, ha, hne, hb.trans hnm⟩

theorem Left.concat {n : ℕ} (h : Left stack out n) (s : Segment) :
    Left stack (out ++ [s]) (n + (size s + 1)) := by
  obtain ⟨a, b, rfl, ha, hne, hb⟩ := h
  refine ⟨a, b ++ [s], (List.append_assoc ..), ha, hne, ?_⟩
  rw [weight_append, weight_cons, weight_nil]
  omega

theorem Left.pop {n : ℕ} (hs : stack.head? = some []) (h : Left stack out n) :
    Left stack (pop out) n := by
  obtain ⟨a, b, rfl, ha, hne, hb⟩ := h
  rcases List.eq_nil_or_concat b with rfl | ⟨b, s, rfl⟩
  · rcases List.eq_nil_or_concat a with rfl | ⟨a, s, rfl⟩
    · exact absurd rfl hne
    · by_cases hnil : a = []
      · -- only the empty segment is there, and it stays
        subst hnil
        obtain ⟨r, rfl⟩ := ha
        obtain rfl : s = [] := Option.some.inj hs
        exact ⟨[[]], [], rfl, ⟨r, rfl⟩, List.cons_ne_nil _ _, hb⟩
      · refine ⟨a, [], ?_, (List.prefix_append a [s]).trans (by simpa using ha), hnil, hb⟩
        rw [List.append_nil, List.append_nil, List.concat_eq_append, pop_concat hnil]
  · refine ⟨a, b, ?_, ha, hne, ?_⟩
    · rw [List.concat_eq_append, ← List.append_assoc, pop_concat (by simp [hne])]
    · rw [List.concat_eq_append, weight_append] at hb
      omega

/-- What resolving leaves is not heavier than what was there and what was added. -/
theorem left_resolve (hs : stack.head? = some []) {n : ℕ} (h : Left stack out n) :
    Left stack (resolve out l) (n + weight l) := by
  induction l generalizing out n with
  | nil => exact h
  | cons s l ih =>
    rw [weight_cons]
    have hpop : Left stack (Uri.pop out) n := h.pop hs
    by_cases hl : l = []
    · subst hl
      simp only [resolve, weight_nil, Nat.add_zero]
      split_ifs
      · exact (hpop.concat []).mono (by simp)
      · exact (h.concat []).mono (by simp)
      · exact h.concat s
    · rw [resolve_cons hl]
      split_ifs
      · exact (ih hpop).mono (by omega)
      · exact (ih h).mono (by omega)
      · exact (ih (h.concat s)).mono (by omega)

/-- **What resolving can do** to a stack and what was added to it: the stack stays, with something
over it, or its last segment goes, and less is left than was resolved. -/
theorem resolve_cases (hs : stack.head? = some []) (t : Segment) (hl : l ≠ []) (b : List Segment) :
    (∃ b', b' ≠ [] ∧ resolve (stack ++ [t] ++ b) l = stack ++ [t] ++ b') ∨
    ∃ n < weight l, Left stack (resolve (stack ++ [t] ++ b) l) n := by
  have hne : stack ≠ [] := by
    rintro rfl
    cases hs
  have hstack : Left stack stack 0 :=
    ⟨stack, [], (List.append_nil _).symm, List.prefix_refl _, hne, le_rfl⟩
  induction l generalizing b with
  | nil => exact absurd rfl hl
  | cons s l ih =>
    rw [weight_cons]
    have hpop : b = [] ∧ pop (stack ++ [t] ++ b) = stack ∨
        ∃ b', pop (stack ++ [t] ++ b) = stack ++ [t] ++ b' := by
      rcases List.eq_nil_or_concat b with rfl | ⟨b, x, rfl⟩
      · rw [List.append_nil, pop_concat hne]
        exact Or.inl ⟨rfl, rfl⟩
      · rw [List.concat_eq_append, ← List.append_assoc, pop_concat (by simp)]
        exact Or.inr ⟨b, rfl⟩
    by_cases hl : l = []
    · subst hl
      simp only [resolve]
      split_ifs with hdd hd
      · have hsize := two_le_size_of_isDotDot hdd
        rcases hpop with ⟨rfl, hpop⟩ | ⟨b', hpop⟩
        · rw [hpop]
          exact Or.inr ⟨1, by omega, (hstack.concat []).mono (by simp)⟩
        · rw [hpop, List.append_assoc]
          exact Or.inl ⟨b' ++ [[]], by simp, rfl⟩
      · rw [List.append_assoc]
        exact Or.inl ⟨b ++ [[]], by simp, rfl⟩
      · rw [List.append_assoc]
        exact Or.inl ⟨b ++ [s], by simp, rfl⟩
    · rw [resolve_cons hl]
      have hrest : ∀ b', (∃ b'', b'' ≠ [] ∧ resolve (stack ++ [t] ++ b') l = stack ++ [t] ++ b'') ∨
          ∃ n < size s + 1 + weight l, Left stack (resolve (stack ++ [t] ++ b') l) n := by
        intro b'
        rcases ih hl b' with h | ⟨n, hn, h⟩
        · exact Or.inl h
        · exact Or.inr ⟨n, by omega, h⟩
      split_ifs with hdd hd
      · rcases hpop with ⟨rfl, hpop⟩ | ⟨b', hpop⟩
        · rw [hpop]
          exact Or.inr ⟨0 + weight l, by omega, left_resolve hs hstack⟩
        · rw [hpop]
          exact hrest b'
      · exact hrest b
      · rw [List.append_assoc]
        exact hrest (b ++ [s])

end Resolve

/-! ### An `https` reference -/

/-- The delimiters of a reference do not stand in a plain name of a host. -/
theorem isNameChar_eq_false {c : Char} (h : c ∈ ['/', '\\', '?', '#', ':', '@', '[', ']']) :
    isNameChar c = false := by
  have hall : ['/', '\\', '?', '#', ':', '@', '[', ']'].all (fun c => !isNameChar c) = true := by
    decide
  simpa using List.all_eq_true.mp hall c h

/-- A plain name has no delimiter. -/
theorem ne_of_isNameChar {name : List Char} (h : name.all isNameChar = true) {c d : Char}
    (hc : c ∈ name) (hd : d ∈ ['/', '\\', '?', '#', ':', '@', '[', ']']) : c ≠ d := by
  rintro rfl
  have hname := List.all_eq_true.mp h c hc
  rw [isNameChar_eq_false hd] at hname
  cases hname

theorem takeWhile_name {name : List Char} {p : Char → Bool} (h : ∀ c ∈ name, p c = true)
    (hp : p '/' = false) (r : List Char) : (name ++ '/' :: r).takeWhile p = name := by
  rw [List.takeWhile_append_of_pos h, List.takeWhile_cons_of_neg (by simp [hp]), List.append_nil]

theorem dropWhile_name {name : List Char} {p : Char → Bool} (h : ∀ c ∈ name, p c = true)
    (hp : p '/' = false) (r : List Char) : (name ++ '/' :: r).dropWhile p = '/' :: r := by
  rw [List.dropWhile_append_of_pos h, List.dropWhile_cons_of_neg (by simp [hp])]

theorem readAuthority_name (rules : Rules) {name : List Char} (h : name.all isNameChar = true) :
    readAuthority rules name = some (name.map Char.toLower) := by
  have hat : '@' ∉ name := fun hm => ne_of_isNameChar h hm (by decide) rfl
  have hbracket : name.head? ≠ some '[' := fun hh =>
    ne_of_isNameChar h (List.mem_of_head? hh) (by decide) rfl
  have hcolon : ∀ c ∈ name, (c != ':') = true := fun c hc => by
    simpa using ne_of_isNameChar h hc (by decide)
  have hdrop : name.dropWhile (· != ':') = [] := List.dropWhile_eq_nil_iff.mpr hcolon
  have htake : name.takeWhile (· != ':') = name := List.takeWhile_eq_self_iff.mpr hcolon
  have hport : isPort [] = true := rfl
  simp only [readAuthority, List.contains_eq_mem, hat, decide_false, Bool.false_eq_true, if_false,
    List.any_nil, hbracket, hdrop, List.tail_nil, hport, if_true, htake, h]

/-- **An `https` reference** with a plain host. -/
theorem parse_https (rules : Rules) {name : List Char} (h : name.all isNameChar = true)
    (rest : List Char) : parse rules ("https://".toList ++ (name ++ '/' :: rest)) =
      some ⟨name.map Char.toLower,
        removeDotSegments ([] :: (withoutQuery rest).splitOnP isSlash)⟩ := by
  have hslash : ∀ c ∈ name, (!isSlash c) = true := fun c hc => by
    have h1 : c ≠ '/' := ne_of_isNameChar h hc (by decide)
    have h2 : c ≠ '\\' := ne_of_isNameChar h hc (by decide)
    simp [isSlash, h1, h2]
  have hquery : withoutQuery ("https://".toList ++ (name ++ '/' :: rest)) =
      "https://".toList ++ (name ++ '/' :: withoutQuery rest) := by
    have hname : ∀ c ∈ name, (c != '?' && c != '#') = true := fun c hc => by
      have h1 : c ≠ '?' := ne_of_isNameChar h hc (by decide)
      have h2 : c ≠ '#' := ne_of_isNameChar h hc (by decide)
      simp [h1, h2]
    unfold withoutQuery
    have hscheme : "https://".toList.all (fun c => c != '?' && c != '#') = true := by decide
    rw [List.takeWhile_append_of_pos (List.all_eq_true.mp hscheme),
      List.takeWhile_append_of_pos hname]
    rfl
  have hscheme : splitScheme ("https://".toList ++ (name ++ '/' :: withoutQuery rest)) =
      (some "https".toList, '/' :: '/' :: (name ++ '/' :: withoutQuery rest)) := rfl
  have hauth : splitAuthority ('/' :: '/' :: (name ++ '/' :: withoutQuery rest)) =
      (some name, '/' :: withoutQuery rest) := by
    have hs : isSlash '/' = true := rfl
    simp only [splitAuthority, hs, Bool.and_self, if_true]
    rw [takeWhile_name hslash rfl, dropWhile_name hslash rfl]
  have hdata : isDataUri ("https://".toList ++ (name ++ '/' :: rest)) = false := rfl
  have hvalid : isScheme "https".toList = true := by decide
  unfold parse
  rw [hdata, hquery, hscheme]
  simp only [hauth, Bool.false_eq_true, if_false, Option.any_some, hvalid, Bool.not_true,
    Option.isSome_some, Bool.true_or, if_true, Option.elim_some, readAuthority_name rules h]
  rw [List.splitOnP_cons_eq_if_modifyHead]
  rfl

/-- The segments after the first slash. -/
theorem pathSegments_eq (host : List Char) {segments : List Segment} (h : segments ≠ [[]]) :
    (Reference.mk host ([] :: segments)).pathSegments = decodeAll segments := by
  simp [Reference.pathSegments, h]

end PixsBliss.Lib.Uri
