import PixsBliss.Lib.Uri

/-! # Cloudinary URLs

`cloudinary_service.dart` builds the delivery URLs of this account out of a public id, and looks for
the public id in a URL: it is what follows the first path segment `upload`, without a version. A
segment counts as a version if it begins with a `v`.

* `extract_original_iff`: so an id is read back from its URL exactly if its first segment does not
  begin with a `v`; behind a version it always is. -/

namespace PixsBliss.Services.CloudinaryService

open PixsBliss.Lib PixsBliss.Lib.Uri

def cloudName : String := "dcu35avaw"

/-! ### Building URLs -/

/-- What the delivery URLs begin with. -/
def deliveryUrl : String := "https://res.cloudinary.com/" ++ cloudName ++ "/image/upload/"

/-- `w_…,h_…,f_…,q_…`. -/
def transformation (width height : ℤ) (format quality : String) : String :=
  "w_" ++ toString width ++ ",h_" ++ toString height ++ ",f_" ++ format ++ ",q_" ++ quality

/-- The defaults are 1080, 1920, `auto` and `auto`. -/
def getOptimizedImageUrl (publicId : String) (width height : ℤ) (format quality : String) :
    String :=
  deliveryUrl ++ transformation width height format quality ++ "/" ++ publicId

/-- The defaults are 300, 400, `auto` and `auto`. -/
def getThumbnailUrl (publicId : String) (width height : ℤ) (format quality : String) : String :=
  deliveryUrl ++ transformation width height format quality ++ ",c_fill/" ++ publicId

def getOriginalImageUrl (publicId : String) : String := deliveryUrl ++ publicId

/-! ### Reading URLs -/

/-- The marker of an upload. -/
def upload : Segment := "upload".toList

/-- The public id among the segments of a path; `indexOf` is the length if there is no marker. -/
def publicIdOf (pathSegments : List Segment) : Option (List Char) :=
  let uploadIndex := pathSegments.idxOf upload
  if uploadIndex + 1 < pathSegments.length then
    -- a version is skipped
    let startIndex :=
      if (pathSegments.getD (uploadIndex + 1) []).head? = some 'v' then uploadIndex + 2
      else uploadIndex + 1
    some (['/'].intercalate (pathSegments.drop startIndex))
  else none

/-- `extractPublicIdFromUrl`; what is thrown on the way is caught. -/
def extractPublicIdFromUrl (rules : Rules) (url : String) : Option String :=
  if "cloudinary.com".toList <:+: url.toList then
    (((parse rules url.toList).bind Reference.pathSegments).bind publicIdOf).map String.ofList
  else none

/-- The defaults are 300 and 400. -/
def convertToThumbnailUrl (rules : Rules) (originalUrl : String) (width height : ℤ) : String :=
  match extractPublicIdFromUrl rules originalUrl with
  | some publicId => getThumbnailUrl publicId width height "auto" "auto"
  | none => originalUrl

/-- The defaults are 1080 and 1920. -/
def convertToOptimizedUrl (rules : Rules) (originalUrl : String) (width height : ℤ) : String :=
  match extractPublicIdFromUrl rules originalUrl with
  | some publicId => getOptimizedImageUrl publicId width height "auto" "auto"
  | none => originalUrl

def isValidCloudinaryUrl (url : String) : Bool :=
  decide ("cloudinary.com".toList <:+: url.toList) && decide (cloudName.toList <:+: url.toList)

/-! ### Characters of an id -/

/-- A letter, a digit, or any other character that is neither a delimiter of a path nor the
beginning of an escape. -/
def isIdChar (c : Char) : Bool := !(c == '/' || c == '\\' || c == '?' || c == '#' || c == '%')

section Characters

variable {segments : List Segment} {c d : Char}

theorem not_isIdChar (h : c ∈ ['/', '\\', '?', '#', '%']) : isIdChar c = false := by
  have hall : ['/', '\\', '?', '#', '%'].all (fun c => !isIdChar c) = true := by decide
  simpa using List.all_eq_true.mp hall c h

theorem isIdChar_of_all (h : segments.all (fun s => s.all isIdChar) = true) :
    ∀ s ∈ segments, ∀ c ∈ s, isIdChar c = true := fun s hs =>
  List.all_eq_true.mp (List.all_eq_true.mp h s hs)

theorem ne_of_isIdChar (h : isIdChar c = true)
    (hd : d ∈ ['/', '\\', '?', '#', '%']) : c ≠ d := by
  rintro rfl
  rw [not_isIdChar hd] at h
  cases h

theorem isSlash_of_isIdChar (h : isIdChar c = true) : isSlash c = false := by
  have h1 : c ≠ '/' := ne_of_isIdChar h (by decide)
  have h2 : c ≠ '\\' := ne_of_isIdChar h (by decide)
  simp [isSlash, h1, h2]

theorem notQuery_of_isIdChar (h : isIdChar c = true) : (c != '?' && c != '#') = true := by
  have h1 : c ≠ '?' := ne_of_isIdChar h (by decide)
  have h2 : c ≠ '#' := ne_of_isIdChar h (by decide)
  simp [h1, h2]

end Characters

/-! ### Segments of an id -/

section Segments

variable {pre post : List Segment} {x : Segment} {segments : List Segment}

theorem publicIdOf_append (hpre : upload ∉ pre) (x : Segment) (post : List Segment) :
    publicIdOf (pre ++ upload :: x :: post) =
      some (['/'].intercalate (if x.head? = some 'v' then post else x :: post)) := by
  have hidx : (pre ++ upload :: x :: post).idxOf upload = pre.length := by
    rw [List.idxOf_append_of_notMem hpre, List.idxOf_cons_self, Nat.add_zero]
  have hx : (pre ++ upload :: x :: post).getD (pre.length + 1) [] = x := by
    rw [List.getD_eq_getElem?_getD, List.getElem?_append_right (Nat.le_succ _)]
    simp
  have hlen : pre.length + 1 < (pre ++ upload :: x :: post).length := by simp
  unfold publicIdOf
  simp only [hidx, hx, hlen, if_true]
  split_ifs
  · rw [List.drop_length_add_append]
    rfl
  · rw [List.drop_length_add_append]
    rfl

/-- **Where an id comes from.** -/
theorem publicIdOf_eq_some {p : List Char} (h : publicIdOf segments = some p) :
    ∃ pre x post, segments = pre ++ upload :: x :: post ∧ upload ∉ pre ∧
      p = ['/'].intercalate (if x.head? = some 'v' then post else x :: post) := by
  have hlt : segments.idxOf upload + 1 < segments.length := by
    by_contra hn
    rw [publicIdOf, if_neg hn] at h
    cases h
  obtain ⟨pre, rest, rfl, hpre⟩ :=
    List.eq_append_cons_of_mem (List.idxOf_lt_length_iff.mp (by omega : segments.idxOf upload < _))
  cases rest with
  | nil =>
    rw [List.idxOf_append_of_notMem hpre, List.idxOf_cons_self] at hlt
    simp at hlt
  | cons x post =>
    rw [publicIdOf_append hpre] at h
    exact ⟨pre, x, post, rfl, hpre, (Option.some.inj h).symm⟩

end Segments

/-! ### URLs of this account -/

/-- The segments before an id. -/
def account : List Segment := [cloudName.toList, "image".toList, upload]

theorem plain_account : ∀ s ∈ account, Plain s := by
  intro s hs
  simp only [account, List.mem_cons, List.not_mem_nil, or_false] at hs
  rcases hs with rfl | rfl | rfl <;> exact ⟨by decide, by decide, by decide⟩

theorem isIdChar_account : ∀ s ∈ account, ∀ c ∈ s, isIdChar c = true := isIdChar_of_all (by decide)

/-- The id in a URL of this account, with anything behind the prefix. -/
def idBehind (rest : List Char) : Option (List Char) :=
  ((Reference.mk "res.cloudinary.com".toList (resolve ([] :: account)
    ((withoutQuery rest).splitOnP isSlash))).pathSegments).bind publicIdOf

theorem toList_deliveryUrl (rest : String) : (deliveryUrl ++ rest).toList = "https://".toList ++
    ("res.cloudinary.com".toList ++ '/' :: (slashed account ++ rest.toList)) := by
  rw [String.toList_append]
  rfl

theorem contains_deliveryUrl (rest : String) :
    "cloudinary.com".toList <:+: (deliveryUrl ++ rest).toList := by
  have hhost : "https://".toList ++ "res.cloudinary.com".toList =
      "https://res.".toList ++ "cloudinary.com".toList := by simp
  have hrest := congrArg
    (· ++ '/' :: (slashed account ++ rest.toList)) hhost.symm
  exact ⟨_, _, hrest.trans ((List.append_assoc ..).trans (toList_deliveryUrl rest).symm)⟩

theorem parse_deliveryUrl (rules : Rules) (rest : String) :
    parse rules (deliveryUrl ++ rest).toList = some ⟨"res.cloudinary.com".toList,
      resolve ([] :: account) ((withoutQuery rest.toList).splitOnP isSlash)⟩ := by
  have hquery : withoutQuery (slashed account ++ rest.toList) =
      slashed account ++ withoutQuery rest.toList :=
    withoutQuery_slashed (fun s hs c hc => notQuery_of_isIdChar (isIdChar_account s hs c hc)) _
  have hsplit : (slashed account ++ withoutQuery rest.toList).splitOnP isSlash =
      account ++ (withoutQuery rest.toList).splitOnP isSlash :=
    splitOnP_slashed (fun s hs c hc => isSlash_of_isIdChar (isIdChar_account s hs c hc)) _
  have hplain : ∀ s ∈ [] :: account, Plain s := by
    intro s hs
    rcases List.mem_cons.mp hs with rfl | hs
    · exact ⟨by decide, by decide, by decide⟩
    · exact plain_account s hs
  have hresolve : removeDotSegments ([] :: (account ++
      (withoutQuery rest.toList).splitOnP isSlash)) =
      resolve ([] :: account) ((withoutQuery rest.toList).splitOnP isSlash) :=
    resolve_plain_append hplain (List.splitOnP_ne_nil _ _)
  have hlower : "res.cloudinary.com".toList.map Char.toLower = "res.cloudinary.com".toList := by
    decide
  have hname : "res.cloudinary.com".toList.all isNameChar = true := by decide
  have hparse := parse_https rules hname (slashed account ++ rest.toList)
  rw [hquery, hsplit, hresolve, hlower] at hparse
  exact (congrArg (parse rules) (toList_deliveryUrl rest)).trans hparse

/-- **Reading a URL of this account.** -/
theorem extract_deliveryUrl (rules : Rules) (rest : String) :
    extractPublicIdFromUrl rules (deliveryUrl ++ rest) =
      (idBehind rest.toList).map String.ofList := by
  unfold extractPublicIdFromUrl
  simp only [contains_deliveryUrl, parse_deliveryUrl, if_true, Option.bind_some, idBehind]

/-! ### Public ids -/

/-- **A public id**: segments without delimiters, none of them empty or a dot segment. -/
structure PublicId where
  segments : List Segment
  ne_nil : segments ≠ []
  nonempty : ∀ s ∈ segments, s ≠ []
  chars : ∀ s ∈ segments, ∀ c ∈ s, isIdChar c = true
  dot : ∀ s ∈ segments, s ≠ ['.']
  dotDot : ∀ s ∈ segments, s ≠ ['.', '.']

/-- The id as the service writes it. -/
def PublicId.text (p : PublicId) : String := String.ofList (['/'].intercalate p.segments)

section Ids

variable {segments : List Segment}

theorem splitOnP_intercalate (hne : segments ≠ [])
    (h : ∀ s ∈ segments, ∀ c ∈ s, isIdChar c = true) :
    (['/'].intercalate segments).splitOnP isSlash = segments := by
  induction segments with
  | nil => exact absurd rfl hne
  | cons s l ih =>
    have hs : ∀ c ∈ s, isSlash c = false := fun c hc =>
      isSlash_of_isIdChar (h s List.mem_cons_self c hc)
    by_cases hl : l = []
    · subst hl
      rw [List.intercalate_singleton, List.splitOnP_eq_singleton hs]
    · rw [List.intercalate_cons_of_ne_nil hl, List.append_assoc, List.singleton_append,
        List.splitOnP_append_cons_of_forall_mem hs '/' rfl,
        ih hl fun t ht => h t (List.mem_cons_of_mem _ ht)]

theorem withoutQuery_intercalate (h : ∀ s ∈ segments, ∀ c ∈ s, isIdChar c = true) :
    withoutQuery (['/'].intercalate segments) = ['/'].intercalate segments := by
  refine List.takeWhile_eq_self_iff.mpr fun c hc => ?_
  rcases mem_intercalate hc with rfl | ⟨s, hs, hcs⟩
  · rfl
  · exact notQuery_of_isIdChar (h s hs c hcs)

theorem PublicId.plain (p : PublicId) : ∀ s ∈ p.segments, Plain s := fun s hs =>
  ⟨fun hm => ne_of_isIdChar (p.chars s hs _ hm) (by decide) rfl, p.dot s hs, p.dotDot s hs⟩

/-- **Reading an id behind the prefix**: a first segment with a `v` is skipped. -/
theorem extract_text (rules : Rules) (p : PublicId) {x : Segment} {post : List Segment}
    (hp : p.segments = x :: post) :
    extractPublicIdFromUrl rules (getOriginalImageUrl p.text) = some (String.ofList
      (['/'].intercalate (if x.head? = some 'v' then post else x :: post))) := by
  have hplain : ∀ s ∈ account ++ p.segments, Plain s := fun s hs =>
    (List.mem_append.mp hs).elim (plain_account s) (p.plain s)
  have hpath : ((withoutQuery p.text.toList).splitOnP isSlash) = p.segments := by
    rw [PublicId.text, String.toList_ofList, withoutQuery_intercalate p.chars,
      splitOnP_intercalate p.ne_nil p.chars]
  have hdecode : decodeAll (account ++ p.segments) = some (account ++ p.segments) := by
    have h := decodeAll_plain_append (fun s hs => (hplain s hs).percent) []
    simpa using h
  have hne : account ++ p.segments ≠ [[]] := fun h => by simp [account, hp] at h
  have hupload : upload ∉ [cloudName.toList, "image".toList] := by decide
  rw [getOriginalImageUrl, extract_deliveryUrl, idBehind, hpath, resolve_plain p.plain,
    List.cons_append, pathSegments_eq _ hne, hdecode, Option.bind_some, hp]
  have hsegs : account ++ x :: post =
      [cloudName.toList, "image".toList] ++ upload :: x :: post := rfl
  rw [hsegs, publicIdOf_append hupload]
  rfl

end Ids

/-! ### Versions -/

theorem isIdChar_of_isDigit {c : Char} (h : c.isDigit = true) : isIdChar c = true := by
  by_contra hc
  simp only [isIdChar, Bool.not_eq_true', Bool.not_eq_false, Bool.or_eq_true, beq_iff_eq] at hc
  rcases hc with (((rfl | rfl) | rfl) | rfl) | rfl <;> revert h <;> decide

theorem isDigit_of_mem_toString {n : ℕ} {c : Char} (h : c ∈ (toString n).toList) :
    c.isDigit = true := by
  have h : c ∈ n.repr.toList := h
  rw [Nat.toList_repr] at h
  exact IntLiteral.isDigit_of_mem_digits h

/-- The id behind a version. -/
def PublicId.versioned (p : PublicId) (n : ℕ) : PublicId where
  segments := ('v' :: (toString n).toList) :: p.segments
  ne_nil := List.cons_ne_nil _ _
  nonempty s hs := by
    rcases List.mem_cons.mp hs with rfl | hs
    · exact List.cons_ne_nil _ _
    · exact p.nonempty s hs
  chars s hs c hc := by
    rcases List.mem_cons.mp hs with rfl | hs
    · rcases List.mem_cons.mp hc with rfl | hc
      · rfl
      · exact isIdChar_of_isDigit (isDigit_of_mem_toString hc)
    · exact p.chars s hs c hc
  dot s hs := by
    rcases List.mem_cons.mp hs with rfl | hs
    · exact fun h => absurd (List.cons.inj h).1 (by decide)
    · exact p.dot s hs
  dotDot s hs := by
    rcases List.mem_cons.mp hs with rfl | hs
    · exact fun h => absurd (List.cons.inj h).1 (by decide)
    · exact p.dotDot s hs

theorem PublicId.text_versioned (p : PublicId) (n : ℕ) :
    (p.versioned n).text = "v" ++ toString n ++ "/" ++ p.text := by
  apply String.toList_inj.mp
  rw [PublicId.text, String.toList_ofList, PublicId.versioned,
    List.intercalate_cons_of_ne_nil p.ne_nil]
  simp [PublicId.text]

/-- A first segment that is skipped is missed. -/
theorem intercalate_ne {x : Segment} (hx : x ≠ []) (post : List Segment) :
    ['/'].intercalate post ≠ ['/'].intercalate (x :: post) := by
  intro h
  have hsize := congrArg size h
  have hcons := size_intercalate (List.cons_ne_nil x post)
  obtain ⟨c, x, rfl⟩ := List.exists_cons_of_ne_nil hx
  have hc := c.utf8Size_pos
  rw [weight_cons, size_cons] at hcons
  by_cases hpost : post = []
  · subst hpost
    simp only [List.intercalate_nil, size_nil] at hsize
    omega
  · have := size_intercalate hpost
    omega

/-- **Exactly the ids that are read back**: an id is read back from its URL iff its first segment
does not begin with a `v`, and from its URL with any version always. -/
theorem extract_original_iff (rules : Rules) (p : PublicId) :
    (extractPublicIdFromUrl rules (getOriginalImageUrl p.text) = some p.text ↔
      (p.segments.head p.ne_nil).head? ≠ some 'v') ∧
    ∀ n : ℕ, extractPublicIdFromUrl rules
      (getOriginalImageUrl ("v" ++ toString n ++ "/" ++ p.text)) = some p.text := by
  constructor
  · obtain ⟨x, post, hp⟩ := List.exists_cons_of_ne_nil p.ne_nil
    have hx : x ≠ [] := p.nonempty x (by simp [hp])
    have hhead : p.segments.head p.ne_nil = x := by simp [hp]
    rw [extract_text rules p hp, hhead, PublicId.text, hp]
    by_cases hv : x.head? = some 'v'
    · refine iff_of_false (fun h => ?_) (not_not_intro hv)
      rw [if_pos hv, Option.some.injEq, String.ofList_inj] at h
      exact intercalate_ne hx post h
    · rw [if_neg hv]
      exact iff_of_true rfl hv
  · intro n
    rw [← p.text_versioned, extract_text rules (p.versioned n) rfl, List.head?_cons,
      if_pos rfl]
    rfl

/-- A library that rejects what is left open. -/
def strictRules : Rules := ⟨fun _ => none, fun _ => none⟩

/-- An id in a folder. -/
def vacationBeach : PublicId where
  segments := ["vacation".toList, "beach".toList]
  ne_nil := List.cons_ne_nil _ _
  nonempty := by decide
  chars := isIdChar_of_all (by decide)
  dot := by decide
  dotDot := by decide

/-- **A lost folder**: `vacation` is taken for a version. -/
theorem folder_lost : vacationBeach.text = "vacation/beach" ∧
    extractPublicIdFromUrl strictRules (getOriginalImageUrl vacationBeach.text) = some "beach" ∧
    extractPublicIdFromUrl strictRules (getOriginalImageUrl vacationBeach.text) ≠
      some vacationBeach.text := by
  have h : extractPublicIdFromUrl strictRules (getOriginalImageUrl vacationBeach.text) =
      some "beach" := extract_text strictRules vacationBeach rfl
  have ht : vacationBeach.text = "vacation/beach" := rfl
  refine ⟨ht, h, ?_⟩
  rw [h, ht]
  decide

end PixsBliss.Services.CloudinaryService
