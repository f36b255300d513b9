import PixsBliss.Models.FromFirestore

/-! # Converted URLs

`convertToThumbnailUrl` and `convertToOptimizedUrl` put a transformation before the id of a URL, and
read the segment of a transformation as a part of the id. The test for a Cloudinary URL is whether
the text `cloudinary.com` occurs in it, and the account is not looked at.

* `extract_transformed_ne`: a converted URL is never read back to the id it was built from, whatever
  the id is.
* `conversion_law_iff`: so conversions depend on the image only for the URLs without an id.
* `foreign_unchanged_iff`: and a URL that is not of this account is left alone exactly if it has no
  id. -/

namespace PixsBliss.Services.CloudinaryUrls

open PixsBliss.Lib PixsBliss.Lib.Uri PixsBliss.Models PixsBliss.Models.Json
open PixsBliss.Services.CloudinaryService

/-- The segment of a transformation. -/
structure IsTransformation (t : Segment) : Prop where
  chars : ∀ c ∈ t, isIdChar c = true
  dot : t ≠ ['.']
  dotDot : t ≠ ['.', '.']
  version : t.head? ≠ some 'v'

/-- A transformation `m` times before an id. -/
def prefixed (t : Segment) (m : ℕ) (q : List Char) : List Char :=
  (List.replicate m (t ++ ['/'])).flatten ++ q

section Prefixed

variable {t : Segment} {m : ℕ} {q p : List Char}

@[simp] theorem prefixed_zero : prefixed t 0 q = q := rfl

theorem prefixed_succ : prefixed t (m + 1) q = t ++ '/' :: prefixed t m q := by
  simp [prefixed, List.replicate_succ]

theorem prefixed_succ' : prefixed t (m + 1) q = prefixed t m (t ++ '/' :: q) := by
  simp [prefixed, List.replicate_succ']

theorem prefixed_inj {q' : List Char} (h : prefixed t m q = prefixed t m q') : q = q' :=
  List.append_cancel_left h

/-- Every id is some transformations and an id that does not begin with one. -/
theorem exists_prefixed (t : Segment) (p : List Char) :
    ∃ m q, p = prefixed t m q ∧ ∀ q', q ≠ t ++ '/' :: q' := by
  induction hn : p.length using Nat.strong_induction_on generalizing p with
  | _ n ih =>
    by_cases h : ∃ q', p = t ++ '/' :: q'
    · obtain ⟨q', rfl⟩ := h
      have hlt : q'.length < n := by
        rw [← hn]
        simp
        omega
      obtain ⟨m, q, rfl, hq⟩ := ih q'.length hlt q' rfl
      exact ⟨m + 1, q, prefixed_succ.symm, hq⟩
    · exact ⟨0, p, rfl, fun q' hq' => h ⟨q', hq'⟩⟩

theorem size_prefixed : size (prefixed t m q) = m * (size t + 1) + size q := by
  induction m with
  | zero => simp
  | succ m ih =>
    rw [prefixed_succ, size_append, size_cons, ih, Nat.succ_mul]
    have hslash : '/'.utf8Size = 1 := rfl
    omega

theorem weight_replicate : weight (List.replicate m t) = m * (size t + 1) := by
  simp [weight]

theorem prefixed_eq : prefixed t m q = slashed (List.replicate m t) ++ q := by
  simp [prefixed, slashed, List.flatMap]

theorem withoutQuery_prefixed (ht : IsTransformation t) :
    withoutQuery (prefixed t m q) = prefixed t m (withoutQuery q) := by
  rw [prefixed_eq, prefixed_eq]
  refine withoutQuery_slashed (fun s hs c hc => ?_) q
  rw [(List.mem_replicate.mp hs).2] at hc
  exact notQuery_of_isIdChar (ht.chars c hc)

theorem splitOnP_prefixed (ht : IsTransformation t) :
    (prefixed t m q).splitOnP isSlash = List.replicate m t ++ q.splitOnP isSlash := by
  rw [prefixed_eq]
  refine splitOnP_slashed (fun s hs c hc => ?_) q
  rw [(List.mem_replicate.mp hs).2] at hc
  exact isSlash_of_isIdChar (ht.chars c hc)

theorem intercalate_replicate_append {l : List Segment} (hl : l ≠ []) :
    ['/'].intercalate (List.replicate m t ++ l) = prefixed t m (['/'].intercalate l) := by
  induction m with
  | zero => rfl
  | succ m ih =>
    rw [List.replicate_succ, List.cons_append,
      List.intercalate_cons_of_ne_nil (List.append_ne_nil_of_right_ne_nil _ hl), ih, prefixed_succ]
    simp

theorem IsTransformation.plain (ht : IsTransformation t) : Plain t :=
  ⟨fun hm => ne_of_isIdChar (ht.chars _ hm) (by decide) rfl, ht.dot, ht.dotDot⟩

/-! ### Reading a transformed URL -/

/-- The segments before the id of a URL with `m` transformations. -/
def behind (t : Segment) (m : ℕ) : List Segment := account ++ List.replicate m t

/-- The id in a URL with a resolved path. -/
def idOf (path : List Segment) : Option (List Char) :=
  ((Reference.mk "res.cloudinary.com".toList path).pathSegments).bind publicIdOf

theorem plain_behind (ht : IsTransformation t) : ∀ s ∈ behind t m, Plain s := by
  intro s hs
  rcases List.mem_append.mp hs with hs | hs
  · exact plain_account s hs
  · rw [(List.mem_replicate.mp hs).2]
    exact ht.plain

/-- Segments over the transformations: the id begins with all of them. -/
theorem idOf_kept (ht : IsTransformation t) {b : List Segment} (hb : b ≠ []) {p : List Char}
    (h : idOf ([] :: (behind t (m + 1) ++ b)) = some p) :
    ∃ q', p = prefixed t m (t ++ '/' :: q') := by
  have hne : behind t (m + 1) ++ b ≠ [[]] := fun hnil => by simp [behind, account] at hnil
  rw [idOf, pathSegments_eq _ hne,
    decodeAll_plain_append fun s hs => (plain_behind ht s hs).percent] at h
  obtain ⟨d, hd, hid⟩ := Option.bind_eq_some_iff.mp h
  obtain ⟨d, hdec, rfl⟩ := Option.map_eq_some_iff.mp hd
  have hdne : d ≠ [] := by
    rintro rfl
    have hlen := length_decodeAll hdec
    exact hb (List.length_eq_zero_iff.mp hlen.symm)
  have hupload : upload ∉ [cloudName.toList, "image".toList] := by decide
  have hsegs : behind t (m + 1) ++ d = [cloudName.toList, "image".toList] ++
      upload :: t :: (List.replicate m t ++ d) := rfl
  rw [hsegs, publicIdOf_append hupload, if_neg ht.version] at hid
  refine ⟨['/'].intercalate d, ?_⟩
  rw [← prefixed_succ', ← intercalate_replicate_append hdne]
  exact (Option.some.inj hid).symm

/-- The marker of the account is the first one. -/
theorem weight_of_prefix {pre c : List Segment} (hpre : upload ∉ pre)
    (h : pre ++ upload :: c <+: behind t m) : weight c ≤ m * (size t + 1) := by
  obtain ⟨r, hr⟩ := h
  have hc : c ++ r = List.replicate m t := by
    have h1 : cloudName.toList ≠ upload := by decide
    have h2 : "image".toList ≠ upload := by decide
    rcases pre with _ | ⟨x, _ | ⟨y, _ | ⟨z, pre⟩⟩⟩
    · exact absurd (List.cons.inj hr).1.symm h1
    · exact absurd (List.cons.inj (List.cons.inj hr).2).1.symm h2
    · exact (List.cons.inj (List.cons.inj (List.cons.inj hr).2).2).2
    · have hz : z = upload := (List.cons.inj (List.cons.inj (List.cons.inj hr).2).2).1
      simp [hz] at hpre
  rw [← weight_replicate, ← hc, weight_append]
  omega

/-- An id is not longer than the segments behind the marker. -/
theorem size_publicIdOf_le {a d : List Segment} (ha : a <+: behind t m) {p : List Char}
    (h : publicIdOf (a ++ d) = some p) : size p + 1 ≤ m * (size t + 1) + weight d := by
  obtain ⟨pre, x, post, heq, hpre, rfl⟩ := publicIdOf_eq_some h
  have hsize : size (['/'].intercalate (if x.head? = some 'v' then post else x :: post)) + 1 ≤
      weight (x :: post) := by
    split_ifs
    · rw [weight_cons]
      by_cases hpost : post = []
      · simp [hpost]
      · have := size_intercalate hpost
        omega
    · exact (size_intercalate (List.cons_ne_nil x post)).le
  refine hsize.trans ?_
  rcases List.append_eq_append_iff.mp heq with ⟨c, rfl, rfl⟩ | ⟨c, rfl, hc⟩
  · rw [weight_append, weight_cons upload]
    omega
  · cases c with
    | nil =>
      obtain rfl : upload :: x :: post = d := hc
      rw [weight_cons upload]
      omega
    | cons y c =>
      obtain ⟨rfl, hpost⟩ := List.cons.inj hc
      have hw := weight_of_prefix hpre ha
      have hsum : weight (x :: post) = weight c + weight d := by
        rw [hpost]
        exact weight_append c d
      omega

/-- Segments over a part of the transformations: the id is not longer than what is there. -/
theorem size_idOf_le (ht : IsTransformation t) {out : List Segment} {n : ℕ}
    (hleft : Left ([] :: behind t m) out n) {p : List Char} (h : idOf out = some p) :
    size p + 1 ≤ m * (size t + 1) + n := by
  obtain ⟨a, b, rfl, ha, hne, hb⟩ := hleft
  obtain ⟨s, a, rfl⟩ := List.exists_cons_of_ne_nil hne
  obtain ⟨rfl, hpre⟩ := List.cons_prefix_cons.mp ha
  by_cases hnil : a ++ b = [[]]
  · rw [idOf, List.cons_append, hnil] at h
    cases h
  · have hplain : ∀ s ∈ a, '%' ∉ s := fun s hs => (plain_behind ht s (hpre.subset hs)).percent
    rw [idOf, List.cons_append, pathSegments_eq _ hnil, decodeAll_plain_append hplain] at h
    obtain ⟨d, hd, hid⟩ := Option.bind_eq_some_iff.mp h
    obtain ⟨d, hdec, rfl⟩ := Option.map_eq_some_iff.mp hd
    have hwd := weight_decodeAll_le hdec
    have hsize := size_publicIdOf_le hpre hid
    omega

/-- **A transformed URL is not read back**, whatever follows the transformation. -/
theorem idBehind_transformed_ne (ht : IsTransformation t) (p : List Char) :
    idBehind (t ++ '/' :: p) ≠ some p := by
  obtain ⟨m, q, rfl, hq⟩ := exists_prefixed t p
  intro h
  have hl : (withoutQuery q).splitOnP isSlash ≠ [] := List.splitOnP_ne_nil _ _
  have hw : weight ((withoutQuery q).splitOnP isSlash) ≤ size q + 1 := by
    have hle : size (withoutQuery q) ≤ size q := size_takeWhile_le _ q
    rw [weight_splitOnP]
    omega
  have hpath : resolve ([] :: account)
      ((withoutQuery (t ++ '/' :: prefixed t m q)).splitOnP isSlash) =
      resolve (([] :: behind t m) ++ [t] ++ []) ((withoutQuery q).splitOnP isSlash) := by
    have hplain : ∀ s ∈ List.replicate (m + 1) t, Plain s := fun s hs =>
      (List.mem_replicate.mp hs).2 ▸ ht.plain
    rw [← prefixed_succ, withoutQuery_prefixed ht, splitOnP_prefixed ht,
      resolve_plain_append hplain hl, List.replicate_succ']
    simp [behind]
  have h : idOf (resolve ([] :: account)
      ((withoutQuery (t ++ '/' :: prefixed t m q)).splitOnP isSlash)) =
      some (prefixed t m q) := h
  rw [hpath] at h
  have hstart : ([] :: behind t m).head? = some [] := rfl
  rcases resolve_cases hstart t hl [] with ⟨b, hb, hr⟩ | ⟨n, hn, hleft⟩
  · have hstack : ([] :: behind t m) ++ [t] ++ b = [] :: (behind t (m + 1) ++ b) := by
      simp [behind, List.replicate_succ']
    rw [hr, hstack] at h
    obtain ⟨q', hq'⟩ := idOf_kept ht hb h
    exact hq q' (prefixed_inj hq')
  · have hsize := size_idOf_le ht hleft h
    rw [size_prefixed] at hsize
    omega

end Prefixed

/-! ### The two transformations -/

/-- The segment `getOptimizedImageUrl` puts before an id. -/
def optimizedSegment (width height : ℤ) : Segment :=
  (transformation width height "auto" "auto").toList

/-- The segment `getThumbnailUrl` puts before an id. -/
def thumbnailSegment (width height : ℤ) : Segment :=
  optimizedSegment width height ++ ",c_fill".toList

theorem isIdChar_of_mem_toString {n : ℤ} {c : Char} (h : c ∈ (toString n).toList) :
    isIdChar c = true := by
  rcases IntLiteral.mem_toString h with rfl | hdigit
  · rfl
  · exact isIdChar_of_isDigit hdigit

theorem isTransformation_append (width height : ℤ) {suffix : List Char}
    (hsuffix : ∀ c ∈ suffix, isIdChar c = true) :
    IsTransformation (optimizedSegment width height ++ suffix) := by
  have hsegment : optimizedSegment width height = 'w' :: '_' :: ((toString width).toList ++
      ",h_".toList ++ (toString height).toList ++ ",f_auto,q_auto".toList) := by
    simp [optimizedSegment, transformation]
  refine ⟨fun c hc => ?_, ?_, ?_, ?_⟩
  · rw [hsegment] at hc
    simp only [List.cons_append, List.mem_cons, List.mem_append] at hc
    rcases hc with rfl | rfl | ((((hc | hc) | hc) | hc) | hc)
    · rfl
    · rfl
    · exact isIdChar_of_mem_toString hc
    · exact List.all_eq_true.mp (by decide : ",h_".toList.all isIdChar = true) c hc
    · exact isIdChar_of_mem_toString hc
    · exact List.all_eq_true.mp (by decide : ",f_auto,q_auto".toList.all isIdChar = true) c hc
    · exact hsuffix c hc
  all_goals simp [hsegment]

theorem isTransformation_optimized (width height : ℤ) :
    IsTransformation (optimizedSegment width height) := by
  have hnil : ∀ c ∈ ([] : List Char), isIdChar c = true := fun c hc => by cases hc
  have h := isTransformation_append width height hnil
  rwa [List.append_nil] at h

theorem isTransformation_thumbnail (width height : ℤ) :
    IsTransformation (thumbnailSegment width height) :=
  isTransformation_append width height fun c hc =>
    List.all_eq_true.mp (by decide : ",c_fill".toList.all isIdChar = true) c hc

/-! ### Converting -/

/-- The URL of an id behind a segment. -/
def build (t : Segment) (publicId : String) : String :=
  deliveryUrl ++ String.ofList (t ++ '/' :: publicId.toList)

/-- Both conversions. -/
def convert (rules : Rules) (t : Segment) (url : String) : String :=
  match extractPublicIdFromUrl rules url with
  | some publicId => build t publicId
  | none => url

theorem getOptimizedImageUrl_eq (publicId : String) (width height : ℤ) :
    getOptimizedImageUrl publicId width height "auto" "auto" =
      build (optimizedSegment width height) publicId := by
  apply String.toList_inj.mp
  simp [getOptimizedImageUrl, build, optimizedSegment]

theorem getThumbnailUrl_eq (publicId : String) (width height : ℤ) :
    getThumbnailUrl publicId width height "auto" "auto" =
      build (thumbnailSegment width height) publicId := by
  apply String.toList_inj.mp
  simp [getThumbnailUrl, build, thumbnailSegment, optimizedSegment]

theorem convertToOptimizedUrl_eq (rules : Rules) (url : String) (width height : ℤ) :
    convertToOptimizedUrl rules url width height =
      convert rules (optimizedSegment width height) url := by
  unfold convertToOptimizedUrl convert
  cases extractPublicIdFromUrl rules url with
  | none => rfl
  | some publicId => exact getOptimizedImageUrl_eq publicId width height

theorem convertToThumbnailUrl_eq (rules : Rules) (url : String) (width height : ℤ) :
    convertToThumbnailUrl rules url width height =
      convert rules (thumbnailSegment width height) url := by
  unfold convertToThumbnailUrl convert
  cases extractPublicIdFromUrl rules url with
  | none => rfl
  | some publicId => exact getThumbnailUrl_eq publicId width height

/-- The URL shows the segment and the id. -/
theorem build_inj {t t' : Segment} (ht : IsTransformation t) (ht' : IsTransformation t')
    {p p' : String} : build t p = build t' p' ↔ t = t' ∧ p = p' := by
  constructor
  · intro h
    have hlist : t ++ '/' :: p.toList = t' ++ '/' :: p'.toList := by
      have htail := congrArg String.toList h
      rw [build, build, String.toList_append, String.toList_append, List.append_cancel_left_eq,
        String.toList_ofList, String.toList_ofList] at htail
      exact htail
    have hsegment := congrArg (List.takeWhile isIdChar) hlist
    rw [takeWhile_name ht.chars rfl, takeWhile_name ht'.chars rfl] at hsegment
    subst hsegment
    have hid := (List.cons.inj (List.append_cancel_left hlist)).2
    exact ⟨rfl, String.toList_inj.mp hid⟩
  · rintro ⟨rfl, rfl⟩
    rfl

/-- **A converted URL is not read back.** -/
theorem extract_transformed_ne (rules : Rules) {t : Segment} (ht : IsTransformation t)
    (p : String) : extractPublicIdFromUrl rules (build t p) ≠ some p := by
  rw [build, extract_deliveryUrl, String.toList_ofList]
  intro h
  obtain ⟨q, hq, hqp⟩ := Option.map_eq_some_iff.mp h
  obtain rfl : q = p.toList := by rw [← hqp, String.toList_ofList]
  exact idBehind_transformed_ne ht p.toList hq

section Convert

variable {rules : Rules} {t t' : Segment} {url : String}

theorem convert_eq_self_iff (ht : IsTransformation t) :
    convert rules t url = url ↔ extractPublicIdFromUrl rules url = none := by
  unfold convert
  constructor
  · intro h
    by_contra hne
    obtain ⟨p, hp⟩ := Option.ne_none_iff_exists'.mp hne
    have hbuild : build t p = url := by
      rw [hp] at h
      exact h
    -- the URL would be a converted one that is read back
    rw [← hbuild] at hp
    exact extract_transformed_ne rules ht p hp
  · intro h
    rw [h]

/-- Converting twice, with different segments. -/
theorem convert_convert_iff (ht : IsTransformation t) (ht' : IsTransformation t') (hne : t ≠ t') :
    convert rules t (convert rules t' url) = convert rules t url ↔
      extractPublicIdFromUrl rules url = none := by
  constructor
  · intro h
    by_contra hsome
    obtain ⟨p, hp⟩ := Option.ne_none_iff_exists'.mp hsome
    have h1 : convert rules t url = build t p := by rw [convert, hp]
    have h2 : convert rules t' url = build t' p := by rw [convert, hp]
    rw [h1, h2, convert] at h
    cases hq : extractPublicIdFromUrl rules (build t' p) with
    | none =>
      rw [hq] at h
      exact hne ((build_inj ht' ht).mp h).1.symm
    | some q =>
      rw [hq] at h
      obtain rfl := ((build_inj ht ht).mp h).2
      exact extract_transformed_ne rules ht' q hq
  · intro h
    have hself : convert rules t' url = url := by rw [convert, h]
    rw [hself]

end Convert

/-! ### URLs with an id -/

/-- **A URL with an id**: the text of the host occurs in it, and a segment of its path before the
last is the marker. -/
def HasPublicId (rules : Rules) (url : String) : Prop :=
  "cloudinary.com".toList <:+: url.toList ∧ ∃ reference pathSegments,
    parse rules url.toList = some reference ∧ reference.pathSegments = some pathSegments ∧
    upload ∈ pathSegments.dropLast

theorem publicIdOf_isSome_iff {segments : List Segment} :
    (publicIdOf segments).isSome = true ↔ upload ∈ segments.dropLast := by
  rw [publicIdOf]
  constructor
  · intro h
    have hlt : segments.idxOf upload + 1 < segments.length := by
      by_contra hn
      rw [if_neg hn] at h
      cases h
    have hmem : upload ∈ segments := List.idxOf_lt_length_iff.mp (by omega)
    rw [List.mem_dropLast_iff_idxOf_lt hmem]
    omega
  · intro h
    rw [if_pos (List.succ_idxOf_lt_length_of_mem_dropLast h)]
    rfl

theorem extract_eq_none_iff {rules : Rules} {url : String} :
    extractPublicIdFromUrl rules url = none ↔ ¬HasPublicId rules url := by
  rw [← Option.not_isSome_iff_eq_none, not_iff_not]
  unfold extractPublicIdFromUrl HasPublicId
  split_ifs with hcontains
  · rw [Option.isSome_map]
    constructor
    · intro h
      obtain ⟨p, hp⟩ := Option.isSome_iff_exists.mp h
      obtain ⟨pathSegments, hsegs, hid⟩ := Option.bind_eq_some_iff.mp hp
      obtain ⟨reference, href, hpath⟩ := Option.bind_eq_some_iff.mp hsegs
      have hsome : (publicIdOf pathSegments).isSome = true := by rw [hid]; rfl
      exact ⟨hcontains, reference, pathSegments, href, hpath, publicIdOf_isSome_iff.mp hsome⟩
    · rintro ⟨-, reference, pathSegments, href, hpath, hupload⟩
      rw [href, Option.bind_some, hpath, Option.bind_some]
      exact publicIdOf_isSome_iff.mpr hupload
  · exact iff_of_false (by simp) fun h => hcontains h.1

/-- Conversions depend on the image: a URL and what it was converted to, in any size, are converted
to the same URL. -/
def DependsOnImage (rules : Rules) (url : String) : Prop :=
  ∀ width height width' height' : ℤ,
    convertToThumbnailUrl rules (convertToThumbnailUrl rules url width' height') width height =
      convertToThumbnailUrl rules url width height ∧
    convertToThumbnailUrl rules (convertToOptimizedUrl rules url width' height') width height =
      convertToThumbnailUrl rules url width height ∧
    convertToOptimizedUrl rules (convertToOptimizedUrl rules url width' height') width height =
      convertToOptimizedUrl rules url width height ∧
    convertToOptimizedUrl rules (convertToThumbnailUrl rules url width' height') width height =
      convertToOptimizedUrl rules url width height

/-- **Exactly the URLs whose conversions depend on the image**: those without an id, which are not
converted at all. -/
theorem conversion_law_iff (rules : Rules) (url : String) :
    DependsOnImage rules url ↔ ¬HasPublicId rules url := by
  rw [← extract_eq_none_iff]
  simp only [DependsOnImage, convertToThumbnailUrl_eq, convertToOptimizedUrl_eq]
  constructor
  · intro h
    have hne : thumbnailSegment 0 0 ≠ optimizedSegment 0 0 := by simp [thumbnailSegment]
    exact (convert_convert_iff (isTransformation_thumbnail 0 0) (isTransformation_optimized 0 0)
      hne).mp (h 0 0 0 0).2.1
  · intro h width height width' height'
    have hself : ∀ t, convert rules t url = url := fun t => by rw [convert, h]
    simp only [hself, and_self]

/-- An id of one segment. -/
def beach : PublicId where
  segments := ["beach".toList]
  ne_nil := List.cons_ne_nil _ _
  nonempty := by decide
  chars := isIdChar_of_all (by decide)
  dot := by decide
  dotDot := by decide

/-- The segments behind the prefix of its thumbnail. -/
def beachThumbnail : PublicId where
  segments := ["w_300,h_400,f_auto,q_auto,c_fill".toList, "beach".toList]
  ne_nil := List.cons_ne_nil _ _
  nonempty := by decide
  chars := isIdChar_of_all (by decide)
  dot := by decide
  dotDot := by decide

/-- **A transformation in the id**: the thumbnail of a thumbnail has the segment twice. -/
theorem transformation_repeated :
    convertToThumbnailUrl strictRules (getOriginalImageUrl "beach") 300 400 =
      getOriginalImageUrl "w_300,h_400,f_auto,q_auto,c_fill/beach" ∧
    convertToThumbnailUrl strictRules
      (convertToThumbnailUrl strictRules (getOriginalImageUrl "beach") 300 400) 300 400 =
      getOriginalImageUrl
        "w_300,h_400,f_auto,q_auto,c_fill/w_300,h_400,f_auto,q_auto,c_fill/beach" ∧
    ¬DependsOnImage strictRules (getOriginalImageUrl "beach") := by
  have h1 : convertToThumbnailUrl strictRules (getOriginalImageUrl "beach") 300 400 =
      getOriginalImageUrl "w_300,h_400,f_auto,q_auto,c_fill/beach" := by
    have h : extractPublicIdFromUrl strictRules (getOriginalImageUrl "beach") = some "beach" :=
      extract_text strictRules beach rfl
    rw [convertToThumbnailUrl, h]
    rfl
  have h2 : convertToThumbnailUrl strictRules
      (getOriginalImageUrl "w_300,h_400,f_auto,q_auto,c_fill/beach") 300 400 = getOriginalImageUrl
        "w_300,h_400,f_auto,q_auto,c_fill/w_300,h_400,f_auto,q_auto,c_fill/beach" := by
    have h : extractPublicIdFromUrl strictRules
        (getOriginalImageUrl "w_300,h_400,f_auto,q_auto,c_fill/beach") =
        some "w_300,h_400,f_auto,q_auto,c_fill/beach" :=
      extract_text strictRules beachThumbnail rfl
    rw [convertToThumbnailUrl, h]
    rfl
  refine ⟨h1, by rw [h1, h2], fun hlaw => ?_⟩
  have hsame := (hlaw 300 400 300 400).1
  rw [h1, h2] at hsame
  revert hsame
  decide

/-! ### URLs of others -/

/-- The host of a URL. -/
def hostOf (rules : Rules) (url : String) : Option (List Char) :=
  (parse rules url.toList).map Reference.host

/-- The first segment of its path. -/
def firstSegment (rules : Rules) (url : String) : Option Segment :=
  ((parse rules url.toList).bind Reference.pathSegments).bind List.head?

/-- A URL that is not one of this account. -/
def Foreign (rules : Rules) (url : String) : Prop :=
  isValidCloudinaryUrl url = false ∨ hostOf rules url ≠ some "res.cloudinary.com".toList ∨
    firstSegment rules url ≠ some cloudName.toList

/-- A document without a thumbnail. -/
def NoThumbnail (json : DynMap) : Prop :=
  isNull (field "thumbnailUrl" json) = true ∧ isNull (field "thumbnail_url" json) = true

theorem thumbnailUrlOf_eq {json : DynMap} (h : NoThumbnail json) (rules : Rules) (url : String) :
    thumbnailUrlOf rules json url = .ok (convertToThumbnailUrl rules url 300 400) := by
  unfold thumbnailUrlOf
  rw [h.1, h.2]
  by_cases hurl : url = ""
  · subst hurl
    rfl
  · simp [hurl]

/-- **Exactly the foreign URLs that are left alone**: those without an id. So a document with the
image of another account gets a thumbnail in this one iff the URL of the image has an id. -/
theorem foreign_unchanged_iff (d : Device) (url : String) :
    ((Foreign d.rules url → ∀ width height : ℤ,
        convertToThumbnailUrl d.rules url width height = url ∧
        convertToOptimizedUrl d.rules url width height = url) ↔
      (Foreign d.rules url → ¬HasPublicId d.rules url)) ∧
    ∀ json w, Wallpaper.fromFirestore d json = .ok w → NoThumbnail json → w.imageUrl = url →
      ((Foreign d.rules url → w.thumbnailUrl = url) ↔
        (Foreign d.rules url → ¬HasPublicId d.rules url)) := by
  have hthumb : ∀ width height : ℤ, convertToThumbnailUrl d.rules url width height = url ↔
      ¬HasPublicId d.rules url := by
    intro width height
    rw [convertToThumbnailUrl_eq, convert_eq_self_iff (isTransformation_thumbnail width height),
      extract_eq_none_iff]
  have hopt : ∀ width height : ℤ, convertToOptimizedUrl d.rules url width height = url ↔
      ¬HasPublicId d.rules url := by
    intro width height
    rw [convertToOptimizedUrl_eq, convert_eq_self_iff (isTransformation_optimized width height),
      extract_eq_none_iff]
  constructor
  · simp only [hthumb, hopt, and_self, forall_const]
  · intro json w hread hnone himage
    obtain ⟨-, hw, -⟩ := fromFirestore_urls d json w hread
    rw [thumbnailUrlOf_eq hnone, himage] at hw
    rw [← Except.ok.inj hw, hthumb]

/-- An image of another account. -/
def sample : String := "https://res.cloudinary.com/demo/image/upload/sample.jpg"

/-- Its path. -/
def samplePath : PublicId where
  segments := ["demo".toList, "image".toList, upload, "sample.jpg".toList]
  ne_nil := List.cons_ne_nil _ _
  nonempty := by decide
  chars := isIdChar_of_all (by decide)
  dot := by decide
  dotDot := by decide

theorem toList_sample : sample.toList = "https://".toList ++
    ("res.cloudinary.com".toList ++ '/' :: ['/'].intercalate samplePath.segments) := by
  decide

theorem parse_sample : parse strictRules sample.toList =
    some ⟨"res.cloudinary.com".toList, [] :: samplePath.segments⟩ := by
  have hplain : ∀ s ∈ [] :: samplePath.segments, Plain s := by
    intro s hs
    rcases List.mem_cons.mp hs with rfl | hs
    · exact ⟨by decide, by decide, by decide⟩
    · exact samplePath.plain s hs
  have hname : "res.cloudinary.com".toList.all isNameChar = true := by decide
  have hparse := parse_https strictRules hname (['/'].intercalate samplePath.segments)
  rw [withoutQuery_intercalate samplePath.chars,
    splitOnP_intercalate samplePath.ne_nil samplePath.chars, removeDotSegments,
    resolve_plain hplain, List.nil_append, ← toList_sample] at hparse
  exact hparse

theorem extract_sample : extractPublicIdFromUrl strictRules sample = some "sample.jpg" := by
  have hcontains : "cloudinary.com".toList <:+: sample.toList := by decide
  have hdecode : decodeAll samplePath.segments = some samplePath.segments := by
    have h := decodeAll_plain_append (fun s hs => (samplePath.plain s hs).percent) []
    simpa using h
  have hupload : upload ∉ ["demo".toList, "image".toList] := by decide
  have hid : publicIdOf samplePath.segments = some "sample.jpg".toList :=
    publicIdOf_append hupload "sample.jpg".toList []
  have hne : samplePath.segments ≠ [[]] := by decide
  have h : extractPublicIdFromUrl strictRules sample =
      some (String.ofList "sample.jpg".toList) := by
    unfold extractPublicIdFromUrl
    rw [if_pos hcontains, parse_sample, Option.bind_some, pathSegments_eq _ hne, hdecode,
      Option.bind_some, hid, Option.map_some]
  exact h.trans (congrArg some String.ofList_toList)

/-- **Another account's image**: it becomes an image of this account, which need not have one. -/
theorem account_replaced : Foreign strictRules sample ∧
    convertToThumbnailUrl strictRules sample 300 400 =
      getOriginalImageUrl "w_300,h_400,f_auto,q_auto,c_fill/sample.jpg" ∧
    convertToThumbnailUrl strictRules sample 300 400 ≠ sample := by
  have hthumb : convertToThumbnailUrl strictRules sample 300 400 =
      getOriginalImageUrl "w_300,h_400,f_auto,q_auto,c_fill/sample.jpg" := by
    rw [convertToThumbnailUrl, extract_sample]
    rfl
  refine ⟨Or.inl (by decide), hthumb, ?_⟩
  rw [hthumb]
  decide

/-- The document with this image. -/
theorem foreign_sample_thumbnail :
    (Foreign strictRules sample → (imageWallpaper sampleDevice "1" sample).thumbnailUrl = sample) ↔
      (Foreign strictRules sample → ¬HasPublicId strictRules sample) :=
  (foreign_unchanged_iff sampleDevice sample).2 (imageDocument "1" sample)
    (imageWallpaper sampleDevice "1" sample)
    (fromFirestore_imageDocument sampleDevice "1" (by decide)) ⟨rfl, rfl⟩ rfl

end PixsBliss.Services.CloudinaryUrls
