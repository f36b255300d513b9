import PixsBliss.Models.FromFirestore

/-! # The image fields of a document

The chains of `Wallpaper.fromFirestore` stop at the first field that is not null, also if it is
empty. So an empty field hides the ones behind it.

* `imageUrlOf_eq`, `thumbnailUrlOf_eq_given`: what the two chains give.
* `images_resolve_iff`: a document with a usable image field gives usable addresses, of the first
  usable field, exactly if the fields the chains stop at are not empty. -/

namespace PixsBliss.Models.ImageFields

open PixsBliss.Models PixsBliss.Models.Json PixsBliss.Services.CloudinaryService

/-! ### Fields -/

/-- The fields with an image or its id, under the words of the documents. -/
inductive ImageField
  | imageUrl
  | image_url
  | url
  | public_id
  | originalUrl
  | originalPublicId
deriving DecidableEq

namespace ImageField

def key : ImageField → String
  | imageUrl => "imageUrl"
  | image_url => "image_url"
  | url => "url"
  | public_id => "public_id"
  | originalUrl => "originalUrl"
  | originalPublicId => "originalPublicId"

/-- The address a field gives. -/
def address (f : ImageField) (s : String) : String :=
  match f with
  | public_id | originalPublicId => getOriginalImageUrl s
  | _ => s

end ImageField

/-- The order of the chain. -/
def imageFields : List ImageField :=
  [.imageUrl, .image_url, .url, .public_id, .originalUrl, .originalPublicId]

def thumbnailKeys : List String := ["thumbnailUrl", "thumbnail_url"]

/-- The text at a key. -/
def textAt (json : DynMap) (key : String) : Option String :=
  match field key json with
  | .str s => some s
  | _ => none

/-- The eight fields are absent, null or texts. -/
def TextFields (json : DynMap) : Prop :=
  ∀ key ∈ imageFields.map ImageField.key ++ thumbnailKeys,
    field key json = .null ∨ ∃ s, field key json = .str s

/-- A field with its text, if it is there. -/
def given (json : DynMap) (f : ImageField) : Option (ImageField × String) :=
  (textAt json f.key).map fun s => (f, s)

/-- The field at which the chain stops. -/
def firstGiven (json : DynMap) : Option (ImageField × String) := imageFields.findSome? (given json)

/-- The first field that is not empty. -/
def firstUsable (json : DynMap) : Option (ImageField × String) :=
  imageFields.findSome? fun f => (given json f).filter fun p => p.2 ≠ ""

/-- The first thumbnail that is there. -/
def firstThumbnail (json : DynMap) : Option String := thumbnailKeys.findSome? (textAt json)

/-! ### The law -/

/-- **The images resolve**: all addresses can be used, and that of the image is the one of the first
field that is not empty. -/
def Resolved (json : DynMap) (w : Wallpaper) : Prop :=
  w.imageUrl ≠ "" ∧ w.originalUrl ≠ "" ∧ w.thumbnailUrl ≠ "" ∧
    ∃ f s, firstUsable json = some (f, s) ∧ w.imageUrl = f.address s

/-- An empty id gives the address all images of the account begin with; the document has this very
address as its next image. -/
def BareAddress (json : DynMap) : Prop :=
  firstGiven json = some (.public_id, "") ∧ textAt json "originalUrl" = some deliveryUrl

/-- **No chain stops at an empty field.** -/
def StopsAtUsable (json : DynMap) : Prop :=
  ((∀ f, firstGiven json ≠ some (f, "")) ∨ BareAddress json) ∧ firstThumbnail json ≠ some ""

section Chains

variable {json : DynMap} {key : String} {f : ImageField} {s : String}

/-- A field of a text document, as the chains see it. -/
theorem text_cases (h : field key json = .null ∨ ∃ s, field key json = .str s) :
    (isNull (field key json) = true ∧ textAt json key = none) ∨
      ∃ s, isNull (field key json) = false ∧ asString (field key json) = .ok s ∧
        textAt json key = some s := by
  unfold textAt
  rcases h with h | ⟨s, h⟩
  · rw [h]
    exact Or.inl ⟨rfl, rfl⟩
  · rw [h]
    exact Or.inr ⟨s, rfl, rfl, rfl⟩

/-- The chain of a list of fields. -/
def readChain (json : DynMap) : List ImageField → Result String
  | [] => .ok ""
  | f :: fs =>
    if !isNull (field f.key json) then (asString (field f.key json)).map f.address
    else readChain json fs

theorem map_id (x : Result String) : x.map (fun s => s) = x := by cases x <;> rfl

theorem imageUrlOf_eq_readChain (json : DynMap) :
    imageUrlOf json = readChain json imageFields := by
  have hplain : ∀ f : ImageField, f ≠ .public_id → f ≠ .originalPublicId →
      ∀ x : Result String, x.map f.address = x := by
    intro f h h' x
    cases f <;> first | exact map_id x | exact absurd rfl h | exact absurd rfl h'
  unfold imageUrlOf imageFields
  simp only [readChain, hplain, ne_eq, reduceCtorEq, not_false_eq_true]
  rfl

theorem readChain_eq (fs : List ImageField)
    (h : ∀ f ∈ fs, field f.key json = .null ∨ ∃ s, field f.key json = .str s) :
    readChain json fs =
      .ok (((fs.findSome? (given json)).map fun p => p.1.address p.2).getD "") := by
  induction fs with
  | nil => rfl
  | cons f fs ih =>
    unfold readChain
    rcases text_cases (h f List.mem_cons_self) with ⟨hnull, htext⟩ | ⟨s, hnull, hread, htext⟩
    · have hgiven : given json f = none := by rw [given, htext]; rfl
      rw [hnull, List.findSome?_cons, hgiven]
      exact ih fun g hg => h g (List.mem_cons_of_mem f hg)
    · have hgiven : given json f = some (f, s) := by rw [given, htext]; rfl
      rw [hnull, List.findSome?_cons, hgiven, hread]
      rfl

/-- **The address of the image** is that of the field the chain stops at. -/
theorem imageUrlOf_eq (h : TextFields json) :
    imageUrlOf json = .ok (((firstGiven json).map fun p => p.1.address p.2).getD "") := by
  rw [imageUrlOf_eq_readChain]
  refine readChain_eq imageFields fun f hf => h f.key ?_
  exact List.mem_append_left _ (List.mem_map_of_mem hf)

/-- **The thumbnail** is the one that is given, or made from the image. -/
theorem thumbnailUrlOf_eq_given (h : TextFields json) (rules : Lib.Uri.Rules) (url : String) :
    thumbnailUrlOf rules json url = .ok ((firstThumbnail json).getD
      (if url ≠ "" then convertToThumbnailUrl rules url 300 400 else "")) := by
  unfold thumbnailUrlOf firstThumbnail thumbnailKeys
  have hfirst := text_cases (h "thumbnailUrl" (by decide))
  have hsecond := text_cases (h "thumbnail_url" (by decide))
  rcases hfirst with ⟨hnull, htext⟩ | ⟨s, hnull, hread, htext⟩
  · rcases hsecond with ⟨hnull', htext'⟩ | ⟨s, hnull', hread', htext'⟩
    · simp only [hnull, hnull', List.findSome?_cons, htext, htext', List.findSome?_nil]
      by_cases hurl : url = "" <;> simp [hurl]
    · simp [hnull, hnull', htext, htext', hread']
  · simp [hnull, htext, hread]

/-! ### The first field -/

theorem address_ne_empty (hs : s ≠ "") : f.address s ≠ "" := by
  have hdelivery : deliveryUrl ++ s ≠ "" := fun h => hs (String.append_eq_empty_iff.mp h).2
  cases f with
  | public_id => exact hdelivery
  | originalPublicId => exact hdelivery
  | _ => exact hs

theorem getOriginalImageUrl_empty : getOriginalImageUrl "" = deliveryUrl := String.append_empty

theorem getOriginalImageUrl_ne (hs : s ≠ "") : getOriginalImageUrl s ≠ deliveryUrl := by
  intro h
  have hlist := congrArg String.toList h
  rw [getOriginalImageUrl, String.toList_append] at hlist
  exact hs (String.toList_inj.mp (List.append_right_eq_self.mp hlist))

/-- A first field that is not empty is the first such field. -/
theorem findSome?_filter {α β : Type} {g : α → Option β} {q : β → Bool} {l : List α} {b : β}
    (h : l.findSome? g = some b) (hq : q b = true) :
    l.findSome? (fun x => (g x).filter q) = some b := by
  induction l with
  | nil => cases h
  | cons x l ih =>
    rw [List.findSome?_cons] at h ⊢
    cases hx : g x with
    | none =>
      rw [hx] at h
      exact ih h
    | some b' =>
      rw [hx] at h
      obtain rfl := Option.some.inj h
      have hfilter : (some b').filter q = some b' := by simp [Option.filter, hq]
      rw [hfilter]

theorem firstUsable_of_firstGiven (h : firstGiven json = some (f, s)) (hs : s ≠ "") :
    firstUsable json = some (f, s) :=
  findSome?_filter (q := fun p : ImageField × String => p.2 ≠ "") h (by simpa using hs)

theorem firstUsable_isSome {g : ImageField} (htext : textAt json g.key = some s) (hs : s ≠ "") :
    ∃ p, firstUsable json = some p := by
  refine Option.isSome_iff_exists.mp (List.findSome?_isSome_iff.mpr ⟨g, by cases g <;> decide, ?_⟩)
  simp [given, htext, hs]

theorem fst_of_given {p : ImageField × String} (h : given json f = some p) : p.1 = f := by
  obtain ⟨s, -, rfl⟩ := Option.map_eq_some_iff.mp h
  rfl

theorem filter_given_iff {g : ImageField} :
    ((given json g).filter fun p => p.2 ≠ "") = some (f, s) ↔
      f = g ∧ textAt json g.key = some s ∧ s ≠ "" := by
  unfold given
  cases textAt json g.key with
  | none => simp
  | some t =>
    rw [Option.map_some, Option.filter_some]
    constructor
    · intro h
      split_ifs at h with ht
      obtain ⟨rfl, rfl⟩ := Prod.mk.inj (Option.some.inj h)
      exact ⟨rfl, rfl, of_decide_eq_true ht⟩
    · rintro ⟨rfl, ht, hs⟩
      obtain rfl := Option.some.inj ht
      rw [if_pos (decide_eq_true hs)]

/-- The chain does not stop at another field. -/
theorem findSome?_of_ne {fs : List ImageField} {g : ImageField}
    (h : (g :: fs).findSome? (given json) = some (f, s)) (hne : g ≠ f) :
    given json g = none ∧ fs.findSome? (given json) = some (f, s) := by
  rw [List.findSome?_cons] at h
  cases hg : given json g with
  | some p =>
    rw [hg] at h
    obtain rfl := Option.some.inj h
    exact absurd (fst_of_given hg).symm hne
  | none =>
    rw [hg] at h
    exact ⟨rfl, h⟩

/-- The chain stops at the id of the image, which is empty. -/
theorem firstUsable_of_public_id (h : firstGiven json = some (.public_id, "")) :
    firstUsable json = [ImageField.originalUrl, .originalPublicId].findSome?
      fun f => (given json f).filter fun p => p.2 ≠ "" := by
  obtain ⟨h1, h⟩ := findSome?_of_ne (g := .imageUrl) h (by decide)
  obtain ⟨h2, h⟩ := findSome?_of_ne (g := .image_url) h (by decide)
  obtain ⟨h3, h⟩ := findSome?_of_ne (g := .url) h (by decide)
  have hid : ((given json .public_id).filter fun p => p.2 ≠ "") = none := by
    rw [List.findSome?_cons] at h
    cases hg : given json .public_id with
    | none => rfl
    | some p =>
      rw [hg] at h
      obtain rfl := Option.some.inj h
      rfl
  unfold firstUsable imageFields
  simp only [List.findSome?_cons, h1, h2, h3, hid, Option.filter_none]

/-- The chain stops at the last field. -/
theorem firstUsable_of_originalPublicId (h : firstGiven json = some (.originalPublicId, "")) :
    firstUsable json = none := by
  obtain ⟨h1, h⟩ := findSome?_of_ne (g := .imageUrl) h (by decide)
  obtain ⟨h2, h⟩ := findSome?_of_ne (g := .image_url) h (by decide)
  obtain ⟨h3, h⟩ := findSome?_of_ne (g := .url) h (by decide)
  obtain ⟨h4, h⟩ := findSome?_of_ne (g := .public_id) h (by decide)
  obtain ⟨h5, h⟩ := findSome?_of_ne (g := .originalUrl) h (by decide)
  obtain ⟨f, hf, hg⟩ := List.exists_of_findSome?_eq_some h
  rw [List.mem_singleton.mp hf] at hg
  unfold firstUsable imageFields
  simp [h1, h2, h3, h4, h5, hg]

/-- The address of an empty id. -/
theorem bareAddress_iff (h : firstGiven json = some (.public_id, "")) :
    (∃ f s, firstUsable json = some (f, s) ∧ getOriginalImageUrl "" = f.address s) ↔
      BareAddress json := by
  unfold BareAddress
  rw [firstUsable_of_public_id h, getOriginalImageUrl_empty, h]
  constructor
  · rintro ⟨f, s, hfirst, haddress⟩
    obtain ⟨g, hmem, hg⟩ := List.exists_of_findSome?_eq_some hfirst
    obtain ⟨rfl, htext, hs⟩ := filter_given_iff.mp hg
    rcases List.mem_cons.mp hmem with rfl | hlast
    · exact ⟨rfl, htext.trans (congrArg some haddress.symm)⟩
    · rw [List.mem_singleton.mp hlast] at haddress
      exact absurd haddress.symm (getOriginalImageUrl_ne hs)
  · rintro ⟨-, htext⟩
    have husable : ((given json .originalUrl).filter fun p => p.2 ≠ "") =
        some (.originalUrl, deliveryUrl) := filter_given_iff.mpr ⟨rfl, htext, by decide⟩
    refine ⟨.originalUrl, deliveryUrl, ?_, rfl⟩
    rw [List.findSome?_cons, husable]

/-- **The address of the image** can be used and is that of the first usable field iff the chain
does not stop at an empty field, or at an empty id whose address comes again. -/
theorem image_iff {url : String} (husable : ∃ p, firstUsable json = some p)
    (hurl : url = ((firstGiven json).map fun p => p.1.address p.2).getD "") :
    (url ≠ "" ∧ ∃ f s, firstUsable json = some (f, s) ∧ url = f.address s) ↔
      (∀ f, firstGiven json ≠ some (f, "")) ∨ BareAddress json := by
  cases hfirst : firstGiven json with
  | none =>
    -- then no field is usable
    obtain ⟨p, hp⟩ := husable
    obtain ⟨g, hmem, hg⟩ := List.exists_of_findSome?_eq_some hp
    rw [List.findSome?_eq_none_iff.mp hfirst g hmem] at hg
    cases hg
  | some p =>
    obtain ⟨f, s⟩ := p
    rw [hfirst] at hurl
    obtain rfl : url = f.address s := hurl
    by_cases hs : s = ""
    · subst hs
      have hempty : ¬∀ g, some (f, "") ≠ some (g, "") := fun h => h f rfl
      rw [or_iff_right hempty]
      have hbare : f ≠ .public_id → ¬BareAddress json := by
        rintro hne ⟨hid, -⟩
        rw [hfirst] at hid
        exact hne (Prod.mk.inj (Option.some.inj hid)).1
      cases f with
      | public_id =>
        rw [← bareAddress_iff hfirst]
        refine and_iff_right ?_
        show getOriginalImageUrl "" ≠ ""
        rw [getOriginalImageUrl_empty]
        decide
      | originalPublicId =>
        obtain ⟨p, hp⟩ := husable
        rw [firstUsable_of_originalPublicId hfirst] at hp
        cases hp
      | _ => exact iff_of_false (fun h => h.1 rfl) (hbare (by decide))
    · refine iff_of_true ⟨address_ne_empty hs, f, s, firstUsable_of_firstGiven hfirst hs, rfl⟩
        (Or.inl fun g h => hs (Prod.mk.inj (Option.some.inj h)).2)

/-- The thumbnail that is made can be used. -/
theorem convertToThumbnailUrl_ne (rules : Lib.Uri.Rules) {url : String} (hurl : url ≠ "") :
    convertToThumbnailUrl rules url 300 400 ≠ "" := by
  unfold convertToThumbnailUrl
  cases extractPublicIdFromUrl rules url with
  | none => exact hurl
  | some publicId =>
    intro h
    unfold getThumbnailUrl at h
    have hprefix := (String.append_eq_empty_iff.mp h).1
    exact absurd (String.append_eq_empty_iff.mp hprefix).2 (by decide)

theorem thumbnail_iff (rules : Lib.Uri.Rules) {url : String} (hurl : url ≠ "") :
    (firstThumbnail json).getD (if url ≠ "" then convertToThumbnailUrl rules url 300 400 else "") ≠
      "" ↔ firstThumbnail json ≠ some "" := by
  rw [if_pos hurl]
  cases firstThumbnail json with
  | none => exact iff_of_true (convertToThumbnailUrl_ne rules hurl) (by simp)
  | some t => simp

end Chains

/-- **Exactly the documents whose images resolve.** For a document whose eight fields are absent,
null or texts, and one of whose six image fields is not empty: the addresses of its wallpaper can be
used, and that of the image is the one of the first field that is not empty, iff neither chain stops
at an empty field (or it stops at an empty id, and the next image has the address of one). -/
theorem images_resolve_iff (d : Device) (json : DynMap) (htexts : TextFields json)
    (hsome : ∃ f s, s ≠ "" ∧ field (ImageField.key f) json = .str s) (w : Wallpaper)
    (hread : Wallpaper.fromFirestore d json = .ok w) : Resolved json w ↔ StopsAtUsable json := by
  obtain ⟨himage, hthumb, horiginal⟩ := fromFirestore_urls d json w hread
  rw [imageUrlOf_eq htexts] at himage
  rw [thumbnailUrlOf_eq_given htexts] at hthumb
  obtain ⟨f, s, hs, hfield⟩ := hsome
  have htext : textAt json f.key = some s := by
    rw [textAt, hfield]
  have hiff := image_iff (firstUsable_isSome htext hs) (Except.ok.inj himage).symm
  unfold Resolved StopsAtUsable
  rw [horiginal, ← hiff, ← Except.ok.inj hthumb]
  constructor
  · rintro ⟨hurl, -, hthumbnail, hfirst⟩
    exact ⟨⟨hurl, hfirst⟩, (thumbnail_iff d.rules hurl).mp hthumbnail⟩
  · rintro ⟨⟨hurl, hfirst⟩, hthumbnail⟩
    exact ⟨hurl, hurl, (thumbnail_iff d.rules hurl).mpr hthumbnail, hfirst⟩

theorem images_resolve_iff_imageDocument :
    Resolved (imageDocument "7" "https://img/7.jpg")
        (imageWallpaper sampleDevice "7" "https://img/7.jpg") ↔
      StopsAtUsable (imageDocument "7" "https://img/7.jpg") := by
  have hurl : "https://img/7.jpg" ≠ "" := by decide
  have hread := fromFirestore_imageDocument sampleDevice "7" hurl
  refine images_resolve_iff sampleDevice _ ?_ ⟨.url, _, hurl, rfl⟩ _ hread
  intro key hkey
  simp only [imageFields, thumbnailKeys, List.map_cons, List.map_nil, List.cons_append,
    List.nil_append, List.mem_cons, List.not_mem_nil, or_false, ImageField.key] at hkey
  rcases hkey with rfl | rfl | rfl | rfl | rfl | rfl | rfl | rfl
  · exact Or.inl rfl
  · exact Or.inl rfl
  · exact Or.inr ⟨_, rfl⟩
  · exact Or.inl rfl
  · exact Or.inl rfl
  · exact Or.inl rfl
  · exact Or.inl rfl
  · exact Or.inl rfl

/-- A document with an empty address before the one of its image. -/
def emptyFirst : DynMap :=
  [("imageUrl", .str ""), ("url", .str "https://img/7.jpg"), ("_id", .str "7")]

/-- **An image that is there, and is not found.** -/
theorem image_hidden : firstUsable emptyFirst = some (.url, "https://img/7.jpg") ∧
    ∃ w, Wallpaper.fromFirestore sampleDevice emptyFirst = .ok w ∧ w.imageUrl = "" ∧
      w.originalUrl = "" ∧ w.thumbnailUrl = "" ∧ ¬Resolved emptyFirst w :=
  ⟨by decide, _, rfl, rfl, rfl, rfl, fun h => h.1 rfl⟩

end PixsBliss.Models.ImageFields
