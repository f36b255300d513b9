import PixsBliss.Lib.Utf16
import PixsBliss.Models.FromFirestore
import PixsBliss.Services.CacheText
import PixsBliss.Services.PexelsApiService

/-! # The photos of an answer

The Pexels API answers with a list of photos. A photo is made into a wallpaper field by field; its
tags are words of its description. An exception on the way, of the network or of a field of another
type, becomes an exception with a text.

* `answer_wallpapers_iff`: which answers give wallpapers. One photo that is not well formed loses
  the page.
* `page_survives_cache`: a page comes back from the cache with all its fields. -/

namespace PixsBliss.Services.PexelsPhotos

open PixsBliss.Lib.Iso8601 PixsBliss.Lib.JsonText PixsBliss.Lib.Store PixsBliss.Lib.Utf16
open PixsBliss.Models PixsBliss.Models.Json
open PixsBliss.Services.Cache PixsBliss.Services.CacheText PixsBliss.Services.CacheWriters
open PixsBliss.Services.PexelsApiService

/-! ### Tags -/

/-- `\s` of a regular expression. -/
def isWhiteSpace (c : Char) : Bool :=
  (9 ≤ c.toNat ∧ c.toNat ≤ 13) ∨ (0x2000 ≤ c.toNat ∧ c.toNat ≤ 0x200A) ∨
    c.toNat ∈ [0x20, 0xA0, 0x1680, 0x2028, 0x2029, 0x202F, 0x205F, 0x3000, 0xFEFF]

/-- The parts between the runs of separators. -/
def splitOnRuns (sep : Char → Bool) : List Char → List (List Char)
  | [] => [[]]
  | c :: s =>
    if sep c then
      match s with
      | [] => [[], []]
      | d :: _ => if sep d then splitOnRuns sep s else [] :: splitOnRuns sep s
    else
      match splitOnRuns sep s with
      | [] => [[c]]
      | w :: ws => (c :: w) :: ws

/-- `split(RegExp(r'[,\s]+'))`. -/
def splitWords (s : String) : List String :=
  (splitOnRuns (fun c => c = ',' ∨ isWhiteSpace c) s.toList).map String.ofList

def commonWords : List String :=
  ["a", "an", "the", "and", "or", "but", "in", "on", "at", "to", "for", "of", "with", "by"]

/-- `_extractTagsFromAlt`. -/
def extractTagsFromAlt (toLowerCase : String → String) (alt : String) : List String :=
  if alt = "" then ["wallpaper"]
  else
    ((splitWords (toLowerCase alt)).filter fun word =>
      2 < (codeUnits word).length ∧ word ∉ commonWords).take 5

example : extractTagsFromAlt id "a dog, on the sand  of goa " = ["dog", "sand", "goa"] := by
  decide

/-! ### Photos -/

/-- `v?.toInt() ?? n`. -/
def toIntOr (n : ℤ) : Dyn → Result ℤ
  | .null => .ok n
  | .int n => .ok n
  | .double x =>
    if x.isFinite then .ok x.toInt64.toInt
    else .error (.exception "Unsupported operation: Infinity or NaN toInt")
  | _ => .error noSuchMethodError

/-- `m[key] ?? m[key'] ?? …`: the first field that is not null. -/
def firstField (m : DynMap) : List String → Dyn
  | [] => .null
  | key :: keys => if isNull (field key m) then firstField m keys else field key m

def imageKeys : List String := ["large2x", "large", "medium", "original"]

def thumbnailKeys : List String := ["medium", "small"]

def originalKeys : List String := ["original", "large2x"]

def pexelsCategory : Category where
  id := "pexels"
  name := "Pexels"
  slug := "pexels"
  description := none
  icon := none
  color := "#05A081"
  coverImage := none
  featured := true
  order := 1
  wallpaperCount := none
  status := "active"

/-- `_mapPexelsPhotoToWallpaper`. -/
def mapPexelsPhotoToWallpaper (d : Device) (photo : DynMap) : Result Wallpaper := do
  let src ← asMap (field "src" photo)
  let width ← toIntOr 1080 (field "width" photo)
  let height ← toIntOr 1920 (field "height" photo)
  let alt ← orNull asString (field "alt" photo)
  return {
    id := (field "id" photo).text d.doubleText
    title := alt.getD "Beautiful Wallpaper"
    description := alt
    imageUrl := ← asString (firstField src imageKeys)
    thumbnailUrl := ← asString (firstField src thumbnailKeys)
    originalUrl := ← asString (firstField src originalKeys)
    dimensions := ⟨width, height⟩
    fileSize := 0
    format := "jpg"
    colors := ["#000000"]
    featured := false
    trending := false
    downloads := 0
    likes := 0
    views := 0
    status := "active"
    tags := extractTagsFromAlt d.codec.toLowerCase (alt.getD "")
    category := pexelsCategory
    createdAt := d.createdNow photo
    updatedAt := d.updatedNow photo }

/-! ### Answers -/

/-- How a request ends. -/
inductive Reply
  | response (statusCode : ℤ) (data : Dyn)
  | dioException (type : DioExceptionType) (message : Option String)

/-- `data['photos'] as List`. -/
def photosOf (data : Dyn) : Result (List Dyn) := do asList (← index "photos" data)

/-- The wallpapers of a page, all or none. -/
def pageOf (d : Device) (data : Dyn) : Result (List Wallpaper) := do
  (← photosOf data).mapM fun photo => do mapPexelsPhotoToWallpaper d (← asMap photo)

/-- The texts of one of the two calls. -/
structure CallTexts where
  failed : String
  error : String
  timeout : DioExceptionType → Option String

/-- A call with the reply to it; `describe` is the text of an error that is caught. -/
def answer (texts : CallTexts) (describe : DartError → String) (d : Device) : Reply → Answer
  | .response statusCode data =>
    if statusCode = 200 then
      match pageOf d data with
      | .ok ws => .wallpapers ws
      | .error e => .exception ("Exception: " ++ texts.error ++ ": " ++ describe e)
    else
      .exception ("Exception: " ++ texts.error ++ ": Exception: " ++ texts.failed ++ ": Status " ++
        toString statusCode)
  | .dioException type message =>
    .exception ("Exception: " ++
      (texts.timeout type).getD ("Network error: " ++ message.getD "null"))

def connectionTimeoutText : String :=
  "Connection timeout - please check your internet connection"

def connectionErrorText : String := "Connection error - failed to connect to Pexels API"

/-- `getCuratedWallpapers`. -/
def curatedTexts : CallTexts where
  failed := "Failed to load curated wallpapers"
  error := "Error fetching curated wallpapers"
  timeout
    | .connectionTimeout => some connectionTimeoutText
    | .receiveTimeout => some "Receive timeout - server took too long to respond"
    | .connectionError => some connectionErrorText
    | _ => none

/-- `searchWallpapers` has no text of its own for an answer that takes too long. -/
def searchTexts : CallTexts where
  failed := "Failed to search wallpapers"
  error := "Error searching wallpapers"
  timeout
    | .connectionTimeout => some connectionTimeoutText
    | .connectionError => some connectionErrorText
    | _ => none

/-! ### Which answers give wallpapers -/

/-- A number that `toInt` has a value on, or none. -/
def IsNumber : Dyn → Prop
  | .null => True
  | .int _ => True
  | .double x => x.isFinite = true
  | _ => False

/-- A text. -/
def IsText (v : Dyn) : Prop := ∃ s, v = .str s

/-- **A photo that is well formed.** The first address of each chain that is not null is a text, and
there is one. -/
structure WellFormedPhoto (photo : DynMap) : Prop where
  src : ∃ src, field "src" photo = .map src ∧ IsText (firstField src imageKeys) ∧
    IsText (firstField src thumbnailKeys) ∧ IsText (firstField src originalKeys)
  width : IsNumber (field "width" photo)
  height : IsNumber (field "height" photo)
  alt : field "alt" photo = .null ∨ IsText (field "alt" photo)

section Accepted

variable {v : Dyn} {n : ℤ} {photo : DynMap} {d : Device}

theorem asString_ok_iff : (∃ s, asString v = .ok s) ↔ IsText v :=
  exists_congr fun _ => asString_eq_ok

theorem orNull_asString_ok_iff : (∃ s, orNull asString v = .ok s) ↔ v = .null ∨ IsText v := by
  cases v with
  | null => exact iff_of_true ⟨none, rfl⟩ (Or.inl rfl)
  | str s => exact iff_of_true ⟨some s, rfl⟩ (Or.inr ⟨s, rfl⟩)
  | _ =>
    refine iff_of_false ?_ ?_
    · rintro ⟨_, h⟩
      cases h
    · rintro (h | ⟨_, h⟩) <;> cases h

theorem toIntOr_ok_iff : (∃ k, toIntOr n v = .ok k) ↔ IsNumber v := by
  cases v with
  | null => exact iff_of_true ⟨n, rfl⟩ trivial
  | int k => exact iff_of_true ⟨k, rfl⟩ trivial
  | double x =>
    simp only [toIntOr, IsNumber]
    split_ifs with hx
    · exact iff_of_true ⟨_, rfl⟩ hx
    · exact iff_of_false (by rintro ⟨_, h⟩; cases h) hx
  | _ => exact iff_of_false (by rintro ⟨_, h⟩; cases h) id

theorem exists_forall₂ {α β : Type} {r : α → β → Prop} {l : List α} (h : ∀ a ∈ l, ∃ b, r a b) :
    ∃ l', List.Forall₂ r l l' := by
  induction l with
  | nil => exact ⟨[], .nil⟩
  | cons a l ih =>
    obtain ⟨b, hb⟩ := h a List.mem_cons_self
    obtain ⟨l', hl'⟩ := ih fun a ha => h a (List.mem_cons_of_mem _ ha)
    exact ⟨b :: l', .cons hb hl'⟩

/-- **A photo becomes a wallpaper** exactly if it is well formed. -/
theorem mapPhoto_ok_iff :
    (∃ w, mapPexelsPhotoToWallpaper d photo = .ok w) ↔ WellFormedPhoto photo := by
  unfold mapPexelsPhotoToWallpaper
  simp only [bind_eq_ok]
  constructor
  · rintro ⟨w, src, hsrc, k, hk, k', hk', alt, halt, image, himage, thumb, hthumb, orig, horig, -⟩
    exact
      { src := ⟨src, asMap_ok_iff.mp hsrc, asString_ok_iff.mp ⟨_, himage⟩,
          asString_ok_iff.mp ⟨_, hthumb⟩, asString_ok_iff.mp ⟨_, horig⟩⟩
        width := toIntOr_ok_iff.mp ⟨_, hk⟩
        height := toIntOr_ok_iff.mp ⟨_, hk'⟩
        alt := orNull_asString_ok_iff.mp ⟨_, halt⟩ }
  · rintro ⟨⟨src, hsrc, himage, hthumb, horig⟩, hwidth, hheight, halt⟩
    obtain ⟨k, hk⟩ := toIntOr_ok_iff.mpr hwidth
    obtain ⟨k', hk'⟩ := toIntOr_ok_iff.mpr hheight
    obtain ⟨alt, halt⟩ := orNull_asString_ok_iff.mpr halt
    obtain ⟨image, himage⟩ := asString_ok_iff.mpr himage
    obtain ⟨thumb, hthumb⟩ := asString_ok_iff.mpr hthumb
    obtain ⟨orig, horig⟩ := asString_ok_iff.mpr horig
    exact ⟨_, src, asMap_ok_iff.mpr hsrc, k, hk, k', hk', alt, halt, image, himage, thumb, hthumb,
      orig, horig, rfl⟩

theorem photosOf_ok_iff {photos : List Dyn} :
    photosOf v = .ok photos ↔ ∃ m, v = .map m ∧ field "photos" m = .list photos := by
  unfold photosOf
  simp only [bind_eq_ok, index_ok_iff, asList_ok_iff]
  constructor
  · rintro ⟨_, ⟨m, rfl, rfl⟩, h⟩
    exact ⟨m, rfl, h⟩
  · rintro ⟨m, rfl, h⟩
    exact ⟨_, ⟨m, rfl, rfl⟩, h⟩

theorem answer_wallpapers {texts : CallTexts} {describe : DartError → String} {reply : Reply}
    {ws : List Wallpaper} (h : answer texts describe d reply = .wallpapers ws) :
    ∃ data, reply = .response 200 data ∧ pageOf d data = .ok ws := by
  cases reply with
  | dioException type message => cases h
  | response statusCode data =>
    simp only [answer] at h
    split_ifs at h with hs
    split at h
    · next ws' hpage =>
      obtain rfl := Answer.wallpapers.inj h
      exact ⟨data, by rw [hs], hpage⟩
    · cases h

/-- **Which answers give wallpapers**: those whose photos are all well formed. -/
theorem answer_wallpapers_iff (texts : CallTexts) (describe : DartError → String) (d : Device)
    (reply : Reply) : (∃ ws, answer texts describe d reply = .wallpapers ws) ↔
      ∃ m photos, reply = .response 200 (.map m) ∧ field "photos" m = .list photos ∧
        ∀ v ∈ photos, ∃ photo, v = .map photo ∧ WellFormedPhoto photo := by
  constructor
  · rintro ⟨ws, h⟩
    obtain ⟨data, rfl, hpage⟩ := answer_wallpapers h
    obtain ⟨photos, hphotos, hws⟩ := bind_eq_ok.mp hpage
    obtain ⟨m, rfl, hm⟩ := photosOf_ok_iff.mp hphotos
    refine ⟨m, photos, rfl, hm, fun v hv => ?_⟩
    obtain ⟨w, -, hw⟩ := exists_of_forall₂ (mapM_eq_ok.mp hws) v hv
    obtain ⟨photo, hphoto, hw⟩ := bind_eq_ok.mp hw
    exact ⟨photo, asMap_ok_iff.mp hphoto, mapPhoto_ok_iff.mp ⟨w, hw⟩⟩
  · rintro ⟨m, photos, rfl, hm, hphotos⟩
    obtain ⟨ws, hws⟩ := exists_forall₂ (r := fun v w =>
      (do mapPexelsPhotoToWallpaper d (← asMap v)) = Except.ok w) fun v hv => by
        obtain ⟨photo, rfl, hphoto⟩ := hphotos v hv
        exact mapPhoto_ok_iff.mpr hphoto
    have hpage : pageOf d (.map m) = .ok ws :=
      bind_eq_ok.mpr ⟨photos, photosOf_ok_iff.mpr ⟨m, rfl, hm⟩, mapM_eq_ok.mpr hws⟩
    exact ⟨ws, by simp only [answer, if_true, hpage]⟩

end Accepted

/-! ### Through the cache -/

section Cached

variable {D : Doubles Float} {z : Zone} {lower : String → String} {d : Device} {photo : DynMap}
  {data v : Dyn} {ok : Float → Prop} {n k : ℤ} {photos : List Dyn} {ws : List Wallpaper}

theorem isInt64_toIntOr (hn : IsInt64 n) (hv : IsJson ok v) (h : toIntOr n v = .ok k) :
    IsInt64 k := by
  cases hv with
  | null =>
    obtain rfl := Except.ok.inj h
    exact hn
  | int hk =>
    obtain rfl := Except.ok.inj h
    exact hk
  | @double x _ =>
    simp only [toIntOr] at h
    split_ifs at h
    obtain rfl := Except.ok.inj h
    exact ⟨x.toInt64.le_toInt, x.toInt64.toInt_lt⟩
  | _ => cases h

/-- The clock of the device shows times that are read back. -/
def ClockIn (z : Zone) (d : Device) : Prop :=
  ∀ photo, DateIn z (d.createdNow photo) ∧ DateIn z (d.updatedNow photo)

/-- A photo out of a JSON text becomes a wallpaper of the device. -/
theorem photo_onDevice (hclock : ClockIn z d) (hphoto : ∀ e ∈ photo, IsJson ok e.2) :
    Yields (fun w => OnDevice z w ∧ w.source = "pexels" ∧
      w.id = (field "id" photo).text d.doubleText) (mapPexelsPhotoToWallpaper d photo) := by
  unfold mapPexelsPhotoToWallpaper
  refine yields_bind fun src _ => yields_bind fun width hwidth => ?_
  refine yields_bind fun height hheight => ?_
  iterate 4 refine yields_bind fun _ _ => ?_
  have hint : ∀ m : ℤ, 0 ≤ m → m ≤ 2000 → IsInt64 m := fun m h0 h1 => by
    unfold IsInt64
    constructor <;> omega
  have hzero : IsInt64 0 := hint 0 le_rfl (by decide)
  refine yields_return ⟨⟨?_, (hclock photo).1, (hclock photo).2⟩, rfl, rfl⟩
  exact
    { order := hint 1 (by decide) (by decide)
      wallpaperCount := nofun
      width := isInt64_toIntOr (hint 1080 (by decide) (by decide)) (isJson_field hphoto _) hwidth
      height := isInt64_toIntOr (hint 1920 (by decide) (by decide)) (isJson_field hphoto _) hheight
      fileSize := hzero
      downloads := hzero
      likes := hzero
      views := hzero
      price := hzero }

/-- The ids of the photos of an answer. -/
def photoIds (data : Dyn) : List Dyn :=
  match photosOf data with
  | .ok photos => photos.map fun
    | .map photo => field "id" photo
    | _ => .null
  | .error _ => []

theorem toString_injective_int64 {n k : ℤ} (hn : IsInt64 n) (hk : IsInt64 k)
    (h : toString n = toString k) : n = k := by
  have hread := Lib.IntLiteral.tryParse_toString hn
  rw [h, Lib.IntLiteral.tryParse_toString hk] at hread
  exact (Option.some.inj hread).symm

/-- No number is the reserved key. -/
theorem toString_ne_lastUpdateKey (n : ℤ) : toString n ≠ lastUpdateKey.str := by
  intro h
  have hmem : 'l' ∈ (toString n).toList := by
    rw [h]
    decide
  rcases Lib.IntLiteral.mem_toString hmem with h | h <;> revert h <;> decide

theorem isJson_of_list {l : List Dyn} (h : IsJson ok (.list l)) : ∀ v ∈ l, IsJson ok v := by
  cases h with
  | list h => exact h

theorem isJson_of_map {m : DynMap} (h : IsJson ok (.map m)) : ∀ e ∈ m, IsJson ok e.2 := by
  cases h with
  | map _ h => exact h

/-- What a page out of a JSON text is. -/
theorem page_onDevice (hclock : ClockIn z d) (hdata : IsJson ok data)
    (hpage : pageOf d data = .ok ws) :
    ws.map Wallpaper.id = (photoIds data).map (Dyn.text d.doubleText) ∧
      (∀ w ∈ ws, OnDevice z w ∧ w.source = "pexels") ∧ ∀ id ∈ photoIds data, IsJson ok id := by
  obtain ⟨photos, hphotos, hws⟩ := bind_eq_ok.mp hpage
  obtain ⟨m, rfl, hm⟩ := photosOf_ok_iff.mp hphotos
  have hjson : ∀ v ∈ photos, IsJson ok v :=
    isJson_of_list (hm ▸ isJson_field (isJson_of_map hdata) "photos")
  unfold photoIds
  rw [hphotos]
  simp only
  have hall := mapM_eq_ok.mp hws
  clear hws hpage hphotos hm hdata
  induction hall with
  | nil => exact ⟨rfl, List.forall_mem_nil _, List.forall_mem_nil _⟩
  | @cons v w photos ws hw _ ih =>
    obtain ⟨hv, hphotos⟩ := List.forall_mem_cons.mp hjson
    obtain ⟨photo, hphoto, hw⟩ := bind_eq_ok.mp hw
    obtain rfl := asMap_ok_iff.mp hphoto
    obtain ⟨hids, hdevice, hidsJson⟩ := ih hphotos
    obtain ⟨hw, hsource, hid⟩ := photo_onDevice hclock (isJson_of_map hv) w hw
    exact ⟨by simp only [List.map_cons, hid, hids],
      List.forall_mem_cons.mpr ⟨⟨hw, hsource⟩, hdevice⟩,
      List.forall_mem_cons.mpr ⟨isJson_field (isJson_of_map hv) _, hidsJson⟩⟩

/-- **A page comes back from the cache with all its fields**, if its photos have distinct numbers as
ids. -/
theorem page_survives_cache {text : String} (ns : List ℤ) (hclock : ClockIn z d)
    (htext : (deviceCodec D z lower).jsonDecode text = .ok data)
    (hpage : pageOf d data = .ok ws) (hids : photoIds data = ns.map .int) (hn : ns.Nodup)
    (copy : WallpaperCopy) (now : DateTime) (b b₁ b₂ b₃ : Box) :
    (copy.getCached (deviceCodec D z lower)
      (copy.cacheList (deviceCodec D z lower) now ws
        (CacheService.opened b b₁ b₂ b₃))).Perm ws := by
  obtain ⟨hwids, hws, hidsJson⟩ := page_onDevice hclock (jsonDecode_isJson htext) hpage
  rw [hids] at hidsJson hwids
  have hint : ∀ n ∈ ns, IsInt64 n := fun n hmem =>
    isInt64_asInt (hidsJson _ (List.mem_map_of_mem hmem)) rfl
  have htexts : ws.map Wallpaper.id = ns.map toString := by
    rw [hwids, List.map_map]
    rfl
  have hdistinct : (ws.map Wallpaper.id).Nodup :=
    htexts ▸ hn.map_on fun n hmem k hmem' h =>
      toString_injective_int64 (hint n hmem) (hint k hmem') h
  have hunreserved : lastUpdateKey.str ∉ ws.map Wallpaper.id := by
    rw [htexts]
    intro h
    obtain ⟨n, -, hkey⟩ := List.mem_map.mp h
    exact toString_ne_lastUpdateKey n hkey
  have hsame : ws.map fromCache = ws :=
    (List.map_congr_left fun w hw => source_reset_iff.mpr (hws w hw).2).trans (List.map_id _)
  have hcacheable : Cacheable (deviceCodec D z lower) ws :=
    cacheable_of_onDevice hdistinct hunreserved fun w hw => (hws w hw).1
  have hperm := getCached_cacheList_perm hcacheable copy now b b₁ b₂ b₃
  rwa [hsame] at hperm

/-- A photo with its addresses and nothing else. -/
def samplePhoto (id : ℤ) : Dyn :=
  .map [("id", .int id), ("src", .map [("large", .str "https://img/l.jpg"),
    ("medium", .str "https://img/m.jpg"), ("original", .str "https://img/o.jpg")])]

def samplePage : Dyn := .map [("photos", .list [samplePhoto 9, samplePhoto 7])]

/-- A device at the epoch. -/
def sampleEpoch : Device :=
  { sampleDevice with
    createdNow := fun _ => ⟨0, true⟩
    updatedNow := fun _ => ⟨0, true⟩ }

theorem isJson_samplePhoto (hn : IsInt64 n) : IsJson ok (samplePhoto n) := by
  refine .map (by simp) ?_
  simp only [List.forall_mem_cons]
  refine ⟨.int hn, .map (by simp) ?_, List.forall_mem_nil _⟩
  simp only [List.forall_mem_cons]
  exact ⟨.str _, .str _, .str _, List.forall_mem_nil _⟩

theorem isJson_samplePage : IsJson ok samplePage := by
  refine .map (by simp) (List.forall_mem_singleton.mpr (.list ?_))
  simp only [List.forall_mem_cons]
  exact ⟨isJson_samplePhoto ⟨by decide, by decide⟩, isJson_samplePhoto ⟨by decide, by decide⟩,
    List.forall_mem_nil _⟩

theorem sample_page_survives_cache : ∃ ws, pageOf sampleEpoch samplePage = .ok ws ∧
    (WallpaperCopy.pexelsWallpapers.getCached sampleConversions
      (WallpaperCopy.pexelsWallpapers.cacheList sampleConversions ⟨0, true⟩ ws
        emptyCache)).Perm ws :=
  ⟨_, rfl, page_survives_cache (d := sampleEpoch) [9, 7]
    (fun _ => ⟨⟨(by decide : InRange 0), nofun⟩, ⟨(by decide : InRange 0), nofun⟩⟩)
    (readsBackJson isJson_samplePage) rfl rfl (by decide) _ _ _ _ _ _⟩

end Cached

end PixsBliss.Services.PexelsPhotos
