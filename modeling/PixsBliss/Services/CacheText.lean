import PixsBliss.Lib.JsonText
import PixsBliss.Services.CacheAge
import PixsBliss.Services.CacheContents
import PixsBliss.Services.CacheWriters

/-! # The texts of a copy

`Codec` leaves open what the texts of the cache look like. Here they are the ones the device writes:
JSON texts with dates of ISO 8601 in its zone.

* `readsBack_wallpaper`: the device reads back a wallpaper with integers of 64 bits and with dates
  that are read back.
* `device_copy_perm`: so it reads back a list of them.
* `recached_copy_perm`: caching what was read from a box, whatever its texts are, gives it again.
* `hasCached_right_iff`: when `hasCachedData` says whether there is something to read. -/

namespace PixsBliss.Services.CacheText

open PixsBliss.Lib.Entries PixsBliss.Lib.Iso8601 PixsBliss.Lib.JsonText PixsBliss.Lib.Store
open PixsBliss.Models PixsBliss.Models.Json
open PixsBliss.Services.Cache PixsBliss.Services.CacheAge PixsBliss.Services.CacheContents
open PixsBliss.Services.CacheWriters

/-! ### Dynamic values -/

mutual

/-- The JSON value of a dynamic one; there is none of a timestamp. -/
def jsonOf : Dyn → Option (Json Float)
  | .null => some .null
  | .bool b => some (.bool b)
  | .int n => some (.int n)
  | .double x => some (.double x)
  | .str s => some (.str s)
  | .timestamp _ => none
  | .list l => (jsonOfItems l).map .list
  | .map m => (jsonOfEntries m).map .map

def jsonOfItems : List Dyn → Option (List (Json Float))
  | [] => some []
  | v :: l => (jsonOf v).bind fun j => (jsonOfItems l).map fun js => j :: js

def jsonOfEntries : List (String × Dyn) → Option (List (String × Json Float))
  | [] => some []
  | (k, v) :: m => (jsonOf v).bind fun j => (jsonOfEntries m).map fun js => (k, j) :: js

end

mutual

/-- The dynamic value of a JSON one. -/
def dynOf : Json Float → Dyn
  | .null => .null
  | .bool b => .bool b
  | .int n => .int n
  | .double x => .double x
  | .str s => .str s
  | .list l => .list (dynOfItems l)
  | .map m => .map (dynOfEntries m)

def dynOfItems : List (Json Float) → List Dyn
  | [] => []
  | j :: l => dynOf j :: dynOfItems l

def dynOfEntries : List (String × Json Float) → List (String × Dyn)
  | [] => []
  | (k, j) :: m => (k, dynOf j) :: dynOfEntries m

end

/-- **The conversions of the device.** `jsonEncode` throws on a value with a timestamp; the records
of the app have none. -/
def deviceCodec (D : Doubles Float) (z : Zone) (toLowerCase : String → String) : Codec :=
  codecIn
    { jsonEncode := fun v =>
        match jsonOf v with
        | some j => String.ofList (write D j)
        | none => ""
      jsonDecode := fun text =>
        match read D text.toList with
        | some j => .ok (dynOf j)
        | none => .error .formatException
      toIso8601String := fun _ => ""
      parseDateTime := fun _ => .error .formatException
      toLowerCase := toLowerCase } z

/-- A value that JSON can hold: its keys are distinct, its integers have 64 bits, and its doubles
satisfy `ok`. -/
inductive IsJson (ok : Float → Prop) : Dyn → Prop
  | null : IsJson ok .null
  | bool (b : Bool) : IsJson ok (.bool b)
  | int {n : ℤ} (h : -2 ^ 63 ≤ n ∧ n < 2 ^ 63) : IsJson ok (.int n)
  | double {x : Float} (h : ok x) : IsJson ok (.double x)
  | str (s : String) : IsJson ok (.str s)
  | list {l : List Dyn} (h : ∀ v ∈ l, IsJson ok v) : IsJson ok (.list l)
  | map {m : DynMap} (hkeys : (m.map Prod.fst).Nodup) (h : ∀ e ∈ m, IsJson ok e.2) :
    IsJson ok (.map m)

section Values

variable {ok : Float → Prop} {l : List Dyn} {m : DynMap}

theorem exists_jsonOfItems (h : ∀ v ∈ l, ∃ j, jsonOf v = some j ∧ Good ok j ∧ dynOf j = v) :
    ∃ js, jsonOfItems l = some js ∧ (∀ j ∈ js, Good ok j) ∧ dynOfItems js = l := by
  induction l with
  | nil => exact ⟨[], rfl, nofun, rfl⟩
  | cons v l ih =>
    obtain ⟨j, hj, hgood, hdyn⟩ := h v List.mem_cons_self
    obtain ⟨js, hjs, hgoods, hdyns⟩ := ih fun v hv => h v (List.mem_cons_of_mem _ hv)
    refine ⟨j :: js, ?_, List.forall_mem_cons.mpr ⟨hgood, hgoods⟩, ?_⟩
    · simp [jsonOfItems, hj, hjs]
    · simp [dynOfItems, hdyn, hdyns]

theorem exists_jsonOfEntries
    (h : ∀ e ∈ m, ∃ j, jsonOf e.2 = some j ∧ Good ok j ∧ dynOf j = e.2) :
    ∃ js, jsonOfEntries m = some js ∧ js.map Prod.fst = m.map Prod.fst ∧
      (∀ e ∈ js, Good ok e.2) ∧ dynOfEntries js = m := by
  induction m with
  | nil => exact ⟨[], rfl, rfl, nofun, rfl⟩
  | cons e m ih =>
    obtain ⟨j, hj, hgood, hdyn⟩ := h e List.mem_cons_self
    obtain ⟨js, hjs, hkeys, hgoods, hdyns⟩ := ih fun e he => h e (List.mem_cons_of_mem _ he)
    refine ⟨(e.1, j) :: js, ?_, ?_, List.forall_mem_cons.mpr ⟨hgood, hgoods⟩, ?_⟩
    · simp [jsonOfEntries, hj, hjs]
    · simp [hkeys]
    · simp [dynOfEntries, hdyn, hdyns]

/-- A value that JSON can hold has a JSON value, and is the value of it. -/
theorem exists_jsonOf {v : Dyn} (h : IsJson ok v) :
    ∃ j, jsonOf v = some j ∧ Good ok j ∧ dynOf j = v := by
  induction h with
  | null => exact ⟨.null, rfl, .null, rfl⟩
  | bool b => exact ⟨.bool b, rfl, .bool b, rfl⟩
  | int h => exact ⟨.int _, rfl, .int h, rfl⟩
  | double h => exact ⟨.double _, rfl, .double h, rfl⟩
  | str s => exact ⟨.str s, rfl, .str s, rfl⟩
  | list h ih =>
    obtain ⟨js, hjs, hgood, hdyn⟩ := exists_jsonOfItems ih
    exact ⟨.list js, by simp [jsonOf, hjs], .list hgood, by simp [dynOf, hdyn]⟩
  | map hkeys h ih =>
    obtain ⟨js, hjs, hjkeys, hgood, hdyn⟩ := exists_jsonOfEntries ih
    exact ⟨.map js, by simp [jsonOf, hjs], .map (hjkeys ▸ hkeys) hgood, by simp [dynOf, hdyn]⟩

theorem isJson_dynOfItems {js : List (Json Float)} (h : ∀ j ∈ js, IsJson ok (dynOf j)) :
    ∀ v ∈ dynOfItems js, IsJson ok v := by
  induction js with
  | nil => nofun
  | cons j js ih =>
    exact List.forall_mem_cons.mpr
      ⟨h j List.mem_cons_self, ih fun j hj => h j (List.mem_cons_of_mem _ hj)⟩

theorem isJson_dynOfEntries {js : List (String × Json Float)}
    (h : ∀ e ∈ js, IsJson ok (dynOf e.2)) :
    (dynOfEntries js).map Prod.fst = js.map Prod.fst ∧ ∀ e ∈ dynOfEntries js, IsJson ok e.2 := by
  induction js with
  | nil => exact ⟨rfl, nofun⟩
  | cons e js ih =>
    obtain ⟨hkeys, hjson⟩ := ih fun e he => h e (List.mem_cons_of_mem _ he)
    exact ⟨congrArg (e.1 :: ·) hkeys, List.forall_mem_cons.mpr ⟨h e List.mem_cons_self, hjson⟩⟩

theorem isJson_dynOf {j : Json Float} (h : Good ok j) : IsJson ok (dynOf j) := by
  induction h with
  | null => exact .null
  | bool b => exact .bool b
  | int h => exact .int h
  | double h => exact .double h
  | str s => exact .str s
  | list h ih => exact .list (isJson_dynOfItems ih)
  | map hkeys h ih =>
    obtain ⟨hk, hjson⟩ := isJson_dynOfEntries ih
    exact .map (hk ▸ hkeys) hjson

theorem isJson_field (h : ∀ e ∈ m, IsJson ok e.2) (key : String) : IsJson ok (field key m) := by
  induction m with
  | nil => exact .null
  | cons e m ih =>
    obtain ⟨k, v⟩ := e
    rw [field]
    split_ifs
    · exact h (k, v) List.mem_cons_self
    · exact ih fun e he => h e (List.mem_cons_of_mem _ he)

end Values

/-! ### Wallpapers -/

/-- An `int` of the device. -/
def IsInt64 (n : ℤ) : Prop := -2 ^ 63 ≤ n ∧ n < 2 ^ 63

/-- The integers of a wallpaper have 64 bits. -/
structure IntFields (w : Wallpaper) : Prop where
  order : IsInt64 w.category.order
  wallpaperCount : ∀ n ∈ w.category.wallpaperCount, IsInt64 n
  width : IsInt64 w.dimensions.width
  height : IsInt64 w.dimensions.height
  fileSize : IsInt64 w.fileSize
  downloads : IsInt64 w.downloads
  likes : IsInt64 w.likes
  views : IsInt64 w.views
  price : IsInt64 w.price

/-- A date that is read back in a zone: it is in UTC, or its local time comes once. -/
structure DateIn (z : Zone) (d : DateTime) : Prop where
  range : InRange d.microsecondsSinceEpoch
  once : d.isUtc = false → ∀ t, t + z.offset t =
    d.microsecondsSinceEpoch + z.offset d.microsecondsSinceEpoch → t = d.microsecondsSinceEpoch

/-- **A wallpaper of the device.** -/
structure OnDevice (z : Zone) (w : Wallpaper) : Prop where
  ints : IntFields w
  created : DateIn z w.createdAt
  updated : DateIn z w.updatedAt

section Wallpapers

variable {D : Doubles Float} {z : Zone} {lower : String → String} {w : Wallpaper} {c : Codec}
  {ok : Float → Prop}

theorem isJson_strings (l : List String) : IsJson ok (.list (l.map .str)) :=
  .list fun v hv => by
    obtain ⟨s, -, rfl⟩ := List.mem_map.mp hv
    exact .str s

theorem isJson_ofOption_str (s : Option String) : IsJson ok (ofOption .str s) := by
  cases s with
  | none => exact .null
  | some s => exact .str s

theorem isJson_category {cat : Category} (ho : IsInt64 cat.order)
    (hc : ∀ n ∈ cat.wallpaperCount, IsInt64 n) : IsJson ok (.map cat.toJson) := by
  have hkeys : (cat.toJson.map Prod.fst).Nodup := by
    show ["_id", "name", "slug", "description", "icon", "color", "coverImage", "featured", "order",
      "wallpaperCount", "status"].Nodup
    decide
  have hcount : IsJson ok (ofOption .int cat.wallpaperCount) := by
    cases h : cat.wallpaperCount with
    | none => exact .null
    | some n => exact .int (hc n h)
  refine .map hkeys ?_
  simp only [Category.toJson, List.forall_mem_cons]
  exact ⟨.str _, .str _, .str _, isJson_ofOption_str _, isJson_ofOption_str _, .str _,
    isJson_ofOption_str _, .bool _, .int ho, hcount, .str _, List.forall_mem_nil _⟩

theorem isJson_wallpaper (h : IntFields w) : IsJson ok (.map (w.toJson c)) := by
  have hkeys : ((w.toJson c).map Prod.fst).Nodup := by
    show ["_id", "title", "description", "imageUrl", "thumbnailUrl", "originalUrl", "category",
      "tags", "dimensions", "fileSize", "format", "colors", "featured", "trending", "downloads",
      "likes", "views", "status", "createdAt", "updatedAt", "isPremium", "price"].Nodup
    decide
  have hdimensions : IsJson ok (.map w.dimensions.toJson) := by
    have hk : (w.dimensions.toJson.map Prod.fst).Nodup := by
      show ["width", "height"].Nodup
      decide
    exact .map hk (by simpa [Dimensions.toJson] using ⟨.int h.width, .int h.height⟩)
  refine .map hkeys ?_
  simp only [Wallpaper.toJson, List.forall_mem_cons]
  exact ⟨.str _, .str _, isJson_ofOption_str _, .str _, .str _, .str _,
    isJson_category h.order h.wallpaperCount, isJson_strings _, hdimensions, .int h.fileSize,
    .str _, isJson_strings _, .bool _, .bool _, .int h.downloads, .int h.likes, .int h.views,
    .str _, .str _, .str _, .bool _, .int h.price, List.forall_mem_nil _⟩

theorem readsBackJson {v : Dyn} (h : IsJson D.ReadsBack v) :
    (deviceCodec D z lower).ReadsBackJson v := by
  obtain ⟨j, hj, hgood, hdyn⟩ := exists_jsonOf h
  unfold Codec.ReadsBackJson
  simp only [deviceCodec, codecIn, hj, String.toList_ofList, read_write hgood, hdyn]

/-- **The device reads back its wallpapers.** -/
theorem readsBack_wallpaper (h : OnDevice z w) : ReadsBack (deviceCodec D z lower) w where
  json := readsBackJson (isJson_wallpaper h.ints)
  dates := ⟨readsBackDate _ z _ h.created.range h.created.once,
    readsBackDate _ z _ h.updated.range h.updated.once⟩

end Wallpapers

/-! ### What is decoded -/

section Decoded

variable {D : Doubles Float} {z : Zone} {lower : String → String} {c : Codec}
  {ok : Float → Prop} {m : DynMap} {key : String}

theorem isInt64_asInt {v : Dyn} {n : ℤ} (hv : IsJson ok v) (h : asInt v = .ok n) : IsInt64 n := by
  cases hv with
  | int hn =>
    obtain rfl := Except.ok.inj h
    exact hn
  | _ => cases h

theorem isInt64_orNull {v : Dyn} {o : Option ℤ} (hv : IsJson ok v) (h : orNull asInt v = .ok o) :
    ∀ n ∈ o, IsInt64 n := by
  cases hv with
  | null =>
    obtain rfl := Except.ok.inj h
    nofun
  | int hn =>
    obtain rfl := Except.ok.inj h
    rintro n ⟨⟩
    exact hn
  | _ => cases h

theorem isInt64_getD {o : Option ℤ} (h : ∀ n ∈ o, IsInt64 n) : IsInt64 (o.getD 0) := by
  cases o with
  | none => exact ⟨by decide, by decide⟩
  | some n => exact h n rfl

theorem isJson_of_asMap {v : Dyn} (hv : IsJson ok v) (h : asMap v = .ok m) :
    ∀ e ∈ m, IsJson ok e.2 := by
  cases hv with
  | map _ hm =>
    obtain rfl := Except.ok.inj h
    exact hm
  | _ => cases h

theorem category_intFields (hm : ∀ e ∈ m, IsJson ok e.2) :
    Yields (fun cat => IsInt64 cat.order ∧ ∀ n ∈ cat.wallpaperCount, IsInt64 n)
      (Category.fromJson m) := by
  unfold Category.fromJson
  iterate 8 refine yields_bind fun _ _ => ?_
  refine yields_bind fun order horder => yields_bind fun count hcount => ?_
  refine yields_bind fun _ _ => yields_return ?_
  exact ⟨isInt64_asInt (isJson_field hm _) horder, isInt64_orNull (isJson_field hm _) hcount⟩

theorem dimensions_intFields (hm : ∀ e ∈ m, IsJson ok e.2) :
    Yields (fun d => IsInt64 d.width ∧ IsInt64 d.height) (Dimensions.fromJson m) := by
  unfold Dimensions.fromJson
  refine yields_bind fun width hwidth => yields_bind fun height hheight => yields_return ?_
  exact ⟨isInt64_asInt (isJson_field hm _) hwidth, isInt64_asInt (isJson_field hm _) hheight⟩

/-- The integers of a decoded wallpaper are those of the text. -/
theorem fromJson_intFields (hm : ∀ e ∈ m, IsJson ok e.2) :
    Yields (fun w => IntFields w ∧ w.source = "pexels") (Wallpaper.fromJson c m) := by
  unfold Wallpaper.fromJson
  iterate 6 refine yields_bind fun _ _ => ?_
  refine yields_bind fun cm hcm => yields_bind fun cat hcat => ?_
  iterate 2 refine yields_bind fun _ _ => ?_
  refine yields_bind fun dm hdm => yields_bind fun dims hdims => ?_
  refine yields_bind fun fileSize hsize => ?_
  iterate 5 refine yields_bind fun _ _ => ?_
  refine yields_bind fun downloads hdown => yields_bind fun likes hlikes => ?_
  refine yields_bind fun views hviews => ?_
  iterate 6 refine yields_bind fun _ _ => ?_
  refine yields_bind fun price hprice => yields_return ⟨?_, rfl⟩
  have hfield := isJson_field hm
  obtain ⟨horder, hcount⟩ := category_intFields (isJson_of_asMap (hfield _) hcm) cat hcat
  obtain ⟨hwidth, hheight⟩ := dimensions_intFields (isJson_of_asMap (hfield _) hdm) dims hdims
  exact
    { order := horder
      wallpaperCount := hcount
      width := hwidth
      height := hheight
      fileSize := isInt64_asInt (hfield _) hsize
      downloads := isInt64_asInt (hfield _) hdown
      likes := isInt64_asInt (hfield _) hlikes
      views := isInt64_asInt (hfield _) hviews
      price := isInt64_getD (isInt64_orNull (hfield _) hprice) }

theorem jsonDecode_isJson {text : String} {v : Dyn}
    (h : (deviceCodec D z lower).jsonDecode text = .ok v) : IsJson (fun _ => True) v := by
  simp only [deviceCodec, codecIn] at h
  split at h
  · next j hj =>
    obtain rfl := Except.ok.inj h
    exact isJson_dynOf (wellFormed_of_read hj)
  · cases h

/-- **A wallpaper that is decoded** has integers of 64 bits, whatever the text is. -/
theorem decodeWallpaper_intFields (text : String) :
    Yields (fun w => IntFields w ∧ w.source = "pexels")
      (decodeWallpaper (deviceCodec D z lower) text) :=
  yields_bind fun _ hv => yields_bind fun _ hm =>
    fromJson_intFields (isJson_of_asMap (jsonDecode_isJson hv) hm)

end Decoded

/-! ### Whole copies -/

section Copies

variable {D : Doubles Float} {z : Zone} {lower : String → String} {ws : List Wallpaper}

/-- A list whose texts are read back is given back by its copy. -/
theorem getCached_cacheList_perm {c : Codec} (hws : Cacheable c ws) (k : WallpaperCopy)
    (now : DateTime) (b b₁ b₂ b₃ : Box) :
    (k.getCached c (k.cacheList c now ws (CacheService.opened b b₁ b₂ b₃))).Perm
      (ws.map fromCache) := by
  obtain ⟨box, hbox⟩ : ∃ box, k.box (CacheService.opened b b₁ b₂ b₃) = some box := by
    cases k <;> exact ⟨_, rfl⟩
  rw [WallpaperCopy.getCached_eq, WallpaperCopy.cacheList_eq, WallpaperCopy.box_withBox, hbox]
  exact readCopy_perm_of_agree hws now box fun _ _ => rfl

theorem cacheable_of_onDevice (hd : (ws.map Wallpaper.id).Nodup)
    (hu : lastUpdateKey.str ∉ ws.map Wallpaper.id) (hws : ∀ w ∈ ws, OnDevice z w) :
    Cacheable (deviceCodec D z lower) ws :=
  ⟨hd, hu, fun w hw => readsBack_wallpaper (hws w hw)⟩

/-- **The device reads back a list it caches.** -/
theorem device_copy_perm (D : Doubles Float) (lower : String → String)
    (hd : (ws.map Wallpaper.id).Nodup) (hu : lastUpdateKey.str ∉ ws.map Wallpaper.id)
    (hws : ∀ w ∈ ws, OnDevice z w) (k : WallpaperCopy) (now : DateTime) (b b₁ b₂ b₃ : Box) :
    (k.getCached (deviceCodec D z lower)
      (k.cacheList (deviceCodec D z lower) now ws (CacheService.opened b b₁ b₂ b₃))).Perm
        (ws.map fromCache) :=
  getCached_cacheList_perm (cacheable_of_onDevice hd hu hws) k now b b₁ b₂ b₃

section Sample

/-- A zone without summer time, half past five ahead of UTC. -/
def sampleZone : Zone := Zone.fixed 19800000000 (by decide)

/-- Doubles whose texts do not matter. -/
def sampleDoubles : Doubles Float := ⟨fun _ => "0.0".toList, fun _ => 0⟩

theorem sample_onDevice (id source : String) : OnDevice sampleZone (sampleWallpaper id source) where
  ints := by
    refine ⟨?_, nofun, ?_, ?_, ?_, ?_, ?_, ?_, ?_⟩ <;> norm_num [IsInt64, sampleWallpaper]
  created := ⟨(by decide : InRange 0), nofun⟩
  updated := ⟨(by decide : InRange 0), nofun⟩

/-- The conversions in that zone. -/
def sampleConversions : Codec := deviceCodec sampleDoubles sampleZone String.toLower

theorem sample_copy_perm :
    (WallpaperCopy.pexelsWallpapers.getCached sampleConversions
      (WallpaperCopy.pexelsWallpapers.cacheList sampleConversions (now ⟨0, by decide⟩)
        [sampleWallpaper "8" "firestore", sampleWallpaper "7" "pexels"] emptyCache)).Perm
      [sampleWallpaper "8" "pexels", sampleWallpaper "7" "pexels"] :=
  device_copy_perm sampleDoubles String.toLower (by decide) (by decide)
    (List.forall_mem_cons.mpr ⟨sample_onDevice "8" "firestore",
      List.forall_mem_singleton.mpr (sample_onDevice "7" "pexels")⟩) _ _ _ _ _ _

end Sample

/-- Every record of a copy is decoded from a text of the box. -/
theorem mem_readKeys {α : Type} {kind : CopyKind α} {c : Codec} {b : Box} {P : α → Prop}
    (h : ∀ text, Yields P (kind.decode c text)) : ∀ keys, Yields (fun l => ∀ a ∈ l, P a)
      (readKeys kind c b keys)
  | [] => by
    rintro l ⟨⟩
    nofun
  | key :: keys => by
    unfold readKeys
    split_ifs
    · exact mem_readKeys h keys
    · split
      · exact mem_readKeys h keys
      · exact yields_bind fun a ha => yields_bind fun l hl =>
          yields_return (List.forall_mem_cons.mpr ⟨h _ a ha, mem_readKeys h keys l hl⟩)

theorem mem_readCopy {α : Type} {kind : CopyKind α} {c : Codec} {P : α → Prop}
    (h : ∀ text, Yields P (kind.decode c text)) :
    ∀ box : Option Box, ∀ a ∈ readCopy kind c box, P a := by
  intro box
  cases box with
  | none => exact List.forall_mem_nil _
  | some b =>
    simp only [readCopy]
    split
    · next l hl => exact mem_readKeys h _ l hl
    · exact List.forall_mem_nil _

/-- **What a box gives is a copy**: if the ids are distinct and the dates can be written, caching it
again gives it again. -/
theorem recached_copy_perm {s : CacheService} (k : WallpaperCopy) (now : DateTime)
    (b b₁ b₂ b₃ : Box)
    (hd : ((k.getCached (deviceCodec D z lower) s).map Wallpaper.id).Nodup)
    (hu : lastUpdateKey.str ∉ (k.getCached (deviceCodec D z lower) s).map Wallpaper.id)
    (hdates : ∀ w ∈ k.getCached (deviceCodec D z lower) s,
      DateIn z w.createdAt ∧ DateIn z w.updatedAt) :
    (k.getCached (deviceCodec D z lower)
      (k.cacheList (deviceCodec D z lower) now (k.getCached (deviceCodec D z lower) s)
        (CacheService.opened b b₁ b₂ b₃))).Perm (k.getCached (deviceCodec D z lower) s) := by
  have hread : ∀ w ∈ k.getCached (deviceCodec D z lower) s,
      IntFields w ∧ w.source = "pexels" := by
    rw [WallpaperCopy.getCached_eq]
    exact mem_readCopy decodeWallpaper_intFields _
  have hsame : (k.getCached (deviceCodec D z lower) s).map fromCache =
      k.getCached (deviceCodec D z lower) s :=
    (List.map_congr_left fun w hw => source_reset_iff.mpr (hread w hw).2).trans (List.map_id _)
  have hcacheable : Cacheable (deviceCodec D z lower) (k.getCached (deviceCodec D z lower) s) :=
    cacheable_of_onDevice hd hu fun w hw => ⟨(hread w hw).1, (hdates w hw).1, (hdates w hw).2⟩
  have hperm := getCached_cacheList_perm hcacheable k now b b₁ b₂ b₃
  rwa [hsame] at hperm

section Sample

/-- A cache with the copy of one wallpaper. -/
def sampleCache : CacheService :=
  WallpaperCopy.wallpapers.cacheList sampleConversions (now ⟨0, by decide⟩)
    [sampleWallpaper "7" "firestore"] emptyCache

theorem getCached_sampleCache :
    WallpaperCopy.wallpapers.getCached sampleConversions sampleCache =
      [sampleWallpaper "7" "pexels"] :=
  List.perm_singleton.mp (getCached_cacheList_perm (cacheable_of_onDevice (by decide) (by decide)
    (List.forall_mem_singleton.mpr (sample_onDevice "7" "firestore"))) _ _ _ _ _ _)

theorem sample_recached_perm :
    (WallpaperCopy.wallpapers.getCached sampleConversions
      (WallpaperCopy.wallpapers.cacheList sampleConversions (now ⟨hour, by decide⟩)
        (WallpaperCopy.wallpapers.getCached sampleConversions sampleCache) emptyCache)).Perm
      (WallpaperCopy.wallpapers.getCached sampleConversions sampleCache) := by
  have hids : (WallpaperCopy.wallpapers.getCached sampleConversions sampleCache).map Wallpaper.id =
      ["7"] := by
    rw [getCached_sampleCache]
    rfl
  have hdevice := sample_onDevice "7" "pexels"
  refine recached_copy_perm .wallpapers (now ⟨hour, by decide⟩) _ _ _ _ ?_ ?_ ?_
  · exact hids ▸ List.nodup_singleton "7"
  · exact hids ▸ by decide
  · intro w hw
    rw [show WallpaperCopy.wallpapers.getCached (deviceCodec _ _ _) sampleCache =
      [sampleWallpaper "7" "pexels"] from getCached_sampleCache] at hw
    obtain rfl := List.mem_singleton.mp hw
    exact ⟨hdevice.created, hdevice.updated⟩

end Sample

/-! ### Whether there is a copy -/

/-- `hasCachedData`, `hasCachedPexelsData`, `hasCachedPexelsTrendingData`. -/
def hasCached : WallpaperCopy → CacheService → Bool
  | .wallpapers, s => s.hasCachedData
  | .pexelsWallpapers, s => s.hasCachedPexelsData
  | .pexelsTrendingWallpapers, s => s.hasCachedPexelsTrendingData

theorem hasCached_eq (k : WallpaperCopy) (s : CacheService) :
    hasCached k s = hasCopy (k.box s) := by
  cases k <;> rfl

/-- **When `hasCachedData` is right** about a box that writes have filled, completely or not:
always, but for a box with one record and no stamp. -/
theorem hasCached_right_iff (D : Doubles Float) (z : Zone) (lower : String → String)
    (k : WallpaperCopy) (s : CacheService) (b : Box) (hb : k.box s = some b)
    (h : Holds wallpaperKind (deviceCodec D z lower) (OnDevice z) b) :
    (hasCached k s = true ↔ k.getCached (deviceCodec D z lower) s ≠ []) ↔
      lastUpdateKey ∈ b.keys ∨ b.keys.length ≠ 1 := by
  have hret : Returns wallpaperKind (deviceCodec D z lower) (OnDevice z) (OnDevice z) := by
    intro w hw
    have hfrom : OnDevice z (fromCache w) := by
      obtain ⟨⟨ho, hc, hwd, hh, hf, hdl, hl, hv, hp⟩, hcreated, hupdated⟩ := hw
      exact ⟨⟨ho, hc, hwd, hh, hf, hdl, hl, hv, hp⟩, hcreated, hupdated⟩
    exact ⟨fromCache w, decodeWallpaper_encodeWallpaper (readsBack_wallpaper hw), rfl, hfrom⟩
  rw [hasCached_eq, WallpaperCopy.getCached_eq, hb]
  exact hasCopy_iff hret rfl h

section Sample

/-- A box after the first record of a write. -/
def firstRecord : Box :=
  SortedStore.empty.put ⟨"7"⟩ (encodeWallpaper sampleConversions (sampleWallpaper "7" "firestore"))

/-- After the first record there is something to read, and `hasCachedData` denies it. -/
theorem hasCached_wrong_after_first :
    ¬(hasCached .wallpapers (.opened firstRecord .empty .empty .empty) = true ↔
      WallpaperCopy.wallpapers.getCached sampleConversions
        (.opened firstRecord .empty .empty .empty) ≠ []) := by
  have hholds : Holds wallpaperKind sampleConversions (OnDevice sampleZone) firstRecord :=
    holds_apply ⟨0, true⟩ (.put (sample_onDevice "7" "firestore")) holds_empty
  intro h
  have hkeys := (hasCached_right_iff sampleDoubles sampleZone String.toLower .wallpapers _ _ rfl
    hholds).mp h
  revert hkeys
  decide

end Sample

end Copies

end PixsBliss.Services.CacheText
