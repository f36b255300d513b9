import PixsBliss.Models.FromFirestore

/-! # Wallpapers out of the local API

`Wallpaper.fromLocalApi` and `Category.fromLocalApi`, cast by cast. So `wallpaper.dart` has three
decoders: `fromJson` asks for nearly every field, the other two have defaults.

* `lenient_decoders`: what `fromJson` accepts, the other two accept, with the same wallpaper but for
  the fields that they set themselves.
* `lenient_invert_iff`: which wallpapers the two give back from `toJson`. -/

namespace PixsBliss.Models

open PixsBliss.Models.Json

def Category.fromLocalApi (d : Device) (json : DynMap) : Result Category := do
  return {
    id := (field "_id" json).text d.doubleText
    name := ← asString (field "name" json)
    slug := ← asString (field "slug" json)
    description := ← orNull asString (field "description" json)
    icon := ← orNull asString (field "icon" json)
    color := (← orNull asString (field "color" json)).getD "#6366f1"
    coverImage := ← orNull asString (field "coverImage" json)
    featured := (← orNull asBool (field "featured" json)).getD false
    order := (← orNull asInt (field "order" json)).getD 0
    wallpaperCount := ← orNull asInt (field "wallpaperCount" json)
    status := (← orNull asString (field "status" json)).getD "active" }

/-- A category is a map. -/
def localCategoryOf (d : Device) : Dyn → Result Category
  | .null => .ok unknownCategory
  | v => do Category.fromLocalApi d (← asMap v)

/-- A date is a text. -/
def localDateOf (c : Codec) (now : DateTime) : Dyn → Result DateTime
  | .null => .ok now
  | v => do c.parseDateTime (← asString v)

/-- The image is at the original address, and both dates are the date of creation. -/
def Wallpaper.fromLocalApi (d : Device) (json : DynMap) : Result Wallpaper := do
  return {
    id := (field "_id" json).text d.doubleText
    title := (← orNull asString (field "title" json)).getD "Untitled"
    description := ← orNull asString (field "description" json)
    imageUrl := ← asString (field "originalUrl" json)
    thumbnailUrl := ← asString (field "thumbnailUrl" json)
    originalUrl := ← asString (field "originalUrl" json)
    category := ← localCategoryOf d (field "category" json)
    tags := ← stringsOf (field "tags" json)
    dimensions := ← dimensionsOf (field "dimensions" json)
    fileSize := (← orNull asInt (field "fileSize" json)).getD 0
    format := "jpg"
    colors := []
    featured := (← orNull asBool (field "featured" json)).getD false
    trending := (← orNull asBool (field "trending" json)).getD false
    downloads := (← orNull asInt (field "downloads" json)).getD 0
    likes := (← orNull asInt (field "likes" json)).getD 0
    views := (← orNull asInt (field "views" json)).getD 0
    status := "active"
    createdAt := ← localDateOf d.codec (d.createdNow json) (field "createdAt" json)
    updatedAt := ← localDateOf d.codec (d.updatedNow json) (field "createdAt" json)
    source := "local"
    isPremium := (← orNull asBool (field "isPremium" json)).getD false
    price := (← orNull asInt (field "price" json)).getD 0 }

/-! ### The three decoders -/

section Decoders

variable {d : Device} {json : DynMap} {cat : Category} {w : Wallpaper}

/-- A category that is read strictly is read the same with the defaults. -/
theorem category_lenient (h : Category.fromJson json = .ok cat) :
    Category.fromFirestore d.codec json = .ok cat ∧ Category.fromLocalApi d json = .ok cat := by
  simp only [Category.fromJson, bind_eq_ok, asString_eq_ok, asInt_eq_ok, asBool_eq_ok] at h
  obtain ⟨id, hid, name, hname, slug, hslug, desc, hdesc, icon, hicon, color, hcolor, cover, hcover,
    featured, hfeatured, order, horder, count, hcount, status, hstatus, hcat⟩ := h
  obtain rfl := Except.ok.inj hcat
  constructor
  · simp [Category.fromFirestore, categoryId, hid, hname, hslug, hdesc, hicon, hcolor, hcover,
      hfeatured, horder, hcount, hstatus, orNull_str]
  · simp [Category.fromLocalApi, Dyn.text, hid, hname, hslug, hdesc, hicon, hcolor, hcover,
      hfeatured, horder, hcount, hstatus, orNull_str]

/-- What `fromFirestore` makes of a wallpaper. -/
def asFirestore (w : Wallpaper) : Wallpaper :=
  { w with originalUrl := w.imageUrl, source := "firestore" }

/-- What `fromLocalApi` makes of a wallpaper. -/
def asLocal (w : Wallpaper) : Wallpaper :=
  { w with
    imageUrl := w.originalUrl
    format := "jpg"
    colors := []
    status := "active"
    updatedAt := w.createdAt
    source := "local" }

/-- The fields of a document that `fromJson` accepts, cast by cast. -/
theorem fromFirestore_of_fromJson (h : Wallpaper.fromJson d.codec json = .ok w) :
    Wallpaper.fromFirestore d json = .ok (asFirestore w) := by
  simp only [Wallpaper.fromJson, bind_eq_ok, asString_eq_ok, asInt_eq_ok, asBool_eq_ok,
    asMap_ok_iff, asList_ok_iff] at h
  obtain ⟨id, hid, title, htitle, desc, hdesc, image, himage, thumb, hthumb, orig, horig, m, hm,
    cat, hcat, tags, htags, tags', htags', dims, hdims, dims', hdims', size, hsize, format, hformat,
    colors, hcolors, colors', hcolors', featured, hfeatured, trending, htrending, downloads,
    hdownloads, likes, hlikes, views, hviews, status, hstatus, created, hcreated, created',
    hcreated', updated, hupdated, updated', hupdated', premium, hpremium, price, hprice, hw⟩ := h
  obtain rfl := Except.ok.inj hw
  have hcategory := (category_lenient (d := d) hcat).1
  simp [Wallpaper.fromFirestore, asFirestore, imageUrlOf, thumbnailUrlOf, categoryOf, stringsOf,
    dimensionsOf, dateOf, isNull, hid, htitle, hdesc, himage, hthumb, hm, hcategory, htags,
    htags', hdims, hdims', hsize, hformat, hcolors, hcolors', hfeatured, htrending, hdownloads,
    hlikes, hviews, hstatus, hcreated, hcreated', hupdated, hupdated', hpremium, hprice, orNull_str]

theorem fromLocalApi_of_fromJson (h : Wallpaper.fromJson d.codec json = .ok w) :
    Wallpaper.fromLocalApi d json = .ok (asLocal w) := by
  simp only [Wallpaper.fromJson, bind_eq_ok, asString_eq_ok, asInt_eq_ok, asBool_eq_ok,
    asMap_ok_iff, asList_ok_iff] at h
  obtain ⟨id, hid, title, htitle, desc, hdesc, image, himage, thumb, hthumb, orig, horig, m, hm,
    cat, hcat, tags, htags, tags', htags', dims, hdims, dims', hdims', size, hsize, format, -,
    colors, -, colors', -, featured, hfeatured, trending, htrending, downloads, hdownloads, likes,
    hlikes, views, hviews, status, -, created, hcreated, created', hcreated', updated, -, updated',
    -, premium, hpremium, price, hprice, hw⟩ := h
  obtain rfl := Except.ok.inj hw
  have hcategory := (category_lenient (d := d) hcat).2
  simp [Wallpaper.fromLocalApi, asLocal, localCategoryOf, localDateOf, stringsOf, dimensionsOf,
    Dyn.text, hid, htitle, hdesc, hthumb, horig, hm, hcategory, htags, htags', hdims, hdims', hsize,
    hfeatured, htrending, hdownloads, hlikes, hviews, hcreated, hcreated', hpremium, hprice,
    orNull_str]

/-- **The lenient decoders extend the strict one**: what `fromJson` accepts, they accept, with the
same wallpaper but for the fields that they set themselves. -/
theorem lenient_decoders (d : Device) (json : DynMap) (w : Wallpaper)
    (h : Wallpaper.fromJson d.codec json = .ok w) :
    Wallpaper.fromFirestore d json = .ok (asFirestore w) ∧
    Wallpaper.fromLocalApi d json = .ok (asLocal w) :=
  ⟨fromFirestore_of_fromJson h, fromLocalApi_of_fromJson h⟩

theorem sample_dates (id source : String) :
    ReadsBackDates sampleDevice.codec (sampleWallpaper id source) := by
  constructor <;> simp [Codec.ReadsBackDate, sampleDevice, sampleCodec, sampleCodec.sampleDates,
    sampleWallpaper]

theorem lenient_sample :
    Wallpaper.fromFirestore sampleDevice
        ((sampleWallpaper "7" "pexels").toJson sampleDevice.codec) =
      .ok (asFirestore (sampleWallpaper "7" "pexels")) ∧
    Wallpaper.fromLocalApi sampleDevice
        ((sampleWallpaper "7" "pexels").toJson sampleDevice.codec) =
      .ok (asLocal (sampleWallpaper "7" "pexels")) :=
  lenient_decoders sampleDevice _ _ (Wallpaper.fromJson_toJson (sample_dates "7" "pexels"))

theorem asFirestore_eq_self_iff :
    asFirestore w = w ↔ w.source = "firestore" ∧ w.originalUrl = w.imageUrl := by
  cases w
  simp only [asFirestore, Wallpaper.mk.injEq, true_and, and_true]
  exact ⟨fun h => ⟨h.2.symm, h.1.symm⟩, fun h => ⟨h.2.symm, h.1.symm⟩⟩

theorem asLocal_eq_self_iff : asLocal w = w ↔
    w.source = "local" ∧ w.imageUrl = w.originalUrl ∧ w.updatedAt = w.createdAt ∧
      w.format = "jpg" ∧ w.colors = [] ∧ w.status = "active" := by
  cases w
  simp only [asLocal, Wallpaper.mk.injEq, true_and, and_true]
  constructor
  · rintro ⟨himage, hformat, hcolors, hstatus, hupdated, hsource⟩
    exact ⟨hsource.symm, himage.symm, hupdated.symm, hformat.symm, hcolors.symm, hstatus.symm⟩
  · rintro ⟨hsource, himage, hupdated, hformat, hcolors, hstatus⟩
    exact ⟨himage.symm, hformat.symm, hcolors.symm, hstatus.symm, hupdated.symm, hsource.symm⟩

/-- **Which wallpapers survive their own JSON map** through the two lenient decoders: those that
have what the decoder sets itself. So none survives both. -/
theorem lenient_invert_iff (d : Device) (w : Wallpaper) (h : ReadsBackDates d.codec w) :
    (Wallpaper.fromFirestore d (w.toJson d.codec) = .ok w ↔
      w.source = "firestore" ∧ w.originalUrl = w.imageUrl) ∧
    (Wallpaper.fromLocalApi d (w.toJson d.codec) = .ok w ↔
      w.source = "local" ∧ w.imageUrl = w.originalUrl ∧ w.updatedAt = w.createdAt ∧
        w.format = "jpg" ∧ w.colors = [] ∧ w.status = "active") := by
  have hjson := Wallpaper.fromJson_toJson h
  have hfirestore : Wallpaper.fromFirestore d (w.toJson d.codec) = .ok (asFirestore w) :=
    (fromFirestore_of_fromJson hjson).trans rfl
  have hlocal : Wallpaper.fromLocalApi d (w.toJson d.codec) = .ok (asLocal w) :=
    (fromLocalApi_of_fromJson hjson).trans rfl
  constructor
  · rw [hfirestore, Except.ok.injEq]
    exact asFirestore_eq_self_iff
  · rw [hlocal, Except.ok.injEq]
    exact asLocal_eq_self_iff

theorem sample_survives_firestore :
    Wallpaper.fromFirestore sampleDevice
        ((sampleWallpaper "7" "firestore").toJson sampleDevice.codec) =
      .ok (sampleWallpaper "7" "firestore") ∧
    Wallpaper.fromLocalApi sampleDevice
        ((sampleWallpaper "7" "firestore").toJson sampleDevice.codec) ≠
      .ok (sampleWallpaper "7" "firestore") := by
  obtain ⟨hfirestore, hlocal⟩ := lenient_invert_iff sampleDevice (sampleWallpaper "7" "firestore")
    (sample_dates "7" "firestore")
  exact ⟨hfirestore.mpr ⟨rfl, rfl⟩, fun h => absurd (hlocal.mp h).1 (by decide)⟩

end Decoders

end PixsBliss.Models
