import PixsBliss.Models.Json

/-! # Wallpapers and categories

The three records of `wallpaper.dart` with their JSON codecs, field by field as the source writes
them, and `props`, the list Equatable compares.

`Wallpaper.toJson` has 22 of the 23 fields: `source` is not written, and `fromJson` leaves it to the
constructor's default. So a decoded wallpaper is the encoded one with `source` reset
(`Wallpaper.fromJson_toJson`), while the codecs of `Category` and `Dimensions` are exact
(`Category.fromJson_toJson`, `Dimensions.fromJson_toJson`). -/

namespace PixsBliss.Models

open PixsBliss.Models.Json

/-! ### The records -/

structure Dimensions where
  width : ℤ
  height : ℤ
deriving DecidableEq

structure Category where
  id : String
  name : String
  slug : String
  description : Option String
  icon : Option String
  color : String
  coverImage : Option String
  featured : Bool
  order : ℤ
  wallpaperCount : Option ℤ
  status : String
deriving DecidableEq

/-- A wallpaper. The constructor's defaults are `source = 'pexels'`, `isPremium = false` and
`price = 0`. -/
structure Wallpaper where
  id : String
  title : String
  description : Option String
  imageUrl : String
  thumbnailUrl : String
  originalUrl : String
  category : Category
  tags : List String
  dimensions : Dimensions
  fileSize : ℤ
  format : String
  colors : List String
  featured : Bool
  trending : Bool
  downloads : ℤ
  likes : ℤ
  views : ℤ
  status : String
  createdAt : DateTime
  updatedAt : DateTime
  source : String := "pexels"
  isPremium : Bool := false
  price : ℤ := 0
deriving DecidableEq

/-! ### Equality of the class -/

/-- An entry of `props`; a nested Equatable is compared by its own `props`. -/
inductive PropValue
  | str (s : String)
  | optStr (s : Option String)
  | int (n : ℤ)
  | optInt (n : Option ℤ)
  | bool (b : Bool)
  | strings (l : List String)
  | date (d : DateTime)
  | equatable (props : List PropValue)

def Dimensions.props (d : Dimensions) : List PropValue := [.int d.width, .int d.height]

def Category.props (c : Category) : List PropValue :=
  [.str c.id, .str c.name, .str c.slug, .optStr c.description, .optStr c.icon, .str c.color,
    .optStr c.coverImage, .bool c.featured, .int c.order, .optInt c.wallpaperCount, .str c.status]

/-- The 23 entries. -/
def Wallpaper.props (w : Wallpaper) : List PropValue :=
  [.str w.id, .str w.title, .optStr w.description, .str w.imageUrl, .str w.thumbnailUrl,
    .str w.originalUrl, .equatable w.category.props, .strings w.tags, .equatable w.dimensions.props,
    .int w.fileSize, .str w.format, .strings w.colors, .bool w.featured, .bool w.trending,
    .int w.downloads, .int w.likes, .int w.views, .str w.status, .date w.createdAt,
    .date w.updatedAt, .str w.source, .bool w.isPremium, .int w.price]

theorem Dimensions.props_inj {d d' : Dimensions} : d.props = d'.props ↔ d = d' := by
  cases d; cases d'; simp [Dimensions.props]

theorem Category.props_inj {c c' : Category} : c.props = c'.props ↔ c = c' := by
  cases c; cases c'; simp [Category.props]

/-- Every field is compared. -/
theorem Wallpaper.props_inj {w w' : Wallpaper} : w.props = w'.props ↔ w = w' := by
  cases w; cases w'; simp [Wallpaper.props, Category.props_inj, Dimensions.props_inj]

/-! ### The codecs -/

def Dimensions.toJson (d : Dimensions) : DynMap :=
  [("width", .int d.width), ("height", .int d.height)]

def Dimensions.fromJson (json : DynMap) : Result Dimensions := do
  return {
    width := ← asInt (field "width" json)
    height := ← asInt (field "height" json) }

def Category.toJson (c : Category) : DynMap :=
  [("_id", .str c.id), ("name", .str c.name), ("slug", .str c.slug),
    ("description", ofOption .str c.description), ("icon", ofOption .str c.icon),
    ("color", .str c.color), ("coverImage", ofOption .str c.coverImage),
    ("featured", .bool c.featured), ("order", .int c.order),
    ("wallpaperCount", ofOption .int c.wallpaperCount), ("status", .str c.status)]

def Category.fromJson (json : DynMap) : Result Category := do
  return {
    id := ← asString (field "_id" json)
    name := ← asString (field "name" json)
    slug := ← asString (field "slug" json)
    description := ← orNull asString (field "description" json)
    icon := ← orNull asString (field "icon" json)
    color := ← asString (field "color" json)
    coverImage := ← orNull asString (field "coverImage" json)
    featured := ← asBool (field "featured" json)
    order := ← asInt (field "order" json)
    wallpaperCount := ← orNull asInt (field "wallpaperCount" json)
    status := ← asString (field "status" json) }

def Wallpaper.toJson (c : Codec) (w : Wallpaper) : DynMap :=
  [("_id", .str w.id), ("title", .str w.title), ("description", ofOption .str w.description),
    ("imageUrl", .str w.imageUrl), ("thumbnailUrl", .str w.thumbnailUrl),
    ("originalUrl", .str w.originalUrl), ("category", .map w.category.toJson),
    ("tags", .list (w.tags.map .str)), ("dimensions", .map w.dimensions.toJson),
    ("fileSize", .int w.fileSize), ("format", .str w.format),
    ("colors", .list (w.colors.map .str)), ("featured", .bool w.featured),
    ("trending", .bool w.trending), ("downloads", .int w.downloads), ("likes", .int w.likes),
    ("views", .int w.views), ("status", .str w.status),
    ("createdAt", .str (c.toIso8601String w.createdAt)),
    ("updatedAt", .str (c.toIso8601String w.updatedAt)), ("isPremium", .bool w.isPremium),
    ("price", .int w.price)]

def Wallpaper.fromJson (c : Codec) (json : DynMap) : Result Wallpaper := do
  return {
    id := ← asString (field "_id" json)
    title := ← asString (field "title" json)
    description := ← orNull asString (field "description" json)
    imageUrl := ← asString (field "imageUrl" json)
    thumbnailUrl := ← asString (field "thumbnailUrl" json)
    originalUrl := ← asString (field "originalUrl" json)
    category := ← Category.fromJson (← asMap (field "category" json))
    tags := ← stringList (← asList (field "tags" json))
    dimensions := ← Dimensions.fromJson (← asMap (field "dimensions" json))
    fileSize := ← asInt (field "fileSize" json)
    format := ← asString (field "format" json)
    colors := ← stringList (← asList (field "colors" json))
    featured := ← asBool (field "featured" json)
    trending := ← asBool (field "trending" json)
    downloads := ← asInt (field "downloads" json)
    likes := ← asInt (field "likes" json)
    views := ← asInt (field "views" json)
    status := ← asString (field "status" json)
    createdAt := ← c.parseDateTime (← asString (field "createdAt" json))
    updatedAt := ← c.parseDateTime (← asString (field "updatedAt" json))
    isPremium := (← orNull asBool (field "isPremium" json)).getD false
    price := (← orNull asInt (field "price" json)).getD 0 }

theorem Dimensions.fromJson_toJson (d : Dimensions) : Dimensions.fromJson d.toJson = .ok d := rfl

theorem Category.fromJson_toJson (c : Category) : Category.fromJson c.toJson = .ok c := by
  simp [Category.fromJson, Category.toJson, field]

/-- The dates of `w` survive the text conversions. -/
structure ReadsBackDates (c : Codec) (w : Wallpaper) : Prop where
  created : c.ReadsBackDate w.createdAt
  updated : c.ReadsBackDate w.updatedAt

/-- **Decoding what was encoded resets `source`.** -/
theorem Wallpaper.fromJson_toJson {c : Codec} {w : Wallpaper} (h : ReadsBackDates c w) :
    Wallpaper.fromJson c (w.toJson c) = .ok { w with source := "pexels" } := by
  obtain ⟨h1, h2⟩ := h
  unfold Codec.ReadsBackDate at h1 h2
  simp [Wallpaper.fromJson, Wallpaper.toJson, field, Category.fromJson_toJson,
    Dimensions.fromJson_toJson, h1, h2]

end PixsBliss.Models
