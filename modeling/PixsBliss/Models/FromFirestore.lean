import PixsBliss.Models.RoundTrip
import PixsBliss.Services.CloudinaryService

/-! # Wallpapers out of Firestore documents

`Wallpaper.fromFirestore` and `Category.fromFirestore`, cast by cast. The address of an image is the
first of six fields that is there, and a thumbnail that is not given is made from this address.

* `fromFirestore_urls`: where the addresses of a wallpaper that is read come from. -/

namespace PixsBliss.Models

open PixsBliss.Models.Json PixsBliss.Services.CloudinaryService

/-- What the reading of a document takes from the device: the library, with its texts of floating
point numbers, and the clock, which is read for each of the two dates that are missing. -/
structure Device where
  codec : Codec
  rules : Lib.Uri.Rules
  doubleText : Float → String
  createdNow : DynMap → DateTime
  updatedNow : DynMap → DateTime

/-! ### Texts of values -/

/-- The text of a `Timestamp`: its seconds, rounded down, and the rest. -/
def timestampText (micros : ℤ) : String :=
  "Timestamp(seconds=" ++ toString (micros / 1000000) ++ ", nanoseconds=" ++
    toString (micros % 1000000 * 1000) ++ ")"

mutual

/-- `toString()`. -/
def Json.Dyn.text (doubleText : Float → String) : Dyn → String
  | .null => "null"
  | .bool b => toString b
  | .int n => toString n
  | .double x => doubleText x
  | .str s => s
  | .timestamp micros => timestampText micros
  | .list l => "[" ++ ", ".intercalate (textsOf doubleText l) ++ "]"
  | .map m => "\x7b" ++ ", ".intercalate (entryTexts doubleText m) ++ "\x7d"

def textsOf (doubleText : Float → String) : List Dyn → List String
  | [] => []
  | v :: l => v.text doubleText :: textsOf doubleText l

def entryTexts (doubleText : Float → String) : List (String × Dyn) → List String
  | [] => []
  | (key, v) :: m => (key ++ ": " ++ v.text doubleText) :: entryTexts doubleText m

end

/-! ### Categories -/

/-- The slug of a name. -/
def slugOf (c : Codec) (name : String) : String :=
  (c.toLowerCase name).map fun ch => if ch = ' ' then '-' else ch

/-- `as String? ?? … as String? ?? 'unknown'`: the second field is only read without the first. -/
def categoryId (json : DynMap) : Result String := do
  match ← orNull asString (field "_id" json) with
  | some id => return id
  | none => return (← orNull asString (field "id" json)).getD "unknown"

def Category.fromFirestore (c : Codec) (json : DynMap) : Result Category := do
  return {
    id := ← categoryId json
    name := (← orNull asString (field "name" json)).getD "Unknown"
    slug := (← orNull asString (field "slug" json)).getD
      (slugOf c ((← orNull asString (field "name" json)).getD "unknown"))
    description := ← orNull asString (field "description" json)
    icon := ← orNull asString (field "icon" json)
    color := (← orNull asString (field "color" json)).getD "#6366f1"
    coverImage := ← orNull asString (field "coverImage" json)
    featured := (← orNull asBool (field "featured" json)).getD false
    order := (← orNull asInt (field "order" json)).getD 0
    wallpaperCount := ← orNull asInt (field "wallpaperCount" json)
    status := (← orNull asString (field "status" json)).getD "active" }

/-- The category of a document without one. -/
def unknownCategory : Category where
  id := "0"
  name := "Unknown"
  slug := "unknown"
  description := none
  icon := none
  color := "#6366f1"
  coverImage := none
  featured := false
  order := 0
  wallpaperCount := none
  status := "active"

/-- A category is a map, or anything else, whose text is then its name and its id. -/
def categoryOf (d : Device) : Dyn → Result Category
  | .null => .ok unknownCategory
  | .map m => Category.fromFirestore d.codec m
  | v => Category.fromFirestore d.codec
      [("name", .str (v.text d.doubleText)), ("_id", .str (v.text d.doubleText))]

/-! ### Other fields -/

/-- `List<String>.from`, the empty list without a value. -/
def stringsOf : Dyn → Result (List String)
  | .null => .ok []
  | v => do stringList (← asList v)

def dimensionsOf : Dyn → Result Dimensions
  | .null => .ok ⟨1920, 1080⟩
  | v => do Dimensions.fromJson (← asMap v)

/-- A date is a `Timestamp`, whose date is local, or a text. -/
def dateOf (c : Codec) (now : DateTime) : Dyn → Result DateTime
  | .null => .ok now
  | .timestamp micros => .ok ⟨micros, false⟩
  | v => do c.parseDateTime (← asString v)

/-- The first of the six fields that is not null; an id gives the URL of its image. -/
def imageUrlOf (json : DynMap) : Result String :=
  if !isNull (field "imageUrl" json) then asString (field "imageUrl" json)
  else if !isNull (field "image_url" json) then asString (field "image_url" json)
  else if !isNull (field "url" json) then asString (field "url" json)
  else if !isNull (field "public_id" json) then
    (asString (field "public_id" json)).map getOriginalImageUrl
  else if !isNull (field "originalUrl" json) then asString (field "originalUrl" json)
  else if !isNull (field "originalPublicId" json) then
    (asString (field "originalPublicId" json)).map getOriginalImageUrl
  else .ok ""

/-- A thumbnail that is not given is made from the image. -/
def thumbnailUrlOf (rules : Lib.Uri.Rules) (json : DynMap) (imageUrl : String) : Result String :=
  if !isNull (field "thumbnailUrl" json) then asString (field "thumbnailUrl" json)
  else if !isNull (field "thumbnail_url" json) then asString (field "thumbnail_url" json)
  else if imageUrl ≠ "" then .ok (convertToThumbnailUrl rules imageUrl 300 400)
  else .ok ""

/-! ### Wallpapers -/

def Wallpaper.fromFirestore (d : Device) (json : DynMap) : Result Wallpaper := do
  let imageUrl ← imageUrlOf json
  let thumbnailUrl ← thumbnailUrlOf d.rules json imageUrl
  return {
    id := ← asString (field "_id" json)
    title := (← orNull asString (field "title" json)).getD "Untitled"
    description := ← orNull asString (field "description" json)
    imageUrl := imageUrl
    thumbnailUrl := thumbnailUrl
    originalUrl := imageUrl
    category := ← categoryOf d (field "category" json)
    tags := ← stringsOf (field "tags" json)
    dimensions := ← dimensionsOf (field "dimensions" json)
    fileSize := (← orNull asInt (field "fileSize" json)).getD 0
    format := (← orNull asString (field "format" json)).getD "jpg"
    colors := ← stringsOf (field "colors" json)
    featured := (← orNull asBool (field "featured" json)).getD false
    trending := (← orNull asBool (field "trending" json)).getD false
    downloads := (← orNull asInt (field "downloads" json)).getD 0
    likes := (← orNull asInt (field "likes" json)).getD 0
    views := (← orNull asInt (field "views" json)).getD 0
    status := (← orNull asString (field "status" json)).getD "active"
    createdAt := ← dateOf d.codec (d.createdNow json) (field "createdAt" json)
    updatedAt := ← dateOf d.codec (d.updatedNow json) (field "updatedAt" json)
    source := "firestore"
    isPremium := (← orNull asBool (field "isPremium" json)).getD false
    price := (← orNull asInt (field "price" json)).getD 0 }

/-- **Where the addresses come from.** -/
theorem fromFirestore_urls (d : Device) (json : DynMap) :
    Yields (fun w => imageUrlOf json = .ok w.imageUrl ∧
      thumbnailUrlOf d.rules json w.imageUrl = .ok w.thumbnailUrl ∧ w.originalUrl = w.imageUrl)
      (Wallpaper.fromFirestore d json) := by
  unfold Wallpaper.fromFirestore
  refine yields_bind fun imageUrl himage => yields_bind fun thumbnailUrl hthumb => ?_
  -- the other fields do not touch the addresses
  iterate 19 refine yields_bind fun _ _ => ?_
  exact yields_return ⟨himage, hthumb, rfl⟩

/-! ### A document -/

/-- A document with the address of its image and nothing else. -/
def imageDocument (id url : String) : DynMap := [("url", .str url), ("_id", .str id)]

/-- Its wallpaper, with the defaults. -/
def imageWallpaper (d : Device) (id url : String) : Wallpaper where
  id := id
  title := "Untitled"
  description := none
  imageUrl := url
  thumbnailUrl := convertToThumbnailUrl d.rules url 300 400
  originalUrl := url
  category := unknownCategory
  tags := []
  dimensions := ⟨1920, 1080⟩
  fileSize := 0
  format := "jpg"
  colors := []
  featured := false
  trending := false
  downloads := 0
  likes := 0
  views := 0
  status := "active"
  createdAt := d.createdNow (imageDocument id url)
  updatedAt := d.updatedNow (imageDocument id url)
  source := "firestore"

theorem fromFirestore_imageDocument (d : Device) (id : String) {url : String} (hurl : url ≠ "") :
    Wallpaper.fromFirestore d (imageDocument id url) = .ok (imageWallpaper d id url) := by
  have himage : imageUrlOf (imageDocument id url) = .ok url := rfl
  have hthumb : thumbnailUrlOf d.rules (imageDocument id url) url =
      .ok (convertToThumbnailUrl d.rules url 300 400) := by
    simp [thumbnailUrlOf, imageDocument, field, isNull, hurl]
  rw [Wallpaper.fromFirestore, himage, ok_bind, hthumb, ok_bind]
  rfl

/-- A device on which the clock stands still. -/
def sampleDevice : Device where
  codec := sampleCodec []
  rules := strictRules
  doubleText _ := ""
  createdNow _ := ⟨0, false⟩
  updatedNow _ := ⟨0, false⟩

end PixsBliss.Models
