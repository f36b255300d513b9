import PixsBliss.Models.Wallpaper

/-! # The texts of wallpapers and categories

A record is cached as the text `jsonEncode(record.toJson())` and read with
`fromJson(jsonDecode(text))`. Where the text conversions invert each other on the record
(`ReadsBack`, `CategoryReadsBack`):

* `decodeCategory_encodeCategory`: a category comes back as it was;
* `decodeWallpaper_encodeWallpaper`: a wallpaper comes back with `source` reset to `'pexels'`, so
  the round trip is exact on the wallpapers of that source and on no others
  (`decode_encode_eq_iff`). -/

namespace PixsBliss.Models

open PixsBliss.Models.Json

/-- `jsonEncode(wallpaper.toJson())`. -/
def encodeWallpaper (c : Codec) (w : Wallpaper) : String := c.jsonEncode (.map (w.toJson c))

/-- `Wallpaper.fromJson(jsonDecode(text) as Map<String, dynamic>)`. -/
def decodeWallpaper (c : Codec) (text : String) : Result Wallpaper := do
  Wallpaper.fromJson c (← asMap (← c.jsonDecode text))

/-- `jsonEncode(category.toJson())`. -/
def encodeCategory (c : Codec) (cat : Category) : String := c.jsonEncode (.map cat.toJson)

/-- `Category.fromJson(jsonDecode(text) as Map<String, dynamic>)`. -/
def decodeCategory (c : Codec) (text : String) : Result Category := do
  Category.fromJson (← asMap (← c.jsonDecode text))

/-- The text conversions invert each other on the JSON value and the dates of `w`. -/
structure ReadsBack (c : Codec) (w : Wallpaper) : Prop where
  json : c.ReadsBackJson (.map (w.toJson c))
  dates : ReadsBackDates c w

/-- `jsonDecode` inverts `jsonEncode` on the JSON value of a category. -/
def CategoryReadsBack (c : Codec) (cat : Category) : Prop := c.ReadsBackJson (.map cat.toJson)

theorem decodeCategory_encodeCategory {c : Codec} {cat : Category} (h : CategoryReadsBack c cat) :
    decodeCategory c (encodeCategory c cat) = .ok cat := by
  unfold CategoryReadsBack Codec.ReadsBackJson at h
  simp [decodeCategory, encodeCategory, h, Category.fromJson_toJson]

theorem decodeWallpaper_encodeWallpaper {c : Codec} {w : Wallpaper} (h : ReadsBack c w) :
    decodeWallpaper c (encodeWallpaper c w) = .ok { w with source := "pexels" } := by
  have hj := h.json
  unfold Codec.ReadsBackJson at hj
  simp [decodeWallpaper, encodeWallpaper, hj, Wallpaper.fromJson_toJson h.dates]

theorem source_reset_iff {w : Wallpaper} :
    ({ w with source := "pexels" } : Wallpaper) = w ↔ w.source = "pexels" := by
  constructor
  · intro h
    rw [← h]
  · intro h
    cases w
    simp only at h
    subst h
    rfl

/-- **The round trip is exact iff the source is `'pexels'`.** -/
theorem decode_encode_eq_iff (c : Codec) (w : Wallpaper) (h : ReadsBack c w) :
    (∃ w', decodeWallpaper c (encodeWallpaper c w) = .ok w' ∧ w'.props = w.props) ↔
      w.source = "pexels" := by
  rw [decodeWallpaper_encodeWallpaper h, ← source_reset_iff]
  constructor
  · rintro ⟨w', hw', hp⟩
    cases hw'
    exact Wallpaper.props_inj.mp hp
  · intro hw
    exact ⟨_, rfl, Wallpaper.props_inj.mpr hw⟩

/-! ### Sample wallpapers -/

/-- A wallpaper document's record, of a given id and source. -/
def sampleWallpaper (id source : String) : Wallpaper where
  id := id
  title := "Dunes"
  description := none
  imageUrl := "https://img/7.jpg"
  thumbnailUrl := "https://img/7t.jpg"
  originalUrl := "https://img/7.jpg"
  category :=
    { id := "0", name := "Unknown", slug := "unknown", description := none, icon := none,
      color := "#6366f1", coverImage := none, featured := false, order := 0,
      wallpaperCount := none, status := "active" }
  tags := ["sand"]
  dimensions := ⟨1080, 1920⟩
  fileSize := 0
  format := "jpg"
  colors := []
  featured := false
  trending := false
  downloads := 3
  likes := 0
  views := 0
  status := "active"
  createdAt := ⟨0, true⟩
  updatedAt := ⟨0, true⟩
  source := source

def sampleTail : String :=
  "\",\"title\":\"Dunes\",\"description\":null," ++
    "\"imageUrl\":\"https://img/7.jpg\"," ++
    "\"thumbnailUrl\":\"https://img/7t.jpg\",\"originalUrl\":\"https://img/7.jpg\"," ++
    "\"category\":\x7b\"_id\":\"0\",\"name\":\"Unknown\",\"slug\":\"unknown\"," ++
    "\"description\":null,\"icon\":null,\"color\":\"#6366f1\",\"coverImage\":null," ++
    "\"featured\":false,\"order\":0,\"wallpaperCount\":null,\"status\":\"active\"\x7d,\"tags\":[\"sand\"]," ++
    "\"dimensions\":\x7b\"width\":1080,\"height\":1920\x7d,\"fileSize\":0,\"format\":\"jpg\"," ++
    "\"colors\":[],\"featured\":false,\"trending\":false,\"downloads\":3," ++
    "\"likes\":0,\"views\":0,\"status\":\"active\",\"createdAt\":\"1970-01-01T00:00:00.000Z\"," ++
    "\"updatedAt\":\"1970-01-01T00:00:00.000Z\",\"isPremium\":false,\"price\":0\x7d"

def sampleText (id : String) : String := "\x7b\"_id\":\"" ++ id ++ sampleTail

/-- The text conversions on the sample wallpapers with ids in `ids` (ids without characters that
JSON escapes). -/
def sampleCodec (ids : List String) : Codec where
  jsonEncode
    | .map m =>
      match field "_id" m with
      | .str id => sampleText id
      | _ => ""
    | _ => ""
  jsonDecode text :=
    match ids.find? fun id => sampleText id = text with
    | some id => .ok (.map ((sampleWallpaper id "").toJson sampleDates))
    | none => .error .formatException
  toIso8601String := sampleDates.toIso8601String
  parseDateTime := sampleDates.parseDateTime
  toLowerCase := sampleDates.toLowerCase
where
  /-- The text of the epoch, the only instant in the samples. -/
  sampleDates : Codec :=
    { jsonEncode := fun _ => ""
      jsonDecode := fun _ => .error .formatException
      toIso8601String := fun _ => "1970-01-01T00:00:00.000Z"
      parseDateTime := fun text =>
        if text = "1970-01-01T00:00:00.000Z" then .ok ⟨0, true⟩ else .error .formatException
      toLowerCase := String.toLower }

theorem sampleText_inj {id id' : String} : sampleText id = sampleText id' ↔ id = id' := by
  unfold sampleText
  generalize sampleTail = tail
  rw [← String.toList_inj]
  simp [String.toList_inj]

theorem sample_readsBack {ids : List String} {id : String} (h : id ∈ ids) (source : String) :
    ReadsBack (sampleCodec ids) (sampleWallpaper id source) := by
  have hd : (sampleCodec ids).parseDateTime "1970-01-01T00:00:00.000Z" = .ok ⟨0, true⟩ := by
    simp [sampleCodec, sampleCodec.sampleDates]
  have hs : (ids.find? fun id' => sampleText id' = sampleText id).isSome = true :=
    List.find?_isSome.mpr ⟨id, h, by simp⟩
  obtain ⟨id', hf⟩ := Option.isSome_iff_exists.mp hs
  obtain rfl : id' = id := sampleText_inj.mp (by simpa using List.find?_some hf)
  refine ⟨?_, ⟨hd, hd⟩⟩
  have he : (sampleCodec ids).jsonDecode (sampleText id') =
      .ok (.map ((sampleWallpaper id' "").toJson sampleCodec.sampleDates)) := by
    simp only [sampleCodec, hf]
  exact he

/-- The round trip of a Pexels wallpaper. -/
theorem pexels_sample_roundTrip :
    (∃ w', decodeWallpaper (sampleCodec ["7"])
        (encodeWallpaper (sampleCodec ["7"]) (sampleWallpaper "7" "pexels")) = .ok w' ∧
      w'.props = (sampleWallpaper "7" "pexels").props) ↔
      (sampleWallpaper "7" "pexels").source = "pexels" :=
  decode_encode_eq_iff (sampleCodec ["7"]) (sampleWallpaper "7" "pexels")
    (sample_readsBack (by simp) "pexels")

/-- **A Firestore wallpaper comes back as a Pexels one.** -/
theorem firestore_sample_changed :
    ReadsBack (sampleCodec ["7"]) (sampleWallpaper "7" "firestore") ∧
      ¬ ∃ w', decodeWallpaper (sampleCodec ["7"])
          (encodeWallpaper (sampleCodec ["7"]) (sampleWallpaper "7" "firestore")) = .ok w' ∧
        w'.props = (sampleWallpaper "7" "firestore").props := by
  have hr : ReadsBack (sampleCodec ["7"]) (sampleWallpaper "7" "firestore") :=
    sample_readsBack (by simp) "firestore"
  refine ⟨hr, ?_⟩
  rw [decodeWallpaper_encodeWallpaper hr]
  rintro ⟨w', hw', hp⟩
  cases hw'
  have hs := congrArg Wallpaper.source (Wallpaper.props_inj.mp hp)
  revert hs
  decide

end PixsBliss.Models
