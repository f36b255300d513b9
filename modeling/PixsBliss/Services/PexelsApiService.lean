import PixsBliss.Models.Wallpaper

/-! # The requests of the Pexels API service

`pexels_api_service.dart` sends every list request to one of two paths. A function of the service is
the request it sends; the answer, a list of wallpapers or an exception, is given by the environment
(`Answer`). A page of categories and a page of popular wallpapers are searches. -/

namespace PixsBliss.Services.PexelsApiService

open PixsBliss.Models

/-- A `GET` of the service: the path and the query parameters. -/
structure Request where
  path : String
  query : Option String
  page : ℕ
  perPage : ℕ
  orientation : Option String
deriving DecidableEq

/-- How a request ends: with the wallpapers of the answer, or with an exception of the given text
(`e.toString()`). -/
inductive Answer
  | wallpapers (ws : List Wallpaper)
  | exception (text : String)

def getCuratedWallpapers (page perPage : ℕ) : Request :=
  { path := "/curated", query := none, page := page, perPage := perPage, orientation := none }

def searchWallpapers (query : String) (page perPage : ℕ) : Request :=
  { path := "/search", query := some query, page := page, perPage := perPage,
    orientation := some "portrait" }

/-- `toLowerCase` on the characters that matter for a comparison with lower-case ASCII words: the
ASCII letters, and the two others whose lower case, character by character, is one of them: the
Kelvin sign, and the `I` with a dot. -/
def toLowerCase (s : String) : String :=
  s.map fun c =>
    if c = Char.ofNat 0x212A then 'k' else if c = Char.ofNat 0x130 then 'i' else c.toLower

/-- The categories and the terms they are searched with. -/
def searchTerms : List (String × String) :=
  [("nature", "nature landscape"), ("abstract", "abstract art"), ("animals", "animals wildlife"),
    ("architecture", "architecture building"), ("cars", "cars automotive"), ("city", "city urban"),
    ("dark", "dark moody"), ("flowers", "flowers botanical"), ("food", "food photography"),
    ("love", "love romantic"), ("macro", "macro close up"), ("minimal", "minimal simple"),
    ("mountains", "mountains landscape"), ("ocean", "ocean sea water"),
    ("people", "people portrait"), ("space", "space galaxy stars"), ("sports", "sports action"),
    ("technology", "technology digital"), ("travel", "travel destination"),
    ("vintage", "vintage retro")]

def getWallpapersByCategory (category : String) (page perPage : ℕ) : Request :=
  searchWallpapers ((searchTerms.lookup (toLowerCase category)).getD category) page perPage

/-- The terms that are searched for popular wallpapers, by page. -/
def popularTerms : List String := ["wallpaper", "background", "aesthetic", "beautiful", "stunning"]

def getPopularWallpapers (page perPage : ℕ) : Request :=
  searchWallpapers (popularTerms.getD (page % popularTerms.length) "") page perPage

example : (getPopularWallpapers 7 20).query = some "aesthetic" := by decide

/-- A category of the service; its other fields are not given. -/
def featuredCategory (id name color : String) (order : ℤ) : Category where
  id := id
  name := name
  slug := id
  description := none
  icon := none
  color := color
  coverImage := none
  featured := true
  order := order
  wallpaperCount := none
  status := "active"

def getCategories : List Category :=
  [featuredCategory "nature" "Nature" "#4CAF50" 1,
    featuredCategory "abstract" "Abstract" "#9C27B0" 2,
    featuredCategory "animals" "Animals" "#FF9800" 3, featuredCategory "cars" "Cars" "#F44336" 5,
    featuredCategory "city" "City" "#2196F3" 6, featuredCategory "dark" "Dark" "#424242" 7,
    featuredCategory "flowers" "Flowers" "#E91E63" 8, featuredCategory "space" "Space" "#3F51B5" 10]

end PixsBliss.Services.PexelsApiService
