import PixsBliss.Lib.Calendar
import PixsBliss.Models.RoundTrip
import PixsBliss.Services.PexelsApiService

/-! # The image of the day

`fetchDailyCategoryImageUrl` of `pexels_api_service.dart` searches for a category and takes the
result at the day of the month, modulo the number of results. So the first of a month can have the
image of the day before.

* `different_image_iff`: of two days in a row exactly those have the same image between which the
  month ends, if the number of results divides the days of the month but one. -/

namespace PixsBliss.Services.DailyImage

open PixsBliss.Lib.Calendar PixsBliss.Models PixsBliss.Services.PexelsApiService

/-- The search for the image of the day; 15 results by default. -/
def dailyImageRequest (category : String) (perPage : ℕ) : Request :=
  PexelsApiService.searchWallpapers category 1 perPage

/-- `fetchDailyCategoryImageUrl`, with the answer to its search; an exception is caught. -/
def fetchDailyCategoryImageUrl (answer : Answer) (date : Date) : Option String :=
  match answer with
  | .exception _ => none
  | .wallpapers results => (results[date.day % results.length]?).map Wallpaper.imageUrl

/-- The last day of its month. -/
def EndsMonth (d : Date) : Prop := d.day = daysInMonth d.year d.month

/-- **The first of the next month comes back to the same position.** -/
def Repeats (d : Date) (n : ℕ) : Prop := EndsMonth d ∧ n ∣ d.day - 1

instance (d : Date) (n : ℕ) : Decidable (Repeats d n) := by
  unfold Repeats EndsMonth
  infer_instance

section

variable {results : List Wallpaper} {d d' : Date}

theorem day_next (d : Date) :
    (¬EndsMonth d ∧ d.next.day = d.day + 1) ∨ (EndsMonth d ∧ d.next.day = 1) := by
  have hle := d.day_le
  unfold Date.next EndsMonth
  split_ifs with hday hmonth
  · exact Or.inl ⟨hday.ne, rfl⟩
  · exact Or.inr ⟨by omega, rfl⟩
  · exact Or.inr ⟨by omega, rfl⟩

/-- Two days in a row have the same position iff the month ends in between and comes back to it. -/
theorem position_next_iff {n : ℕ} (h2 : 2 ≤ n) (d : Date) :
    d.day % n = d.next.day % n ↔ Repeats d n := by
  have hpos := d.day_pos
  unfold Repeats
  rcases day_next d with ⟨hin, hnext⟩ | ⟨hend, hnext⟩
  · rw [hnext]
    refine iff_of_false (fun h => ?_) fun h => hin h.1
    have hone : d.day + 1 ≡ d.day + 0 [MOD n] := h.symm
    have hzero : 1 % n = 0 % n := Nat.ModEq.add_left_cancel' d.day hone
    rw [Nat.mod_eq_of_lt h2, Nat.zero_mod] at hzero
    cases hzero
  · rw [hnext, and_iff_right hend, eq_comm]
    exact Nat.modEq_iff_dvd' hpos

/-- The image is the one at the position. -/
theorem fetch_eq (results : List Wallpaper) (d : Date) :
    fetchDailyCategoryImageUrl (.wallpapers results) d =
      (results.map Wallpaper.imageUrl)[d.day % results.length]? :=
  List.getElem?_map.symm

theorem fetch_eq_iff (hpos : 0 < results.length)
    (hdistinct : (results.map Wallpaper.imageUrl).Nodup) :
    fetchDailyCategoryImageUrl (.wallpapers results) d =
        fetchDailyCategoryImageUrl (.wallpapers results) d' ↔
      d.day % results.length = d'.day % results.length := by
  have hlt : d.day % results.length < (results.map Wallpaper.imageUrl).length := by
    rw [List.length_map]
    exact Nat.mod_lt d.day hpos
  rw [fetch_eq, fetch_eq]
  exact List.getElem?_inj hlt hdistinct

/-- **Exactly the days in a row with different images.** For a list of at least two results with
distinct images, two days in a row have different images iff the second one is in the same month,
or the number of results does not divide the days of the first one's month but one. -/
theorem different_image_iff (results : List Wallpaper) (htwo : 2 ≤ results.length)
    (hdistinct : (results.map Wallpaper.imageUrl).Nodup) (d d' : Date)
    (hnext : d'.dayNumber = d.dayNumber + 1) :
    fetchDailyCategoryImageUrl (.wallpapers results) d ≠
        fetchDailyCategoryImageUrl (.wallpapers results) d' ↔ ¬Repeats d results.length := by
  obtain rfl : d' = d.next := Date.dayNumber_injective (hnext.trans d.dayNumber_next.symm)
  have hpos : 0 < results.length := by omega
  rw [ne_eq, fetch_eq_iff hpos hdistinct, position_next_iff htwo]

end

/-- Two results. -/
def twoResults : List Wallpaper :=
  [{ sampleWallpaper "1" "pexels" with imageUrl := "https://img/1.jpg" },
    { sampleWallpaper "2" "pexels" with imageUrl := "https://img/2.jpg" }]

/-- New Year's Eve. -/
def lastOfYear : Date := Date.of 2024 12 31 (by decide)

def newYear : Date := Date.of 2025 1 1 (by decide)

theorem different_image_iff_newYear :
    fetchDailyCategoryImageUrl (.wallpapers twoResults) lastOfYear ≠
        fetchDailyCategoryImageUrl (.wallpapers twoResults) newYear ↔ ¬Repeats lastOfYear 2 :=
  different_image_iff twoResults (by decide) (by decide) lastOfYear newYear (by decide)

-- the number of results the tab asks for
example : Repeats lastOfYear 15 := by decide

/-- **The same image twice**, on New Year's Eve and on New Year's Day. -/
theorem same_image_newYear : newYear.dayNumber = lastOfYear.dayNumber + 1 ∧
    (twoResults.map Wallpaper.imageUrl).Nodup ∧
    fetchDailyCategoryImageUrl (.wallpapers twoResults) lastOfYear = some "https://img/2.jpg" ∧
    fetchDailyCategoryImageUrl (.wallpapers twoResults) newYear = some "https://img/2.jpg" := by
  decide

end PixsBliss.Services.DailyImage
