import PixsBliss.Lib.Iso8601
import PixsBliss.Services.Cache

/-! # The age of a copy

A copy is stamped with the local time, as a text that does not say its zone. `isCacheStale` and its
two siblings read the stamp in the zone the device is in by then, so a copy is older or younger than
it is by the difference of the two offsets.

* `readsBackDate`: the dates a device in one zone reads back.
* `isStale_cacheList`: what a copy's age is taken to be.
* `age_true_iff`: it is right exactly where the difference does not carry it over the hour. -/

namespace PixsBliss.Services.CacheAge

open PixsBliss.Lib.Iso8601 PixsBliss.Lib.Store PixsBliss.Models PixsBliss.Models.Json
open PixsBliss.Services.Cache

/-! ### A device in a zone -/

/-- `DateTime.parse` in a zone. -/
def parseIn (z : Zone) (s : List Char) : Result DateTime :=
  match z.read s with
  | some (t, isUtc) => .ok ⟨t, isUtc⟩
  | none => .error .formatException

/-- The conversions of a device: its dates are local to a zone. -/
def codecIn (base : Codec) (z : Zone) : Codec :=
  { base with
    toIso8601String := fun d => String.ofList (z.text d.microsecondsSinceEpoch d.isUtc)
    parseDateTime := fun s => parseIn z s.toList }

/-- `DateTime.now()`. -/
def now (t : Instant) : DateTime := ⟨t, false⟩

/-- The dates that are read back: those in UTC, and those whose local time comes once. -/
theorem readsBackDate (base : Codec) (z : Zone) (d : DateTime)
    (hrange : InRange d.microsecondsSinceEpoch)
    (honce : d.isUtc = false → ∀ t, t + z.offset t =
      d.microsecondsSinceEpoch + z.offset d.microsecondsSinceEpoch → t = d.microsecondsSinceEpoch) :
    (codecIn base z).ReadsBackDate d := by
  obtain ⟨t, isUtc⟩ := d
  unfold Codec.ReadsBackDate
  simp only [codecIn, String.toList_ofList, parseIn]
  cases isUtc with
  | true => rw [Zone.read_text_utc z z hrange]
  | false => rw [Zone.read_text_self z hrange (honce rfl)]

def hour : ℤ := 3600000000

/-- How much later a stamp of the instant `w` was written than it is read to be. -/
def shift (zw zr : Zone) (w : ℤ) : ℤ := zr.localOffset (w + zw.offset w) - zw.offset w

/-- **The shift does not carry the age over the hour.** A stamp that is no time in the other zone
makes a copy stale. -/
def StaysOnItsSide (zw zr : Zone) (w r : ℤ) : Prop :=
  if InRange (w - shift zw zr w) then
    ¬(hour - shift zw zr w ≤ r - w ∧ r - w < hour) ∧
      ¬(hour ≤ r - w ∧ r - w < hour - shift zw zr w)
  else hour ≤ r - w

section Ages

variable {base : Codec} {zw zr z : Zone} {w r : Instant}

theorem parse_stamp (base : Codec) (zw zr : Zone) (w : Instant) :
    (codecIn base zr).parseDateTime ((codecIn base zw).toIso8601String (now w)) =
      if InRange (w - shift zw zr w) then .ok ⟨w - shift zw zr w, false⟩
      else .error .formatException := by
  have hshift : (w : ℤ) + zw.offset w - zr.localOffset (w + zw.offset w) = w - shift zw zr w := by
    unfold shift
    omega
  have hread := Zone.read_text zw zr w.2
  rw [hshift] at hread
  simp only [codecIn, now, String.toList_ofList, parseIn, hread]
  split_ifs <;> rfl

/-- The stamp is the last thing a write stores. -/
theorem get_stamp (c : Codec) (d : DateTime) (ws : List Wallpaper) (b : Box) :
    (applyAll c d (writeOps wallpaperKind c ws) b).get lastUpdateKey =
      some (c.toIso8601String d) := by
  rw [applyAll_writeOps]
  exact SortedStore.get_put_self

theorem one_le_inHours {n : ℤ} : 1 ≤ inHours n ↔ hour ≤ n := by
  unfold inHours hour
  rcases le_or_gt 0 n with hn | hn
  · rw [Int.tdiv_eq_ediv_of_nonneg hn]
    omega
  · have hneg : n.tdiv 3600000000 = -(-n).tdiv 3600000000 := by rw [← Int.neg_tdiv, neg_neg]
    have hnonneg : 0 ≤ (-n).tdiv 3600000000 := Int.tdiv_nonneg (by omega) (by decide)
    omega

/-- **What a copy's age is taken to be.** -/
theorem isStale_cacheList (base : Codec) (zw zr : Zone) (w r : Instant) (k : WallpaperCopy)
    (ws : List Wallpaper) (b b₁ b₂ b₃ : Box) :
    k.isStale (codecIn base zr) (now r)
        (k.cacheList (codecIn base zw) (now w) ws (CacheService.opened b b₁ b₂ b₃)) = true ↔
      (InRange (w - shift zw zr w) → hour ≤ r - w + shift zw zr w) := by
  obtain ⟨box, hbox⟩ : ∃ box, k.box (CacheService.opened b b₁ b₂ b₃) = some box := by
    cases k <;> exact ⟨_, rfl⟩
  rw [WallpaperCopy.isStale_eq, WallpaperCopy.cacheList_eq, WallpaperCopy.box_withBox, hbox]
  simp only [writeCopy, Cache.isStale, get_stamp, parse_stamp]
  by_cases hrange : InRange (w - shift zw zr w)
  · have hage : (r : ℤ) - (w - shift zw zr w) = r - w + shift zw zr w := by omega
    simp only [hrange, if_true, now, decide_eq_true_eq, one_le_inHours, hage, true_imp_iff]
  · simp only [hrange, if_false, false_imp_iff]

theorem shift_eq_zero (honce : ∀ t', t' + z.offset t' = w + z.offset w → t' = w) :
    shift z z w = 0 := by
  unfold shift
  rw [z.localOffset_of_once w honce, sub_self]

/-- In one zone, the age of a stamp whose local time comes once is the elapsed time. -/
theorem age_true_in_zone (base : Codec) (k : WallpaperCopy) (ws : List Wallpaper)
    (b b₁ b₂ b₃ : Box) (honce : ∀ t', t' + z.offset t' = w + z.offset w → t' = w) :
    k.isStale (codecIn base z) (now r)
        (k.cacheList (codecIn base z) (now w) ws (CacheService.opened b b₁ b₂ b₃)) = true ↔
      hour ≤ r - w := by
  have hrange : InRange w := w.2
  rw [isStale_cacheList, shift_eq_zero honce, sub_zero, add_zero]
  exact ⟨fun h => h hrange, fun h _ => h⟩

/-- **Exactly the copies whose age is right.** For every instant a copy is stamped at and every one
it is asked for, and for the zones of the device at the two: the copy is stale exactly if an hour
has passed, iff the difference of the offsets does not carry the age over the hour. -/
theorem age_true_iff (base : Codec) (zw zr : Zone) (w r : Instant) (k : WallpaperCopy)
    (ws : List Wallpaper) (b b₁ b₂ b₃ : Box) :
    (k.isStale (codecIn base zr) (now r)
        (k.cacheList (codecIn base zw) (now w) ws (CacheService.opened b b₁ b₂ b₃)) = true ↔
      hour ≤ r - w) ↔ StaysOnItsSide zw zr w r := by
  rw [isStale_cacheList]
  unfold StaysOnItsSide
  by_cases hrange : InRange (w - shift zw zr w)
  · simp only [hrange, if_true, true_imp_iff]
    omega
  · simp only [hrange, if_false, false_imp_iff, true_iff]

end Ages

/-- An hour ahead of UTC. -/
def madrid : Zone := .fixed hour (by decide)

def lisbon : Zone := .fixed 0 (by decide)

def takeoff : Instant := ⟨1704085200000000, by decide⟩

/-- An hour and a half later. -/
def landing : Instant := ⟨1704090600000000, by decide⟩

/-- **An hour and a half old, and not stale**, after a flight of one zone to the west. -/
theorem flight_not_stale : hour ≤ landing - takeoff ∧
    ¬(WallpaperCopy.wallpapers.isStale (codecIn (sampleCodec []) lisbon) (now landing)
        (WallpaperCopy.wallpapers.cacheList (codecIn (sampleCodec []) madrid) (now takeoff) []
          (CacheService.opened .empty .empty .empty .empty)) = true ↔
      hour ≤ landing - takeoff) := by
  have hold : hour ≤ (landing : ℤ) - takeoff := by decide
  have hrange : InRange (takeoff - shift madrid lisbon takeoff) := by decide
  have hyoung : ¬hour ≤ (landing : ℤ) - takeoff + shift madrid lisbon takeoff := by decide
  refine ⟨hold, fun h => ?_⟩
  rw [isStale_cacheList] at h
  exact hyoung (h.mpr hold hrange)

-- the stamp, which says no zone
example : String.ofList (madrid.text takeoff false) = "2024-01-01T06:00:00.000" := by decide

end PixsBliss.Services.CacheAge
