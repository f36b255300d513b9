import PixsBliss.Lib.Turns
import PixsBliss.Models.FromFirestore
import PixsBliss.Providers.OfflineCopy
import PixsBliss.Providers.PexelsFeed
import PixsBliss.Services.CacheContents
import PixsBliss.Services.CacheText
import PixsBliss.Services.PexelsPhotos

/-! # Where the lists that are shown come from

The notifiers show answers of the server and copies of a box, and write what they show. Calls
overlap, writes are mixed and cut off, and a process is killed at any moment; so a list that is
shown need not be one that was ever given. Its records are: each is one that the server gave at some
time, or what the cache makes of it. Turn by turn, each notifier keeps this of its list, its box and
the writes on their way.

* `eachTurn_wallpapers`, `eachTurn_categories`: the Firestore notifiers.
* `eachTurn_feed`: the Pexels feeds. -/

namespace PixsBliss.Providers.Provenance

open PixsBliss.Lib.Async PixsBliss.Lib.Flight PixsBliss.Lib.Iso8601 PixsBliss.Lib.JsonText
open PixsBliss.Lib.Store PixsBliss.Lib.Turns
open PixsBliss.Models PixsBliss.Models.Json
open PixsBliss.Services PixsBliss.Services.Cache PixsBliss.Services.CacheContents
open PixsBliss.Services.CacheAge (hour)
open PixsBliss.Services.CacheText
open PixsBliss.Services.CacheWriters (fromCache)
open PixsBliss.Services.PexelsPhotos (ClockIn sampleEpoch)
open PixsBliss.Services.FirestoreService

/-! ### Records that were served -/

section Served

variable {α : Type} {D : Doubles Float} {z : Zone} {lower : String → String}

/-- A wallpaper that was served, or what the cache makes of it. -/
def Known (S : Wallpaper → Prop) (w : Wallpaper) : Prop := ∃ w', S w' ∧ (w = w' ∨ w = fromCache w')

theorem known_of {S : Wallpaper → Prop} {w : Wallpaper} (h : S w) : Known S w := ⟨w, h, Or.inl rfl⟩

/-- The cache makes known wallpapers of known ones. -/
theorem returns_known {c : Codec} {S : Wallpaper → Prop} (h : ∀ w, S w → ReadsBack c w) :
    Returns wallpaperKind c (Known S) (Known S) := by
  rintro w ⟨w', hw', rfl | rfl⟩
  · exact ⟨fromCache w, decodeWallpaper_encodeWallpaper (h w hw'), rfl, w, hw', Or.inr rfl⟩
  · obtain ⟨hjson, hcreated, hupdated⟩ := h w' hw'
    have hread : ReadsBack c (fromCache w') := ⟨hjson, hcreated, hupdated⟩
    exact ⟨fromCache w', decodeWallpaper_encodeWallpaper hread, rfl, w', hw', Or.inr rfl⟩

theorem returns_category {c : Codec} {S : Category → Prop}
    (h : ∀ cat, S cat → CategoryReadsBack c cat) :
    Returns categoryKind c S S := fun cat hcat =>
  ⟨cat, decodeCategory_encodeCategory (h cat hcat), rfl, hcat⟩

/-- What the documents of a collection are decoded to, with one of the decoders: the clock is read
for a date that is missing. -/
def Decoded (decoders : Set (DynMap → Result α)) (documents : Set (String × DynMap)) (a : α) :
    Prop :=
  ∃ fromFirestore ∈ decoders, ∃ doc ∈ documents, fromFirestore (dataWithId doc) = .ok a

/-- The answers of a server hold documents of the collection, whenever they were in it. -/
def AnswersFrom {κ : Type} (documents : Set (String × DynMap)) {σ : Type} :
    FirestoreNotifier.Task κ α → FirestoreNotifier.Outcome → σ → Prop
  | _, .answered (.ok snapshot), _ => ∀ doc ∈ snapshot, doc ∈ documents
  | _, _, _ => True

variable {fromFirestore : DynMap → Result α} {decoders : Set (DynMap → Result α)}
  {documents : Set (String × DynMap)}

/-- An answer, or the empty list in place of a failure. -/
theorem decoded_getList {answer : Result Snapshot} {l : List α} (hf : fromFirestore ∈ decoders)
    (h : ∀ snapshot, answer = .ok snapshot → ∀ doc ∈ snapshot, doc ∈ documents)
    (hl : getList fromFirestore answer = .ok l) : ∀ a ∈ l, Decoded decoders documents a := by
  unfold getList at hl
  split at hl
  · next l' hread =>
    obtain rfl := Except.ok.inj hl
    obtain ⟨snapshot, hsnapshot, hmap⟩ := bind_eq_ok.mp hread
    intro a ha
    obtain ⟨doc, hdoc, hdec⟩ := exists_of_mapM_eq_ok hmap a ha
    exact ⟨fromFirestore, hf, doc, h snapshot hsnapshot doc hdoc, hdec⟩
  · obtain rfl := Except.ok.inj hl
    nofun

end Served

/-! ### The Firestore notifiers -/

section Firestore

open PixsBliss.Providers.FirestoreNotifier

/-- **What a notifier is made of**: its list, its box and the writes on their way hold records with
`T`. -/
structure Made {α : Type} (kind : CopyKind α) (c : Codec) (T : α → Prop)
    (box : CacheService → Option Box) (s : State α) : Prop where
  shown : ∀ l, s.state = .data l → ∀ a ∈ l, T a
  box : ∀ b, box s.cache = some b → Holds kind c T b

/-- A write holds records with `T`. -/
def MadeTask {κ α : Type} (kind : CopyKind α) (c : Codec) (T : α → Prop) : Task κ α → Prop
  | .querying _ _ => True
  | .caching rest l => (∀ op ∈ rest, Writes kind c T op) ∧ ∀ a ∈ l, T a

/-- A turn that keeps it so. -/
abbrev MadeTurn {κ α : Type} (kind : CopyKind α) (c : Codec) (T : α → Prop)
    (box : CacheService → Option Box) : State α × List (Task κ α) → Prop :=
  Turn (Made kind c T box) (MadeTask kind c T)

variable {κ α : Type} {kind : CopyKind α} {c : Codec} {T : α → Prop}
  {box : CacheService → Option Box} {s : State α} {l : List α} {rest : List BoxOp}

/-- Another list, with records with `T`. -/
theorem made_data (h : Made kind c T box s) (hl : ∀ a ∈ l, T a) :
    Made kind c T box { s with state := .data l } where
  shown l' hl' := by
    obtain rfl := AsyncValue.data.inj hl'
    exact hl
  box := h.box

theorem made_loading (h : Made kind c T box s) :
    Made kind c T box { s with state := .loading } where
  shown := nofun
  box := h.box

theorem madeTurn_writeCache (h : Made kind c T box s) (hops : ∀ op ∈ rest, Writes kind c T op)
    (hl : ∀ a ∈ l, T a) : MadeTurn (κ := κ) kind c T box (writeCache l s rest) := by
  cases rest with
  | nil => exact turn_nil (made_data h hl)
  | cons op rest => exact turn_singleton h ⟨hops, hl⟩

/-- One Hive operation of a write. -/
theorem made_apply {op : BoxOp} {now : DateTime} {cache : CacheService} (h : Made kind c T box s)
    (hop : Writes kind c T op) (hbox : box cache = (box s.cache).map (op.apply c now)) :
    Made kind c T box { s with cache := cache } where
  shown := h.shown
  box b hb := by
    obtain ⟨b', hb', rfl⟩ := Option.map_eq_some_iff.mp (hbox.symm.trans hb)
    exact holds_apply now hop (h.box b' hb')

/-! ### Wallpapers -/

section Wallpapers

variable {s : State Wallpaper} {ws : List Wallpaper} {decoders : Set (DynMap → Result Wallpaper)}
  {documents : Set (String × DynMap)}

/-- The decoder on a device with these conversions. -/
def documentDecoder (D : Doubles Float) (z : Zone) (lower : String → String) (d : Device) :
    DynMap → Result Wallpaper :=
  Wallpaper.fromFirestore { d with codec := deviceCodec D z lower }

/-- The decoders on a device that is as in `devices` at one moment and another. -/
def documentDecoders (D : Doubles Float) (z : Zone) (lower : String → String)
    (devices : Set Device) : Set (DynMap → Result Wallpaper) :=
  documentDecoder D z lower '' devices

theorem madeTurn_cacheAndShow {T : Wallpaper → Prop}
    (h : Made wallpaperKind c T CacheService.wallpapersBox s) (hws : ∀ w ∈ ws, T w) :
    MadeTurn wallpaperKind c T CacheService.wallpapersBox (cacheAndShow c ws s) := by
  unfold cacheAndShow
  split
  · exact turn_nil (made_data h hws)
  · exact madeTurn_writeCache h (writes_writeOps hws) hws

/-- The turns of a moment, with its decoder. -/
theorem eachTurn_wallpapers (fromFirestore : DynMap → Result Wallpaper)
    (hread : ∀ w, Decoded decoders documents w → ReadsBack c w) :
    EachTurn (wallpapersProgram c fromFirestore)
      (fun t o s => fromFirestore ∈ decoders ∧ AnswersFrom documents t o s)
      (Made wallpaperKind c (Known (Decoded decoders documents)) CacheService.wallpapersBox)
      (MadeTask wallpaperKind c (Known (Decoded decoders documents))) where
  call k s h := by
    have hask : ∀ k', MadeTurn wallpaperKind c (Known (Decoded decoders documents))
        CacheService.wallpapersBox ({ s with state := .loading }, [.querying k' (queryOf c k')]) :=
      fun k' => turn_singleton (made_loading h) trivial
    cases k with
    | loadWallpapers now =>
      simp only [wallpapersProgram, loadWallpapers]
      split_ifs
      · exact turn_nil (made_data h (readCopy_returns (returns_known hread) h.box))
      · exact hask (.loadWallpapers now)
    | _ => exact hask _
  resume t o s x h ht hC hr := by
    cases t with
    | querying k query =>
      cases o with
      | answered answer =>
        obtain rfl := Option.some.inj hr
        obtain ⟨ws, hws⟩ := getList_ok fromFirestore answer
        have hknown : ∀ w ∈ ws, Known (Decoded decoders documents) w := fun w hw =>
          known_of (decoded_getList hC.1 (by rintro snapshot rfl; exact hC.2) hws w hw)
        cases k with
        | loadWallpapers now | refresh =>
          simp only [afterQuery, hws]
          exact madeTurn_cacheAndShow h hknown
        | _ =>
          simp only [afterQuery, showList, hws]
          exact turn_nil (made_data h hknown)
      | _ => cases hr
    | caching rest ws =>
      obtain ⟨hops, hws⟩ := ht
      cases rest with
      | nil => cases hr
      | cons op rest =>
        cases o with
        | answered answer => cases hr
        | done now =>
          obtain rfl := Option.some.inj hr
          obtain ⟨hop, hrest⟩ := List.forall_mem_cons.mp hops
          exact madeTurn_writeCache (made_apply h hop rfl) hrest hws
        | failed =>
          obtain rfl := Option.some.inj hr
          exact turn_nil (made_data h hws)

/-- A collection with one document. -/
def sampleDocuments : Set (String × DynMap) := {("1", [("url", .str "https://img/1.jpg")])}

/-- The device an hour after the epoch. -/
def sampleLater : Device :=
  { sampleDevice with
    createdNow := fun _ => ⟨hour, true⟩
    updatedNow := fun _ => ⟨hour, true⟩ }

/-- The wallpaper of its document, decoded on the device. -/
def sampleDecoded (d : Device) : Wallpaper :=
  imageWallpaper { d with codec := sampleConversions } "1" "https://img/1.jpg"

theorem dateIn_utc {z : Zone} {t : ℤ} (h : InRange t) : DateIn z ⟨t, true⟩ :=
  ⟨h, fun hutc => by cases hutc⟩

theorem clockIn_samples {d : Device} (hd : d ∈ ({sampleEpoch, sampleLater} : Set Device)) :
    ClockIn sampleZone d := by
  rcases hd with rfl | rfl
  · exact fun _ => ⟨dateIn_utc (by decide), dateIn_utc (by decide)⟩
  · exact fun _ => ⟨dateIn_utc (by decide), dateIn_utc (by decide)⟩

theorem sampleDecoded_onDevice {d : Device} (hd : d ∈ ({sampleEpoch, sampleLater} : Set Device)) :
    OnDevice sampleZone (sampleDecoded d) where
  ints := by
    refine ⟨?_, (fun n hn => by cases hn), ?_, ?_, ?_, ?_, ?_, ?_, ?_⟩ <;>
      norm_num [IsInt64, sampleDecoded, imageWallpaper, unknownCategory]
  created := (clockIn_samples hd _).1
  updated := (clockIn_samples hd _).2

theorem decoded_sample {w : Wallpaper} (h : Decoded (documentDecoders sampleDoubles sampleZone
      String.toLower {sampleEpoch, sampleLater}) sampleDocuments w) : OnDevice sampleZone w := by
  obtain ⟨fromFirestore, ⟨d, hd, rfl⟩, doc, rfl, hw⟩ := h
  have hdoc := fromFirestore_imageDocument { d with codec := sampleConversions } "1"
    (by decide : "https://img/1.jpg" ≠ "")
  obtain rfl : sampleDecoded d = w := Except.ok.inj (hdoc.symm.trans hw)
  exact sampleDecoded_onDevice hd

end Wallpapers

/-! ### Categories -/

section Categories

variable {s : State Category} {cats : List Category}
  {fromFirestore : DynMap → Result Category} {documents : Set (String × DynMap)}

theorem eachTurn_categories
    (hread : ∀ cat, Decoded {fromFirestore} documents cat → CategoryReadsBack c cat) :
    EachTurn (categoriesProgram c fromFirestore) (AnswersFrom documents)
      (Made categoryKind c (Decoded {fromFirestore} documents) CacheService.categoriesBox)
      (MadeTask categoryKind c (Decoded {fromFirestore} documents)) where
  call k s h := by
    have hload : MadeTurn categoryKind c (Decoded {fromFirestore} documents)
        CacheService.categoriesBox (loadCategories c s) := by
      refine ⟨?_, List.forall_mem_singleton.mpr trivial⟩
      unfold loadCategories
      dsimp only
      split_ifs
      · exact made_data h (readCopy_returns (returns_category hread) h.box)
      · exact made_loading h
    cases k with
    | loadCategories => exact hload
    | refresh => exact hload
  resume t o s x h ht hC hr := by
    cases t with
    | querying k query =>
      cases o with
      | answered answer =>
        obtain rfl := Option.some.inj hr
        obtain ⟨cats, hcats⟩ := getList_ok fromFirestore answer
        have hserved := decoded_getList (Set.mem_singleton fromFirestore)
          (by rintro snapshot rfl; exact hC) hcats
        simp only [afterCategoriesQuery, hcats]
        split
        · exact turn_nil (made_data h hserved)
        · exact madeTurn_writeCache h (writes_writeOps hserved) hserved
      | _ => cases hr
    | caching rest cats =>
      obtain ⟨hops, hcats⟩ := ht
      cases rest with
      | nil => cases hr
      | cons op rest =>
        cases o with
        | answered answer => cases hr
        | done now =>
          obtain rfl := Option.some.inj hr
          obtain ⟨hop, hrest⟩ := List.forall_mem_cons.mp hops
          exact madeTurn_writeCache (made_apply h hop rfl) hrest hcats
        | failed =>
          obtain rfl := Option.some.inj hr
          exact turn_nil (made_data h hcats)

/-- A collection with one category. -/
def sampleCategories : Set (String × DynMap) :=
  {("0", [("name", .str "Unknown"), ("slug", .str "unknown")])}

theorem sampleCategories_ints {cat : Category}
    (h : Decoded {Category.fromFirestore sampleConversions} sampleCategories cat) :
    IsInt64 cat.order ∧ ∀ n ∈ cat.wallpaperCount, IsInt64 n := by
  obtain ⟨fromFirestore, rfl, doc, rfl, hcat⟩ := h
  obtain rfl : unknownCategory = cat := Except.ok.inj hcat
  exact ⟨⟨by decide, by decide⟩, nofun⟩

end Categories

end Firestore

/-! ### The Pexels feeds -/

section Feed

open PixsBliss.Providers.PexelsFeed PixsBliss.Services.PexelsApiService
open PixsBliss.Services.PexelsPhotos

/-- A photo of the API, made into a wallpaper at some moment. -/
def OfPhoto (z : Zone) (photos : Set DynMap) (w : Wallpaper) : Prop :=
  ∃ d photo, ClockIn z d ∧ photo ∈ photos ∧ mapPexelsPhotoToWallpaper d photo = .ok w

/-- A fetch gets what the service makes of a reply with photos of the API. -/
def Replied (z : Zone) (photos : Set DynMap) : Task → Outcome → State → Prop
  | .fetching _, .answered a, _ => ∃ texts describe d reply, ClockIn z d ∧
      a = answer texts describe d reply ∧ ∀ status data l, reply = .response status data →
        photosOf data = .ok l → ∀ photo, .map photo ∈ l → photo ∈ photos
  | _, _, _ => True

/-- The wallpapers of an answer. -/
theorem ofPhoto_answer {z : Zone} {photos : Set DynMap} {f : Fetch} {s : State}
    {ws : List Wallpaper} (h : Replied z photos (.fetching f) (.answered (.wallpapers ws)) s) :
    ∀ w ∈ ws, OfPhoto z photos w := by
  obtain ⟨texts, describe, d, reply, hclock, hanswer, hphotos⟩ := h
  obtain ⟨data, rfl, hpage⟩ := answer_wallpapers hanswer.symm
  obtain ⟨l, hl, hws⟩ := bind_eq_ok.mp hpage
  intro w hw
  obtain ⟨v, hv, hphoto⟩ := exists_of_mapM_eq_ok hws w hw
  obtain ⟨photo, hmap, hw⟩ := bind_eq_ok.mp hphoto
  obtain rfl := asMap_ok_iff.mp hmap
  exact ⟨d, photo, hclock, hphotos 200 data l rfl hl photo hv, hw⟩

/-- **What a feed is made of.** -/
structure FeedMade (kind : FeedKind) (c : Codec) (T : Wallpaper → Prop) (s : State) : Prop where
  shown : ∀ w ∈ s.state.wallpapers, T w
  box : ∀ b, kind.copy.box s.cache = some b → Holds wallpaperKind c T b

def FeedTask (c : Codec) (T : Wallpaper → Prop) : Task → Prop
  | .caching rest _ => ∀ op ∈ rest, Writes wallpaperKind c T op
  | _ => True

abbrev FeedTurn (kind : FeedKind) (c : Codec) (T : Wallpaper → Prop) :
    State × List Task → Prop :=
  Turn (FeedMade kind c T) (FeedTask c T)

variable {kind : FeedKind} {c : Codec} {T : Wallpaper → Prop} {s : State}

theorem feedTask_finish (awaited : Bool) : ∀ t ∈ finish awaited, FeedTask c T t := by
  cases awaited with
  | false => exact List.forall_mem_nil _
  | true => exact List.forall_mem_singleton.mpr trivial

theorem feedTask_writeCache (awaited : Bool) {ops : List BoxOp}
    (hops : ∀ op ∈ ops, Writes wallpaperKind c T op) :
    ∀ t ∈ writeCache awaited ops, FeedTask c T t := by
  cases ops with
  | nil => exact feedTask_finish awaited
  | cons op ops => exact List.forall_mem_singleton.mpr hops

theorem feedTurn_fetch (h : FeedMade kind c T s) (refresh awaited : Bool) :
    FeedTurn kind c T (fetchAndUpdateWallpapers kind refresh awaited s) :=
  ⟨⟨h.shown, h.box⟩, List.forall_mem_singleton.mpr trivial⟩

theorem feedTurn_load (hret : Returns wallpaperKind c T T) (h : FeedMade kind c T s)
    (refresh : Bool) (now : DateTime) :
    FeedTurn kind c T (loadWallpapers kind c refresh now s) := by
  unfold loadWallpapers
  split_ifs
  · exact ⟨h, List.forall_mem_nil _⟩
  · have hcopy : ∀ w ∈ kind.copy.getCached c s.cache, T w := by
      rw [WallpaperCopy.getCached_eq]
      exact readCopy_returns hret h.box
    refine feedTurn_fetch ?_ true false
    exact ⟨hcopy, h.box⟩
  · exact feedTurn_fetch h refresh true

theorem feedTurn_applyPage (h : FeedMade kind c T s) (f : Fetch) {ws : List Wallpaper}
    (hws : ∀ w ∈ ws, T w) : FeedTurn kind c T (applyPage kind c f ws s) := by
  have hupdated : ∀ w ∈ updated f.refresh s ws, T w := by
    unfold updated
    split_ifs
    · exact hws
    · exact List.forall_mem_append.mpr ⟨h.shown, hws⟩
  refine ⟨⟨hupdated, h.box⟩, ?_⟩
  simp only [applyPage]
  split
  · exact feedTask_finish _
  · exact feedTask_writeCache _ (writes_writeOps hupdated)

/-- One Hive operation of a write, or of a refresh. -/
theorem feedMade_storeOp (h : FeedMade kind c T s) {op : BoxOp}
    (hop : Writes wallpaperKind c T op) (now : DateTime) :
    FeedMade kind c T (storeOp kind c op now s) where
  shown := h.shown
  box b hb := by
    rw [storeOp, WallpaperCopy.box_withBox] at hb
    obtain ⟨b', hb', rfl⟩ := Option.map_eq_some_iff.mp hb
    exact holds_apply now hop (h.box b' hb')

theorem feedTurn_refreshAfterClear (hret : Returns wallpaperKind c T T) (h : FeedMade kind c T s) :
    FeedTurn kind c T (refreshAfterClear kind c s) := by
  refine feedTurn_load hret ?_ true _
  exact ⟨h.shown, h.box⟩

theorem feedTurn_call (hret : Returns wallpaperKind c T T) (h : FeedMade kind c T s) (k : Call) :
    FeedTurn kind c T ((program kind c).call k s) := by
  cases k with
  | loadWallpapers refresh now => exact feedTurn_load hret h refresh now
  | refresh => exact turn_singleton h trivial
  | loadMore now =>
    simp only [program]
    split_ifs
    · exact feedTurn_load hret h false now
    · exact turn_nil h

theorem feedTurn_resume (hret : Returns wallpaperKind c T T) (h : FeedMade kind c T s) {t : Task}
    {o : Outcome} {x : State × List Task} (ht : FeedTask c T t)
    (ho : ∀ f ws, t = .fetching f → o = .answered (.wallpapers ws) → ∀ w ∈ ws, T w)
    (hr : (program kind c).resume t o s = some x) : FeedTurn kind c T x := by
  cases t with
  | fetching f =>
    cases o with
    | answered a =>
      cases a with
      | wallpapers ws =>
        obtain rfl := Option.some.inj hr
        exact feedTurn_applyPage h f (ho f ws rfl rfl)
      | exception text =>
        obtain rfl := Option.some.inj hr
        exact ⟨⟨h.shown, h.box⟩, feedTask_finish _⟩
    | _ => cases hr
  | caching rest awaited =>
    cases rest with
    | nil => cases hr
    | cons op rest =>
      obtain ⟨hop, hrest⟩ := List.forall_mem_cons.mp ht
      cases o with
      | answered a => cases hr
      | done now =>
        obtain rfl := Option.some.inj hr
        exact ⟨feedMade_storeOp h hop now, feedTask_writeCache _ hrest⟩
      | failed =>
        obtain rfl := Option.some.inj hr
        exact ⟨h, feedTask_finish _⟩
  | clearing =>
    cases o with
    | answered a => cases hr
    | done now =>
      obtain rfl := Option.some.inj hr
      exact feedTurn_refreshAfterClear hret (feedMade_storeOp h .clear now)
    | failed =>
      obtain rfl := Option.some.inj hr
      exact feedTurn_refreshAfterClear hret h
  | returning =>
    cases o with
    | done now =>
      obtain rfl := Option.some.inj hr
      exact ⟨⟨h.shown, h.box⟩, List.forall_mem_nil _⟩
    | _ => cases hr

/-- A wallpaper of a photo is one of the device, and the cache gives it back as it is. -/
theorem ofPhoto_onDevice {D : Doubles Float} {z : Zone} {photos : Set DynMap}
    (hphotos : ∀ photo ∈ photos, ∀ e ∈ photo, IsJson D.ReadsBack e.2) {w : Wallpaper}
    (h : OfPhoto z photos w) : OnDevice z w ∧ fromCache w = w := by
  obtain ⟨d, photo, hclock, hphoto, hw⟩ := h
  obtain ⟨hdevice, hsource, -⟩ := photo_onDevice hclock (hphotos photo hphoto) w hw
  exact ⟨hdevice, source_reset_iff.mpr hsource⟩

theorem eachTurn_feed (kind : FeedKind) (D : Doubles Float) (z : Zone) (lower : String → String)
    {photos : Set DynMap} (hphotos : ∀ photo ∈ photos, ∀ e ∈ photo, IsJson D.ReadsBack e.2) :
    EachTurn (program kind (deviceCodec D z lower)) (Replied z photos)
      (FeedMade kind (deviceCodec D z lower) (OfPhoto z photos))
      (FeedTask (deviceCodec D z lower) (OfPhoto z photos)) := by
  have hret : Returns wallpaperKind (deviceCodec D z lower) (OfPhoto z photos)
      (OfPhoto z photos) := by
    intro x hx
    obtain ⟨hdevice, hsame⟩ := ofPhoto_onDevice hphotos hx
    have hread : ReadsBack (deviceCodec D z lower) x := readsBack_wallpaper hdevice
    exact ⟨x, (decodeWallpaper_encodeWallpaper hread).trans (congrArg Except.ok hsame), rfl, hx⟩
  refine ⟨fun k s hs => feedTurn_call hret hs k, fun t o s x hs ht hC hr => ?_⟩
  exact feedTurn_resume hret hs ht (by rintro f ws rfl rfl; exact ofPhoto_answer hC) hr

/-- The photos of the sample page. -/
def samplePhotos : Set DynMap := {photo | .map photo = samplePhoto 9 ∨ .map photo = samplePhoto 7}

theorem samplePhotos_isJson :
    ∀ photo ∈ samplePhotos, ∀ e ∈ photo, IsJson sampleDoubles.ReadsBack e.2 := by
  have hphoto : ∀ n : ℤ, IsInt64 n → ∀ photo, .map photo = samplePhoto n → ∀ e ∈ photo,
      IsJson sampleDoubles.ReadsBack e.2 := by
    intro n hn photo h
    have hjson : IsJson sampleDoubles.ReadsBack (.map photo) := h ▸ isJson_samplePhoto hn
    cases hjson with
    | map _ he => exact he
  rintro photo (h | h)
  · exact hphoto 9 ⟨by decide, by decide⟩ photo h
  · exact hphoto 7 ⟨by decide, by decide⟩ photo h

theorem replied_samplePage (t : Task) (s : State) : Replied sampleZone samplePhotos t
    (.answered (answer curatedTexts (fun _ => "") sampleEpoch (.response 200 samplePage))) s := by
  cases t with
  | fetching f =>
    refine ⟨curatedTexts, fun _ => "", sampleEpoch, .response 200 samplePage,
      clockIn_samples (Or.inl rfl), rfl, ?_⟩
    rintro status data l ⟨⟩ hl photo hphoto
    obtain rfl := Except.ok.inj hl
    rcases List.mem_cons.mp hphoto with h | h
    · exact Or.inl h
    · exact Or.inr (List.mem_singleton.mp h)
  | _ => trivial

end Feed

end PixsBliss.Providers.Provenance
