import PixsBliss.Services.CacheText

/-! # The order of a cached list

A list that is written and read back comes in the order of the keys of the box, which is ascending,
and without a wallpaper that has the id `last_update`, whose entry is overwritten by the stamp.

* `ids_readCopy_write`: the ids that are read, of any list with distinct ids.
* `ids_readCopy_write_iff`: they are the ids that were written, in the same order, iff these ascend
  and do not contain the reserved key.
* `getCached_ids_iff`: the same for the four copies of the cache service. -/

namespace PixsBliss.Services.CacheOrder

open PixsBliss.Lib.Store PixsBliss.Lib.Utf16 PixsBliss.Models PixsBliss.Models.Json
open PixsBliss.Services.Cache
open PixsBliss.Services.CacheText (IsInt64 isJson_category readsBack_wallpaper readsBackJson
  sampleConversions sample_onDevice)

/-- The ids ascend as Dart compares strings. -/
def Ascending (ids : List String) : Prop := (ids.map Key.mk).Pairwise (· < ·)

instance (ids : List String) : Decidable (Ascending ids) :=
  inferInstanceAs (Decidable (List.Pairwise _ _))

theorem map_str_injective : Function.Injective (List.map Key.str) :=
  List.map_injective_iff.mpr fun _ _ h => congrArg Key.mk h

theorem map_str_map_mk (ids : List String) : (ids.map Key.mk).map Key.str = ids := by
  rw [List.map_map]
  exact List.map_id ids

/-! ### One kind of record -/

section Generic

variable {α : Type} {kind : CopyKind α} {c : Codec} {now : DateTime} {l : List α} {b : Box}

/-- The keys that are read after a write: the ids, without the reserved one. -/
theorem mem_recordKeys_write {x : Key} :
    x ∈ recordKeys kind (applyAll c now (writeOps kind c l) b).keys ↔
      x.str ∈ l.map kind.key ∧ ¬ (kind.stamped = true ∧ x = lastUpdateKey) := by
  rw [mem_recordKeys, mem_keys_write]
  constructor
  · rintro ⟨h | h, hn⟩
    · exact ⟨h, hn⟩
    · exact absurd h hn
  · rintro ⟨h, hn⟩
    exact ⟨Or.inl h, hn⟩

/-- The ids that are read after a write. -/
theorem ids_readCopy_write (hd : (l.map kind.key).Nodup)
    (hr : ∀ a ∈ l, ∃ a', kind.decode c (kind.encode c a) = .ok a' ∧ kind.key a' = kind.key a) :
    (readCopy kind c (writeCopy kind c now l (some b))).map kind.key =
      (recordKeys kind (applyAll c now (writeOps kind c l) b).keys).map Key.str := by
  refine (readCopy_ok (P := fun _ => True) fun x hx => ?_).1
  obtain ⟨hx, hn⟩ := mem_recordKeys_write.mp hx
  obtain ⟨a, ha, hax⟩ := List.mem_map.mp hx
  obtain ⟨a', hdec, hkey⟩ := hr a ha
  obtain rfl : x = ⟨kind.key a⟩ := congrArg Key.mk hax.symm
  have hk : kind.stamped = true → kind.key a ≠ lastUpdateKey.str :=
    fun hs he => hn ⟨hs, congrArg Key.mk he⟩
  exact ⟨kind.encode c a, a', get_write hd ha hk, hdec, hkey, trivial⟩

/-- **The ids come back as they were written iff they ascend and none is the reserved key.** -/
theorem ids_readCopy_write_iff (hd : (l.map kind.key).Nodup)
    (hr : ∀ a ∈ l, ∃ a', kind.decode c (kind.encode c a) = .ok a' ∧ kind.key a' = kind.key a) :
    (readCopy kind c (writeCopy kind c now l (some b))).map kind.key = l.map kind.key ↔
      Ascending (l.map kind.key) ∧
        (kind.stamped = true → lastUpdateKey.str ∉ l.map kind.key) := by
  have hasc : (recordKeys kind (applyAll c now (writeOps kind c l) b).keys).Pairwise (· < ·) :=
    ascending_recordKeys
  rw [ids_readCopy_write hd hr]
  constructor
  · intro h
    have hK : (l.map kind.key).map Key.mk =
        recordKeys kind (applyAll c now (writeOps kind c l) b).keys :=
      map_str_injective ((map_str_map_mk _).trans h.symm)
    refine ⟨by unfold Ascending; rw [hK]; exact hasc, fun hs hm => ?_⟩
    have hx : lastUpdateKey ∈ recordKeys kind (applyAll c now (writeOps kind c l) b).keys := by
      rw [← hK]
      exact List.mem_map.mpr ⟨lastUpdateKey.str, hm, rfl⟩
    exact (mem_recordKeys_write.mp hx).2 ⟨hs, rfl⟩
  · rintro ⟨hl, hn⟩
    have hK : recordKeys kind (applyAll c now (writeOps kind c l) b).keys =
        (l.map kind.key).map Key.mk := by
      refine eq_of_ascending hasc hl fun x => ?_
      have hx : x ∈ (l.map kind.key).map Key.mk ↔ x.str ∈ l.map kind.key := by
        obtain ⟨x⟩ := x
        simp
      rw [mem_recordKeys_write, hx, and_iff_left_iff_imp]
      rintro hm ⟨hs, rfl⟩
      exact hn hs hm
    rw [hK, map_str_map_mk]

end Generic

/-! ### The four copies -/

theorem decode_wallpaperKind {c : Codec} {ws : List Wallpaper} (h : ∀ w ∈ ws, ReadsBack c w) :
    ∀ w ∈ ws, ∃ w', wallpaperKind.decode c (wallpaperKind.encode c w) = .ok w' ∧
      wallpaperKind.key w' = wallpaperKind.key w := fun w hw =>
  ⟨_, decodeWallpaper_encodeWallpaper (h w hw), rfl⟩

theorem decode_categoryKind {c : Codec} {cats : List Category}
    (h : ∀ cat ∈ cats, CategoryReadsBack c cat) :
    ∀ cat ∈ cats, ∃ cat', categoryKind.decode c (categoryKind.encode c cat) = .ok cat' ∧
      categoryKind.key cat' = categoryKind.key cat := fun cat hcat =>
  ⟨cat, decodeCategory_encodeCategory (h cat hcat), rfl⟩

/-- **Exactly the lists the cache gives back**: wallpapers with ascending ids other than
`last_update`, and categories with ascending ids. -/
theorem getCached_ids_iff (c : Codec) (now : DateTime) (wb cb pb tb : Box)
    (ws : List Wallpaper) (cats : List Category) (hws : (ws.map Wallpaper.id).Nodup)
    (hcats : (cats.map Category.id).Nodup) (hrw : ∀ w ∈ ws, ReadsBack c w)
    (hrc : ∀ cat ∈ cats, CategoryReadsBack c cat) :
    (∀ copy : WallpaperCopy,
      (copy.getCached c (copy.cacheList c now ws (.opened wb cb pb tb))).map Wallpaper.id =
          ws.map Wallpaper.id ↔
        Ascending (ws.map Wallpaper.id) ∧ "last_update" ∉ ws.map Wallpaper.id) ∧
    ((((CacheService.opened wb cb pb tb).cacheCategories c now cats).getCachedCategories c).map
        Category.id = cats.map Category.id ↔ Ascending (cats.map Category.id)) := by
  constructor
  · intro copy
    have h (b : Box) :
        (readCopy wallpaperKind c (writeCopy wallpaperKind c now ws (some b))).map Wallpaper.id =
            ws.map Wallpaper.id ↔
          Ascending (ws.map Wallpaper.id) ∧ (true = true → "last_update" ∉ ws.map Wallpaper.id) :=
      ids_readCopy_write_iff hws (decode_wallpaperKind hrw)
    simp only [forall_const] at h
    rw [copy.getCached_eq, copy.cacheList_eq, copy.box_withBox]
    cases copy with
    | wallpapers => exact h wb
    | pexelsWallpapers => exact h pb
    | pexelsTrendingWallpapers => exact h tb
  · have h : (readCopy categoryKind c (writeCopy categoryKind c now cats (some cb))).map
            Category.id = cats.map Category.id ↔
        Ascending (cats.map Category.id) ∧
          (false = true → lastUpdateKey.str ∉ cats.map Category.id) :=
      ids_readCopy_write_iff hcats (decode_categoryKind hrc)
    simp only [Bool.false_eq_true, false_implies, and_true] at h
    exact h

/-- A category by its id. -/
def categoryOf (id : String) : Category := { (sampleWallpaper id "pexels").category with id := id }

theorem categoryOf_readsBack (id : String) :
    CategoryReadsBack sampleConversions (categoryOf id) := by
  have horder : IsInt64 0 := ⟨by decide, by decide⟩
  exact readsBackJson (isJson_category horder fun _ hn => by cases hn)

/-- Two wallpapers in ascending order come back in order, and two categories that are not do not. -/
theorem getCached_ids_samples :
    (∀ copy : WallpaperCopy,
      (copy.getCached sampleConversions (copy.cacheList sampleConversions ⟨0, true⟩
        [sampleWallpaper "a" "pexels", sampleWallpaper "b" "pexels"]
        (.opened .empty .empty .empty .empty))).map Wallpaper.id = ["a", "b"] ↔
        Ascending ["a", "b"] ∧ "last_update" ∉ ["a", "b"]) ∧
    ((((CacheService.opened .empty .empty .empty .empty).cacheCategories sampleConversions
        ⟨0, true⟩ [categoryOf "ocean", categoryOf "city"]).getCachedCategories
          sampleConversions).map Category.id = ["ocean", "city"] ↔
      Ascending ["ocean", "city"]) := by
  refine getCached_ids_iff sampleConversions ⟨0, true⟩ .empty .empty .empty .empty
    [sampleWallpaper "a" "pexels", sampleWallpaper "b" "pexels"]
    [categoryOf "ocean", categoryOf "city"] (by decide) (by decide) ?_ ?_
  · exact List.forall_mem_cons.mpr ⟨readsBack_wallpaper (sample_onDevice "a" "pexels"),
      List.forall_mem_singleton.mpr (readsBack_wallpaper (sample_onDevice "b" "pexels"))⟩
  · exact List.forall_mem_cons.mpr ⟨categoryOf_readsBack "ocean",
      List.forall_mem_singleton.mpr (categoryOf_readsBack "city")⟩

theorem samples_readBack : ∀ w ∈ [sampleWallpaper "a" "pexels", sampleWallpaper "b" "pexels"],
    ReadsBack (sampleCodec ["a", "b"]) w := by
  simp only [List.mem_cons, List.not_mem_nil, or_false]
  rintro w (rfl | rfl) <;> exact sample_readsBack (by simp) _

/-- **Two wallpapers that were cached as `b`, `a` come back as `a`, `b`.** -/
theorem cached_samples_reordered :
    (((CacheService.opened .empty .empty .empty .empty).cacheWallpapers (sampleCodec ["a", "b"])
        ⟨0, true⟩ [sampleWallpaper "b" "pexels", sampleWallpaper "a" "pexels"]).getCachedWallpapers
          (sampleCodec ["a", "b"])).map Wallpaper.id = ["a", "b"] ∧
      [sampleWallpaper "b" "pexels", sampleWallpaper "a" "pexels"].map Wallpaper.id ≠
        ["a", "b"] := by
  have hr : ∀ w ∈ [sampleWallpaper "b" "pexels", sampleWallpaper "a" "pexels"],
      ReadsBack (sampleCodec ["a", "b"]) w :=
    fun w hw => samples_readBack w (by simpa [or_comm] using hw)
  refine ⟨?_, by decide⟩
  refine (ids_readCopy_write ?_ (decode_wallpaperKind hr)).trans ?_
  · decide
  · decide

end PixsBliss.Services.CacheOrder
