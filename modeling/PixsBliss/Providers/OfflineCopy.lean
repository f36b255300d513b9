import PixsBliss.Lib.Flight
import PixsBliss.Providers.FirestoreNotifier

/-! # The cached copy after a failed query

When a query throws, the service returns the empty list, so the notifier takes the failure for a
success: it caches the empty list, whose write clears the box, and shows it. Its catch, which would
show the cached copy, is never reached (`getList_ok`).

* `run_after_failure`: what a call of `loadWallpapers` or `refresh` that asks the service leaves
  when the query fails.
* `failed_query_keeps_copy_iff`: so the copy of the wallpapers survives, and `loadWallpapers` shows
  it, exactly when the service is not asked (the copy is fresh), and a `refresh` keeps the copy
  exactly when the clear itself fails; the categories never survive.
* `failed_refresh_destroys_copy`: a refresh that empties a copy. -/

namespace PixsBliss.Providers.OfflineCopy

open PixsBliss.Lib.Async PixsBliss.Lib.Flight PixsBliss.Lib.Store PixsBliss.Models
open PixsBliss.Lib.Utf16 PixsBliss.Models.Json PixsBliss.Services.Cache
open PixsBliss.Services.FirestoreService
open PixsBliss.Providers.FirestoreNotifier

/-- A query that is answered throws inside the service: the query itself, or the decoding. -/
def Failing {κ α : Type} (fromFirestore : DynMap → Result α) :
    Task κ α → Outcome → State α → Prop
  | .querying _ _, .answered answer, _ => ∃ e, readList fromFirestore answer = .error e
  | _, _, _ => True

/-- A call that runs alone to its end, while every query fails. -/
structure FailedCall {κ α : Type} (P : Program (State α) (Task κ α) κ Outcome)
    (fromFirestore : DynMap → Result α) (s : State α) (k : κ) (es : List (Event κ Outcome))
    (w : World (State α) (Task κ α)) : Prop where
  alone : Program.Resumptions es
  failing : P.Each (Meets (Failing fromFirestore)) ⟨s, []⟩ (.call k :: es)
  run : P.run ⟨s, []⟩ (.call k :: es) = some w
  done : w.tasks = []

/-- The query of a call is answered, and the clear of the write after it fails. -/
def ClearFailed {κ : Type} (es : List (Event κ Outcome)) : Prop :=
  ∃ answer, es = [.resume 0 (.answered answer), .resume 0 .failed]

/-- The cached wallpapers are as before and, after `loadWallpapers`, shown. -/
def WallpapersKept (c : Codec) (k : WallpapersCall) (s : State Wallpaper)
    (w : World (State Wallpaper) WallpapersTask) : Prop :=
  w.shared.cache.wallpapersBox = s.cache.wallpapersBox ∧
    ((∃ now, k = .loadWallpapers now) → w.shared.state = .data (s.cache.getCachedWallpapers c))

/-- The cached categories are as before, and shown. -/
def CategoriesKept (c : Codec) (s : State Category) (w : World (State Category) CategoriesTask) :
    Prop :=
  w.shared.cache.categoriesBox = s.cache.categoriesBox ∧
    w.shared.state = .data (s.cache.getCachedCategories c)

/-! ### Boxes without records -/

section Empty

variable {α : Type} {kind : CopyKind α} {c : Codec} {b : Box}

theorem readCopy_eq_nil (h : recordKeys kind b.keys = []) : readCopy kind c (some b) = [] := by
  have hread : (readCopy kind c (some b)).map kind.key = (recordKeys kind b.keys).map Key.str :=
    (readCopy_ok (P := fun _ => True) (by rw [h]; simp)).1
  rw [h] at hread
  exact List.map_eq_nil_iff.mp hread

theorem readCopy_empty : readCopy kind c (some .empty) = [] := readCopy_eq_nil rfl

theorem readCopy_stamp (hs : kind.stamped = true) (text : String) :
    readCopy kind c (some (SortedStore.empty.put lastUpdateKey text)) = [] := by
  refine readCopy_eq_nil ?_
  refine List.eq_nil_iff_forall_not_mem.mpr fun x hx => ?_
  obtain ⟨hk, hn⟩ := mem_recordKeys.mp hx
  rcases SortedStore.mem_keys_put.mp hk with rfl | hk
  · exact hn ⟨hs, rfl⟩
  · simp at hk

theorem isOpen_of_readCopy_ne_nil {b : Option Box} (h : readCopy kind c b ≠ []) :
    ∃ b', b = some b' := by
  cases b with
  | none => exact absurd rfl h
  | some b' => exact ⟨b', rfl⟩

end Empty

/-! ### A call alone -/

section Alone

variable {κ α : Type} {P : Program (State α) (Task κ α) κ Outcome}
  {fromFirestore : DynMap → Result α} {s s' : State α} {k k' : κ} {q : Query}
  {es : List (Event κ Outcome)} {w : World (State α) (Task κ α)}

/-- A call that asks nothing is over. -/
theorem FailedCall.of_nil (h : FailedCall P fromFirestore s k es w) (hc : P.call k s = (s', [])) :
    w = ⟨s', []⟩ := by
  obtain ⟨w₁, hs, hr⟩ := Program.run_cons_some.mp h.run
  rw [Program.step_call, hc] at hs
  obtain rfl := Option.some.inj hs
  exact (Program.run_alone_nil h.alone hr).2

/-- A call that asks the service goes on with the failing answer. -/
theorem FailedCall.of_querying (h : FailedCall P fromFirestore s k es w)
    (hc : P.call k s = (s', [.querying k' q])) : ∃ o s₁ ts es₁, es = .resume 0 o :: es₁ ∧
      Program.Resumptions es₁ ∧ Failing fromFirestore (.querying k' q) o s' ∧
      P.resume (.querying k' q) o s' = some (s₁, ts) ∧ P.run ⟨s₁, ts⟩ es₁ = some w := by
  have hstep : P.step ⟨s, []⟩ (.call k) = some ⟨s', [.querying k' q]⟩ := by
    rw [Program.step_call, hc]
    rfl
  obtain ⟨w₁, hs, hr⟩ := Program.run_cons_some.mp h.run
  obtain rfl := Option.some.inj (hstep.symm.trans hs)
  obtain ⟨o, s₁, ts, es₁, rfl, hres, hr₁⟩ := Program.run_alone_cons h.alone hr h.done
  have hf := ((Program.each_cons hstep).mp h.failing).2
  have hfo : Failing fromFirestore (.querying k' q) o s' :=
    (hf _ (Program.step_resume_of (l := []) (r := []) hres)).1 0 o _ rfl rfl
  exact ⟨o, s₁, ts, es₁, rfl, h.alone.tail, hfo, hres, hr₁⟩

end Alone

/-! ### Wallpapers -/

section Wallpapers

variable {c : Codec} {fromFirestore : DynMap → Result Wallpaper} {s s' : State Wallpaper}
  {w : World (State Wallpaper) WallpapersTask} {es : List (Event WallpapersCall Outcome)}
  {k : WallpapersCall} {q : Query} {b : Box} {o : Outcome} {ts : List WallpapersTask}

/-- After a failed query the empty list is written. -/
theorem resume_failing (hk : (∃ now, k = .loadWallpapers now) ∨ k = .refresh)
    (hb : s.cache.wallpapersBox = some b) (hf : Failing fromFirestore (.querying k q) o s)
    (hr : (wallpapersProgram c fromFirestore).resume (.querying k q) o s = some (s', ts)) :
    s' = s ∧ ts = [.caching [.clear, .putNow lastUpdateKey] []] ∧
      ∃ answer, o = .answered answer := by
  cases o with
  | done now => simp [wallpapersProgram] at hr
  | failed => simp [wallpapersProgram] at hr
  | answered answer =>
    obtain ⟨e, he⟩ := hf
    have hget : getList fromFirestore answer = .ok [] := getList_error fromFirestore he
    have hshow : cacheAndShow c [] s = (s, [.caching [.clear, .putNow lastUpdateKey] []]) := by
      unfold cacheAndShow
      rw [hb]
      rfl
    have hafter : afterQuery c fromFirestore k answer s = cacheAndShow c [] s := by
      rcases hk with ⟨now, rfl⟩ | rfl
      · simp only [afterQuery, hget]
      · simp only [afterQuery, hget]
    have hpair : (s', ts) = (s, [.caching [.clear, .putNow lastUpdateKey] []]) :=
      (Option.some.inj hr).symm.trans (hafter.trans hshow)
    obtain ⟨rfl, rfl⟩ := Prod.mk.inj hpair
    exact ⟨rfl, rfl, answer, rfl⟩

/-- A Hive operation fails, and the list is shown; or it completes, and the write goes on. -/
theorem resume_caching {op : BoxOp} {rest : List BoxOp} {ws : List Wallpaper}
    (hr : (wallpapersProgram c fromFirestore).resume (.caching (op :: rest) ws) o s =
      some (s', ts)) :
    (o = .failed ∧ s' = { s with state := .data ws } ∧ ts = []) ∨
    ∃ now, o = .done now ∧ (s', ts) = writeCache ws
      { s with cache :=
        { s.cache with wallpapersBox := s.cache.wallpapersBox.map (op.apply c now) } } rest := by
  cases o with
  | answered answer => simp [wallpapersProgram] at hr
  | done now => exact Or.inr ⟨now, rfl, (Option.some.inj hr).symm⟩
  | failed =>
    obtain ⟨rfl, rfl⟩ := Prod.mk.inj (Option.some.inj hr)
    exact Or.inl ⟨rfl, rfl, rfl⟩

/-- **What a failed query leaves**: the empty list is shown, and the box is without a record unless
the clear fails. -/
theorem run_after_failure (hk : (∃ now, k = .loadWallpapers now) ∨ k = .refresh)
    (hb : s.cache.wallpapersBox = some b) (hc : (wallpapersProgram c fromFirestore).call k s =
      (s', [.querying k q])) (hs : s'.cache = s.cache)
    (h : FailedCall (wallpapersProgram c fromFirestore) fromFirestore s k es w) :
    w.shared.state = .data [] ∧
      (ClearFailed es ∧ w.shared.cache = s.cache ∨
        ¬ ClearFailed es ∧ readCopy wallpaperKind c w.shared.cache.wallpapersBox = []) := by
  obtain ⟨o, s₁, ts, es₁, rfl, he, hf, hres, hr⟩ := h.of_querying hc
  obtain ⟨rfl, rfl, answer, rfl⟩ := resume_failing hk (hs ▸ hb) hf hres
  obtain ⟨o₂, s₂, ts₂, es₂, rfl, hres, hr⟩ := Program.run_alone_cons he hr h.done
  rcases resume_caching hres with ⟨rfl, rfl, rfl⟩ | ⟨now, rfl, hw⟩
  · obtain ⟨rfl, rfl⟩ := Program.run_alone_nil he.tail hr
    exact ⟨rfl, Or.inl ⟨⟨answer, rfl⟩, hs⟩⟩
  · -- the clear went through: what remains is the stamp
    have hn : ¬ ClearFailed (.resume 0 (.answered answer) :: .resume 0 (.done now) :: es₂ :
        List (Event WallpapersCall Outcome)) := by
      rintro ⟨answer', ha⟩
      simp at ha
    obtain ⟨rfl, rfl⟩ := Prod.mk.inj hw
    obtain ⟨o₃, s₃, ts₃, es₃, rfl, hres, hr⟩ := Program.run_alone_cons he.tail hr h.done
    rw [hs, hb] at hres
    rcases resume_caching hres with ⟨rfl, rfl, rfl⟩ | ⟨now', rfl, hw⟩
    · obtain ⟨rfl, rfl⟩ := Program.run_alone_nil he.tail.tail hr
      exact ⟨rfl, Or.inr ⟨hn, readCopy_empty⟩⟩
    · obtain ⟨rfl, rfl⟩ := Prod.mk.inj hw
      obtain ⟨rfl, rfl⟩ := Program.run_alone_nil he.tail.tail hr
      exact ⟨rfl, Or.inr ⟨hn, readCopy_stamp rfl _⟩⟩

/-- A copy that is not stale is shown without a query. -/
theorem call_fresh {now : DateTime} (hc : s.cache.getCachedWallpapers c ≠ [])
    (hs : s.cache.isCacheStale c now = false) :
    (wallpapersProgram c fromFirestore).call (.loadWallpapers now) s =
      ({ s with state := .data (s.cache.getCachedWallpapers c) }, []) := by
  show loadWallpapers c now s = _
  unfold loadWallpapers
  rw [if_pos]
  simp [hc, hs]

/-- A stale copy is not shown, and the service is asked. -/
theorem call_stale {now : DateTime} (hs : s.cache.isCacheStale c now = true) :
    (wallpapersProgram c fromFirestore).call (.loadWallpapers now) s =
      ({ s with state := .loading }, [.querying (.loadWallpapers now) getWallpapers]) := by
  show loadWallpapers c now s = _
  unfold loadWallpapers
  rw [if_neg]
  simp [hs]

/-- A call that asked the service keeps the copy only if it is a refresh whose clear fails. -/
theorem wallpapersKept_iff_of_querying (hk : (∃ now, k = .loadWallpapers now) ∨ k = .refresh)
    (hne : s.cache.getCachedWallpapers c ≠ []) (hc : (wallpapersProgram c fromFirestore).call k s =
      ({ s with state := .loading }, [.querying k q]))
    (h : FailedCall (wallpapersProgram c fromFirestore) fromFirestore s k es w) :
    WallpapersKept c k s w ↔ k = .refresh ∧ ClearFailed es := by
  obtain ⟨b, hb⟩ := isOpen_of_readCopy_ne_nil hne
  obtain ⟨hstate, hbox⟩ := run_after_failure hk hb hc rfl h
  constructor
  · rintro ⟨hkept, hshown⟩
    rcases hk with hk | rfl
    · have hdata := hstate.symm.trans (hshown hk)
      injection hdata with hdata
      exact absurd hdata.symm hne
    · refine ⟨rfl, ?_⟩
      rcases hbox with ⟨hf, -⟩ | ⟨-, hempty⟩
      · exact hf
      · rw [hkept] at hempty
        exact absurd hempty hne
  · rintro ⟨rfl, hf⟩
    rcases hbox with ⟨-, hcache⟩ | ⟨hn, -⟩
    · refine ⟨congrArg CacheService.wallpapersBox hcache, ?_⟩
      rintro ⟨now, hnow⟩
      cases hnow
    · exact absurd hf hn

theorem wallpapersKept_iff (hk : (∃ now, k = .loadWallpapers now) ∨ k = .refresh)
    (hne : s.cache.getCachedWallpapers c ≠ [])
    (h : FailedCall (wallpapersProgram c fromFirestore) fromFirestore s k es w) :
    WallpapersKept c k s w ↔
      (∃ now, k = .loadWallpapers now ∧ s.cache.isCacheStale c now = false) ∨
        (k = .refresh ∧ ClearFailed es) := by
  rcases hk with ⟨now, rfl⟩ | rfl
  · by_cases hs : s.cache.isCacheStale c now = true
    · rw [wallpapersKept_iff_of_querying (Or.inl ⟨now, rfl⟩) hne (call_stale hs) h]
      simp [hs]
    · have hs : s.cache.isCacheStale c now = false := by simpa using hs
      obtain rfl := h.of_nil (call_fresh hne hs)
      exact ⟨fun _ => Or.inl ⟨now, rfl, hs⟩, fun _ => ⟨rfl, fun _ => rfl⟩⟩
  · rw [wallpapersKept_iff_of_querying (Or.inr rfl) hne rfl h]
    simp

end Wallpapers

/-! ### Categories -/

section Categories

variable {c : Codec} {fromFirestore : DynMap → Result Category} {s : State Category}
  {w : World (State Category) CategoriesTask} {es : List (Event CategoriesCall Outcome)}
  {k : CategoriesCall} {b : Box}

/-- After a failed query the empty list is written, by a clear alone, and shown. -/
theorem categories_shown_nil (hb : s.cache.categoriesBox = some b)
    (h : FailedCall (categoriesProgram c fromFirestore) fromFirestore s k es w) :
    w.shared.state = .data [] := by
  obtain ⟨s', hs, hc⟩ : ∃ s' : State Category, s'.cache = s.cache ∧
      (categoriesProgram c fromFirestore).call k s =
        (s', [.querying .loadCategories getCategories]) := by
    have hload : (loadCategories c s).1.cache = s.cache := by
      unfold loadCategories
      dsimp only
      split_ifs <;> rfl
    exact ⟨_, hload, by cases k <;> rfl⟩
  obtain ⟨o, s₁, ts, es₁, rfl, he, hf, hres, hr⟩ := h.of_querying hc
  cases o with
  | done now => simp [categoriesProgram] at hres
  | failed => simp [categoriesProgram] at hres
  | answered answer =>
    obtain ⟨e, hread⟩ := hf
    have hget : getList fromFirestore answer = .ok [] := getList_error fromFirestore hread
    have hafter : afterCategoriesQuery c fromFirestore answer s' =
        (s', [.caching [.clear] []]) := by
      simp only [afterCategoriesQuery, hget, hs, hb]
      rfl
    obtain ⟨rfl, rfl⟩ := Prod.mk.inj ((Option.some.inj hres).symm.trans hafter)
    obtain ⟨o₂, s₂, ts₂, es₂, rfl, hres, hr⟩ := Program.run_alone_cons he hr h.done
    cases o₂ with
    | answered answer => simp [categoriesProgram] at hres
    | done now =>
      obtain ⟨rfl, rfl⟩ := Prod.mk.inj (Option.some.inj hres)
      obtain ⟨rfl, rfl⟩ := Program.run_alone_nil he.tail hr
      rfl
    | failed =>
      obtain ⟨rfl, rfl⟩ := Prod.mk.inj (Option.some.inj hres)
      obtain ⟨rfl, rfl⟩ := Program.run_alone_nil he.tail hr
      rfl

theorem not_categoriesKept (hne : s.cache.getCachedCategories c ≠ [])
    (h : FailedCall (categoriesProgram c fromFirestore) fromFirestore s k es w) :
    ¬ CategoriesKept c s w := by
  rintro ⟨-, hshown⟩
  obtain ⟨b, hb⟩ := isOpen_of_readCopy_ne_nil hne
  have hdata := (categories_shown_nil hb h).symm.trans hshown
  injection hdata with hdata
  exact hne hdata.symm

end Categories

/-! ### Both notifiers -/

/-- **Exactly when a failed query keeps the offline copy**: `loadWallpapers` when it does not ask
the service, the copy being fresh; `refresh` when the clear of the box fails as well; the categories
never. -/
theorem failed_query_keeps_copy_iff (c : Codec) (wallpaperFromFirestore : DynMap → Result Wallpaper)
    (categoryFromFirestore : DynMap → Result Category) :
    (∀ (s : State Wallpaper) (k : WallpapersCall) (es : List (Event WallpapersCall Outcome))
        (w : World (State Wallpaper) WallpapersTask),
      (∃ now, k = .loadWallpapers now) ∨ k = .refresh →
      s.cache.getCachedWallpapers c ≠ [] →
      FailedCall (wallpapersProgram c wallpaperFromFirestore) wallpaperFromFirestore s k es w →
      (WallpapersKept c k s w ↔
        (∃ now, k = .loadWallpapers now ∧ s.cache.isCacheStale c now = false) ∨
          (k = .refresh ∧ ClearFailed es))) ∧
    ∀ (s : State Category) (k : CategoriesCall) (es : List (Event CategoriesCall Outcome))
        (w : World (State Category) CategoriesTask),
      s.cache.getCachedCategories c ≠ [] →
      FailedCall (categoriesProgram c categoryFromFirestore) categoryFromFirestore s k es w →
      ¬ CategoriesKept c s w :=
  ⟨fun _ _ _ _ hk hne h => wallpapersKept_iff hk hne h,
    fun _ _ _ _ hne h => not_categoriesKept hne h⟩

def sampleCategory : Category := (sampleWallpaper "a" "pexels").category

def sampleCategoryText : String :=
  "\x7b\"_id\":\"0\",\"name\":\"Unknown\",\"slug\":\"unknown\",\"description\":null," ++
    "\"icon\":null,\"color\":\"#6366f1\",\"coverImage\":null,\"featured\":false,\"order\":0," ++
    "\"wallpaperCount\":null,\"status\":\"active\"\x7d"

/-- The text conversions on `sampleCategory`. -/
def sampleCategoryCodec : Codec :=
  { sampleCodec [] with
    jsonEncode := fun _ => sampleCategoryText
    jsonDecode := fun text =>
      if text = sampleCategoryText then .ok (.map sampleCategory.toJson)
      else .error .formatException }

def sampleCache : CacheService :=
  (CacheService.opened .empty .empty .empty .empty).cacheWallpapers (sampleCodec ["a"]) ⟨0, true⟩
    [sampleWallpaper "a" "pexels"]

def sampleCategoryCache : CacheService :=
  (CacheService.opened .empty .empty .empty .empty).cacheCategories sampleCategoryCodec ⟨0, true⟩
    [sampleCategory]

/-- The records of documents, by their ids. -/
def sampleFromFirestore (data : DynMap) : Result Wallpaper := do
  return sampleWallpaper (← asString (field "_id" data)) "firestore"

def sampleCategoryFromFirestore (data : DynMap) : Result Category := do
  return { sampleCategory with id := ← asString (field "_id" data) }

abbrev sampleWallpapers : Program (State Wallpaper) WallpapersTask WallpapersCall Outcome :=
  wallpapersProgram (sampleCodec ["a"]) sampleFromFirestore

def queryFails {κ : Type} : Event κ Outcome :=
  .resume 0 (.answered (.error (.firebaseException "unavailable")))

set_option maxRecDepth 20000 in
theorem sampleCache_ne_nil : sampleCache.getCachedWallpapers (sampleCodec ["a"]) ≠ [] := by decide

set_option maxRecDepth 20000 in
theorem sampleCategoryCache_ne_nil :
    sampleCategoryCache.getCachedCategories sampleCategoryCodec ≠ [] := by decide

set_option maxRecDepth 20000 in
/-- A refresh whose query and clear fail keeps the wallpaper; the category is lost. -/
theorem failed_query_samples :
    (WallpapersKept (sampleCodec ["a"]) .refresh ⟨.loading, sampleCache⟩
        ⟨⟨.data [], sampleCache⟩, []⟩ ↔
      (∃ now, WallpapersCall.refresh = .loadWallpapers now ∧
          sampleCache.isCacheStale (sampleCodec ["a"]) now = false) ∨
        (WallpapersCall.refresh = .refresh ∧
          ClearFailed [(queryFails : Event WallpapersCall Outcome), .resume 0 .failed])) ∧
    ¬ CategoriesKept sampleCategoryCodec ⟨.loading, sampleCategoryCache⟩
      ⟨⟨.data [], { sampleCategoryCache with categoriesBox := some .empty }⟩, []⟩ := by
  constructor
  · refine (failed_query_keeps_copy_iff (sampleCodec ["a"]) sampleFromFirestore
      sampleCategoryFromFirestore).1 ⟨.loading, sampleCache⟩ .refresh
        [queryFails, .resume 0 .failed] ⟨⟨.data [], sampleCache⟩, []⟩ (Or.inr rfl)
        sampleCache_ne_nil ⟨by simp [Program.Resumptions, queryFails], ?_, rfl, rfl⟩
    refine (Program.each_cons rfl).mpr ⟨meets_call, ?_⟩
    refine (Program.each_cons rfl).mpr ⟨meets_of_task rfl ⟨_, rfl⟩, ?_⟩
    refine (Program.each_cons rfl).mpr ⟨meets_of_task rfl trivial, ?_⟩
    trivial
  · refine (failed_query_keeps_copy_iff sampleCategoryCodec sampleFromFirestore
      sampleCategoryFromFirestore).2 ⟨.loading, sampleCategoryCache⟩ .loadCategories
        [queryFails, .resume 0 (.done ⟨0, true⟩)] _ sampleCategoryCache_ne_nil
        ⟨by simp [Program.Resumptions, queryFails], ?_, rfl, rfl⟩
    refine (Program.each_cons rfl).mpr ⟨meets_call, ?_⟩
    refine (Program.each_cons rfl).mpr ⟨meets_of_task rfl ⟨_, rfl⟩, ?_⟩
    refine (Program.each_cons rfl).mpr ⟨meets_of_task rfl trivial, ?_⟩
    trivial

/-- **A refresh destroys the copy**: the query fails, and the clear and the stamp of the write after
it go through. -/
theorem failed_refresh_destroys_copy :
    sampleCache.getCachedWallpapers (sampleCodec ["a"]) ≠ [] ∧
    ∃ w, FailedCall sampleWallpapers sampleFromFirestore ⟨.loading, sampleCache⟩ .refresh
        [queryFails, .resume 0 (.done ⟨0, true⟩), .resume 0 (.done ⟨0, true⟩)] w ∧
      w.shared.cache.getCachedWallpapers (sampleCodec ["a"]) = [] ∧
      ¬ WallpapersKept (sampleCodec ["a"]) .refresh ⟨.loading, sampleCache⟩ w := by
  have hread : CacheService.getCachedWallpapers (sampleCodec ["a"]) { sampleCache with
      wallpapersBox := some (SortedStore.empty.put lastUpdateKey "1970-01-01T00:00:00.000Z") } =
        [] := readCopy_stamp rfl _
  refine ⟨sampleCache_ne_nil, ⟨⟨.data [], { sampleCache with
    wallpapersBox := some (SortedStore.empty.put lastUpdateKey "1970-01-01T00:00:00.000Z") }⟩, []⟩,
    ⟨by simp [Program.Resumptions, queryFails], ?_, rfl, rfl⟩, hread, ?_⟩
  · refine (Program.each_cons rfl).mpr ⟨meets_call, ?_⟩
    refine (Program.each_cons rfl).mpr ⟨meets_of_task rfl ⟨_, rfl⟩, ?_⟩
    refine (Program.each_cons rfl).mpr ⟨meets_of_task rfl trivial, ?_⟩
    refine (Program.each_cons rfl).mpr ⟨meets_of_task rfl trivial, ?_⟩
    trivial
  · rintro ⟨hkept, -⟩
    have hsame := congrArg (readCopy wallpaperKind (sampleCodec ["a"])) hkept
    exact sampleCache_ne_nil (hsame.symm.trans hread)

end PixsBliss.Providers.OfflineCopy
