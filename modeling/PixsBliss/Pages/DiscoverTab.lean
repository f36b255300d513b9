import PixsBliss.Lib.Turns
import PixsBliss.Models.FromFirestore
import PixsBliss.Providers.AsyncValues
import PixsBliss.Providers.LatestCall

/-! # The Discover tab

`UserUploadsTab`, the first tab, shows the trending wallpapers of Firestore above all others. A pull
refreshes the list below and then, once this has ended, loads the trending ones again; all the while
the refresh indicator turns. A button refreshes the list alone. Neither notifier has a guard, so the
loads of the launch, of the button and of a pull overlap.

What the user can press is what the last frame showed, which may be behind the notifiers.

* `discover_settles`: no frame shows an error, a section only loads while a request of it is under
  way, and the indicator turns exactly while one pull is under way. -/

namespace PixsBliss.Pages.DiscoverTab

open PixsBliss.Lib.Async PixsBliss.Lib.Calls PixsBliss.Lib.Flight PixsBliss.Lib.Turns
open PixsBliss.Models PixsBliss.Models.Json
open PixsBliss.Services.Cache PixsBliss.Services.FirestoreService
open PixsBliss.Providers PixsBliss.Providers.AsyncValues
open PixsBliss.Providers.FirestoreNotifier (AsyncValue WallpapersTask wallpapersProgram)

/-! ### The program -/

/-- What a frame shows in the two sections (a list in a random order). -/
structure Frame where
  wallpapers : View
  trending : View

/-- The two notifiers, whether the refresh indicator turns, and the last frame. -/
structure State where
  wallpapers : FirestoreNotifier.State Wallpaper
  trending : AsyncValue (List Wallpaper)
  refreshing : Bool
  built : Frame

/-- What a notifier awaits, and whether `onRefresh` awaits its call. -/
inductive Task
  | wallpapers (pulled : Bool) (t : WallpapersTask)
  | trending (pulled : Bool) (query : Query)

def Task.pulled : Task → Bool
  | .wallpapers pulled _ => pulled
  | .trending pulled _ => pulled

def Task.ofTrending : Task → Bool
  | .wallpapers _ _ => false
  | .trending _ _ => true

/-- The list is pulled down; the button of an error, or of an empty list, is pressed; a frame is
built. -/
inductive Call
  | pull
  | refresh
  | frame

inductive Outcome
  | wallpapers (o : FirestoreNotifier.Outcome)
  | trending (answer : Result Snapshot)

section Program

variable (c : Codec) (toWallpaper : DynMap → Result Wallpaper)

/-- **`_TrendingWallpapersNotifier`**, whose call is `loadTrendingWallpapers`. -/
def trendingProgram : Program (AsyncValue (List Wallpaper)) Query Unit (Result Snapshot) where
  call _ _ := (.loading, [getTrendingWallpapers])
  resume _ answer _ :=
    match getList toWallpaper answer with
    | .ok ws => some (.data ws, [])
    | .error e => some (.error e, [])

/-- A turn of the trending notifier; with the last one `onRefresh` ends. -/
def afterTrending (pulled : Bool) (x : AsyncValue (List Wallpaper) × List Query) (s : State) :
    State × List Task :=
  ({ s with trending := x.1, refreshing := s.refreshing && !(pulled && x.2.isEmpty) },
    x.2.map (.trending pulled))

/-- A turn of the list's notifier; when its call has ended `onRefresh` goes on. -/
def afterWallpapers (pulled : Bool)
    (x : FirestoreNotifier.State Wallpaper × List WallpapersTask) (s : State) :
    State × List Task :=
  if pulled && x.2.isEmpty then
    afterTrending true ((trendingProgram toWallpaper).call () s.trending)
      { s with wallpapers := x.1 }
  else ({ s with wallpapers := x.1 }, x.2.map (.wallpapers pulled))

def refresh (pulled : Bool) (s : State) : State × List Task :=
  let x := (wallpapersProgram c toWallpaper).call .refresh s.wallpapers
  afterWallpapers toWallpaper pulled x s

def frame (s : State) : State := { s with built := ⟨viewOf s.wallpapers.state, viewOf s.trending⟩ }

/-- **The tab.** While the indicator turns, the list cannot be pulled. -/
def program : Program State Task Call Outcome where
  call
    | .pull, s =>
      if s.refreshing then (s, []) else refresh c toWallpaper true { s with refreshing := true }
    | .refresh, s =>
      match s.built.wallpapers with
      | .error _ | .empty => refresh c toWallpaper false s
      | .loading | .wallpapers _ => (s, [])
    | .frame, s => (frame s, [])
  resume
    | .wallpapers pulled t, .wallpapers o, s =>
      ((wallpapersProgram c toWallpaper).resume t o s.wallpapers).map fun x =>
        afterWallpapers toWallpaper pulled x s
    | .trending pulled query, .trending answer, s =>
      ((trendingProgram toWallpaper).resume query answer s.trending).map fun x =>
        afterTrending pulled x s
    | _, _, _ => none

/-- A new tab: the constructor of the one notifier, the first frame, and after it `loadWallpapers`
of the other. -/
def opened (now : DateTime) (cache : CacheService) : World State Task :=
  let x := (wallpapersProgram c toWallpaper).call (.loadWallpapers now) ⟨.loading, cache⟩
  let y := (trendingProgram toWallpaper).call () .loading
  ⟨⟨x.1, y.1, false, ⟨.loading, viewOf y.1⟩⟩,
    y.2.map (.trending false) ++ x.2.map (.wallpapers false)⟩

end Program

/-! ### Turns -/

section Turns

variable {c : Codec} {toWallpaper : DynMap → Result Wallpaper} {s : State} {pulled : Bool}
  {x : FirestoreNotifier.State Wallpaper × List WallpapersTask}

/-- The list after a turn of its notifier. -/
theorem list_afterWallpapers (h : Answers x.1.state x.2) (pulled : Bool) (s : State) :
    NoError (afterWallpapers toWallpaper pulled x s).1.wallpapers.state ∧
      ((afterWallpapers toWallpaper pulled x s).1.wallpapers.state = .loading →
        ∃ t ∈ (afterWallpapers toWallpaper pulled x s).2, (!t.ofTrending) = true) := by
  unfold afterWallpapers
  split_ifs with hend
  · refine ⟨h.noError, fun hload => ?_⟩
    obtain ⟨t, ht⟩ := h.task hload
    rw [List.isEmpty_iff.mp (Bool.and_eq_true_iff.mp hend).2] at ht
    cases ht
  · refine ⟨h.noError, fun hload => ?_⟩
    obtain ⟨t, ht⟩ := h.task hload
    exact ⟨.wallpapers pulled t, List.mem_map_of_mem ht, rfl⟩

/-- A turn of the list's notifier loads the trending wallpapers, or it leaves them alone. -/
theorem trending_afterWallpapers (h : NoError s.trending) (pulled : Bool)
    (x : FirestoreNotifier.State Wallpaper × List WallpapersTask) :
    NoError (afterWallpapers toWallpaper pulled x s).1.trending ∧
      ((afterWallpapers toWallpaper pulled x s).1.trending = .loading →
        s.trending = .loading ∨
          ∃ t ∈ (afterWallpapers toWallpaper pulled x s).2, t.ofTrending = true) := by
  unfold afterWallpapers
  split_ifs
  · exact ⟨noError_loading, fun _ => Or.inr ⟨_, List.mem_cons_self, rfl⟩⟩
  · exact ⟨h, Or.inl⟩

/-- **A pull goes on**: a turn of the call that it waits for leaves one task of the pull. -/
theorem pulled_afterWallpapers (toWallpaper : DynMap → Result Wallpaper) (hlen : x.2.length ≤ 1)
    (pulled : Bool) (s : State) :
    (afterWallpapers toWallpaper pulled x s).1.refreshing = s.refreshing ∧
      (afterWallpapers toWallpaper pulled x s).2.countP Task.pulled =
        if pulled = true then 1 else 0 := by
  obtain ⟨y, ts⟩ := x
  cases pulled with
  | false =>
    refine ⟨rfl, List.countP_eq_zero.mpr fun t ht => ?_⟩
    obtain ⟨t', -, rfl⟩ := List.mem_map.mp ht
    exact Bool.false_ne_true
  | true =>
    cases ts with
    | nil => exact ⟨Bool.and_true _, rfl⟩
    | cons t ts =>
      have hnil : ts.length = 0 := Nat.le_zero.mp (Nat.le_of_succ_le_succ hlen)
      obtain rfl := List.length_eq_zero_iff.mp hnil
      exact ⟨rfl, rfl⟩

/-- A turn builds no frame. -/
theorem built_afterWallpapers (toWallpaper : DynMap → Result Wallpaper) (pulled : Bool)
    (x : FirestoreNotifier.State Wallpaper × List WallpapersTask) (s : State) :
    (afterWallpapers toWallpaper pulled x s).1.built = s.built := by
  unfold afterWallpapers
  split_ifs <;> rfl

theorem call_cases (c : Codec) (toWallpaper : DynMap → Result Wallpaper) (k : Call) (s : State) :
    (program c toWallpaper).call k s = (s, []) ∨
    (program c toWallpaper).call k s = (frame s, []) ∨
    (program c toWallpaper).call k s = refresh c toWallpaper false s ∨
    s.refreshing = false ∧ (program c toWallpaper).call k s =
      refresh c toWallpaper true { s with refreshing := true } := by
  cases k with
  | pull =>
    simp only [program]
    split_ifs with hturns
    · exact Or.inl rfl
    · exact Or.inr (Or.inr (Or.inr ⟨Bool.eq_false_iff.mpr hturns, rfl⟩))
  | refresh =>
    simp only [program]
    split
    · exact Or.inr (Or.inr (Or.inl rfl))
    · exact Or.inr (Or.inr (Or.inl rfl))
    · exact Or.inl rfl
    · exact Or.inl rfl
  | frame => exact Or.inr (Or.inl rfl)

theorem resume_cases {t : Task} {o : Outcome} {y : State × List Task}
    (hr : (program c toWallpaper).resume t o s = some y) :
    (∃ pulled t' o' x, t = .wallpapers pulled t' ∧
      (wallpapersProgram c toWallpaper).resume t' o' s.wallpapers = some x ∧
      y = afterWallpapers toWallpaper pulled x s) ∨
    ∃ pulled query ws, t = .trending pulled query ∧ y = afterTrending pulled (.data ws, []) s := by
  cases t with
  | wallpapers pulled t =>
    cases o with
    | trending answer => cases hr
    | wallpapers o =>
      obtain ⟨x, hx, rfl⟩ := Option.map_eq_some_iff.mp hr
      exact Or.inl ⟨pulled, t, o, x, rfl, hx, rfl⟩
  | trending pulled query =>
    cases o with
    | wallpapers o => cases hr
    | trending answer =>
      obtain ⟨x, hx, rfl⟩ := Option.map_eq_some_iff.mp hr
      -- the service catches what is thrown
      obtain ⟨ws, hws⟩ := getList_ok toWallpaper answer
      simp only [trendingProgram, hws, Option.some.injEq] at hx
      exact Or.inr ⟨pulled, query, ws, rfl, by rw [hx]⟩

end Turns

/-! ### Runs -/

section Runs

variable {c : Codec} {toWallpaper : DynMap → Result Wallpaper} {now : DateTime}
  {cache : CacheService} {w : World State Task} {es : List (Event Call Outcome)}

/-- The list is never an error, and loads while a task of its notifier is there. -/
theorem settles_list : Settles (program c toWallpaper) (fun t => !t.ofTrending)
    (fun s => NoError s.wallpapers.state) fun s => s.wallpapers.state = .loading where
  call k s h := by
    rcases call_cases c toWallpaper k s with hk | hk | hk | ⟨-, hk⟩
    · rw [hk]
      exact ⟨h, Or.inl⟩
    · rw [hk]
      exact ⟨h, Or.inl⟩
    · rw [hk]
      exact (list_afterWallpapers (answers_wallpapersCall .refresh) false s).imp_right
        fun htask hload => Or.inr (htask hload)
    · rw [hk]
      exact (list_afterWallpapers (answers_wallpapersCall .refresh) true _).imp_right
        fun htask hload => Or.inr (htask hload)
  resume t o s y h hr := by
    rcases resume_cases hr with ⟨pulled, t', o', x, -, hx, rfl⟩ | ⟨pulled, query, ws, rfl, rfl⟩
    · exact (list_afterWallpapers (answers_wallpapersTask h hx) pulled s).imp_right
        fun htask hload => Or.inr (htask hload)
    · exact ⟨h, fun hload => Or.inl ⟨rfl, hload⟩⟩

/-- The trending section is never an error, and loads while a task of its notifier is there. -/
theorem settles_trending : Settles (program c toWallpaper) Task.ofTrending
    (fun s => NoError s.trending) fun s => s.trending = .loading where
  call k s h := by
    rcases call_cases c toWallpaper k s with hk | hk | hk | ⟨-, hk⟩
    · rw [hk]
      exact ⟨h, Or.inl⟩
    · rw [hk]
      exact ⟨h, Or.inl⟩
    · rw [hk]
      exact trending_afterWallpapers h false _
    · rw [hk]
      exact trending_afterWallpapers (s := { s with refreshing := true }) h true _
  resume t o s y h hr := by
    rcases resume_cases hr with ⟨pulled, t', o', x, rfl, -, rfl⟩ | ⟨pulled, query, ws, rfl, rfl⟩
    · exact (trending_afterWallpapers h pulled x).imp_right
        fun htask hload => (htask hload).imp_left fun hbefore => ⟨rfl, hbefore⟩
    · exact ⟨noError_data ws, fun hload => by cases hload⟩

/-- **The indicator** turns for one task of a pull. -/
theorem counts_pulled : Counts (program c toWallpaper) Task.pulled
    fun s => if s.refreshing = true then 1 else 0 where
  call k s := by
    have hone : ((wallpapersProgram c toWallpaper).call .refresh s.wallpapers).2.length ≤ 1 :=
      LatestCall.sequential.call _ _
    rcases call_cases c toWallpaper k s with hk | hk | hk | ⟨hturns, hk⟩
    · rw [hk]
      rfl
    · rw [hk]
      rfl
    · obtain ⟨hsame, hcount⟩ := pulled_afterWallpapers toWallpaper hone false s
      rw [hk, refresh, hsame, hcount]
      rfl
    · obtain ⟨hsame, hcount⟩ := pulled_afterWallpapers toWallpaper hone true
        { s with refreshing := true }
      rw [hk, refresh, hsame, hcount, hturns]
      rfl
  resume t o s y hpos hr := by
    rcases resume_cases hr with ⟨pulled, t', o', x, rfl, hx, rfl⟩ | ⟨pulled, query, ws, rfl, rfl⟩
    · have hone : x.2.length ≤ 1 := LatestCall.sequential.resume _ _ _ x.1 x.2 hx
      obtain ⟨hsame, hcount⟩ := pulled_afterWallpapers toWallpaper hone pulled s
      rw [hsame, hcount]
      rfl
    · cases pulled with
      | false =>
        show (if (s.refreshing && true) = true then 1 else 0) + 0 = _
        rw [Bool.and_true]
        rfl
      | true =>
        have hturns : s.refreshing = true := by
          by_contra hdown
          have := hpos rfl
          rw [if_neg hdown] at this
          exact Nat.lt_irrefl 0 this
        show (if (s.refreshing && false) = true then 1 else 0) + 1 =
          (if s.refreshing = true then 1 else 0) + 0
        rw [hturns]
        rfl

/-- **No frame shows an error.** -/
theorem noError_frame
    (hr : (program c toWallpaper).run (opened c toWallpaper now cache) es = some w) (e : DartError) :
    w.shared.built.wallpapers ≠ .error e ∧ w.shared.built.trending ≠ .error e := by
  have hturns : EachTurn (program c toWallpaper) (fun _ _ _ => True) (fun s =>
      (NoError s.wallpapers.state ∧ NoError s.trending) ∧
        ∀ e, s.built.wallpapers ≠ .error e ∧ s.built.trending ≠ .error e) fun _ => True := by
    refine ⟨fun k s hs => ⟨⟨⟨?_, ?_⟩, ?_⟩, fun _ _ => trivial⟩,
      fun t o s x hs _ _ hr => ⟨⟨⟨?_, ?_⟩, ?_⟩, fun _ _ => trivial⟩⟩
    · exact (settles_list.call k s hs.1.1).1
    · exact (settles_trending.call k s hs.1.2).1
    · rcases call_cases c toWallpaper k s with hk | hk | hk | ⟨-, hk⟩
      · rw [hk]
        exact hs.2
      · rw [hk]
        exact fun e => ⟨viewOf_ne_error hs.1.1 e, viewOf_ne_error hs.1.2 e⟩
      · rw [hk, refresh, built_afterWallpapers]
        exact hs.2
      · rw [hk, refresh, built_afterWallpapers]
        exact hs.2
    · exact (settles_list.resume t o s x hs.1.1 hr).1
    · exact (settles_trending.resume t o s x hs.1.2 hr).1
    · rcases resume_cases hr with ⟨pulled, t', o', y, -, -, rfl⟩ | ⟨pulled, query, ws, -, rfl⟩
      · rw [built_afterWallpapers]
        exact hs.2
      · exact hs.2
  have hstart : NoError (opened c toWallpaper now cache).shared.wallpapers.state :=
    (answers_wallpapersCall (.loadWallpapers now)).noError
  have hbuilt : ∀ e, (opened c toWallpaper now cache).shared.built.wallpapers ≠ .error e ∧
      (opened c toWallpaper now cache).shared.built.trending ≠ .error e :=
    fun e => ⟨viewOf_ne_error noError_loading e, viewOf_ne_error noError_loading e⟩
  obtain ⟨⟨-, hno⟩, -⟩ := hturns.run (w := opened c toWallpaper now cache)
    ⟨⟨⟨hstart, noError_loading⟩, hbuilt⟩, fun _ _ => trivial⟩
    (each_meets (fun _ _ _ => trivial) _ es) hr
  exact hno e

/-- **The Discover tab settles**: whatever fails and however the loads overlap, no frame shows an
error, neither the last one nor one that is built now; such a frame shows that a section loads only
while a request of it is under way; and the refresh indicator turns exactly while one pull is under
way. -/
theorem discover_settles (c : Codec) (toWallpaper : DynMap → Result Wallpaper) (now : DateTime)
    (cache : CacheService) (es : List (Event Call Outcome)) (w : World State Task)
    (hr : (program c toWallpaper).run (opened c toWallpaper now cache) es = some w) :
    (∀ e, w.shared.built.wallpapers ≠ .error e ∧ w.shared.built.trending ≠ .error e) ∧
    (∀ e, viewOf w.shared.wallpapers.state ≠ .error e ∧ viewOf w.shared.trending ≠ .error e) ∧
    (viewOf w.shared.wallpapers.state = .loading → ∃ pulled t, .wallpapers pulled t ∈ w.tasks) ∧
    (viewOf w.shared.trending = .loading → ∃ pulled query, .trending pulled query ∈ w.tasks) ∧
    w.tasks.countP Task.pulled = if w.shared.refreshing = true then 1 else 0 := by
  have hlist : Answers
      ((wallpapersProgram c toWallpaper).call (.loadWallpapers now) ⟨.loading, cache⟩).1.state
      ((wallpapersProgram c toWallpaper).call (.loadWallpapers now) ⟨.loading, cache⟩).2 :=
    answers_wallpapersCall (.loadWallpapers now)
  have hstart : ∀ t ∈ (opened c toWallpaper now cache).tasks, t.pulled = false := by
    refine List.forall_mem_append.mpr ⟨List.forall_mem_singleton.mpr rfl, fun t ht => ?_⟩
    obtain ⟨t', -, rfl⟩ := List.mem_map.mp ht
    rfl
  obtain ⟨hnone, htask⟩ := settles_list.run (w := opened c toWallpaper now cache)
    ⟨hlist.noError, fun hload => by
      obtain ⟨t, ht⟩ := hlist.task hload
      exact ⟨.wallpapers false t, List.mem_append_right _ (List.mem_map_of_mem ht), rfl⟩⟩ hr
  obtain ⟨hnone', htask'⟩ := settles_trending.run (w := opened c toWallpaper now cache)
    ⟨noError_loading, fun _ => ⟨_, List.mem_cons_self, rfl⟩⟩ hr
  refine ⟨noError_frame hr, fun e => ⟨viewOf_ne_error hnone e, viewOf_ne_error hnone' e⟩,
    fun hload => ?_, fun hload => ?_, ?_⟩
  · obtain ⟨t, ht, hof⟩ := htask (viewOf_loading hload)
    cases t with
    | wallpapers pulled t => exact ⟨pulled, t, ht⟩
    | trending pulled query => cases hof
  · obtain ⟨t, ht, hof⟩ := htask' (viewOf_loading hload)
    cases t with
    | wallpapers pulled t => cases hof
    | trending pulled query => exact ⟨pulled, query, ht⟩
  · refine counts_pulled.run (w := opened c toWallpaper now cache) ?_ hr
    exact List.countP_eq_zero.mpr fun t ht => by
      rw [hstart t ht]
      exact Bool.false_ne_true

end Runs

/-- A launch without boxes: the list is answered and drawn, its button is pressed, it is pulled, and
both refreshes are answered. -/
def pulledOnce : List (Event Call Outcome) :=
  [.resume 1 (.wallpapers (.answered (.ok []))), .call .frame, .call .refresh, .call .pull,
    .resume 1 (.wallpapers (.answered (.error (.firebaseException "unavailable")))),
    .resume 1 (.wallpapers (.answered (.ok [])))]

def sampleDecoder : DynMap → Result Wallpaper := Wallpaper.fromFirestore sampleDevice

theorem pulledOnce_settles : ∃ w, (program (sampleCodec []) sampleDecoder).run
      (opened (sampleCodec []) sampleDecoder ⟨0, true⟩ ⟨none, none, none, none⟩) pulledOnce =
        some w ∧ w.tasks.length = 2 ∧
    (∀ e, w.shared.built.wallpapers ≠ .error e ∧ w.shared.built.trending ≠ .error e) ∧
    (∀ e, viewOf w.shared.wallpapers.state ≠ .error e ∧ viewOf w.shared.trending ≠ .error e) ∧
    (viewOf w.shared.wallpapers.state = .loading → ∃ pulled t, .wallpapers pulled t ∈ w.tasks) ∧
    (viewOf w.shared.trending = .loading → ∃ pulled query, .trending pulled query ∈ w.tasks) ∧
    w.tasks.countP Task.pulled = if w.shared.refreshing = true then 1 else 0 :=
  ⟨_, rfl, rfl, discover_settles (sampleCodec []) sampleDecoder ⟨0, true⟩ ⟨none, none, none, none⟩
    pulledOnce _ rfl⟩

end PixsBliss.Pages.DiscoverTab
