import PixsBliss.Lib.Flight
import PixsBliss.Providers.PexelsFeed

/-! # The fetches of a feed

A load sends a fetch only when `isLoading` is down, and an answer lowers it before the cache write
starts. Neither the cache write, whose errors are swallowed, nor the return of a load, nor the clear
of a refresh touches the list, so between a fetch and its answer only the flag of the cache start
and the boxes change.

* `single_step_of_law`: a step with a law `L` of the shown list and page, which holds whenever no
  fetch is in flight, if answers and failed background fetches keep it.
* `single_flight`: `isLoading` says whether a fetch is in flight, two never are, and an answer is
  applied to the list its fetch was sent from. -/

namespace PixsBliss.Providers.FeedFlight

open PixsBliss.Lib.Async PixsBliss.Lib.Flight PixsBliss.Models PixsBliss.Models.Json
open PixsBliss.Services.Cache PixsBliss.Services.PexelsApiService PixsBliss.Providers.PexelsFeed

abbrev FWorld := World State Task
abbrev FEvent := Event Call Outcome

def isFetch : Task → Bool
  | .fetching _ => true
  | _ => false

/-- The fetches in flight. -/
def fetches (w : FWorld) : List Task := w.tasks.filter isFetch

/-! ### The rule -/

/-- The fetches, guarded by `isLoading`. Without a fetch the list and the page satisfy `L`. A fetch
was sent from the list that is shown, for the page that is next or, if it refreshes, for the first;
an awaited fetch leaves `L` as it was; the background fetch of a cache start refreshes page 2. -/
def guard (L : List Wallpaper → ℕ → Prop) : Guard State Task where
  isRequest := isFetch
  busy s := s.state.isLoading
  Idle s := L s.state.wallpapers s.state.currentPage
  Fits
    | .fetching f, s => f.base = s.state.wallpapers ∧
        f.page = (if f.refresh then 1 else s.state.currentPage) ∧
        (f.awaited = true → L s.state.wallpapers s.state.currentPage) ∧
        (f.awaited = false → f.refresh = true ∧ s.state.currentPage = 2)
    | _, _ => True

/-- An answer keeps `L`, and a background fetch that fails finds it. -/
def Keeps (L : List Wallpaper → ℕ → Prop) : Task → Outcome → State → Prop
  | .fetching f, .answered (.wallpapers ws), s =>
    if f.refresh then L ws 2
    else L s.state.wallpapers s.state.currentPage →
      L (s.state.wallpapers ++ ws) (s.state.currentPage + 1)
  | .fetching f, .answered (.exception _), s =>
    f.awaited = false → L s.state.wallpapers s.state.currentPage
  | _, _, _ => True

section Turns

variable {kind : FeedKind} {c : Codec} {L : List Wallpaper → ℕ → Prop} {s s' : State}

theorem requests_finish (awaited : Bool) : (guard L).requests (finish awaited) = [] := by
  cases awaited <;> rfl

theorem requests_writeCache (awaited : Bool) (rest : List BoxOp) :
    (guard L).requests (writeCache awaited rest) = [] := by
  cases rest with
  | nil => exact requests_finish awaited
  | cons op rest => rfl

/-- A turn that keeps the shown state and sends no fetch. -/
theorem quiet_of_state {ts : List Task} (hs : s'.state = s.state)
    (hts : (guard L).requests ts = []) : (guard L).Quiet s s' ts where
  requests := hts
  busy := congrArg PexelsWallpapersState.isLoading hs
  idle h := by
    show L s'.state.wallpapers s'.state.currentPage
    rw [hs]
    exact h
  fits t h := by
    cases t with
    | fetching f =>
      show f.base = s'.state.wallpapers ∧ _
      rw [hs]
      exact h
    | caching rest awaited => trivial
    | clearing => trivial
    | returning => trivial

/-- An awaited fetch. -/
theorem starts_fetch (h : s.state.isLoading = false) (refresh : Bool) :
    (guard L).Starts s (fetchAndUpdateWallpapers kind refresh true s).1
      (fetchAndUpdateWallpapers kind refresh true s).2 where
  before := h
  after := rfl
  request hi := ⟨_, rfl, rfl, rfl, fun _ => hi, fun h => by cases h⟩

theorem turn_load (refresh : Bool) (now : DateTime) (s : State) :
    (guard L).Turn s (loadWallpapers kind c refresh now s).1
      (loadWallpapers kind c refresh now s).2 := by
  unfold loadWallpapers
  split_ifs with hload hcache
  · exact Or.inl (quiet_of_state rfl rfl)
  · have hload : s.state.isLoading = false := by simpa using hload
    refine Or.inr ⟨hload, rfl, fun _ => ⟨_, rfl, rfl, rfl, ?_, fun _ => ⟨rfl, rfl⟩⟩⟩
    intro h
    cases h
  · exact Or.inr (starts_fetch (by simpa using hload) refresh)

/-- A load from a state that shows the same. -/
theorem turn_load_of_state (hs : s'.state = s.state) (refresh : Bool) (now : DateTime) :
    (guard L).Turn s (loadWallpapers kind c refresh now s').1
      (loadWallpapers kind c refresh now s').2 := by
  have hq : (guard L).Quiet s s' [] := quiet_of_state hs rfl
  have ht : (guard L).Turn s' (loadWallpapers kind c refresh now s').1
      (loadWallpapers kind c refresh now s').2 := turn_load refresh now s'
  rcases ht with h | h
  · exact Or.inl ⟨h.requests, h.busy.trans hq.busy, fun hi => h.idle (hq.idle hi),
      fun t hf => h.fits t (hq.fits t hf)⟩
  · exact Or.inr ⟨hq.busy.symm.trans h.before, h.after, fun hi => h.request (hq.idle hi)⟩

theorem turn_refreshAfterClear (hs : s'.state = s.state) :
    (guard L).Turn s (refreshAfterClear kind c s').1 (refreshAfterClear kind c s').2 := by
  have hs' : ({ s' with hasLoadedFromCache := false } : State).state = s.state := hs
  exact turn_load_of_state hs' true ⟨0, true⟩

theorem turn_call (k : Call) (s : State) :
    (guard L).Turn s ((program kind c).call k s).1 ((program kind c).call k s).2 := by
  cases k with
  | loadWallpapers refresh now => exact turn_load refresh now s
  | refresh => exact Or.inl (quiet_of_state rfl rfl)
  | loadMore now =>
    simp only [program]
    split_ifs with h
    · exact turn_load false now s
    · exact Or.inl (quiet_of_state rfl rfl)

theorem turn_resume {t : Task} {o : Outcome} {ts : List Task} (ht : isFetch t = false)
    (hr : (program kind c).resume t o s = some (s', ts)) : (guard L).Turn s s' ts := by
  cases t with
  | fetching f => cases ht
  | caching rest awaited =>
    cases rest with
    | nil => cases o <;> simp [program] at hr
    | cons op rest =>
      cases o with
      | answered a => simp [program] at hr
      | done now =>
        simp only [program, Option.some.injEq, Prod.mk.injEq] at hr
        obtain ⟨rfl, rfl⟩ := hr
        exact Or.inl (quiet_of_state rfl (requests_writeCache awaited rest))
      | failed =>
        simp only [program, Option.some.injEq, Prod.mk.injEq] at hr
        obtain ⟨rfl, rfl⟩ := hr
        exact Or.inl (quiet_of_state rfl (requests_finish awaited))
  | clearing =>
    cases o with
    | answered a => simp [program] at hr
    | done now =>
      obtain rfl := congrArg Prod.fst (Option.some.inj hr)
      obtain rfl := congrArg Prod.snd (Option.some.inj hr)
      exact turn_refreshAfterClear rfl
    | failed =>
      obtain rfl := congrArg Prod.fst (Option.some.inj hr)
      obtain rfl := congrArg Prod.snd (Option.some.inj hr)
      exact turn_refreshAfterClear rfl
  | returning =>
    cases o with
    | answered a => simp [program] at hr
    | done now =>
      simp only [program, Option.some.injEq, Prod.mk.injEq] at hr
      obtain ⟨rfl, rfl⟩ := hr
      exact Or.inl (quiet_of_state rfl rfl)
    | failed => simp [program] at hr

/-- The answer to a fetch. -/
theorem ends_fetch {t : Task} {o : Outcome} {ts : List Task} (ht : isFetch t = true)
    (hr : (program kind c).resume t o s = some (s', ts)) (hf : (guard L).Fits t s)
    (hk : Keeps L t o s) : (guard L).Ends s' ts := by
  cases t with
  | caching rest awaited => cases ht
  | clearing => cases ht
  | returning => cases ht
  | fetching f =>
    obtain ⟨-, -, hawaited, hback⟩ := hf
    cases o with
    | done now => simp [program] at hr
    | failed => simp [program] at hr
    | answered a =>
      cases a with
      | exception text =>
        simp only [program, applyError, Option.some.injEq, Prod.mk.injEq] at hr
        obtain ⟨rfl, rfl⟩ := hr
        refine ⟨requests_finish f.awaited, rfl, ?_⟩
        cases ha : f.awaited with
        | true => exact hawaited ha
        | false => exact hk ha
      | wallpapers ws =>
        simp only [program, applyPage, Option.some.injEq, Prod.mk.injEq] at hr
        obtain ⟨rfl, rfl⟩ := hr
        refine ⟨?_, rfl, ?_⟩
        · split
          · exact requests_finish f.awaited
          · exact requests_writeCache f.awaited _
        · -- a fetch that does not refresh is awaited, so the law held when the answer came
          simp only [Keeps] at hk
          simp only [guard, updated]
          cases hrefresh : f.refresh with
          | true => simpa [hrefresh] using hk
          | false =>
            have ha : f.awaited = true := by
              by_contra ha
              have := (hback (by simpa using ha)).1
              rw [hrefresh] at this
              cases this
            simpa [hrefresh] using (by simpa [hrefresh] using hk : L _ _ → L _ _) (hawaited ha)

end Turns

/-! ### Runs -/

section Runs

variable {kind : FeedKind} {c : Codec} {L : List Wallpaper → ℕ → Prop} {w w' : FWorld}
  {e : FEvent} {es : List FEvent}

theorem single_fresh {cache : CacheService} (h : L [] 1) : (guard L).Single (fresh cache) :=
  Or.inl ⟨rfl, rfl, h⟩

theorem single_step_of_law (h : (guard L).Single w) (hk : Meets (Keeps L) w e w')
    (hs : (program kind c).step w e = some w') : (guard L).Single w' :=
  Guard.single_step turn_call (fun _ _ _ _ _ => turn_resume) (fun _ _ _ _ _ => ends_fetch) h hk hs

/-- A weaker law. -/
theorem single_mono {L' : List Wallpaper → ℕ → Prop} (hL : ∀ ws page, L ws page → L' ws page)
    (h : (guard L).Single w) : (guard L').Single w := by
  rcases h with ⟨hn, hb, hi⟩ | ⟨t, hn, hb, hf⟩
  · exact Or.inl ⟨hn, hb, hL _ _ hi⟩
  · refine Or.inr ⟨t, hn, hb, ?_⟩
    cases t with
    | fetching f => exact ⟨hf.1, hf.2.1, fun ha => hL _ _ (hf.2.2.1 ha), hf.2.2.2⟩
    | caching rest awaited => trivial
    | clearing => trivial
    | returning => trivial

/-- The law that says nothing. -/
theorem keeps_true (t : Task) (o : Outcome) (s : State) : Keeps (fun _ _ => True) t o s := by
  unfold Keeps
  split
  · split_ifs <;> simp
  · simp
  · trivial

/-- An answer finds the list its fetch was sent from and the page it was sent for, and gives that
list followed by the page (or the page alone, if it refreshes). -/
def AppliedToItsList (w : FWorld) (e : FEvent) (w' : FWorld) : Prop :=
  ∀ i a f, e = .resume i (.answered a) → w.tasks[i]? = some (.fetching f) →
    w.shared.state.wallpapers = f.base ∧
    f.page = (if f.refresh then 1 else w.shared.state.currentPage) ∧
    w'.shared.state.wallpapers =
      match a with
      | .wallpapers ws => if f.refresh then ws else f.base ++ ws
      | .exception _ => f.base

theorem appliedToItsList_step (h : (guard fun _ _ => True).Single w)
    (hs : (program kind c).step w e = some w') : AppliedToItsList w e w' := by
  rintro i a f rfl hi
  obtain ⟨l, r, s, ts, ht, hr, rfl⟩ := Program.step_resume_at hi hs
  obtain ⟨hbase, hpage, -, -⟩ := h.fits (t := .fetching f) (by simp [ht]) rfl
  refine ⟨hbase.symm, hpage, ?_⟩
  cases a with
  | exception text =>
    obtain rfl := congrArg Prod.fst (Option.some.inj hr)
    exact hbase.symm
  | wallpapers ws =>
    obtain rfl := congrArg Prod.fst (Option.some.inj hr)
    show updated f.refresh w.shared ws = _
    rw [updated, hbase]

/-- **Single flight.** In every state the notifier reaches, `isLoading` is up exactly when one fetch
is in flight, and there are never two; every answer is applied to the list its fetch was sent
from. -/
theorem single_flight (kind : FeedKind) (c : Codec) (cache : CacheService) (es : List FEvent)
    (w : FWorld) (hr : (program kind c).run (fresh cache) es = some w) :
    (w.shared.state.isLoading = true ↔ (fetches w).length = 1) ∧ (fetches w).length ≤ 1 ∧
      (program kind c).Each AppliedToItsList (fresh cache) es := by
  have hstart : (guard fun _ _ => True).Single (fresh cache) := single_fresh trivial
  have hstep : ∀ w e w', (guard fun _ _ => True).Single w → (program kind c).step w e = some w' →
      (guard fun _ _ => True).Single w' ∧ AppliedToItsList w e w' := fun w e w' h hs =>
    ⟨single_step_of_law h (fun _ o t _ _ => keeps_true t o _) hs, appliedToItsList_step h hs⟩
  have hend : (guard fun _ _ => True).Single w :=
    Program.run_inv (fun w e w' h hs => (hstep w e w' h hs).1) hstart hr
  exact ⟨hend.busy_iff, hend.length_le, Program.each_of_inv hstep hstart⟩

/-- The trending feed on a new device: the load of the constructor is answered while a second load
and a refresh were refused. -/
theorem single_flight_new_device :
    ∃ w, (program pexelsTrendingWallpapersNotifier (sampleCodec ["a"])).run
        (fresh (.opened .empty .empty .empty .empty))
        [.call (.loadWallpapers false ⟨0, true⟩), .call (.loadMore ⟨0, true⟩), .call .refresh,
          .resume 1 (.done ⟨0, true⟩),
          .resume 0 (.answered (.wallpapers [sampleWallpaper "a" "pexels"]))] = some w ∧
      (w.shared.state.isLoading = true ↔ (fetches w).length = 1) ∧ (fetches w).length ≤ 1 ∧
      (program pexelsTrendingWallpapersNotifier (sampleCodec ["a"])).Each AppliedToItsList
        (fresh (.opened .empty .empty .empty .empty))
        [.call (.loadWallpapers false ⟨0, true⟩), .call (.loadMore ⟨0, true⟩), .call .refresh,
          .resume 1 (.done ⟨0, true⟩),
          .resume 0 (.answered (.wallpapers [sampleWallpaper "a" "pexels"]))] :=
  ⟨_, rfl, single_flight pexelsTrendingWallpapersNotifier (sampleCodec ["a"])
    (.opened .empty .empty .empty .empty) _ _ rfl⟩

end Runs

end PixsBliss.Providers.FeedFlight
