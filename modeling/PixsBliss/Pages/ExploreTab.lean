import PixsBliss.Providers.FeedFlight

/-! # The explore tab

`ExploreTab` drives `PexelsWallpapersNotifier`: the notifier loads when it is created, and the tab
loads again 50 ms after its start, when one of its two lists is scrolled to its end, when a build
finds an empty list without an error, and after a build whose content does not fill the viewport.
`loadWallpapers` does not look at `hasMore`. Of its callers `loadMore` and the load after a build
do; the scroll listeners, the delayed load and the load of an empty list do not.

* `leftAlone_iff_guarded`: so an exhausted feed is left alone along a run exactly when none of these
  three, and no load of a refresh from before, comes while it is idle.
* `empty_feed_polled`: an API that answers with empty pages is asked again after every build. -/

namespace PixsBliss.Pages.ExploreTab

open PixsBliss.Lib.Async PixsBliss.Lib.Store PixsBliss.Models PixsBliss.Models.Json
open PixsBliss.Services.Cache PixsBliss.Services.PexelsApiService
open PixsBliss.Providers
open PixsBliss.Providers.PexelsFeed (pexelsWallpapersNotifier Outcome)

/-! ### The program -/

/-- The notifier. As ghosts the requests that were sent, and whether the last successful answer was
short, with no `refresh()` called since. -/
structure State where
  feed : PexelsFeed.State
  sent : List Request
  exhausted : Bool

/-- A task of the notifier, the delayed load of `initState`, the microtask of an empty list. -/
inductive Task
  | feed (t : PexelsFeed.Task)
  | delayedLoad
  | emptyLoad

/-- What happens to the tab. A scroll event says whether it is near the end of the list; a build
says whether the content, once laid out, fits into the viewport. -/
inductive Call
  | build (fits : Bool) (now : DateTime)
  | onScroll (nearEnd : Bool) (now : DateTime)
  | onTrendingScroll (nearEnd : Bool) (now : DateTime)
  | refresh
  | loadMore (now : DateTime)

abbrev TabWorld := World State Task
abbrev TabEvent := Event Call Outcome

/-- The requests among the tasks a turn leaves. -/
def requestsOf (ts : List PexelsFeed.Task) : List Request :=
  ts.filterMap fun t => match t with
    | .fetching f => some f.request
    | _ => none

/-- A turn of the notifier. -/
def turn (s : State) (r : PexelsFeed.State × List PexelsFeed.Task) : State × List Task :=
  ({ s with feed := r.1, sent := s.sent ++ requestsOf r.2 }, r.2.map .feed)

section Tab

variable (c : Codec)

abbrev notifier : Program PexelsFeed.State PexelsFeed.Task PexelsFeed.Call Outcome :=
  PexelsFeed.program pexelsWallpapersNotifier c

def loadWallpapers (now : DateTime) (s : State) : State × List Task :=
  turn s ((notifier c).call (.loadWallpapers false now) s.feed)

/-- The microtask a build schedules for an empty list. -/
def emptyLoads (s : State) : List Task :=
  if s.feed.state.wallpapers.isEmpty && !s.feed.state.isLoading && s.feed.state.error.isNone then
    [.emptyLoad]
  else []

/-- `build`, and the callback after its frame. -/
def build (fits : Bool) (now : DateTime) (s : State) : State × List Task :=
  if fits && s.feed.state.hasMore && !s.feed.state.isLoading then
    ((loadWallpapers c now s).1, emptyLoads s ++ (loadWallpapers c now s).2)
  else (s, emptyLoads s)

/-- Both scroll listeners. -/
def onScroll (nearEnd : Bool) (now : DateTime) (s : State) : State × List Task :=
  if nearEnd then loadWallpapers c now s else (s, [])

/-- Whether the feed is exhausted after a task of the notifier ended. -/
def exhaustedAfter (t : PexelsFeed.Task) (o : Outcome) (s : State) (feed : PexelsFeed.State) :
    Bool :=
  match t, o with
  | .fetching _, .answered (.wallpapers _) => !feed.state.hasMore
  | _, _ => s.exhausted

/-- A task of the notifier ends. -/
def resumeFeed (t : PexelsFeed.Task) (o : Outcome) (s : State)
    (r : PexelsFeed.State × List PexelsFeed.Task) : State × List Task :=
  ({ (turn s r).1 with exhausted := exhaustedAfter t o s r.1 }, (turn s r).2)

/-- **The tab and its notifier.** -/
def program : Program State Task Call Outcome where
  call
    | .build fits now, s => build c fits now s
    | .onScroll nearEnd now, s => onScroll c nearEnd now s
    | .onTrendingScroll nearEnd now, s => onScroll c nearEnd now s
    | .refresh, s =>
      ({ (turn s ((notifier c).call .refresh s.feed)).1 with exhausted := false },
        (turn s ((notifier c).call .refresh s.feed)).2)
    | .loadMore now, s => turn s ((notifier c).call (.loadMore now) s.feed)
  resume
    | .feed t, o, s => ((notifier c).resume t o s.feed).map (resumeFeed t o s)
    | .delayedLoad, .done now, s => some (loadWallpapers c now s)
    | .emptyLoad, .done now, s => some (loadWallpapers c now s)
    | _, _, _ => none

/-- The tab after `initState` and its first build, which creates the notifier. -/
def start (cache : CacheService) (now : DateTime) : TabWorld :=
  ⟨(loadWallpapers c now ⟨(PexelsFeed.fresh cache).shared, [], false⟩).1,
    .delayedLoad :: (loadWallpapers c now ⟨(PexelsFeed.fresh cache).shared, [], false⟩).2⟩

end Tab

/-! ### What is asked of a step -/

/-- **An exhausted feed is left alone**: no page is requested. -/
def LeftAlone (w : TabWorld) (_ : TabEvent) (w' : TabWorld) : Prop :=
  w.shared.exhausted = true → w'.shared.sent = w.shared.sent

/-- The loads that do not look at `hasMore`: a list is scrolled to its end, the delay of `initState`
is over, the microtask of an empty list runs, or the clear of a refresh ends. -/
def Unguarded (w : TabWorld) : TabEvent → Prop
  | .call (.onScroll nearEnd _) => nearEnd = true
  | .call (.onTrendingScroll nearEnd _) => nearEnd = true
  | .call _ => False
  | .resume i _ =>
    w.tasks[i]? = some .delayedLoad ∨ w.tasks[i]? = some .emptyLoad ∨
      w.tasks[i]? = some (.feed .clearing)

/-- No such load comes while the feed is exhausted and no fetch is in flight. -/
def Guarded (w : TabWorld) (e : TabEvent) (_ : TabWorld) : Prop :=
  w.shared.exhausted = true → w.shared.feed.state.isLoading = false → ¬ Unguarded w e

/-! ### One turn -/

section Turns

variable {c : Codec} {s s' : State} {w w' : TabWorld} {e : TabEvent}

theorem requestsOf_finish (awaited : Bool) : requestsOf (PexelsFeed.finish awaited) = [] := by
  cases awaited <;> rfl

theorem requestsOf_writeCache (awaited : Bool) (rest : List BoxOp) :
    requestsOf (PexelsFeed.writeCache awaited rest) = [] := by
  cases rest with
  | nil => exact requestsOf_finish awaited
  | cons op rest => rfl

/-- **A load sends a request unless a fetch is in flight**, and leaves `hasMore`. -/
theorem load_spec (refresh : Bool) (now : DateTime) (f : PexelsFeed.State) :
    (requestsOf (PexelsFeed.loadWallpapers pexelsWallpapersNotifier c refresh now f).2 = [] ↔
        f.state.isLoading = true) ∧
      (PexelsFeed.loadWallpapers pexelsWallpapersNotifier c refresh now f).1.state.hasMore =
        f.state.hasMore := by
  unfold PexelsFeed.loadWallpapers
  split_ifs with hload hcache
  · exact ⟨⟨fun _ => hload, fun _ => rfl⟩, rfl⟩
  · exact ⟨⟨fun h => absurd h (List.cons_ne_nil _ _), fun h => absurd h hload⟩, rfl⟩
  · exact ⟨⟨fun h => absurd h (List.cons_ne_nil _ _), fun h => absurd h hload⟩, rfl⟩

theorem sent_turn_iff (s : State) (r : PexelsFeed.State × List PexelsFeed.Task) :
    (turn s r).1.sent = s.sent ↔ requestsOf r.2 = [] := by
  show s.sent ++ requestsOf r.2 = s.sent ↔ _
  exact List.append_right_eq_self

theorem sent_loadWallpapers_iff (now : DateTime) (s : State) :
    (loadWallpapers c now s).1.sent = s.sent ↔ s.feed.state.isLoading = true :=
  (sent_turn_iff s _).trans (load_spec false now s.feed).1

theorem hasMore_loadWallpapers (now : DateTime) (s : State) :
    (loadWallpapers c now s).1.feed.state.hasMore = s.feed.state.hasMore :=
  (load_spec false now s.feed).2

/-- What the end of a task of the notifier does: an answer sends nothing; the end of a clear is a
load; the other tasks send nothing and leave `hasMore`. -/
theorem resume_spec {t : PexelsFeed.Task} {o : Outcome} {f f' : PexelsFeed.State}
    {ts : List PexelsFeed.Task} (hr : (notifier c).resume t o f = some (f', ts)) :
    (t = .clearing ∧ (requestsOf ts = [] ↔ f.state.isLoading = true) ∧
      f'.state.hasMore = f.state.hasMore) ∨
    (t ≠ .clearing ∧ requestsOf ts = [] ∧ (f'.state.hasMore = f.state.hasMore ∨
      ∃ g ws, t = .fetching g ∧ o = .answered (.wallpapers ws))) := by
  match t, o with
  | .fetching g, .answered (.wallpapers ws) =>
    obtain ⟨rfl, rfl⟩ := Prod.mk.inj (Option.some.inj hr)
    refine Or.inr ⟨by simp, ?_, Or.inr ⟨g, ws, rfl, rfl⟩⟩
    split
    · exact requestsOf_finish g.awaited
    · exact requestsOf_writeCache g.awaited _
  | .fetching g, .answered (.exception text) =>
    obtain ⟨rfl, rfl⟩ := Prod.mk.inj (Option.some.inj hr)
    exact Or.inr ⟨by simp, requestsOf_finish g.awaited, Or.inl rfl⟩
  | .caching (op :: rest) awaited, .done now =>
    obtain ⟨rfl, rfl⟩ := Prod.mk.inj (Option.some.inj hr)
    exact Or.inr ⟨by simp, requestsOf_writeCache awaited rest, Or.inl rfl⟩
  | .caching (op :: rest) awaited, .failed =>
    obtain ⟨rfl, rfl⟩ := Prod.mk.inj (Option.some.inj hr)
    exact Or.inr ⟨by simp, requestsOf_finish awaited, Or.inl rfl⟩
  | .clearing, .done now =>
    obtain rfl := congrArg Prod.fst (Option.some.inj hr)
    obtain rfl := congrArg Prod.snd (Option.some.inj hr)
    exact Or.inl ⟨rfl, load_spec true ⟨0, true⟩ _⟩
  | .clearing, .failed =>
    obtain rfl := congrArg Prod.fst (Option.some.inj hr)
    obtain rfl := congrArg Prod.snd (Option.some.inj hr)
    exact Or.inl ⟨rfl, load_spec true ⟨0, true⟩ _⟩
  | .returning, .done now =>
    obtain ⟨rfl, rfl⟩ := Prod.mk.inj (Option.some.inj hr)
    exact Or.inr ⟨by simp, rfl, Or.inl rfl⟩
  | .fetching _, .done _ => simp [PexelsFeed.program] at hr
  | .fetching _, .failed => simp [PexelsFeed.program] at hr
  | .caching [] _, o => cases o <;> simp [PexelsFeed.program] at hr
  | .caching (_ :: _) _, .answered _ => simp [PexelsFeed.program] at hr
  | .clearing, .answered _ => simp [PexelsFeed.program] at hr
  | .returning, .answered _ => simp [PexelsFeed.program] at hr
  | .returning, .failed => simp [PexelsFeed.program] at hr

/-! ### One step -/

/-- An exhausted feed has no more. -/
def Inv (w : TabWorld) : Prop := w.shared.exhausted = true → w.shared.feed.state.hasMore = false

/-- A call sends a request from an exhausted feed when it is an unguarded load and nothing is in
flight. -/
theorem call_spec (h : Inv w) (k : Call) (hx : w.shared.exhausted = true) :
    (((program c).call k w.shared).1.sent = w.shared.sent ↔
      (w.shared.feed.state.isLoading = false → ¬ Unguarded w (.call k : TabEvent))) ∧
    ((program c).call k w.shared).1.feed.state.hasMore = false := by
  have hmore := h hx
  have hload : ∀ now, (loadWallpapers c now w.shared).1.feed.state.hasMore = false := fun now =>
    (hasMore_loadWallpapers now w.shared).trans hmore
  have hscroll : ∀ nearEnd now,
      ((onScroll c nearEnd now w.shared).1.sent = w.shared.sent ↔
        (w.shared.feed.state.isLoading = false → ¬ nearEnd = true)) ∧
      (onScroll c nearEnd now w.shared).1.feed.state.hasMore = false := by
    intro nearEnd now
    cases nearEnd with
    | false => exact ⟨by simp [onScroll], hmore⟩
    | true =>
      have hiff := sent_loadWallpapers_iff (c := c) now w.shared
      refine ⟨?_, hload now⟩
      rw [onScroll, if_pos rfl, hiff]
      simp
  cases k with
  | build fits now =>
    have hcond : (fits && w.shared.feed.state.hasMore && !w.shared.feed.state.isLoading) =
        false := by
      simp [hmore]
    simp only [program, build, hcond, Bool.false_eq_true, if_false]
    exact ⟨by simp [Unguarded], hmore⟩
  | onScroll nearEnd now => exact hscroll nearEnd now
  | onTrendingScroll nearEnd now => exact hscroll nearEnd now
  | refresh =>
    refine ⟨?_, hmore⟩
    have hsent : ((program c).call .refresh w.shared).1.sent = w.shared.sent := List.append_nil _
    simp [hsent, Unguarded]
  | loadMore now =>
    have hcall : (notifier c).call (.loadMore now) w.shared.feed = (w.shared.feed, []) := by
      simp [PexelsFeed.program, hmore]
    have hsent : ((program c).call (.loadMore now) w.shared).1.sent = w.shared.sent := by
      simp [program, turn, hcall, requestsOf]
    refine ⟨by simp [hsent, Unguarded], ?_⟩
    simp [program, turn, hcall, hmore]

/-- Only a short answer exhausts the feed. -/
theorem exhausted_call (k : Call) (s : State) (h : ((program c).call k s).1.exhausted = true) :
    s.exhausted = true := by
  cases k with
  | build fits now =>
    simp only [program, build] at h
    split_ifs at h <;> exact h
  | onScroll nearEnd now => cases nearEnd <;> exact h
  | onTrendingScroll nearEnd now => cases nearEnd <;> exact h
  | refresh => cases h
  | loadMore now => exact h

theorem step_call_spec (h : Inv w) (k : Call) (hs : (program c).step w (.call k) = some w') :
    Inv w' ∧ (LeftAlone w (.call k) w' ↔ Guarded w (.call k) w') := by
  obtain rfl := (Option.some.inj hs).symm
  refine ⟨fun hx => (call_spec h k (exhausted_call k w.shared hx)).2, ?_⟩
  unfold LeftAlone Guarded
  exact forall_congr' fun hx => (call_spec (c := c) h k hx).1

theorem step_load_spec (h : Inv w) {t : Task} {i : ℕ} {o : Outcome} {now : DateTime}
    (ht : t = .delayedLoad ∨ t = .emptyLoad) (hi : w.tasks[i]? = some t)
    (hw : w'.shared = (loadWallpapers c now w.shared).1) :
    Inv w' ∧ (LeftAlone w (.resume i o) w' ↔ Guarded w (.resume i o) w') := by
  have hun : Unguarded w (.resume i o) := by
    rcases ht with rfl | rfl
    · exact Or.inl hi
    · exact Or.inr (Or.inl hi)
  have hiff := sent_loadWallpapers_iff (c := c) now w.shared
  refine ⟨fun hx => ?_, ?_⟩
  · rw [hw] at hx ⊢
    exact (hasMore_loadWallpapers now w.shared).trans (h hx)
  · unfold LeftAlone Guarded
    rw [hw, hiff]
    refine forall_congr' fun _ => ?_
    simp [hun]

theorem step_feed_spec (h : Inv w) {t : PexelsFeed.Task} {i : ℕ} {o : Outcome}
    {r : PexelsFeed.State × List PexelsFeed.Task} (hi : w.tasks[i]? = some (.feed t))
    (hr : (notifier c).resume t o w.shared.feed = some r)
    (hw : w'.shared = (resumeFeed t o w.shared r).1) :
    Inv w' ∧ (LeftAlone w (.resume i o) w' ↔ Guarded w (.resume i o) w') := by
  have hsent : w'.shared.sent = w.shared.sent ↔ requestsOf r.2 = [] := by
    rw [hw]
    exact sent_turn_iff w.shared r
  have hfeed : w'.shared.feed = r.1 := congrArg State.feed hw
  have hex : w'.shared.exhausted = exhaustedAfter t o w.shared r.1 := congrArg State.exhausted hw
  have hun : Unguarded w (.resume i o) ↔ t = .clearing := by
    simp [Unguarded, hi]
  rcases resume_spec hr with ⟨rfl, hreq, hmore⟩ | ⟨hne, hreq, hmore⟩
  · refine ⟨fun hx => ?_, ?_⟩
    · rw [hex] at hx
      rw [hfeed, hmore]
      exact h hx
    · unfold LeftAlone Guarded
      rw [hsent, hreq]
      refine forall_congr' fun _ => ?_
      simp [hun]
  · refine ⟨fun hx => ?_, ?_⟩
    · rw [hex] at hx
      rw [hfeed]
      rcases hmore with hmore | ⟨g, ws, rfl, rfl⟩
      · rw [hmore]
        unfold exhaustedAfter at hx
        split at hx
        · rw [← hmore]
          simpa using hx
        · exact h hx
      · simpa [exhaustedAfter] using hx
    · unfold LeftAlone Guarded
      refine forall_congr' fun _ => ?_
      simp [hsent, hreq, hun, hne]

/-- **One step** leaves an exhausted feed alone exactly when it is not an unguarded load. -/
theorem step_spec (h : Inv w) (hs : (program c).step w e = some w') :
    Inv w' ∧ (LeftAlone w e w' ↔ Guarded w e w') := by
  cases e with
  | call k => exact step_call_spec h k hs
  | resume i o =>
    obtain ⟨l, t, r, s, ts, ht, rfl, hr, rfl⟩ := Program.step_resume hs
    have hi : w.tasks[l.length]? = some t := Program.getElem?_of_eq ht
    cases t with
    | feed t =>
      obtain ⟨r', hres, heq⟩ := Option.map_eq_some_iff.mp hr
      exact step_feed_spec h hi hres (congrArg Prod.fst heq).symm
    | delayedLoad =>
      cases o with
      | done now =>
        exact step_load_spec h (Or.inl rfl) hi (congrArg Prod.fst (Option.some.inj hr)).symm
      | _ => simp [program] at hr
    | emptyLoad =>
      cases o with
      | done now =>
        exact step_load_spec h (Or.inr rfl) hi (congrArg Prod.fst (Option.some.inj hr)).symm
      | _ => simp [program] at hr

end Turns

/-! ### Runs -/

/-- **Exactly the runs along which an exhausted feed is left alone**: after a short answer no page
is requested until `refresh()` is called iff, while the feed is exhausted and idle, no list is
scrolled to its end, no delayed load and no load of an empty list runs, and no refresh from before
the answer ends its clear. -/
theorem leftAlone_iff_guarded (c : Codec) (cache : CacheService) (now : DateTime)
    (es : List TabEvent) : (program c).Each LeftAlone (start c cache now) es ↔
      (program c).Each Guarded (start c cache now) es := by
  have hstart : Inv (start c cache now) := fun h => Bool.noConfusion h
  refine Program.each_iff_each (fun w e w' h hs => ?_) hstart
  obtain ⟨h', hiff⟩ := step_spec h hs
  exact ⟨hiff, fun _ => h'⟩

/-! ### An API without photos -/

section Polling

variable (c : Codec)

/-- The tab between two rounds: an empty list, nothing in flight but the delayed load. -/
def polled (page : ℕ) (more exhausted : Bool) (sent : List Request)
    (wallpapers categories pexelsTrending : Option Box) (b : Box) : TabWorld :=
  ⟨⟨⟨{ hasMore := more, currentPage := page }, true,
    ⟨wallpapers, categories, some b, pexelsTrending⟩⟩, sent, exhausted⟩, [.delayedLoad]⟩

/-- The answer to the fetch and the end of its load. -/
def emptyAnswer : List TabEvent :=
  [.resume 1 (.answered (.wallpapers [])), .resume 1 (.done ⟨0, true⟩),
    .resume 1 (.done ⟨0, true⟩), .resume 1 (.done ⟨0, true⟩)]

/-- A build that finds the list empty, its microtask, and the answer to the fetch. -/
def emptyRound : List TabEvent :=
  .call (.build false ⟨0, true⟩) :: .resume 1 (.done ⟨0, true⟩) :: emptyAnswer

/-- The box after the write of an empty list. -/
def emptyWritten : Box := SortedStore.empty.put lastUpdateKey (c.toIso8601String ⟨0, true⟩)

/-- **A round asks for the next page** and ends as it began. -/
theorem run_emptyRound (page : ℕ) (more exhausted : Bool) (sent : List Request)
    (wallpapers categories pexelsTrending : Option Box) (b : Box) :
    (program c).run (polled page more exhausted sent wallpapers categories pexelsTrending b)
      emptyRound =
    some (polled (page + 1) false true (sent ++ [getCuratedWallpapers page 80]) wallpapers
      categories pexelsTrending (emptyWritten c)) := by
  have h : (program c).run (polled page more exhausted sent wallpapers categories pexelsTrending b)
      emptyRound = some (polled (page + 1) false true
        (sent ++ [getCuratedWallpapers page 80] ++ [] ++ [] ++ [] ++ []) wallpapers categories
        pexelsTrending (emptyWritten c)) := rfl
  simpa only [List.append_nil] using h

def newDevice : TabWorld := start c (.opened .empty .empty .empty .empty) ⟨0, true⟩

/-- **An API that answers with empty pages is asked without end**: after `n` rounds of builds alone
it was asked for `n + 1` pages. -/
theorem empty_feed_polled (n : ℕ) :
    (program c).run (newDevice c) (emptyAnswer ++ (List.replicate n emptyRound).flatten) =
      some (polled (n + 2) false true ((List.range (n + 1)).map fun i =>
        getCuratedWallpapers (i + 1) 80) (some .empty) (some .empty) (some .empty)
          (emptyWritten c)) := by
  induction n with
  | zero => rfl
  | succ n ih =>
    rw [List.replicate_succ', List.flatten_append, List.flatten_singleton, ← List.append_assoc,
      Program.run_append, ih, Option.bind_some, run_emptyRound, List.range_succ (n := n + 1),
      List.map_append]
    rfl

/-- **The empty page is not the last**: the first page is empty, and a build asks for the second. -/
theorem exhausted_feed_asked : ∃ w, (program (sampleCodec [])).run (newDevice (sampleCodec []))
      (emptyAnswer ++ emptyRound) = some w ∧
    w.shared.sent = [getCuratedWallpapers 1 80, getCuratedWallpapers 2 80] ∧
    ¬ (program (sampleCodec [])).Each LeftAlone (newDevice (sampleCodec []))
      (emptyAnswer ++ emptyRound) := by
  refine ⟨_, rfl, rfl, fun h => ?_⟩
  -- the microtask of the build is the sixth step
  have hstep := Program.each_iff.mp h (emptyAnswer ++ [.call (.build false ⟨0, true⟩)])
    (.resume 1 (.done ⟨0, true⟩)) emptyAnswer _ _ rfl rfl rfl rfl
  exact absurd hstep (by decide)

end Polling

end PixsBliss.Pages.ExploreTab
