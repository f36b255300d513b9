import PixsBliss.Lib.Calls
import PixsBliss.Providers.PexelsSearch

/-! # Overlapping searches

A search that arrives while another one is in flight is dropped by the guard on `isLoading`; a clear
is not guarded, but takes the flag down with the request still in flight, whose answer then brings
the cleared query back.

* `latest_search_shown`: in a run of searches and clears in which nothing is cleared during a
  request, the last call that was not dropped decides: once all requests are over the stored query
  is its own, and so is the list if its request succeeded.
* `dropped_and_revived`: a dropped search, and a cleared search that comes back. -/

namespace PixsBliss.Providers.SearchLatest

open PixsBliss.Lib.Async PixsBliss.Lib.Calls PixsBliss.Models
open PixsBliss.Services.PexelsApiService (Answer)
open PixsBliss.Providers.PexelsSearch

/-! ### Calls -/

/-- The query a call stores; a clear stores the empty one. -/
def asked : Call → String
  | .searchWallpapers query _ => query
  | .loadMore => ""
  | .clearSearch => ""

/-- The calls the pages make: searches from page 1, and clears. -/
def SearchOrClear (k : Call) : Prop :=
  (∃ query, k = .searchWallpapers query true) ∨ k = .clearSearch

/-- A call that was dropped by the guard, in the state it found. -/
def dropped (c : Call × State) : Bool := !(asked c.1).isEmpty && c.2.state.isLoading

/-- Nothing is cleared while a request is in flight; a search for nothing is a clear. -/
def ClearsWhenIdle (w : World State Search) (e : Event Call Answer) (_ : World State Search) :
    Prop :=
  ∀ k, e = .call k → asked k = "" → w.tasks = []

/-- The call `c`, the `i`-th one, is the last that was not dropped. -/
def Latest (h : History State Call Answer) (i : ℕ) (c : Call × State) : Prop :=
  ∃ pre post, h.calls = pre ++ c :: post ∧ pre.length = i ∧ dropped c = false ∧
    ∀ d ∈ post, dropped d = true

/-- Without a request in flight the state is that of the latest call. -/
def Settled (h : History State Call Answer) : Prop :=
  (h.calls = [] ∧ h.shared.state.query = "") ∨ ∃ i c, Latest h i c ∧
    h.shared.state.query = asked c.1 ∧
    (asked c.1 = "" → h.shared.state.wallpapers = []) ∧
    ∀ ws, heardBy i h.heard = [.wallpapers ws] → h.shared.state.wallpapers = ws

/-- The request in flight is that of the latest call. -/
def InFlight (h : History State Call Answer) (i : ℕ) (r : Search) : Prop :=
  ∃ c, Latest h i c ∧ asked c.1 = r.query ∧ r.query ≠ "" ∧ h.shared.state.query = r.query ∧
    r.refresh = true ∧ heardBy i h.heard = []

/-- At most one request is in flight, and the flag says whether there is one. -/
structure Inv (w : World (History State Call Answer) (ℕ × Search)) : Prop where
  heard : ∀ e ∈ w.shared.heard, e.1 < w.shared.calls.length
  request : (w.tasks = [] ∧ w.shared.shared.state.isLoading = false ∧ Settled w.shared) ∨
    ∃ i r, w.tasks = [(i, r)] ∧ w.shared.shared.state.isLoading = true ∧ InFlight w.shared i r

section Steps

variable {w w' : World (History State Call Answer) (ℕ × Search)} {h : History State Call Answer}
  {i : ℕ} {c : Call × State} {k : Call} {r : Search} {s : State}

/-- A call that is not dropped is the latest. -/
theorem latest_concat (hd : dropped c = false) {h' : History State Call Answer}
    (hcalls : h'.calls = h.calls ++ [c]) : Latest h' h.calls.length c :=
  ⟨h.calls, [], hcalls, rfl, hd, by simp⟩

theorem latest_dropped (hl : Latest h i c) {d : Call × State} (hd : dropped d = true)
    {h' : History State Call Answer} (hcalls : h'.calls = h.calls ++ [d]) : Latest h' i c := by
  obtain ⟨pre, post, heq, hi, hc, hpost⟩ := hl
  refine ⟨pre, post ++ [d], by rw [hcalls, heq]; simp, hi, hc, fun x hx => ?_⟩
  rcases List.mem_append.mp hx with hx | hx
  · exact hpost x hx
  · exact List.mem_singleton.mp hx ▸ hd

theorem call_cases (hk : SearchOrClear k) (s : State) :
    (asked k = "" ∧ program.call k s = (⟨{}, ""⟩, [])) ∨
    (dropped (k, s) = true ∧ s.state.isLoading = true ∧ program.call k s = (s, [])) ∨
    (asked k ≠ "" ∧ s.state.isLoading = false ∧ ∃ s' r, program.call k s = (s', [r]) ∧
      s'.state.isLoading = true ∧ s'.state.query = asked k ∧ r.query = asked k ∧
      r.refresh = true) := by
  rcases hk with ⟨query, rfl⟩ | rfl
  · by_cases hq : query = ""
    · subst hq
      exact Or.inl ⟨rfl, rfl⟩
    · have hempty : query.isEmpty = false := by simpa using hq
      cases hl : s.state.isLoading with
      | true =>
        refine Or.inr (Or.inl ⟨by simp [dropped, asked, hempty, hl], rfl, ?_⟩)
        simp only [program, searchWallpapers, hempty, hl, Bool.false_eq_true, if_false, if_true]
      | false =>
        refine Or.inr (Or.inr ⟨hq, rfl, ?_⟩)
        simp only [program, searchWallpapers, hempty, hl, Bool.false_eq_true, if_false]
        exact ⟨_, _, rfl, rfl, rfl, rfl, rfl⟩
  · exact Or.inl ⟨rfl, rfl⟩

theorem inv_call (hw : Inv w) (hk : SearchOrClear k) (hidle : asked k = "" → w.tasks = [])
    (hs : (numbered program).step w (.call k) = some w') : Inv w' := by
  obtain rfl := (Option.some.inj hs).symm
  have hheard : ∀ e ∈ w.shared.heard, e.1 < (w.shared.calls ++ [(k, w.shared.shared)]).length := by
    intro e he
    have := hw.heard e he
    rw [List.length_append]
    omega
  have hnew : heardBy w.shared.calls.length w.shared.heard = [] := heardBy_eq_nil hw.heard
  refine ⟨hheard, ?_⟩
  rcases call_cases hk w.shared.shared with ⟨hq, hcall⟩ | ⟨hd, hload, hcall⟩ | ⟨hq, hload, hsent⟩
  · -- a clear
    have hnil := hidle hq
    have hd : dropped (k, w.shared.shared) = false := by simp [dropped, hq]
    refine Or.inl ⟨by simp [numbered, hcall, hnil], by simp [numbered, hcall], Or.inr ?_⟩
    refine ⟨w.shared.calls.length, (k, w.shared.shared), latest_concat hd rfl, ?_, fun _ => ?_,
      fun ws hws => ?_⟩
    · show ((numbered program).call k w.shared).1.shared.state.query = asked k
      rw [hq]
      simp [numbered, hcall]
    · simp [numbered, hcall]
    · have hws : heardBy w.shared.calls.length w.shared.heard = [.wallpapers ws] := hws
      rw [hnew] at hws
      cases hws
  · -- a dropped search
    rcases hw.request with ⟨-, hl, -⟩ | ⟨i, r, ht, -, c, hlat, hrest⟩
    · rw [hload] at hl
      cases hl
    · refine Or.inr ⟨i, r, by simp [numbered, hcall, ht], by simp [numbered, hcall, hload], c,
        latest_dropped hlat hd rfl, ?_⟩
      simpa [numbered, hcall] using hrest
  · -- a search that is sent
    obtain ⟨s', r, hcall, hl', hq', hr, href⟩ := hsent
    rcases hw.request with ⟨hnil, -, -⟩ | ⟨i, r', -, hl, -⟩
    · have hd : dropped (k, w.shared.shared) = false := by simp [dropped, hload]
      refine Or.inr ⟨w.shared.calls.length, r, by simp [numbered, hcall, hnil],
        by simp [numbered, hcall, hl'], (k, w.shared.shared), latest_concat hd rfl, hr.symm,
        hr ▸ hq, ?_, href, hnew⟩
      simp [numbered, hcall, hq', hr]
    · rw [hload] at hl
      cases hl

theorem inv_resume (hw : Inv w) {n : ℕ} {a : Answer}
    (hs : (numbered program).step w (.resume n a) = some w') : Inv w' := by
  obtain ⟨h, us⟩ := w
  rcases hw.request with ⟨hnil, -, -⟩ | ⟨i, r, htasks, -, c, hlat, hask, hne, hquery, href, hno⟩
  · obtain rfl : us = [] := hnil
    cases hs
  · obtain rfl : us = [(i, r)] := htasks
    obtain ⟨-, s, ts, hr, rfl⟩ := Program.step_alone hs
    obtain ⟨⟨s₁, ts₁⟩, hres, heq⟩ := Option.map_eq_some_iff.mp hr
    obtain ⟨rfl, rfl⟩ := Prod.mk.inj heq
    have hself : heardBy i (h.heard ++ [(i, a)]) = [a] := by
      rw [heardBy_concat_self, hno]
      rfl
    have hlt : i < h.calls.length := by
      obtain ⟨pre, post, hcalls, hi, -⟩ := hlat
      rw [hcalls, List.length_append, List.length_cons]
      omega
    have hheard : ∀ e ∈ h.heard ++ [(i, a)], e.1 < h.calls.length := by
      intro e he
      rcases List.mem_append.mp he with he | he
      · exact hw.heard e he
      · obtain rfl := List.mem_singleton.mp he
        exact hlt
    have hask' : asked c.1 ≠ "" := fun h => hne (hask.symm.trans h)
    cases a with
    | wallpapers ws =>
      obtain ⟨rfl, rfl⟩ := Prod.mk.inj (Option.some.inj hres)
      have hrep : (r.refresh || h.shared.state.query != r.query) = true := by rw [href]; rfl
      obtain ⟨hws, -, hq, -⟩ := applyAnswer_replace ws hrep
      have hload : (applyAnswer r ws h.shared).state.isLoading = false := by
        unfold applyAnswer
        rw [if_pos hrep]
      refine ⟨hheard, Or.inl ⟨rfl, hload, Or.inr ⟨i, c, hlat, hq.trans hask.symm,
        fun h => absurd h hask', fun ws' hws' => ?_⟩⟩⟩
      have hws' : heardBy i (h.heard ++ [(i, Answer.wallpapers ws)]) = [.wallpapers ws'] :=
        hws'
      rw [hself, List.singleton_inj] at hws'
      obtain rfl := Answer.wallpapers.inj hws'
      exact hws
    | exception text =>
      obtain ⟨rfl, rfl⟩ := Prod.mk.inj (Option.some.inj hres)
      refine ⟨hheard, Or.inl ⟨rfl, rfl, Or.inr ⟨i, c, hlat, hquery.trans hask.symm,
        fun h => absurd h hask', fun ws' hws' => ?_⟩⟩⟩
      have hws' : heardBy i (h.heard ++ [(i, Answer.exception text)]) = [.wallpapers ws'] :=
        hws'
      rw [hself, List.singleton_inj] at hws'
      cases hws'

end Steps

/-! ### Runs -/

theorem inv_start : Inv (start fresh.shared) :=
  ⟨by simp [start], Or.inl ⟨rfl, rfl, Or.inl ⟨rfl, rfl⟩⟩⟩

def OnlySearches (_ : World State Search) (e : Event Call Answer) (_ : World State Search) : Prop :=
  ∀ k, e = .call k → SearchOrClear k

/-- **The latest search that was not dropped is shown**: in a run of searches and clears in which
nothing is cleared while a request is in flight, once all requests are over, the stored query is
that of the last call the guard let through, a clear leaves the empty query and list, and the list
is what the request of that call was answered with, if it succeeded. -/
theorem latest_search_shown (es : List (Event Call Answer)) (w : World State Search)
    (hcalls : program.Each OnlySearches fresh es) (hclear : program.Each ClearsWhenIdle fresh es)
    (hr : program.run fresh es = some w) (hdone : w.tasks = []) :
    ∃ h, (numbered program).run (start fresh.shared) es = some h ∧ forget h = w ∧
      ((callsOf es = [] ∧ w.shared.state.query = "") ∨
        ∃ pre c post, h.shared.calls = pre ++ c :: post ∧ dropped c = false ∧
          (∀ d ∈ post, dropped d = true) ∧ w.shared.state.query = asked c.1 ∧
          (asked c.1 = "" → w.shared.state.wallpapers = []) ∧
          ∀ ws, heardBy pre.length h.shared.heard = [.wallpapers ws] →
            w.shared.state.wallpapers = ws) := by
  obtain ⟨h, hrun, rfl⟩ := exists_history hr
  have heach := each_numbered (w := start fresh.shared) (Program.each_and.mpr ⟨hcalls, hclear⟩)
  have hinv : Inv h := by
    refine Program.run_inv_of_each (fun w e w' hw hQ hs => ?_) inv_start heach hrun
    cases e with
    | call k =>
      refine inv_call hw (hQ.1 k rfl) (fun hq => ?_) hs
      exact List.map_eq_nil_iff.mp (hQ.2 k rfl hq)
    | resume n a => exact inv_resume hw hs
  refine ⟨h, hrun, rfl, ?_⟩
  have hes : h.shared.calls.map Prod.fst = callsOf es := calls_of_run hrun
  rcases hinv.request with ⟨-, -, ⟨hnil, hq⟩ | ⟨i, c, hlat, hq, hrest⟩⟩ | ⟨i, r, ht, -⟩
  · refine Or.inl ⟨?_, hq⟩
    rw [← hes, hnil]
    rfl
  · obtain ⟨pre, post, hcalls', rfl, hd, hpost⟩ := hlat
    exact Or.inr ⟨pre, c, post, hcalls', hd, hpost, hq, hrest⟩
  · have hdone : h.tasks.map Prod.snd = [] := hdone
    rw [ht] at hdone
    cases hdone

def twoSearches : List (Event Call Answer) :=
  [.call (.searchWallpapers "a" true), .resume 0 (.wallpapers (samplePages "a" 1)),
    .call (.searchWallpapers "b" true), .resume 0 (.wallpapers (samplePages "b" 1))]

theorem latest_search_of_two : ∃ w, program.run fresh twoSearches = some w ∧
    ∃ h, (numbered program).run (start fresh.shared) twoSearches = some h ∧ forget h = w ∧
      ((callsOf twoSearches = [] ∧ w.shared.state.query = "") ∨
        ∃ pre c post, h.shared.calls = pre ++ c :: post ∧ dropped c = false ∧
          (∀ d ∈ post, dropped d = true) ∧ w.shared.state.query = asked c.1 ∧
          (asked c.1 = "" → w.shared.state.wallpapers = []) ∧
          ∀ ws, heardBy pre.length h.shared.heard = [.wallpapers ws] →
            w.shared.state.wallpapers = ws) := by
  refine ⟨_, rfl, latest_search_shown twoSearches _ ?_ ?_ rfl rfl⟩
  · refine (Program.each_cons rfl).mpr ⟨fun k hk => ?_, ?_⟩
    · exact Or.inl ⟨"a", (Event.call.inj hk).symm⟩
    refine (Program.each_cons rfl).mpr ⟨fun k hk => (by cases hk), ?_⟩
    refine (Program.each_cons rfl).mpr ⟨fun k hk => ?_, ?_⟩
    · exact Or.inl ⟨"b", (Event.call.inj hk).symm⟩
    exact (Program.each_cons rfl).mpr ⟨fun k hk => (by cases hk), trivial⟩
  · refine (Program.each_cons rfl).mpr ⟨fun _ _ _ => rfl, ?_⟩
    refine (Program.each_cons rfl).mpr ⟨fun k hk => (by cases hk), ?_⟩
    refine (Program.each_cons rfl).mpr ⟨fun _ _ _ => rfl, ?_⟩
    exact (Program.each_cons rfl).mpr ⟨fun k hk => (by cases hk), trivial⟩

/-- **A dropped search and a cleared one that comes back**: the search for `b` is dropped, so `a` is
shown; the search for `a` is cleared while it is in flight, and its answer brings it back. -/
theorem dropped_and_revived :
    (∃ w, program.run fresh [.call (.searchWallpapers "a" true),
        .call (.searchWallpapers "b" true), .resume 0 (.wallpapers (samplePages "a" 1))] = some w ∧
      w.tasks = [] ∧ w.shared.state.query = "a" ∧
      w.shared.state.wallpapers.map Wallpaper.id = ["a-1"]) ∧
    ∃ w, program.run fresh [.call (.searchWallpapers "a" true), .call .clearSearch,
        .resume 0 (.wallpapers (samplePages "a" 1))] = some w ∧
      w.tasks = [] ∧ w.shared.state.query = "a" ∧
      w.shared.state.wallpapers.map Wallpaper.id = ["a-1"] :=
  ⟨⟨_, rfl, rfl, rfl, rfl⟩, _, rfl, rfl, rfl, rfl⟩

end PixsBliss.Providers.SearchLatest
