import PixsBliss.Lib.Calls
import PixsBliss.Lib.Flight
import PixsBliss.Models.RoundTrip

/-! # The API search

`SearchNotifier` has no guard: every search with a query sends a request and stores its query, and
every answer is written when it comes. A clear, and a search for nothing, put back the initial state
whatever is in flight.

* `results_match_iff_alone`: the flag says whether a request is in flight, and the results are those
  of the stored query, exactly along the runs in which every answer is that of the only request in
  flight and nothing is cleared during a request.
* `earlier_results_shown`: of two overlapping searches the first one is answered last. -/

namespace PixsBliss.Providers.SearchNotifier

open PixsBliss.Lib.Async PixsBliss.Lib.Calls PixsBliss.Lib.Flight PixsBliss.Models

/-! ### The program -/

/-- The state that is shown. A `copyWith` keeps the fields it is not given; `error: null` gives
nothing. -/
structure SearchState where
  results : List Wallpaper := []
  isLoading : Bool := false
  error : Option String := none
  query : String := ""
deriving DecidableEq

/-- A request of the repository in flight. -/
structure Search where
  query : String
deriving DecidableEq

inductive Call
  | search (query : String)
  | clearSearch
deriving DecidableEq

inductive Answer
  | results (wallpapers : List Wallpaper)
  | exception (text : String)
deriving DecidableEq

def clearSearch : SearchState × List Search := ({}, [])

/-- `search`, up to the request. -/
def search (query : String) (s : SearchState) : SearchState × List Search :=
  if query.isEmpty then ({}, [])
  else ({ s with isLoading := true, query := query }, [⟨query⟩])

/-- A search after a successful answer. -/
def applyResults (ws : List Wallpaper) (s : SearchState) : SearchState :=
  { s with results := ws, isLoading := false }

/-- The catch of a search. -/
def applyError (text : String) (s : SearchState) : SearchState :=
  { s with isLoading := false, error := some text }

/-- **The notifier.** -/
def program : Program SearchState Search Call Answer where
  call
    | .search query, s => search query s
    | .clearSearch, _ => clearSearch
  resume
    | _, .results ws, s => some (applyResults ws s, [])
    | _, .exception text, s => some (applyError text s, [])

abbrev SearchHistory := History SearchState Call Answer
abbrev SearchWorld := World SearchHistory (ℕ × Search)

/-! ### The law -/

/-- The query of a call; a clear has none. -/
def asked : Call → String
  | .search query => query
  | .clearSearch => ""

/-- The number of the last search with a query. -/
def lastSearch (calls : List (Call × SearchState)) : Option ℕ :=
  ((calls.zipIdx.filter fun c => !(asked c.1.1).isEmpty).getLast?).map Prod.snd

/-- Nothing was called yet, or the last call was a clear. -/
def Cleared (h : SearchHistory) : Prop := ∀ c ∈ h.calls.getLast?, asked c.1 = ""

/-- The last search was answered with results. -/
def Succeeded (h : SearchHistory) : Prop :=
  ∃ i ws, lastSearch h.calls = some i ∧ heardBy i h.heard = [.results ws]

/-- **The law**: the flag says whether a request is in flight; without one the state is the initial
one after a clear, or, if the last search succeeded, has the results of its query. -/
structure Law (api : String → List Wallpaper) (w : SearchWorld) : Prop where
  loading : w.shared.shared.isLoading = true ↔ w.tasks ≠ []
  results : w.tasks = [] → (Cleared w.shared ∧ w.shared.shared = {}) ∨
    (Succeeded w.shared → w.shared.shared.results = api w.shared.shared.query)

/-- Results that come are those of the query that was sent. -/
def AnswersFrom (api : String → List Wallpaper) : ℕ × Search → Answer → SearchHistory → Prop
  | r, .results ws, _ => ws = api r.2.query
  | _, .exception _, _ => True

/-- **Requests stay alone**: an answer is that of the only request in flight, and nothing is cleared
while a request is in flight. -/
def Alone (w : SearchWorld) (e : Event Call Answer) (_ : SearchWorld) : Prop :=
  (∀ k, e = .call k → asked k = "" → w.tasks = []) ∧
  ∀ i a, e = .resume i a → w.tasks.length = 1

/-- What is kept while requests stay alone: a request that is alone is that of the last call. -/
structure Inv (api : String → List Wallpaper) (w : SearchWorld) : Prop extends Law api w where
  heard : ∀ e ∈ w.shared.heard, e.1 < w.shared.calls.length
  alone : ∀ i r, w.tasks = [(i, r)] → w.shared.shared.query = r.query ∧
    lastSearch w.shared.calls = some i ∧ heardBy i w.shared.heard = []

section Steps

variable {api : String → List Wallpaper} {w w' : SearchWorld} {e : Event Call Answer}

/-- The last call with a query is the last search. -/
theorem lastSearch_concat (calls : List (Call × SearchState)) (c : Call × SearchState)
    (h : asked c.1 ≠ "") : lastSearch (calls ++ [c]) = some calls.length := by
  have hne : (!(asked c.1).isEmpty) = true := by simpa using h
  simp [lastSearch, List.zipIdx_append, List.filter_append, hne]

theorem lastSearch_lt {calls : List (Call × SearchState)} {i : ℕ} (h : lastSearch calls = some i) :
    i < calls.length := by
  obtain ⟨c, hc, rfl⟩ := Option.map_eq_some_iff.mp h
  have hm := (List.mem_filter.mp (List.mem_of_getLast? hc)).1
  have hlt := List.snd_lt_of_mem_zipIdx hm
  omega

/-- **What a call does.** -/
theorem call_cases (k : Call) (s : SearchState) :
    (asked k = "" ∧ program.call k s = ({}, [])) ∨
    (asked k ≠ "" ∧ program.call k s =
      ({ s with isLoading := true, query := asked k }, [⟨asked k⟩])) := by
  cases k with
  | clearSearch => exact Or.inl ⟨rfl, rfl⟩
  | search query =>
    by_cases hq : query = ""
    · subst hq
      exact Or.inl ⟨rfl, rfl⟩
    · have hempty : ¬ query.isEmpty = true := by simpa using hq
      exact Or.inr ⟨hq, if_neg hempty⟩

theorem inv_start (api : String → List Wallpaper) : Inv api (start {}) where
  loading := by simp [start]
  results _ := Or.inl ⟨fun c hc => by simp [start] at hc, rfl⟩
  heard := by simp [start]
  alone := by simp [start]

theorem inv_call (h : Inv api w) {k : Call} (hclear : asked k = "" → w.tasks = [])
    (hs : (numbered program).step w (.call k) = some w') : Inv api w' := by
  obtain rfl := (Option.some.inj hs).symm
  have hnew : heardBy w.shared.calls.length w.shared.heard = [] := heardBy_eq_nil h.heard
  have hheard : ∀ e ∈ w.shared.heard,
      e.1 < (w.shared.calls ++ [(k, w.shared.shared)]).length := by
    intro e he
    have := h.heard e he
    rw [List.length_append]
    omega
  rcases call_cases k w.shared.shared with ⟨hq, hcall⟩ | ⟨hq, hcall⟩
  · -- a clear, with nothing in flight
    have hnil := hclear hq
    refine ⟨⟨?_, fun _ => Or.inl ⟨?_, ?_⟩⟩, hheard, ?_⟩
    · simp [numbered, hcall, hnil]
    · intro c hc
      simp only [numbered, List.getLast?_concat, Option.mem_some_iff] at hc
      rw [← hc]
      exact hq
    · simp [numbered, hcall]
    · intro i r ht
      simp [numbered, hcall, hnil] at ht
  · -- a search
    refine ⟨⟨?_, fun hnil => ?_⟩, hheard, ?_⟩
    · simp [numbered, hcall]
    · simp [numbered, hcall] at hnil
    · intro i r ht
      have ht : w.tasks ++ [(w.shared.calls.length, Search.mk (asked k))] = [] ++ [(i, r)] := by
        simpa [numbered, hcall] using ht
      obtain ⟨-, heq⟩ := List.append_singleton_inj.mp ht
      obtain ⟨rfl, rfl⟩ := Prod.mk.inj heq
      refine ⟨by simp [numbered, hcall], ?_, hnew⟩
      exact lastSearch_concat w.shared.calls (k, w.shared.shared) hq

theorem inv_resume (h : Inv api w) {n : ℕ} {a : Answer} (halone : w.tasks.length = 1)
    (ha : Meets (AnswersFrom api) w (.resume n a : Event Call Answer) w')
    (hs : (numbered program).step w (.resume n a) = some w') : Inv api w' := by
  obtain ⟨s, us⟩ := w
  obtain ⟨⟨i, r⟩, rfl⟩ := List.length_eq_one_iff.mp halone
  obtain ⟨hquery, hlast, hno⟩ := h.alone i r rfl
  obtain ⟨rfl, s', ts, hr, rfl⟩ := Program.step_alone hs
  obtain ⟨⟨s₁, ts₁⟩, hres, heq⟩ := Option.map_eq_some_iff.mp hr
  obtain ⟨rfl, rfl⟩ := Prod.mk.inj heq
  have hheard : ∀ e ∈ s.heard ++ [(i, a)], e.1 < s.calls.length := by
    intro e he
    rcases List.mem_append.mp he with he | he
    · exact h.heard e he
    · rw [List.mem_singleton.mp he]
      exact lastSearch_lt hlast
  cases a with
  | results ws =>
    obtain ⟨rfl, rfl⟩ := Prod.mk.inj (Option.some.inj hres)
    obtain rfl : ws = api r.query := ha 0 _ _ rfl rfl
    refine ⟨⟨by simp [applyResults], fun _ => Or.inr fun _ => ?_⟩, hheard, by simp⟩
    show api r.query = api s.shared.query
    rw [hquery]
  | exception text =>
    obtain ⟨rfl, rfl⟩ := Prod.mk.inj (Option.some.inj hres)
    refine ⟨⟨by simp [applyError], fun _ => Or.inr fun hsucc => ?_⟩, hheard, by simp⟩
    obtain ⟨j, ws, hj, hws⟩ := hsucc
    obtain rfl : i = j := Option.some.inj (hlast.symm.trans hj)
    have hws : heardBy i (s.heard ++ [(i, Answer.exception text)]) = [.results ws] := hws
    rw [heardBy_concat_self, hno, List.nil_append, List.singleton_inj] at hws
    cases hws

/-- **The law keeps requests alone**: the flag goes down with a clear and with every answer. -/
theorem alone_of_law (hs : (numbered program).step w e = some w') (hlaw : Law api w') :
    Alone w e w' := by
  refine ⟨?_, ?_⟩
  · rintro k rfl hq
    obtain rfl := (Option.some.inj hs).symm
    rcases call_cases k w.shared.shared with ⟨-, hcall⟩ | ⟨hne, -⟩
    · by_contra hne
      have hload := hlaw.loading.mpr (by simp [numbered, hcall, hne])
      simp [numbered, hcall] at hload
    · exact absurd hq hne
  · rintro n a rfl
    obtain ⟨l, ⟨i, r⟩, r', s, ts, ht, -, hr, rfl⟩ := Program.step_resume hs
    obtain ⟨⟨s₁, ts₁⟩, hres, heq⟩ := Option.map_eq_some_iff.mp hr
    obtain ⟨rfl, rfl⟩ := Prod.mk.inj heq
    have hdown : s₁.isLoading = false ∧ ts₁ = [] := by
      cases a with
      | results ws =>
        obtain ⟨rfl, rfl⟩ := Prod.mk.inj (Option.some.inj hres)
        exact ⟨rfl, rfl⟩
      | exception text =>
        obtain ⟨rfl, rfl⟩ := Prod.mk.inj (Option.some.inj hres)
        exact ⟨rfl, rfl⟩
    obtain ⟨hload, rfl⟩ := hdown
    have hnil : l ++ r' = [] := by
      by_contra hne
      have := hlaw.loading.mpr (by simpa using hne)
      rw [hload] at this
      cases this
    obtain ⟨rfl, rfl⟩ := List.append_eq_nil_iff.mp hnil
    rw [ht]
    rfl

theorem inv_step (h : Inv api w) (ha : Meets (AnswersFrom api) w e w') (halone : Alone w e w')
    (hs : (numbered program).step w e = some w') : Inv api w' := by
  cases e with
  | call k => exact inv_call h (halone.1 k rfl) hs
  | resume n a => exact inv_resume h (halone.2 n a rfl) ha hs

end Steps

/-! ### Runs -/

/-- **Exactly the runs along which the results match the query**: the repository being a function of
the query, the law holds in every state iff every answer is that of the only request in flight and
nothing is cleared while a request is in flight. -/
theorem results_match_iff_alone (api : String → List Wallpaper) (es : List (Event Call Answer))
    (hapi : (numbered program).Each (Meets (AnswersFrom api)) (start {}) es) :
    (numbered program).Each (fun _ _ w' => Law api w') (start {}) es ↔
      (numbered program).Each Alone (start {}) es := by
  refine Program.each_iff_each_of (fun w e w' h ha hs => ?_) (inv_start api) hapi
  have hinv : Alone w e w' → Inv api w' := fun halone => inv_step h ha halone hs
  exact ⟨⟨alone_of_law hs, fun halone => (hinv halone).toLaw⟩,
    fun hlaw => hinv (alone_of_law hs hlaw)⟩

/-! ### Two searches -/

/-- A repository that finds one wallpaper, with the query as its id. -/
def sampleResults (query : String) : List Wallpaper := [sampleWallpaper query "api"]

/-- Two searches, one after the other. -/
def inTurn : List (Event Call Answer) :=
  [.call (.search "a"), .resume 0 (.results (sampleResults "a")), .call (.search "b"),
    .resume 0 (.results (sampleResults "b"))]

/-- The second search is answered first. -/
def secondFirst : List (Event Call Answer) :=
  [.call (.search "a"), .call (.search "b"), .resume 1 (.results (sampleResults "b")),
    .resume 0 (.results (sampleResults "a"))]

/-- A search that is cleared while it is in flight. -/
def clearedInFlight : List (Event Call Answer) :=
  [.call (.search "a"), .call .clearSearch, .resume 0 (.results (sampleResults "a"))]

theorem results_match_inTurn :
    (numbered program).Each (fun _ _ w' => Law sampleResults w') (start {}) inTurn ↔
      (numbered program).Each Alone (start {}) inTurn := by
  refine results_match_iff_alone sampleResults inTurn ?_
  refine (Program.each_cons rfl).mpr ⟨meets_call, ?_⟩
  refine (Program.each_cons rfl).mpr ⟨meets_of_task rfl rfl, ?_⟩
  refine (Program.each_cons rfl).mpr ⟨meets_call, ?_⟩
  exact (Program.each_cons rfl).mpr ⟨meets_of_task rfl rfl, trivial⟩

/-- **Earlier results are shown**: the results of the first search under the query of the second
one, which succeeded; and the results of a cleared search under no query. -/
theorem earlier_results_shown :
    ((numbered program).Each (Meets (AnswersFrom sampleResults)) (start {}) secondFirst ∧
      ∃ w, (numbered program).run (start {}) secondFirst = some w ∧ w.tasks = [] ∧
        Succeeded w.shared ∧ w.shared.shared.query = "b" ∧
        w.shared.shared.results = sampleResults "a" ∧ ¬ Law sampleResults w) ∧
    (numbered program).Each (Meets (AnswersFrom sampleResults)) (start {}) clearedInFlight ∧
      ∃ w, (numbered program).run (start {}) clearedInFlight = some w ∧ w.tasks = [] ∧
        Cleared w.shared ∧ w.shared.shared.results = sampleResults "a" ∧ ¬ Law sampleResults w := by
  refine ⟨⟨?_, _, rfl, rfl, ⟨1, _, rfl, rfl⟩, rfl, rfl, fun h => ?_⟩, ?_, _, rfl, rfl, ?_, rfl,
    fun h => ?_⟩
  · refine (Program.each_cons rfl).mpr ⟨meets_call, ?_⟩
    refine (Program.each_cons rfl).mpr ⟨meets_call, ?_⟩
    refine (Program.each_cons rfl).mpr ⟨meets_of_task rfl rfl, ?_⟩
    exact (Program.each_cons rfl).mpr ⟨meets_of_task rfl rfl, trivial⟩
  · rcases h.results rfl with ⟨-, hinit⟩ | hres
    · exact absurd (congrArg SearchState.query hinit) (by decide)
    · have hids := congrArg (List.map Wallpaper.id) (hres ⟨1, _, rfl, rfl⟩)
      exact absurd hids (by decide)
  · refine (Program.each_cons rfl).mpr ⟨meets_call, ?_⟩
    refine (Program.each_cons rfl).mpr ⟨meets_call, ?_⟩
    exact (Program.each_cons rfl).mpr ⟨meets_of_task rfl rfl, trivial⟩
  · intro c hc
    obtain rfl := Option.some.inj hc
    rfl
  · rcases h.results rfl with ⟨-, hinit⟩ | hres
    · exact absurd (congrArg SearchState.results hinit) (List.cons_ne_nil _ _)
    · have hids := congrArg (List.map Wallpaper.id) (hres ⟨0, _, rfl, rfl⟩)
      exact absurd hids (by decide)

end PixsBliss.Providers.SearchNotifier
