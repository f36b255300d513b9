import PixsBliss.Lib.Flight
import PixsBliss.Services.AdMobService

/-! # The ad notifier

`AdMobNotifier` initializes the ad service, preloads ads one after the other, loads a single ad and
takes one from the pool. `loadBannerAd` creates a banner, awaits its `load()`, waits for two seconds
and returns the banner if it is in the pool by then; it catches everything, so the catches of the
notifier are never reached. A call that returns goes on in its caller in the same step.

Each banner is a task that is never over: the callbacks of the SDK resume it.

* `givenOnce_iff_proper`: every banner is given out at most once, and is in the pool only before
  that, exactly along the runs in which no banner is loaded again or fails while it is in the pool,
  and no `loadAd` finds its banner there.
* `ad_given_twice`: a banner that `loadAd` returns and `getAd` gives out again. -/

namespace PixsBliss.Providers.AdMobNotifier

open PixsBliss.Lib.Async PixsBliss.Lib.Flight PixsBliss.Services.AdMobService

/-! ### The program -/

/-- The state that is shown; `error` is never set. -/
structure AdMobState where
  isInitializing : Bool := false
  isInitialized : Bool := false
  isLoading : Bool := false
  isPreloading : Bool := false
  loadedAdCount : ℕ := 0
deriving DecidableEq

structure State where
  state : AdMobState
  service : Pools

/-- Who called `loadBannerAd`: a preload, with the number of ads it loads after this one, or
`loadAd`. -/
inductive Caller
  | preloadAds (rest : ℕ)
  | loadAd
deriving DecidableEq

/-- What is awaited: the SDK, by `_initialize` or by `loadBannerAd`; the `load()` of a banner; the
two seconds after it. A banner waits for its callbacks. -/
inductive Task
  | initializing
  | initializingFor (caller : Caller)
  | loading (ad : ℕ) (caller : Caller)
  | waiting (ad : ℕ) (caller : Caller)
  | banner (ad : ℕ)
deriving DecidableEq

inductive Call
  | preloadAds (count : ℕ)
  | loadAd
  | getAd
deriving DecidableEq

/-- What is awaited completes or throws; a banner calls back. -/
inductive Outcome
  | done
  | failed
  | onAdLoaded
  | onAdFailedToLoad
deriving DecidableEq

abbrev AdWorld := World State Task
abbrev AdEvent := Event Call Outcome

/-- The new banner of `loadBannerAd`. -/
def createBanner (caller : Caller) (s : State) : State × List Task :=
  ({ s with service := createBannerAd s.service },
    [.loading s.service.created caller, .banner s.service.created])

def loadBannerAd (caller : Caller) (s : State) : State × List Task :=
  if s.service.isInitialized then createBanner caller s else (s, [.initializingFor caller])

/-- The loop of the service, and the notifier after it. -/
def preloadLoop (count : ℕ) (s : State) : State × List Task :=
  match count with
  | 0 =>
    ({ s with state := { s.state with
        isPreloading := false, loadedAdCount := s.service.loadedAds.length } }, [])
  | rest + 1 => loadBannerAd (.preloadAds rest) s

def preloadAds (count : ℕ) (s : State) : State × List Task :=
  if s.state.isInitialized then
    preloadLoop count { s with state := { s.state with isPreloading := true } }
  else (s, [])

def loadAd (s : State) : State × List Task :=
  if s.state.isInitialized then
    loadBannerAd .loadAd { s with state := { s.state with isLoading := true } }
  else (s, [])

/-- `getAd`; the count is updated when there is an ad. -/
def getAd (s : State) : State :=
  let service := give (getLoadedAd s.service).1 (getLoadedAd s.service).2
  match (getLoadedAd s.service).1 with
  | none => { s with service := service }
  | some _ =>
    { s with
      state := { s.state with loadedAdCount := service.loadedAds.length }
      service := service }

/-- `loadBannerAd` returns to its caller. -/
def returnTo (caller : Caller) (result : Option ℕ) (s : State) : State × List Task :=
  match caller with
  | .preloadAds rest => preloadLoop rest s
  | .loadAd =>
    ({ s with
       state := { s.state with isLoading := false, loadedAdCount := s.service.loadedAds.length }
       service := give result s.service }, [])

/-- The end of the service's `initialize`, whose errors are swallowed. -/
def initialized (ok : Bool) (s : State) : State :=
  { s with service := { s.service with isInitialized := s.service.isInitialized || ok } }

/-- `_initialize` goes on: some ads are preloaded. -/
def afterInitialize (s : State) : State × List Task :=
  preloadAds 3 { s with state := { s.state with isInitializing := false, isInitialized := true } }

/-- **The notifier and its service.** -/
def program : Program State Task Call Outcome where
  call
    | .preloadAds count, s => preloadAds count s
    | .loadAd, s => loadAd s
    | .getAd, s => (getAd s, [])
  resume
    | .initializing, .done, s => some (afterInitialize (initialized true s))
    | .initializing, .failed, s => some (afterInitialize (initialized false s))
    | .initializingFor caller, .done, s => some (createBanner caller (initialized true s))
    | .initializingFor caller, .failed, s => some (createBanner caller (initialized false s))
    | .loading ad caller, .done, s => some (s, [.waiting ad caller])
    | .loading _ caller, .failed, s => some (returnTo caller none s)
    | .waiting ad caller, .done, s => some (returnTo caller (loadedAd ad s.service) s)
    | .banner ad, .onAdLoaded, s =>
      some ({ s with service := onAdLoaded ad s.service }, [.banner ad])
    | .banner ad, .onAdFailedToLoad, s =>
      some ({ s with service := onAdFailedToLoad ad s.service }, [.banner ad])
    | _, _, _ => none

/-- A new notifier, which initializes the service. -/
def start : AdWorld := ⟨⟨{ isInitializing := true }, {}⟩, [.initializing]⟩

/-! ### The condition -/

/-- `onAdLoaded` comes once for a banner, before it is disposed; no banner fails while it is in the
pool; `loadAd` does not find its banner in the pool. -/
def Proper : Task → Outcome → State → Prop
  | .banner ad, .onAdLoaded, s => ad ∉ s.service.everLoaded ∧ ad ∉ s.service.disposed
  | .banner ad, .onAdFailedToLoad, s => ad ∉ s.service.loadedAds
  | .waiting ad .loadAd, .done, s => ad ∉ s.service.loadedAds
  | _, _, _ => True

/-! ### Turns that cannot go wrong -/

/-- The banner a task is about. -/
def adOf : Task → Option ℕ
  | .loading ad _ => some ad
  | .waiting ad _ => some ad
  | .banner ad => some ad
  | _ => none

/-- The turn keeps the invariant of the pools and leaves tasks of known banners. -/
structure Keeps (s s' : State) (ts : List Task) : Prop where
  owned : Owned s.service → Owned s'.service
  le : s.service.created ≤ s'.service.created
  known : ∀ t ∈ ts, ∀ ad, adOf t = some ad → ad < s'.service.created

section Turns

variable {s s' : State} {w w' : AdWorld} {e : AdEvent} {ts : List Task}

/-- A turn that does not touch the pools and leaves no banner. -/
theorem keeps_of_pools (h : s'.service = s.service) (hts : ∀ t ∈ ts, adOf t = none) :
    Keeps s s' ts := by
  refine ⟨fun ho => h ▸ ho, (congrArg Pools.created h).ge, fun t ht ad had => ?_⟩
  rw [hts t ht] at had
  cases had

theorem Keeps.of_eq {s₁ : State} (h : Keeps s₁ s' ts) (hs : s₁.service = s.service) :
    Keeps s s' ts :=
  ⟨fun ho => h.owned (hs ▸ ho), hs ▸ h.le, h.known⟩

theorem keeps_createBanner (caller : Caller) (s : State) :
    Keeps s (createBanner caller s).1 (createBanner caller s).2 := by
  refine ⟨owned_createBannerAd, Nat.le_succ _, fun t ht ad had => ?_⟩
  have hlt : s.service.created < (createBanner caller s).1.service.created := Nat.lt_succ_self _
  simp only [createBanner, List.mem_cons, List.not_mem_nil, or_false] at ht
  rcases ht with rfl | rfl <;> exact Option.some.inj had ▸ hlt

theorem keeps_loadBannerAd (caller : Caller) (s : State) :
    Keeps s (loadBannerAd caller s).1 (loadBannerAd caller s).2 := by
  unfold loadBannerAd
  split_ifs
  · exact keeps_createBanner caller s
  · exact keeps_of_pools rfl fun t ht => by rw [List.mem_singleton.mp ht]; rfl

theorem keeps_preloadLoop (count : ℕ) (s : State) :
    Keeps s (preloadLoop count s).1 (preloadLoop count s).2 := by
  cases count with
  | zero => exact keeps_of_pools rfl fun t ht => absurd ht List.not_mem_nil
  | succ rest => exact keeps_loadBannerAd (.preloadAds rest) s

theorem keeps_preloadAds (count : ℕ) (s : State) :
    Keeps s (preloadAds count s).1 (preloadAds count s).2 := by
  unfold preloadAds
  split_ifs
  · exact (keeps_preloadLoop count _).of_eq rfl
  · exact keeps_of_pools rfl fun t ht => absurd ht List.not_mem_nil

theorem keeps_loadAd (s : State) : Keeps s (loadAd s).1 (loadAd s).2 := by
  unfold loadAd
  split_ifs
  · exact (keeps_loadBannerAd .loadAd _).of_eq rfl
  · exact keeps_of_pools rfl fun t ht => absurd ht List.not_mem_nil

theorem service_getAd (s : State) :
    (getAd s).service = give (getLoadedAd s.service).1 (getLoadedAd s.service).2 := by
  unfold getAd
  cases (getLoadedAd s.service).1 <;> rfl

theorem keeps_getAd (s : State) : Keeps s (getAd s) [] := by
  refine ⟨fun ho => ?_, ?_, fun t ht => absurd ht List.not_mem_nil⟩
  · rw [service_getAd]
    exact owned_getLoadedAd ho
  · rw [service_getAd, getLoadedAd]
    cases s.service.loadedAds <;> exact le_rfl

theorem keeps_call (k : Call) (s : State) : Keeps s (program.call k s).1 (program.call k s).2 := by
  cases k with
  | preloadAds count => exact keeps_preloadAds count s
  | loadAd => exact keeps_loadAd s
  | getAd => exact keeps_getAd s

theorem keeps_initialized {ok : Bool} (h : Keeps (initialized ok s) s' ts) : Keeps s s' ts := by
  refine ⟨fun ho => h.owned ⟨?_, ho.everLoaded, ho.loading, ho.known⟩, h.le, h.known⟩
  have hg := ho.givenOnce
  exact ⟨hg.given, hg.loaded, hg.not_given, hg.not_disposed, hg.not_loading⟩

theorem keeps_afterInitialize (ok : Bool) (s : State) :
    Keeps s (afterInitialize (initialized ok s)).1 (afterInitialize (initialized ok s)).2 := by
  have h : Keeps (initialized ok s) (afterInitialize (initialized ok s)).1
      (afterInitialize (initialized ok s)).2 := (keeps_preloadAds 3 _).of_eq rfl
  exact keeps_initialized h

theorem keeps_returnTo_none (caller : Caller) (s : State) :
    Keeps s (returnTo caller none s).1 (returnTo caller none s).2 := by
  cases caller with
  | preloadAds rest => exact keeps_preloadLoop rest s
  | loadAd =>
    have hs : give none s.service = s.service := by simp [give]
    exact keeps_of_pools hs fun t ht => absurd ht List.not_mem_nil

/-! ### One turn -/

/-- What a resumption does: nothing wrong, or the law holds after it exactly when it is proper. -/
theorem resume_spec {t : Task} {o : Outcome} (ho : Owned s.service)
    (hlt : ∀ ad, adOf t = some ad → ad < s.service.created)
    (hr : program.resume t o s = some (s', ts)) :
    (GivenOnce s'.service ↔ Proper t o s) ∧ (GivenOnce s'.service →
      Owned s'.service ∧ s.service.created ≤ s'.service.created ∧
        ∀ t ∈ ts, ∀ ad, adOf t = some ad → ad < s'.service.created) := by
  have hkeeps : Keeps s s' ts → Proper t o s → (GivenOnce s'.service ↔ Proper t o s) ∧
      (GivenOnce s'.service → Owned s'.service ∧ s.service.created ≤ s'.service.created ∧
        ∀ t ∈ ts, ∀ ad, adOf t = some ad → ad < s'.service.created) := fun hk hp =>
    ⟨⟨fun _ => hp, fun _ => (hk.owned ho).givenOnce⟩, fun _ => ⟨hk.owned ho, hk.le, hk.known⟩⟩
  match t, o with
  | .initializing, .done =>
    obtain ⟨rfl, rfl⟩ := Prod.mk.inj (Option.some.inj hr)
    exact hkeeps (keeps_afterInitialize true s) trivial
  | .initializing, .failed =>
    obtain ⟨rfl, rfl⟩ := Prod.mk.inj (Option.some.inj hr)
    exact hkeeps (keeps_afterInitialize false s) trivial
  | .initializingFor caller, .done =>
    obtain ⟨rfl, rfl⟩ := Prod.mk.inj (Option.some.inj hr)
    exact hkeeps (keeps_initialized (keeps_createBanner caller _)) trivial
  | .initializingFor caller, .failed =>
    obtain ⟨rfl, rfl⟩ := Prod.mk.inj (Option.some.inj hr)
    exact hkeeps (keeps_initialized (keeps_createBanner caller _)) trivial
  | .loading ad caller, .done =>
    obtain ⟨rfl, rfl⟩ := Prod.mk.inj (Option.some.inj hr)
    refine hkeeps ⟨id, le_rfl, fun t ht ad' had => ?_⟩ trivial
    rw [List.mem_singleton.mp ht] at had
    exact hlt ad' had
  | .loading ad caller, .failed =>
    obtain ⟨rfl, rfl⟩ := Prod.mk.inj (Option.some.inj hr)
    exact hkeeps (keeps_returnTo_none caller s) trivial
  | .waiting ad (.preloadAds rest), .done =>
    obtain ⟨rfl, rfl⟩ := Prod.mk.inj (Option.some.inj hr)
    exact hkeeps (keeps_preloadLoop rest s) trivial
  | .waiting ad .loadAd, .done =>
    obtain ⟨rfl, rfl⟩ := Prod.mk.inj (Option.some.inj hr)
    refine ⟨givenOnce_giveLoaded_iff ho, fun hg => ⟨owned_giveLoaded ho hg, le_rfl, ?_⟩⟩
    exact fun t ht => absurd ht List.not_mem_nil
  | .banner ad, .onAdLoaded =>
    obtain ⟨rfl, rfl⟩ := Prod.mk.inj (Option.some.inj hr)
    refine ⟨givenOnce_onAdLoaded_iff ho, fun hg =>
      ⟨owned_onAdLoaded ho (hlt ad rfl) hg, le_rfl, fun t ht ad' had => ?_⟩⟩
    rw [List.mem_singleton.mp ht] at had
    exact hlt ad' had
  | .banner ad, .onAdFailedToLoad =>
    obtain ⟨rfl, rfl⟩ := Prod.mk.inj (Option.some.inj hr)
    refine ⟨givenOnce_onAdFailedToLoad_iff ho, fun hg =>
      ⟨owned_onAdFailedToLoad ho (hlt ad rfl) hg, le_rfl, fun t ht ad' had => ?_⟩⟩
    rw [List.mem_singleton.mp ht] at had
    exact hlt ad' had
  | .initializing, .onAdLoaded => simp [program] at hr
  | .initializing, .onAdFailedToLoad => simp [program] at hr
  | .initializingFor _, .onAdLoaded => simp [program] at hr
  | .initializingFor _, .onAdFailedToLoad => simp [program] at hr
  | .loading _ _, .onAdLoaded => simp [program] at hr
  | .loading _ _, .onAdFailedToLoad => simp [program] at hr
  | .waiting _ _, .failed => simp [program] at hr
  | .waiting _ _, .onAdLoaded => simp [program] at hr
  | .waiting _ _, .onAdFailedToLoad => simp [program] at hr
  | .banner _, .done => simp [program] at hr
  | .banner _, .failed => simp [program] at hr

end Turns

/-! ### Runs -/

section Runs

variable {w w' : AdWorld} {e : AdEvent}

/-- The invariant of the pools; the banners of the tasks were created. -/
structure Inv (w : AdWorld) : Prop where
  owned : Owned w.shared.service
  known : ∀ t ∈ w.tasks, ∀ ad, adOf t = some ad → ad < w.shared.service.created

theorem inv_start : Inv start := by
  refine ⟨?_, fun t ht ad had => ?_⟩
  · exact owned_new
  · rw [List.mem_singleton.mp ht] at had
    cases had

/-- The tasks that stay know their banners after the turn as well. -/
theorem inv_turn {s' : State} {l r ts : List Task} (h : Inv w)
    (hsub : ∀ t ∈ l ++ r, t ∈ w.tasks) (ho : Owned s'.service)
    (hle : w.shared.service.created ≤ s'.service.created)
    (hts : ∀ t ∈ ts, ∀ ad, adOf t = some ad → ad < s'.service.created) :
    Inv ⟨s', l ++ ts ++ r⟩ := by
  refine ⟨ho, fun t ht ad had => ?_⟩
  have ht : t ∈ l ++ ts ++ r := ht
  by_cases hold : t ∈ l ++ r
  · exact (h.known t (hsub t hold) ad had).trans_le hle
  · refine hts t ?_ ad had
    simp only [List.mem_append, not_or] at ht hold
    tauto

/-- **One step keeps the law exactly when it is proper**, and the law keeps the invariant. -/
theorem step_spec (h : Inv w) (hs : program.step w e = some w') :
    (GivenOnce w'.shared.service ↔ Meets Proper w e w') ∧
      (GivenOnce w'.shared.service → Inv w') := by
  rcases Program.step_cases hs with ⟨k, rfl, rfl⟩ | ⟨l, t, r, o, s, ts, rfl, ht, hr, rfl⟩
  · have hk := keeps_call k w.shared
    have hinv : Inv ⟨(program.call k w.shared).1, w.tasks ++ (program.call k w.shared).2 ++ []⟩ :=
      inv_turn h (fun t ht => by simpa using ht) (hk.owned h.owned) hk.le hk.known
    rw [List.append_nil] at hinv
    exact ⟨⟨fun _ => meets_call, fun _ => hinv.owned.givenOnce⟩, fun _ => hinv⟩
  · have htmem : t ∈ w.tasks := by rw [ht]; simp
    obtain ⟨hiff, hkeep⟩ := resume_spec h.owned (h.known t htmem) hr
    refine ⟨hiff.trans (meets_resume ht).symm, fun hg => ?_⟩
    obtain ⟨ho, hle, hts⟩ := hkeep hg
    refine inv_turn h (fun x hx => ?_) ho hle hts
    rw [ht]
    simp only [List.mem_append, List.mem_cons] at hx ⊢
    tauto

/-- **Exactly the runs in which every banner is given out at most once**, and is in the pool only
before that: those in which `onAdLoaded` comes once for each banner and not after it was disposed,
no banner fails while it is in the pool, and the banner of `loadAd` is not in the pool when its wait
ends. -/
theorem givenOnce_iff_proper (es : List AdEvent) :
    program.Each (fun _ _ w' => GivenOnce w'.shared.service) start es ↔
      program.Each (Meets Proper) start es :=
  Program.each_iff_each (fun _ _ _ => step_spec) inv_start

/-- **A banner is given out twice**: `loadAd` returns the banner it loaded without taking it out of
the pool, where `getAd` finds it. -/
theorem ad_given_twice : ∃ w, program.run start
      [.resume 0 .done, .call .loadAd, .resume 2 .done, .resume 3 .onAdLoaded, .resume 2 .done,
        .call .getAd] = some w ∧
    w.shared.service.given = [1, 1] ∧ ¬ GivenOnce w.shared.service := by
  refine ⟨_, rfl, rfl, fun h => ?_⟩
  exact absurd h.given (by decide)

end Runs

end PixsBliss.Providers.AdMobNotifier
