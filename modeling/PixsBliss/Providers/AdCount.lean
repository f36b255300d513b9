import PixsBliss.Lib.Flags
import PixsBliss.Providers.AdMobNotifier

/-! # The count of the ads

`AdMobNotifier` copies the number of the ads in the pool at the end of `preloadAds` and of `loadAd`,
and when `getAd` takes one. The SDK puts an ad into the pool when it is loaded, which may be after
the two seconds that a call waits for it. And `isPreloading` is one flag for all preloads.

* `count_le_run`: there are never fewer ads in the pool than were counted.
* `count_iff`, `fields_right_iff`: without a running call the count is that of the pool exactly
  along the runs in which every ad is loaded while a call runs; and the flag is up during a preload
  exactly if each preload ends alone. -/

namespace PixsBliss.Providers.AdCount

open PixsBliss.Lib.Async PixsBliss.Lib.Flags PixsBliss.Services.AdMobService
open PixsBliss.Providers.AdMobNotifier

/-! ### The calls that run -/

/-- The calls that await something. -/
inductive Kind
  | preloadAds
  | loadAd
deriving DecidableEq

def kindOf : Caller → Kind
  | .preloadAds _ => .preloadAds
  | .loadAd => .loadAd

/-- The kind of call a task belongs to. -/
def taskKind : Task → Option Kind
  | .initializingFor caller | .loading _ caller | .waiting _ caller => some (kindOf caller)
  | .initializing | .banner _ => none

def flag : Kind → State → Bool
  | .preloadAds, s => s.state.isPreloading
  | .loadAd, s => s.state.isLoading

/-- The call that ends when `loadBannerAd` returns: a preload after its last ad. -/
def returnEnds : Caller → Option Kind
  | .preloadAds 0 => some .preloadAds
  | .preloadAds (_ + 1) => none
  | .loadAd => some .loadAd

/-- A preload of no ad ends at once. -/
def callEnds : Call → State → Option Kind
  | .preloadAds 0, s => if s.state.isInitialized then some .preloadAds else none
  | _, _ => none

/-- The `load()` of a banner throws, or its wait is over. -/
def turnEnds : Task → Outcome → Option Kind
  | .loading _ caller, .failed | .waiting _ caller, .done => returnEnds caller
  | _, _ => none

/-- The calls of the notifier and their flags. -/
def calls : Flagged State Task Call Outcome Kind := ⟨taskKind, flag, callEnds, turnEnds⟩

/-! ### The law and its condition -/

/-- Without a running call the count is that of the pool. -/
def Counted (w : AdWorld) : Prop :=
  calls.running w.tasks = [] →
    w.shared.state.loadedAdCount = w.shared.service.loadedAds.length

/-- **The law of a state**: without a running call the count is that of the pool and the flags are
down; during a preload its flag is up. -/
structure Law (w : AdWorld) : Prop where
  count : Counted w
  down : calls.running w.tasks = [] →
    w.shared.state.isPreloading = false ∧ w.shared.state.isLoading = false
  preloading : .preloadAds ∈ calls.running w.tasks → w.shared.state.isPreloading = true

/-- **No ad is loaded late**: a call is running when it comes. -/
def LoadsInTime (w : AdWorld) (e : AdEvent) (_ : AdWorld) : Prop :=
  ∀ i, e = .resume i .onAdLoaded → calls.running w.tasks ≠ []

/-! ### What a turn can do -/

/-- **What a turn can do** with the calls before and after it, and the one it ends: it goes on and
leaves count and pool alone, `getAd` takes an ad, a call begins or ends, or an ad is loaded. -/
inductive Did (s s' : State) : List Kind → List Kind → Option Kind → Prop
  | goesOn {ks : List Kind} (hflag : ∀ k, flag k s' = flag k s)
    (hcount : s'.state.loadedAdCount = s.state.loadedAdCount)
    (hpool : s'.service.loadedAds = s.service.loadedAds) : Did s s' ks ks none
  | takes {ks : List Kind} (hflag : ∀ k, flag k s' = flag k s)
    (hcopied : s'.state.loadedAdCount = s'.service.loadedAds.length) : Did s s' ks ks none
  | begins {k : Kind} (hup : flag k s' = true) (hflag : ∀ j ≠ k, flag j s' = flag j s)
    (hcount : s'.state.loadedAdCount = s.state.loadedAdCount)
    (hpool : s'.service.loadedAds = s.service.loadedAds) : Did s s' [] [k] none
  | ends {k : Kind} {ks : List Kind} (hks : ks = [] ∨ ks = [k]) (hdown : flag k s' = false)
    (hflag : ∀ j ≠ k, flag j s' = flag j s)
    (hcopied : s'.state.loadedAdCount = s'.service.loadedAds.length) : Did s s' ks [] (some k)

section Turns

variable {s s' : State} {t : Task} {o : Outcome} {ts : List Task} {ks ks' : List Kind}
  {ended : Option Kind}

theorem Did.turn (h : Did s s' ks ks' ended) : calls.Turn s s' ks ks' ended := by
  cases h with
  | goesOn hflag _ _ => exact .quiet hflag
  | takes hflag _ => exact .quiet hflag
  | begins hup hflag _ _ => exact .begins hup hflag
  | ends hks hdown hflag _ => exact .ends hks hdown hflag

theorem flag_of_state (h : s'.state = s.state) (k : Kind) : flag k s' = flag k s := by
  cases k with
  | preloadAds => exact congrArg AdMobState.isPreloading h
  | loadAd => exact congrArg AdMobState.isLoading h

/-- A turn of a preload leaves the flag of `loadAd` alone. -/
theorem flag_of_loading (h : s'.state.isLoading = s.state.isLoading) :
    ∀ j ≠ Kind.preloadAds, flag j s' = flag j s := by
  intro j hj
  cases j with
  | preloadAds => exact absurd rfl hj
  | loadAd => exact h

theorem flag_of_preloading (h : s'.state.isPreloading = s.state.isPreloading) :
    ∀ j ≠ Kind.loadAd, flag j s' = flag j s := by
  intro j hj
  cases j with
  | preloadAds => exact h
  | loadAd => exact absurd rfl hj

theorem did_of_state (h : s'.state = s.state) (hpool : s'.service.loadedAds = s.service.loadedAds) :
    Did s s' ks ks none :=
  .goesOn (flag_of_state h) (congrArg AdMobState.loadedAdCount h) hpool

/-- `loadBannerAd` goes on with its caller. -/
theorem loadBannerAd_spec (caller : Caller) (s : State) :
    (loadBannerAd caller s).1.state = s.state ∧
      (loadBannerAd caller s).1.service.loadedAds = s.service.loadedAds ∧
      calls.running (loadBannerAd caller s).2 = [kindOf caller] := by
  unfold loadBannerAd
  split_ifs
  · exact ⟨rfl, rfl, rfl⟩
  · exact ⟨rfl, rfl, rfl⟩

/-- The end of a preload. -/
theorem did_endPreload (hks : ks = [] ∨ ks = [.preloadAds]) (b : Bool) :
    Did s (preloadLoop 0 { s with state := { s.state with isPreloading := b } }).1 ks []
      (some .preloadAds) :=
  .ends hks rfl (flag_of_loading rfl) rfl

theorem did_returnTo (caller : Caller) (result : Option ℕ) (s : State) :
    Did s (returnTo caller result s).1 [kindOf caller] (calls.running (returnTo caller result s).2)
      (returnEnds caller) := by
  cases caller with
  | preloadAds rest =>
    cases rest with
    | zero => exact did_endPreload (Or.inr rfl) s.state.isPreloading
    | succ rest =>
      obtain ⟨hstate, hpool, hruns⟩ := loadBannerAd_spec (.preloadAds rest) s
      show Did s (loadBannerAd (.preloadAds rest) s).1 _
        (calls.running (loadBannerAd (.preloadAds rest) s).2) none
      rw [hruns]
      exact did_of_state hstate hpool
  | loadAd => exact .ends (Or.inr rfl) rfl (flag_of_preloading rfl) rfl

/-- A call that has raised its flag begins with an ad. -/
theorem did_begin (caller : Caller) {s₁ : State} (hup : flag (kindOf caller) s₁ = true)
    (hflag : ∀ j ≠ kindOf caller, flag j s₁ = flag j s)
    (hcount : s₁.state.loadedAdCount = s.state.loadedAdCount)
    (hpool : s₁.service.loadedAds = s.service.loadedAds) :
    Did s (loadBannerAd caller s₁).1 [] (calls.running (loadBannerAd caller s₁).2) none := by
  obtain ⟨hstate, hsame, hruns⟩ := loadBannerAd_spec caller s₁
  rw [hruns]
  refine .begins ?_ (fun j hj => ?_) ?_ (hsame.trans hpool)
  · rw [flag_of_state hstate, hup]
  · rw [flag_of_state hstate, hflag j hj]
  · rw [hstate, hcount]

theorem did_preloadAds (count : ℕ) (s : State) :
    Did s (preloadAds count s).1 [] (calls.running (preloadAds count s).2)
      (callEnds (.preloadAds count) s) := by
  unfold preloadAds
  by_cases hinit : s.state.isInitialized = true
  · rw [if_pos hinit]
    cases count with
    | zero =>
      have hends : callEnds (.preloadAds 0) s = some .preloadAds := if_pos hinit
      rw [hends]
      exact did_endPreload (Or.inl rfl) true
    | succ rest => exact did_begin (.preloadAds rest) rfl (flag_of_loading rfl) rfl rfl
  · have hends : callEnds (.preloadAds count) s = none := by
      cases count with
      | zero => exact if_neg hinit
      | succ rest => rfl
    rw [if_neg hinit, hends]
    exact did_of_state rfl rfl

theorem did_loadAd (s : State) :
    Did s (loadAd s).1 [] (calls.running (loadAd s).2) none := by
  unfold loadAd
  by_cases hinit : s.state.isInitialized = true
  · rw [if_pos hinit]
    exact did_begin .loadAd rfl (flag_of_preloading rfl) rfl rfl
  · rw [if_neg hinit]
    exact did_of_state rfl rfl

theorem did_getAd (s : State) : Did s (getAd s) [] [] none := by
  unfold getAd getLoadedAd
  cases hpool : s.service.loadedAds with
  | nil => exact did_of_state rfl rfl
  | cons ad ads =>
    refine .takes (fun k => ?_) rfl
    cases k <;> rfl

theorem did_call (k : Call) (s : State) :
    Did s (program.call k s).1 [] (calls.running (program.call k s).2) (callEnds k s) := by
  cases k with
  | preloadAds count => exact did_preloadAds count s
  | loadAd => exact did_loadAd s
  | getAd => exact did_getAd s

/-- The notifier is initialized, and the first ads are preloaded. -/
theorem did_afterInitialize (ok : Bool) (s : State) :
    Did s (afterInitialize (initialized ok s)).1 []
      (calls.running (afterInitialize (initialized ok s)).2) none :=
  did_begin (.preloadAds 2) rfl (flag_of_loading rfl) rfl rfl

/-- A resumption but the load of an ad. -/
theorem did_resume (ho : o ≠ .onAdLoaded) (hr : program.resume t o s = some (s', ts)) :
    Did s s' (taskKind t).toList (calls.running ts) (turnEnds t o) := by
  cases t with
  | initializing =>
    cases o with
    | done =>
      obtain ⟨rfl, rfl⟩ := Prod.mk.inj (Option.some.inj hr)
      exact did_afterInitialize true s
    | failed =>
      obtain ⟨rfl, rfl⟩ := Prod.mk.inj (Option.some.inj hr)
      exact did_afterInitialize false s
    | _ => cases hr
  | initializingFor caller =>
    cases o with
    | done =>
      obtain ⟨rfl, rfl⟩ := Prod.mk.inj (Option.some.inj hr)
      exact did_of_state rfl rfl
    | failed =>
      obtain ⟨rfl, rfl⟩ := Prod.mk.inj (Option.some.inj hr)
      exact did_of_state rfl rfl
    | _ => cases hr
  | loading ad caller =>
    cases o with
    | done =>
      obtain ⟨rfl, rfl⟩ := Prod.mk.inj (Option.some.inj hr)
      exact did_of_state rfl rfl
    | failed =>
      obtain ⟨rfl, rfl⟩ := Prod.mk.inj (Option.some.inj hr)
      exact did_returnTo caller none s
    | _ => cases hr
  | waiting ad caller =>
    cases o with
    | done =>
      obtain ⟨rfl, rfl⟩ := Prod.mk.inj (Option.some.inj hr)
      exact did_returnTo caller (loadedAd ad s.service) s
    | _ => cases hr
  | banner ad =>
    cases o with
    | onAdLoaded => exact absurd rfl ho
    | onAdFailedToLoad =>
      obtain ⟨rfl, rfl⟩ := Prod.mk.inj (Option.some.inj hr)
      exact did_of_state rfl rfl
    | _ => cases hr

/-- Only a banner is loaded. -/
theorem resume_onAdLoaded (hr : program.resume t .onAdLoaded s = some (s', ts)) :
    ∃ ad, t = .banner ad ∧ s' = { s with service := onAdLoaded ad s.service } ∧
      ts = [.banner ad] := by
  cases t with
  | banner ad =>
    obtain ⟨rfl, rfl⟩ := Prod.mk.inj (Option.some.inj hr)
    exact ⟨ad, rfl, rfl, rfl⟩
  | _ => cases hr

/-- The flags are raised and lowered by the calls. -/
theorem respects : calls.Respects program where
  call k s := (did_call k s).turn
  resume t o s s' ts hr := by
    by_cases ho : o = .onAdLoaded
    · subst ho
      obtain ⟨ad, rfl, rfl, rfl⟩ := resume_onAdLoaded hr
      exact .quiet fun k => by cases k <;> rfl
    · exact (did_resume ho hr).turn

/-- With no call left the count is copied, or it was right before. -/
theorem Did.counted {l r : List Kind} (h : Did s s' ks ks' ended)
    (hs : l ++ ks ++ r = [] → s.state.loadedAdCount = s.service.loadedAds.length)
    (hidle : l ++ ks' ++ r = []) : s'.state.loadedAdCount = s'.service.loadedAds.length := by
  cases h with
  | goesOn _ hcount hpool => rw [hcount, hpool, hs hidle]
  | takes _ hcopied => exact hcopied
  | begins _ _ _ _ => simp at hidle
  | ends _ _ _ hcopied => exact hcopied

theorem Did.count_le (h : Did s s' ks ks' ended)
    (hs : s.state.loadedAdCount ≤ s.service.loadedAds.length) :
    s'.state.loadedAdCount ≤ s'.service.loadedAds.length := by
  cases h with
  | goesOn _ hcount hpool => rwa [hcount, hpool]
  | takes _ hcopied => exact hcopied.le
  | begins _ _ hcount hpool => rwa [hcount, hpool]
  | ends _ _ _ hcopied => exact hcopied.le

end Turns

/-! ### Steps -/

section Steps

variable {w w' : AdWorld} {e : AdEvent}

/-- **What a step can do**: a turn between the calls that go on waiting, or an ad is loaded. -/
theorem did_step (hs : program.step w e = some w') :
    ((∀ i, e ≠ .resume i .onAdLoaded) ∧ ∃ l ks ks' r ended,
      calls.running w.tasks = l ++ ks ++ r ∧ calls.running w'.tasks = l ++ ks' ++ r ∧
      Did w.shared w'.shared ks ks' ended) ∨
    ((∃ i, e = .resume i .onAdLoaded) ∧ calls.running w'.tasks = calls.running w.tasks ∧
      w'.shared.state = w.shared.state ∧
      w'.shared.service.loadedAds.length = w.shared.service.loadedAds.length + 1) := by
  rcases Program.step_cases hs with ⟨k, rfl, rfl⟩ | ⟨l, t, r, o, s, ts, rfl, ht, hr, rfl⟩
  · refine Or.inl ⟨nofun, calls.running w.tasks, [], _, [], _, by simp, ?_, did_call k w.shared⟩
    rw [List.append_nil]
    exact Flagged.running_append ..
  · by_cases ho : o = .onAdLoaded
    · subst ho
      obtain ⟨ad, rfl, rfl, rfl⟩ := resume_onAdLoaded hr
      refine Or.inr ⟨⟨_, rfl⟩, ?_, rfl, List.length_append⟩
      rw [ht, Flagged.running_append, Flagged.running_append, Flagged.running_append,
        Flagged.running_cons, List.append_assoc]
      rfl
    · refine Or.inl ⟨fun i he => ho (Event.resume.inj he).2, calls.running l, _, _,
        calls.running r, _, ?_, ?_, did_resume ho hr⟩
      · rw [ht, Flagged.running_append, Flagged.running_cons, List.append_assoc]
        rfl
      · rw [Flagged.running_append, Flagged.running_append]

/-- **One step keeps the count** exactly if no ad is loaded late. -/
theorem counted_step (hw : Counted w) (hs : program.step w e = some w') :
    Counted w' ↔ LoadsInTime w e w' := by
  rcases did_step hs with ⟨hno, l, ks, ks', r, ended, hbefore, hafter, hdid⟩ |
    ⟨⟨i, rfl⟩, hruns, hstate, hpool⟩
  · refine iff_of_true (fun hidle => ?_) fun i he => absurd he (hno i)
    unfold Counted at hw
    rw [hbefore] at hw
    rw [hafter] at hidle
    exact hdid.counted hw hidle
  · constructor
    · -- the pool has one more than was counted before
      intro hw' j _ hidle
      have hcount := hw' (hruns.trans hidle)
      rw [hstate, hw hidle, hpool] at hcount
      omega
    · intro hload hidle
      exact absurd (hruns.symm.trans hidle) (hload i rfl)

theorem count_le_step (hw : w.shared.state.loadedAdCount ≤ w.shared.service.loadedAds.length)
    (hs : program.step w e = some w') :
    w'.shared.state.loadedAdCount ≤ w'.shared.service.loadedAds.length := by
  rcases did_step hs with ⟨-, l, ks, ks', r, ended, -, -, hdid⟩ | ⟨-, -, hstate, hpool⟩
  · exact hdid.count_le hw
  · rw [hstate, hpool]
    omega

end Steps

/-! ### Runs -/

theorem down_start : calls.Down start := by
  intro k _
  cases k <;> rfl

/-- **There are never fewer ads in the pool than were counted.** -/
theorem count_le_run {es : List AdEvent} {w : AdWorld} (hr : program.run start es = some w) :
    w.shared.state.loadedAdCount ≤ w.shared.service.loadedAds.length :=
  Program.run_inv (fun _ _ _ hv hs => count_le_step hv hs) (Nat.zero_le _) hr

/-- **The count is that of the pool** without a running call, exactly if no ad is loaded late. -/
theorem count_iff (es : List AdEvent) : program.Each (fun _ _ w' => Counted w') start es ↔
    program.Each LoadsInTime start es :=
  Program.each_iff_each (fun _ _ _ hv hs => ⟨counted_step hv hs, id⟩) fun _ => rfl

theorem law_of_down {w : AdWorld} (hdown : calls.Down w) :
    Law w ↔ Counted w ∧ calls.Up .preloadAds w := by
  refine ⟨fun h => ⟨h.count, h.preloading⟩, fun h => ⟨h.1, fun hidle => ?_, h.2⟩⟩
  have hnot : ∀ k, k ∉ calls.running w.tasks := fun k => by simp [hidle]
  exact ⟨hdown .preloadAds (hnot _), hdown .loadAd (hnot _)⟩

/-- **Exactly the runs in which the fields are right**: without a running call the count is that of
the pool and no flag is up, and during a preload its flag is up, iff every ad is loaded while a call
runs, and every preload ends alone. -/
theorem fields_right_iff (es : List AdEvent) :
    (Law start ∧ program.Each (fun _ _ w' => Law w') start es) ↔
      program.Each LoadsInTime start es ∧
        program.Each (calls.EndsAlone .preloadAds) start es := by
  have hstart : Law start := (law_of_down down_start).mpr ⟨fun _ => rfl, nofun⟩
  have hup : calls.Up .preloadAds start := nofun
  rw [and_iff_right hstart, ← count_iff, ← Flagged.up_iff respects hup, ← Program.each_and]
  refine Program.each_iff_each (I := calls.Down) (fun w e w' hw hs => ?_) down_start
  have hdown : calls.Down w' := Flagged.down_step respects hw hs
  exact ⟨law_of_down hdown, fun _ => hdown⟩

/-- The third of the first ads takes more than its two seconds. -/
def lateAd : List AdEvent :=
  [.resume 0 .done, .resume 0 .done, .resume 0 .done, .resume 0 .done, .resume 0 .done,
    .resume 0 .done, .resume 0 .done, .resume 0 .onAdLoaded]

/-- The tab preloads five ads while the notifier preloads its first three. -/
def twoPreloads : List AdEvent :=
  [.resume 0 .done, .call (.preloadAds 5), .resume 0 .done, .resume 0 .done, .resume 0 .done,
    .resume 0 .done, .resume 0 .done, .resume 0 .done]

/-- **An ad that is not counted**, with no call running; and a preload without its flag. -/
theorem fields_wrong :
    (∃ w, program.run start lateAd = some w ∧ calls.running w.tasks = [] ∧
      w.shared.state.loadedAdCount = 0 ∧ w.shared.service.loadedAds = [2] ∧ ¬Law w) ∧
    ∃ w, program.run start twoPreloads = some w ∧ calls.running w.tasks = [.preloadAds] ∧
      w.shared.state.isPreloading = false ∧ ¬Law w := by
  refine ⟨⟨_, rfl, rfl, rfl, rfl, fun h => ?_⟩, _, rfl, rfl, rfl, fun h => ?_⟩
  · cases h.count rfl
  · cases h.preloading (List.mem_singleton_self _)

end PixsBliss.Providers.AdCount
