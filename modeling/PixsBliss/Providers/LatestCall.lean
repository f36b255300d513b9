import PixsBliss.Lib.Calls
import PixsBliss.Models.RoundTrip
import PixsBliss.Providers.FirestoreNotifier

/-! # Overlapping calls of the Firestore notifier

The six calls of `FirestoreWallpapersNotifier` are neither guarded nor numbered: each writes the
state when it returns, whatever was called since. `outcomeOf` is what a call leaves, from the copy
it found and the answer it heard.

* `latest_return_shown`: once all calls have returned, the state is the outcome of the call that
  returned last; the call that was started last wins when it also returns last.
* `earlier_call_shown`: a search that is answered before the call it followed is overwritten. -/

namespace PixsBliss.Providers.LatestCall

open PixsBliss.Lib.Async PixsBliss.Lib.Calls PixsBliss.Models PixsBliss.Models.Json
open PixsBliss.Services.Cache PixsBliss.Services.FirestoreService
open PixsBliss.Providers.FirestoreNotifier

section Outcomes

variable (c : Codec) (fromFirestore : DynMap → Result Wallpaper)

/-- Whether a call shows the copy it finds. -/
def findsCopy (k : WallpapersCall) (s : State Wallpaper) : Bool :=
  match k with
  | .loadWallpapers now => !(s.cache.getCachedWallpapers c).isEmpty && !s.cache.isCacheStale c now
  | _ => false

/-- **What a call leaves**: the fresh copy it found, or what the service makes of the answer. -/
def outcomeOf (k : WallpapersCall) (s₀ : State Wallpaper) (heard : List Outcome) :
    AsyncValue (List Wallpaper) :=
  if findsCopy c k s₀ then .data (s₀.cache.getCachedWallpapers c)
  else
    match heard with
    | .answered answer :: _ =>
      match getList fromFirestore answer with
      | .ok ws => .data ws
      | .error e => .error e
    | _ => .loading

/-- What a call knows while it is suspended: it awaits its query and has heard nothing, or it writes
the list of its answer. -/
def Fits (k : WallpapersCall) (s₀ : State Wallpaper) (heard : List Outcome) :
    WallpapersTask → Prop
  | .querying call _ => call = k ∧ heard = [] ∧ findsCopy c k s₀ = false
  | .caching _ ws => ∀ os, outcomeOf c fromFirestore k s₀ (heard ++ os) = .data ws

def Leaves (k : WallpapersCall) (s₀ : State Wallpaper) (heard : List Outcome)
    (s : State Wallpaper) : Prop :=
  s.state = outcomeOf c fromFirestore k s₀ heard

end Outcomes

/-! ### One turn of a call -/

section Turns

variable {c : Codec} {fromFirestore : DynMap → Result Wallpaper} {k : WallpapersCall}
  {s s' s₀ : State Wallpaper} {ts : List WallpapersTask} {os : List Outcome} {o : Outcome}
  {ws : List Wallpaper}

theorem outcomeOf_copy (h : findsCopy c k s₀ = true) :
    outcomeOf c fromFirestore k s₀ os = .data (s₀.cache.getCachedWallpapers c) := if_pos h

theorem outcomeOf_answered (h : findsCopy c k s₀ = false) {answer : Result Snapshot}
    (hget : getList fromFirestore answer = .ok ws) :
    outcomeOf c fromFirestore k s₀ (.answered answer :: os) = .data ws := by
  unfold outcomeOf
  rw [h, if_neg Bool.false_ne_true]
  simp only [hget]

/-- A call shows the copy it finds, or awaits its query. -/
theorem call_cases (c : Codec) (fromFirestore : DynMap → Result Wallpaper) (k : WallpapersCall)
    (s : State Wallpaper) :
    (findsCopy c k s = true ∧ (wallpapersProgram c fromFirestore).call k s =
      ({ s with state := .data (s.cache.getCachedWallpapers c) }, [])) ∨
    (findsCopy c k s = false ∧ (wallpapersProgram c fromFirestore).call k s =
      ({ s with state := .loading }, [.querying k (queryOf c k)])) := by
  cases hc : findsCopy c k s with
  | true =>
    refine Or.inl ⟨rfl, ?_⟩
    cases k with
    | loadWallpapers now => exact if_pos hc
    | _ => cases hc
  | false =>
    refine Or.inr ⟨rfl, ?_⟩
    cases k with
    | loadWallpapers now => exact if_neg (by rw [← Bool.not_eq_true] at hc; exact hc)
    | _ => rfl

theorem turn_call (k : WallpapersCall) (s : State Wallpaper) :
    (∀ t ∈ ((wallpapersProgram c fromFirestore).call k s).2, Fits c fromFirestore k s [] t) ∧
      (((wallpapersProgram c fromFirestore).call k s).2 = [] →
        Leaves c fromFirestore k s [] ((wallpapersProgram c fromFirestore).call k s).1) := by
  rcases call_cases c fromFirestore k s with ⟨hc, heq⟩ | ⟨hc, heq⟩
  · rw [heq]
    exact ⟨by simp, fun _ => (outcomeOf_copy hc).symm⟩
  · rw [heq]
    refine ⟨fun t ht => ?_, fun hnil => absurd hnil (List.cons_ne_nil _ _)⟩
    obtain rfl := List.mem_singleton.mp ht
    exact ⟨rfl, rfl, hc⟩

/-- The list a resumed task goes on to write and to show. -/
inductive Shows (fromFirestore : DynMap → Result Wallpaper) :
    WallpapersTask → Outcome → List Wallpaper → Prop
  | query (call : WallpapersCall) (q : Query) (answer : Result Snapshot) (ws : List Wallpaper)
    (h : getList fromFirestore answer = .ok ws) :
    Shows fromFirestore (.querying call q) (.answered answer) ws
  | write (rest : List BoxOp) (ws : List Wallpaper) (o : Outcome) :
    Shows fromFirestore (.caching rest ws) o ws

/-- **What a resumption does**: it goes on with the write of a list, which may be over. -/
theorem resume_cases {t : WallpapersTask}
    (hr : (wallpapersProgram c fromFirestore).resume t o s = some (s', ts)) :
    ∃ ws s₁ rest, Shows fromFirestore t o ws ∧ (s', ts) = writeCache ws s₁ rest := by
  match t, o with
  | .querying call q, .answered answer =>
    obtain ⟨ws, hget⟩ := getList_ok fromFirestore answer
    have hafter : ∃ s₁ rest, afterQuery c fromFirestore call answer s = writeCache ws s₁ rest := by
      have hshow : cacheAndShow c ws s = writeCache ws s [] ∨
          cacheAndShow c ws s = writeCache ws s (writeOps wallpaperKind c ws) := by
        unfold cacheAndShow
        cases s.cache.wallpapersBox with
        | none => exact Or.inl rfl
        | some b => exact Or.inr rfl
      cases call with
      | loadWallpapers now =>
        simp only [afterQuery, hget]
        exact hshow.elim (fun h => ⟨s, _, h⟩) fun h => ⟨s, _, h⟩
      | refresh =>
        simp only [afterQuery, hget]
        exact hshow.elim (fun h => ⟨s, _, h⟩) fun h => ⟨s, _, h⟩
      | _ =>
        simp only [afterQuery, showList, hget]
        exact ⟨s, [], rfl⟩
    obtain ⟨s₁, rest, hafter⟩ := hafter
    exact ⟨ws, s₁, rest, .query call q answer ws hget, (Option.some.inj hr).symm.trans hafter⟩
  | .caching (op :: rest) ws, .done now =>
    exact ⟨ws, _, rest, .write _ ws _, (Option.some.inj hr).symm⟩
  | .caching (op :: rest) ws, .failed =>
    exact ⟨ws, s, [], .write _ ws _, (Option.some.inj hr).symm⟩
  | .querying _ _, .done _ => simp [wallpapersProgram] at hr
  | .querying _ _, .failed => simp [wallpapersProgram] at hr
  | .caching [] _, o => cases o <;> simp [wallpapersProgram] at hr
  | .caching (_ :: _) _, .answered _ => simp [wallpapersProgram] at hr

/-- A write goes on, or its list is shown. -/
theorem writeCache_cases (ws : List Wallpaper) (s : State Wallpaper) (rest : List BoxOp) :
    (writeCache ws s rest : State Wallpaper × List WallpapersTask) =
      ({ s with state := .data ws }, []) ∨
    (writeCache ws s rest : State Wallpaper × List WallpapersTask) = (s, [.caching rest ws]) := by
  cases rest with
  | nil => exact Or.inl rfl
  | cons op rest => exact Or.inr rfl

/-- The list a call goes on with is its outcome. -/
theorem outcomeOf_shows {t : WallpapersTask} (hfits : Fits c fromFirestore k s₀ os t)
    (h : Shows fromFirestore t o ws) (os' : List Outcome) :
    outcomeOf c fromFirestore k s₀ (os ++ [o] ++ os') = .data ws := by
  cases h with
  | query call q answer ws hget =>
    obtain ⟨-, rfl, hc⟩ := hfits
    exact outcomeOf_answered hc hget
  | write rest ws o =>
    rw [List.append_assoc]
    exact hfits ([o] ++ os')

theorem turn_resume (t : WallpapersTask) (hfits : Fits c fromFirestore k s₀ os t)
    (hr : (wallpapersProgram c fromFirestore).resume t o s = some (s', ts)) :
    (∀ t' ∈ ts, Fits c fromFirestore k s₀ (os ++ [o]) t') ∧
      (ts = [] → Leaves c fromFirestore k s₀ (os ++ [o]) s') := by
  obtain ⟨ws, s₁, rest, hshows, heq⟩ := resume_cases hr
  have hout := outcomeOf_shows hfits hshows
  rcases writeCache_cases ws s₁ rest with h | h
  · obtain ⟨rfl, rfl⟩ := Prod.mk.inj (heq.trans h)
    refine ⟨by simp, fun _ => ?_⟩
    have hnil := hout []
    rw [List.append_nil] at hnil
    exact hnil.symm
  · obtain ⟨rfl, rfl⟩ := Prod.mk.inj (heq.trans h)
    refine ⟨fun t' ht' => ?_, fun hnil => absurd hnil (List.cons_ne_nil _ _)⟩
    obtain rfl := List.mem_singleton.mp ht'
    exact hout

theorem sequential : Sequential (wallpapersProgram c fromFirestore) where
  call k s := by
    rcases call_cases c fromFirestore k s with ⟨-, heq⟩ | ⟨-, heq⟩ <;> simp [heq]
  resume t o s s' ts hr := by
    obtain ⟨ws, s₁, rest, -, heq⟩ := resume_cases hr
    rcases writeCache_cases ws s₁ rest with h | h
    · obtain ⟨-, rfl⟩ := Prod.mk.inj (heq.trans h)
      exact Nat.zero_le 1
    · obtain ⟨-, rfl⟩ := Prod.mk.inj (heq.trans h)
      exact le_rfl

end Turns

/-! ### Runs -/

/-- **The latest return is shown.** Once all calls of a run have returned, the state is the outcome
of the call that returned last, whatever the order in which they were started and answered. -/
theorem latest_return_shown (c : Codec) (fromFirestore : DynMap → Result Wallpaper)
    (s : State Wallpaper) (es : List (Event WallpapersCall Outcome))
    (w : World (State Wallpaper) WallpapersTask)
    (hr : (wallpapersProgram c fromFirestore).run ⟨s, []⟩ es = some w) (hdone : w.tasks = [])
    (hcalls : callsOf es ≠ []) :
    ∃ h, (numbered (wallpapersProgram c fromFirestore)).run (start s) es = some h ∧
      forget h = w ∧ h.shared.returned.Perm (List.range (callsOf es).length) ∧
      ∃ pre i k s₀, h.shared.returned = pre ++ [i] ∧ (callsOf es)[i]? = some k ∧
        h.shared.calls[i]? = some (k, s₀) ∧
        w.shared.state = outcomeOf c fromFirestore k s₀ (heardBy i h.shared.heard) := by
  obtain ⟨h, hrun, rfl⟩ := exists_history hr
  have hes : h.shared.calls.map Prod.fst = callsOf es := calls_of_run hrun
  have hlen : h.shared.calls.length = (callsOf es).length := by rw [← hes, List.length_map]
  have htasks : h.tasks = [] := List.map_eq_nil_iff.mp hdone
  have hne : h.shared.calls ≠ [] := fun hnil => hcalls (by rw [← hes, hnil]; rfl)
  obtain ⟨hperm, pre, i, hret, k, s₀, hi, hleaves⟩ := last_returned sequential turn_call
    (fun k s₀ os t o s s' ts hfits hr => turn_resume t hfits hr) hrun htasks hne
  refine ⟨h, hrun, rfl, hlen ▸ hperm, pre, i, k, s₀, hret, ?_, hi, hleaves⟩
  rw [← hes, List.getElem?_map, hi]
  rfl

/-! ### Two calls -/

def emptyState : State Wallpaper := ⟨.loading, .opened .empty .empty .empty .empty⟩

/-- Every document is the wallpaper `a`. -/
def decodeSample (_ : DynMap) : Result Wallpaper := .ok (sampleWallpaper "a" "firestore")

/-- The featured wallpapers are asked for, then a search; the search is answered first. -/
def searchAnsweredFirst : List (Event WallpapersCall Outcome) :=
  [.call .loadFeaturedWallpapers, .call (.searchWallpapers "sky"), .resume 1 (.answered (.ok [])),
    .resume 0 (.answered (.ok [("a", [])]))]

theorem latest_return_of_two : ∃ w, (wallpapersProgram (sampleCodec ["a"]) decodeSample).run
      ⟨emptyState, []⟩ searchAnsweredFirst = some w ∧
    ∃ h, (numbered (wallpapersProgram (sampleCodec ["a"]) decodeSample)).run (start emptyState)
        searchAnsweredFirst = some h ∧
      forget h = w ∧ h.shared.returned.Perm (List.range (callsOf searchAnsweredFirst).length) ∧
      ∃ pre i k s₀, h.shared.returned = pre ++ [i] ∧ (callsOf searchAnsweredFirst)[i]? = some k ∧
        h.shared.calls[i]? = some (k, s₀) ∧ w.shared.state =
          outcomeOf (sampleCodec ["a"]) decodeSample k s₀ (heardBy i h.shared.heard) :=
  ⟨_, rfl, latest_return_shown (sampleCodec ["a"]) decodeSample emptyState searchAnsweredFirst _ rfl
    rfl (List.cons_ne_nil _ _)⟩

/-- **An earlier call is shown**: the search was started last and found nothing, and the featured
wallpapers are shown. -/
theorem earlier_call_shown : ∃ h, (numbered (wallpapersProgram (sampleCodec ["a"])
      decodeSample)).run (start emptyState) searchAnsweredFirst = some h ∧
    h.tasks = [] ∧ h.shared.shared.state = .data [sampleWallpaper "a" "firestore"] ∧
    ∃ s₀, h.shared.calls = [(.loadFeaturedWallpapers, emptyState), (.searchWallpapers "sky", s₀)] ∧
      outcomeOf (sampleCodec ["a"]) decodeSample (.searchWallpapers "sky") s₀
        (heardBy 1 h.shared.heard) = .data [] ∧
      h.shared.shared.state ≠ outcomeOf (sampleCodec ["a"]) decodeSample (.searchWallpapers "sky")
        s₀ (heardBy 1 h.shared.heard) := by
  refine ⟨_, rfl, rfl, rfl, _, rfl, rfl, fun h => ?_⟩
  injection h with h
  exact List.cons_ne_nil _ _ h

end PixsBliss.Providers.LatestCall
