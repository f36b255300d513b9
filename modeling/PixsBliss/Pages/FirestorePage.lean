import PixsBliss.Lib.Families
import PixsBliss.Lib.Turns
import PixsBliss.Models.FromFirestore
import PixsBliss.Providers.AsyncValues

/-! # The pages of the Firestore categories

A tap on a category of Firestore pushes the same `CategoryWallpapersPage`, which then watches the
Firestore notifier of the category: it is made when it is first watched, asks for the wallpapers of
the category, and is kept when the page is closed. A list can be pulled down to ask again; a page
without wallpapers offers nothing. To the service a query that fails is an empty list.

* `firestore_pages_true`: over a Firestore that does not change, a page shows the wallpapers of its
  category, or says that there are none, which is right unless a query for the category can fail.
* `firestore_page_final_iff`: exactly the pages that say that there are none, with no query under
  way, will never show anything else. So one failed query hides the wallpapers of a category until
  the app is started again (`failed_for_good`). -/

namespace PixsBliss.Pages.FirestorePage

open PixsBliss.Lib.Async PixsBliss.Lib.Families PixsBliss.Lib.Families.Family
open PixsBliss.Lib.Flight PixsBliss.Lib.Turns PixsBliss.Models PixsBliss.Models.Json
open PixsBliss.Services.Cache PixsBliss.Services.FirestoreService
open PixsBliss.Providers PixsBliss.Providers.AsyncValues
open PixsBliss.Providers.FirestoreNotifier (AsyncValue WallpapersTask wallpapersProgram Outcome)

/-! ### The program -/

/-- A page, and what it was last built from. -/
structure Page where
  categoryId : String
  built : AsyncValue (List Wallpaper)

/-- The notifiers that were made, and the pages on the stack, the one on top first; `none` is a page
of another kind. -/
structure State where
  notifiers : String → Option (FirestoreNotifier.State Wallpaper)
  pages : List (Option Page)

/-- What the notifier of a category awaits. -/
structure Task where
  categoryId : String
  awaited : WallpapersTask

/-- What the user does, and a frame in which the pages are built again. -/
inductive Call
  | push (categoryId : String)
  | pushOther
  | pop
  | frame
  | refresh

/-- No page is open, and no notifier was made. -/
def start : World State Task := ⟨⟨fun _ => none, []⟩, []⟩

def topPage (s : State) : Option Page := s.pages.head?.join

theorem topPage_eq_some {s : State} {p : Page} (h : topPage s = some p) :
    s.pages.head? = some (some p) := Option.join_eq_some_iff.mp h

section Program

variable (c : Codec) (toWallpaper : DynMap → Result Wallpaper) (cache : CacheService)

/-- `firestoreCategoryWallpapersProvider`. -/
def notifiers : Family String State Task (FirestoreNotifier.State Wallpaper) WallpapersTask where
  made := State.notifiers
  new := ⟨.loading, cache⟩
  put id x s := { s with notifiers := Function.update s.notifiers id (some x) }
  task := Task.mk
  own t := some (t.categoryId, t.awaited)
  made_put _ _ _ := rfl
  own_iff t id t' := by
    obtain ⟨id', t⟩ := t
    simp

/-- A frame: every page that is open is built from what its notifier has. -/
def frame (s : State) : State :=
  { s with pages := s.pages.map fun page => page.map fun p =>
      { p with built := ((notifiers cache).state p.categoryId s).state } }

def opened (id : String) (s : State) : State := { s with pages := some ⟨id, .loading⟩ :: s.pages }

/-- `ref.watch`: the provider loads the category of a new notifier. -/
def watch (id : String) (s : State) : State × List Task :=
  (notifiers cache).watch (fun _ => wallpapersProgram c toWallpaper) id
    (.loadWallpapersByCategory id) s

def push (id : String) (s : State) : State × List Task :=
  let x := watch c toWallpaper cache id (opened id s)
  (frame cache x.1, x.2)

/-- `onRefresh` of the page on top, if it shows a list. -/
def refresh (s : State) : State × List Task :=
  match topPage s with
  | none => (s, [])
  | some p =>
    match viewOf p.built with
    | .wallpapers _ =>
      (notifiers cache).call (fun _ => wallpapersProgram c toWallpaper) p.categoryId
        (.loadWallpapersByCategory p.categoryId) s
    | _ => (s, [])

/-- **The pages and the notifiers.** -/
def program : Program State Task Call Outcome where
  call
    | .push id, s => push c toWallpaper cache id s
    | .pushOther, s => ({ s with pages := none :: s.pages }, [])
    | .pop, s => ({ s with pages := s.pages.tail }, [])
    | .frame, s => (frame cache s, [])
    | .refresh, s => refresh c toWallpaper cache s
  resume t o s :=
    (notifiers cache).resume (fun _ => wallpapersProgram c toWallpaper) t.categoryId t.awaited o s

end Program

/-! ### Turns -/

section Turns

variable {c : Codec} {toWallpaper : DynMap → Result Wallpaper} {cache : CacheService} {s : State}
  {k : Call} {p : Page} {t : Task} {o : Outcome} {x : State × List Task}

/-- The query of its category. -/
def queryTask (id : String) : Task :=
  ⟨id, .querying (.loadWallpapersByCategory id) (getWallpapersByCategory id 0)⟩

/-- **A call** leaves the notifiers alone, or one of them loads and awaits the query of its
category. -/
theorem call_cases (c : Codec) (toWallpaper : DynMap → Result Wallpaper) (cache : CacheService)
    (k : Call) (s : State) :
    (((program c toWallpaper cache).call k s).1.notifiers = s.notifiers ∧
      ((program c toWallpaper cache).call k s).2 = []) ∨
    ∃ id x, ((program c toWallpaper cache).call k s).1.notifiers =
        Function.update s.notifiers id (some ⟨.loading, x⟩) ∧
      ((program c toWallpaper cache).call k s).2 = [queryTask id] := by
  cases k with
  | push id =>
    by_cases hmade : ((notifiers cache).made (opened id s) id).isSome = true
    · refine Or.inl ?_
      simp only [program, push, watch, Family.watch, if_pos hmade]
      exact ⟨rfl, trivial⟩
    · refine Or.inr ⟨id, ((notifiers cache).state id (opened id s)).cache, ?_⟩
      simp only [program, push, watch, Family.watch, if_neg hmade]
      exact ⟨rfl, rfl⟩
  | pushOther | pop | frame => exact Or.inl ⟨rfl, rfl⟩
  | refresh =>
    simp only [program, refresh]
    split
    · exact Or.inl ⟨rfl, rfl⟩
    · next p hp =>
      split
      · exact Or.inr ⟨p.categoryId, ((notifiers cache).state p.categoryId s).cache, rfl, rfl⟩
      · exact Or.inl ⟨rfl, rfl⟩

/-- **The answer to a query** is what its notifier shows. -/
theorem resume_query {id : String}
    (hr : (program c toWallpaper cache).resume (queryTask id) o s = some x) :
    ∃ answer ws b, o = .answered answer ∧ getList toWallpaper answer = .ok ws ∧
      x = ((notifiers cache).put id ⟨.data ws, b⟩ s, []) := by
  cases o with
  | answered answer =>
    obtain ⟨ws, hws⟩ := getList_ok toWallpaper answer
    refine ⟨answer, ws, ((notifiers cache).state id s).cache, rfl, hws, ?_⟩
    rw [← Option.some.inj hr]
    simp only [FirestoreNotifier.afterQuery, FirestoreNotifier.showList, hws]
    rfl
  | done now => cases hr
  | failed => cases hr

theorem frame_pages (h : some p ∈ (frame cache s).pages) : ∃ q, some q ∈ s.pages ∧
    p = { q with built := ((notifiers cache).state q.categoryId s).state } := by
  obtain ⟨page, hpage, hp⟩ := List.mem_map.mp h
  obtain ⟨q, rfl, rfl⟩ := Option.map_eq_some_iff.mp hp
  exact ⟨q, hpage, rfl⟩

theorem watch_pages (id : String) (s : State) :
    (watch c toWallpaper cache id s).1.pages = s.pages := by
  unfold watch Family.watch
  split_ifs <;> rfl

theorem refresh_pages (s : State) : (refresh c toWallpaper cache s).1.pages = s.pages := by
  unfold refresh
  split
  · rfl
  · split <;> rfl

/-- Only a frame builds a page, from what its notifier has then. -/
theorem built_call (h : some p ∈ ((program c toWallpaper cache).call k s).1.pages) :
    some p ∈ s.pages ∨ p.built =
      ((notifiers cache).state p.categoryId ((program c toWallpaper cache).call k s).1).state := by
  cases k with
  | push id =>
    obtain ⟨q, -, rfl⟩ := frame_pages (s := (watch c toWallpaper cache id (opened id s)).1) h
    exact Or.inr rfl
  | pushOther => exact Or.inl ((List.mem_cons.mp h).resolve_left fun hp => by cases hp)
  | pop => exact Or.inl (List.mem_of_mem_tail h)
  | frame =>
    obtain ⟨q, -, rfl⟩ := frame_pages h
    exact Or.inr rfl
  | refresh => exact Or.inl (refresh_pages s ▸ h)

/-- A notifier that was made stays. -/
theorem made_call {id : String} (h : ((notifiers cache).made s id).isSome = true) :
    ((notifiers cache).made ((program c toWallpaper cache).call k s).1 id).isSome = true := by
  rcases call_cases c toWallpaper cache k s with ⟨hsame, -⟩ | ⟨id', b, hnew, -⟩
  · show (((program c toWallpaper cache).call k s).1.notifiers id).isSome = true
    rwa [hsame]
  · show (((program c toWallpaper cache).call k s).1.notifiers id).isSome = true
    rw [hnew]
    exact isSome_put (F := notifiers cache) (j := id') ⟨.loading, b⟩ h

/-- The notifier of a page is there before the page is built. -/
theorem pages_made_call
    (h : ∀ p, some p ∈ s.pages → ((notifiers cache).made s p.categoryId).isSome = true)
    (hp : some p ∈ ((program c toWallpaper cache).call k s).1.pages) :
    ((notifiers cache).made ((program c toWallpaper cache).call k s).1 p.categoryId).isSome =
      true := by
  cases k with
  | push id =>
    obtain ⟨q, hq, rfl⟩ := frame_pages (s := (watch c toWallpaper cache id (opened id s)).1) hp
    rw [watch_pages] at hq
    rcases List.mem_cons.mp hq with hnew | hold
    · obtain rfl := Option.some.inj hnew
      exact isSome_watch (F := notifiers cache) _
    · exact made_call (k := .push id) (h q hold)
  | pushOther => exact h p ((List.mem_cons.mp hp).resolve_left fun he => by cases he)
  | pop => exact h p (List.mem_of_mem_tail hp)
  | frame =>
    obtain ⟨q, hq, rfl⟩ := frame_pages hp
    exact h q hq
  | refresh => exact made_call (k := .refresh) (h p (refresh_pages s ▸ hp))

end Turns

/-! ### Runs -/

section Runs

variable {c : Codec} {toWallpaper : DynMap → Result Wallpaper} {cache : CacheService}
  {id : String} {s s' : State} {p : Page} {w : World State Task}
  {es : List (Event Call Outcome)}

def IsQuery (t : Task) : Prop := ∃ id, t = queryTask id

/-- The notifiers show no errors, and every page that is open has one. -/
structure Sound (cache : CacheService) (s : State) : Prop where
  noError : ∀ id, NoError ((notifiers cache).state id s).state
  made : ∀ p, some p ∈ s.pages → ((notifiers cache).made s p.categoryId).isSome = true

theorem state_of_same (h : s'.notifiers = s.notifiers) (id : String) :
    (notifiers cache).state id s' = (notifiers cache).state id s := by
  show (s'.notifiers id).getD _ = (s.notifiers id).getD _
  rw [h]

theorem state_of_update (cache : CacheService) {x : FirestoreNotifier.State Wallpaper}
    (h : s'.notifiers = Function.update s.notifiers id (some x)) (id' : String) :
    id' = id ∧ (notifiers cache).state id' s' = x ∨
      id' ≠ id ∧ (notifiers cache).state id' s' = (notifiers cache).state id' s := by
  have hput : (notifiers cache).state id' s' =
      (notifiers cache).state id' ((notifiers cache).put id x s) :=
    state_of_same (h.trans rfl) id'
  rw [hput]
  by_cases hid : id' = id
  · rw [hid]
    exact Or.inl ⟨rfl, state_put_self x⟩
  · exact Or.inr ⟨hid, state_put_other hid x⟩

/-- A call leaves a notifier alone, or it loads. -/
theorem state_call (c : Codec) (toWallpaper : DynMap → Result Wallpaper) (cache : CacheService)
    (k : Call) (s : State) (id : String) :
    ((notifiers cache).state id ((program c toWallpaper cache).call k s).1).state = .loading ∨
      (notifiers cache).state id ((program c toWallpaper cache).call k s).1 =
        (notifiers cache).state id s := by
  rcases call_cases c toWallpaper cache k s with ⟨hsame, -⟩ | ⟨id', b, hnew, -⟩
  · exact Or.inr (state_of_same hsame id)
  · rcases state_of_update cache hnew id with ⟨-, hstate⟩ | ⟨-, hstate⟩
    · exact Or.inl (congrArg FirestoreNotifier.State.state hstate)
    · exact Or.inr hstate

theorem queries_call (k : Call) (s : State) :
    ∀ t ∈ ((program c toWallpaper cache).call k s).2, IsQuery t := by
  rcases call_cases c toWallpaper cache k s with ⟨-, hnone⟩ | ⟨id', b, -, hquery⟩
  · rw [hnone]
    exact List.forall_mem_nil _
  · rw [hquery]
    exact List.forall_mem_singleton.mpr ⟨id', rfl⟩

theorem eachTurn_sound :
    EachTurn (program c toWallpaper cache) (fun _ _ _ => True) (Sound cache) IsQuery where
  call k s h := by
    refine ⟨⟨fun id => ?_, fun p hp => pages_made_call h.made hp⟩, queries_call k s⟩
    rcases state_call c toWallpaper cache k s id with hload | hsame
    · rw [hload]
      exact noError_loading
    · rw [hsame]
      exact h.noError id
  resume t o s x h ht _ hr := by
    obtain ⟨id', rfl⟩ := ht
    obtain ⟨answer, ws, b, -, -, rfl⟩ := resume_query hr
    refine turn_nil ⟨fun id => ?_, fun p hp => isSome_put _ (h.made p hp)⟩
    by_cases hid : id = id'
    · rw [hid, state_put_self]
      exact noError_data ws
    · rw [state_put_other hid]
      exact h.noError id

theorem sound_start : Sound cache start.shared :=
  ⟨fun _ => noError_loading, fun _ hp => absurd hp List.not_mem_nil⟩

theorem sound_run (hr : (program c toWallpaper cache).run start es = some w) :
    Turn (Sound cache) IsQuery (w.shared, w.tasks) :=
  eachTurn_sound.run (turn_nil sound_start) (each_meets (fun _ _ _ => trivial) _ _) hr

/-- The notifier of a category loads. -/
def Loading (id : String) (s : State) : Prop :=
  ∃ x, s.notifiers id = some x ∧ x.state = .loading

/-- A notifier that loads awaits its query. -/
theorem settles_notifier (id : String) : Settles (program c toWallpaper cache)
    (fun t => decide (t.categoryId = id)) (fun s => NoError ((notifiers cache).state id s).state)
    (Loading id) where
  call k s h := by
    rcases call_cases c toWallpaper cache k s with ⟨hsame, -⟩ | ⟨id', b, hnew, hquery⟩
    · rw [state_of_same hsame, Loading, hsame]
      exact ⟨h, Or.inl⟩
    · rcases state_of_update cache hnew id with ⟨rfl, hstate⟩ | ⟨hid, hstate⟩
      · rw [hstate, hquery]
        exact ⟨noError_loading, fun _ => Or.inr ⟨_, List.mem_cons_self, decide_eq_true rfl⟩⟩
      · rw [hstate, Loading, hnew, Function.update_of_ne hid]
        exact ⟨h, Or.inl⟩
  resume t o s x h hr := by
    obtain ⟨id', awaited⟩ := t
    obtain ⟨y, hy, rfl⟩ := Option.map_eq_some_iff.mp hr
    by_cases hid : id = id'
    · subst hid
      have hanswers : Answers y.1.state y.2 := answers_wallpapersTask h hy
      refine ⟨?_, ?_⟩
      · show NoError ((notifiers cache).state id ((notifiers cache).put id y.1 s)).state
        rw [state_put_self]
        exact hanswers.noError
      · rintro ⟨z, hz, hload⟩
        obtain rfl : y.1 = z :=
          Option.some.inj ((made_put_self (F := notifiers cache) y.1).symm.trans hz)
        obtain ⟨t, ht⟩ := hanswers.task hload
        exact Or.inr ⟨⟨id, t⟩, List.mem_map_of_mem ht, decide_eq_true rfl⟩
    · refine ⟨?_, ?_⟩
      · show NoError ((notifiers cache).state id ((notifiers cache).put id' y.1 s)).state
        rw [state_put_other hid]
        exact h
      · rintro ⟨z, hz, hload⟩
        have hsame : s.notifiers id = some z :=
          (made_put_other (F := notifiers cache) hid y.1).symm.trans hz
        exact Or.inl ⟨decide_eq_false (Ne.symm hid), z, hsame, hload⟩

/-- A page whose notifier loads has a query under way. -/
theorem query_of_loading (hr : (program c toWallpaper cache).run start es = some w)
    (hp : some p ∈ w.shared.pages)
    (hload : ((notifiers cache).state p.categoryId w.shared).state = .loading) :
    queryTask p.categoryId ∈ w.tasks := by
  obtain ⟨hsound, hqueries⟩ := sound_run hr
  have hmade := made_of_isSome (hsound.made p hp)
  obtain ⟨-, htask⟩ := (settles_notifier p.categoryId).run (w := start)
    ⟨noError_loading, fun h => by obtain ⟨x, hx, -⟩ := h; cases hx⟩ hr
  obtain ⟨t, ht, hid⟩ := htask ⟨_, hmade, hload⟩
  obtain ⟨id, rfl⟩ := hqueries t ht
  exact of_decide_eq_true hid ▸ ht

end Runs

/-! ### What the pages say -/

section Truth

variable {c : Codec} {toWallpaper : DynMap → Result Wallpaper} {cache : CacheService}
  {contents : String → List Wallpaper} {unreliable : Set String} {id : String}
  {a : AsyncValue (List Wallpaper)} {s : State}

/-- A query is answered with the contents of its category; that of an unreliable one may fail, or be
answered with a document that cannot be read. -/
def AnswersFrom (toWallpaper : DynMap → Result Wallpaper) (contents : String → List Wallpaper)
    (unreliable : Set String) : Task → Outcome → State → Prop
  | t, .answered answer, _ =>
    readList toWallpaper answer = .ok (contents t.categoryId) ∨
      t.categoryId ∈ unreliable ∧ ∃ e, readList toWallpaper answer = .error e
  | _, _, _ => True

def Right (contents : String → List Wallpaper) (unreliable : Set String) (id : String)
    (a : AsyncValue (List Wallpaper)) : Prop :=
  a = .loading ∨ a = .data (contents id) ∨ a = .data [] ∧ id ∈ unreliable

/-- **What is on the screen is true**, up to the queries that can fail. -/
def Truthful (ws : List Wallpaper) (canFail : Prop) : View → Prop
  | .loading => True
  | .error _ => False
  | .empty => ws = [] ∨ canFail
  | .wallpapers shown => shown = ws

theorem Right.truthful (h : Right contents unreliable id a) :
    Truthful (contents id) (id ∈ unreliable) (viewOf a) := by
  rcases h with rfl | rfl | ⟨rfl, hid⟩
  · trivial
  · simp only [viewOf]
    split_ifs with hempty
    · exact Or.inl (List.isEmpty_iff.mp hempty)
    · rfl
  · exact Or.inr hid

structure Told (cache : CacheService) (contents : String → List Wallpaper)
    (unreliable : Set String) (s : State) : Prop where
  state : ∀ id, Right contents unreliable id ((notifiers cache).state id s).state
  built : ∀ p, some p ∈ s.pages → Right contents unreliable p.categoryId p.built

theorem told_start : Told cache contents unreliable start.shared :=
  ⟨fun _ => Or.inl rfl, fun _ hp => absurd hp List.not_mem_nil⟩

theorem eachTurn_told : EachTurn (program c toWallpaper cache)
    (AnswersFrom toWallpaper contents unreliable) (Told cache contents unreliable) IsQuery where
  call k s h := by
    have hstate : ∀ id, Right contents unreliable id
        ((notifiers cache).state id ((program c toWallpaper cache).call k s).1).state := by
      intro id
      rcases state_call c toWallpaper cache k s id with hload | hsame
      · exact Or.inl hload
      · rw [hsame]
        exact h.state id
    refine ⟨⟨hstate, fun p hp => ?_⟩, queries_call k s⟩
    rcases built_call hp with hold | hnew
    · exact h.built p hold
    · rw [hnew]
      exact hstate p.categoryId
  resume t o s x h ht hC hr := by
    obtain ⟨id', rfl⟩ := ht
    obtain ⟨answer, ws, b, rfl, hws, rfl⟩ := resume_query hr
    refine turn_nil ⟨fun id => ?_, h.built⟩
    by_cases hid : id = id'
    · subst hid
      rw [state_put_self]
      rcases hC with hcontents | ⟨hid, e, he⟩
      · rw [getList, hcontents] at hws
        obtain rfl := Except.ok.inj hws
        exact Or.inr (Or.inl rfl)
      · rw [getList_error toWallpaper he] at hws
        obtain rfl := Except.ok.inj hws
        exact Or.inr (Or.inr ⟨rfl, hid⟩)
    · rw [state_put_other hid]
      exact h.state id

/-- **The pages of the Firestore categories are true**: over a Firestore that does not change, along
every run, a page never shows an error and shows no other list than that of its category; one that
says that there are no wallpapers is right unless a query for the category can fail; and one that is
built from the present state only loads while the query is under way. -/
theorem firestore_pages_true (c : Codec) (toWallpaper : DynMap → Result Wallpaper)
    (cache : CacheService) (contents : String → List Wallpaper) (unreliable : Set String)
    (es : List (Event Call Outcome)) (w : World State Task)
    (ha : (program c toWallpaper cache).Each
      (Meets (AnswersFrom toWallpaper contents unreliable)) start es)
    (hr : (program c toWallpaper cache).run start es = some w) (p : Page)
    (hp : some p ∈ w.shared.pages) :
    Truthful (contents p.categoryId) (p.categoryId ∈ unreliable) (viewOf p.built) ∧
    (p.built = ((notifiers cache).state p.categoryId w.shared).state →
      viewOf p.built = .loading → queryTask p.categoryId ∈ w.tasks) := by
  obtain ⟨htold, -⟩ := eachTurn_told.run (turn_nil told_start) ha hr
  refine ⟨(htold.built p hp).truthful, fun hnow hload => ?_⟩
  exact query_of_loading hr hp (hnow ▸ viewOf_loading hload)

end Truth

/-- A document that every device can read. -/
theorem readList_imageDocument (d : Device) :
    readList (Wallpaper.fromFirestore d) (.ok [("a", [("url", .str "u")])]) =
      .ok [imageWallpaper d "a" "u"] := by
  have hread : Wallpaper.fromFirestore d (dataWithId ("a", [("url", .str "u")])) =
      .ok (imageWallpaper d "a" "u") := fromFirestore_imageDocument d "a" (by decide)
  simp only [readList, ok_bind, List.mapM_cons, List.mapM_nil, hread]
  rfl

theorem getList_imageDocument (d : Device) :
    getList (Wallpaper.fromFirestore d) (.ok [("a", [("url", .str "u")])]) =
      .ok [imageWallpaper d "a" "u"] := by
  rw [getList, readList_imageDocument]

/-- A category with one wallpaper, and a frame after the answer. -/
def natureOpened : List (Event Call Outcome) :=
  [.call (.push "nature"), .resume 0 (.answered (.ok [("a", [("url", .str "u")])])), .call .frame]

def noBoxes : CacheService := ⟨none, none, none, none⟩

def oneWallpaper (_ : String) : List Wallpaper := [imageWallpaper sampleDevice "a" "u"]

theorem natureOpened_answers :
    (program (sampleCodec []) (Wallpaper.fromFirestore sampleDevice) noBoxes).Each
      (Meets (AnswersFrom (Wallpaper.fromFirestore sampleDevice) oneWallpaper ∅)) start
      natureOpened := by
  refine (Program.each_cons rfl).mpr ⟨meets_call, ?_⟩
  refine (Program.each_cons rfl).mpr ⟨meets_of_task rfl (Or.inl ?_), ?_⟩
  · exact readList_imageDocument sampleDevice
  · exact (Program.each_cons rfl).mpr ⟨meets_call, trivial⟩

theorem nature_true : ∃ w p, (program (sampleCodec []) (Wallpaper.fromFirestore sampleDevice)
      noBoxes).run start natureOpened = some w ∧ some p ∈ w.shared.pages ∧
    Truthful (oneWallpaper p.categoryId) (p.categoryId ∈ (∅ : Set String)) (viewOf p.built) ∧
    (p.built = ((notifiers noBoxes).state p.categoryId w.shared).state →
      viewOf p.built = .loading → queryTask p.categoryId ∈ w.tasks) :=
  ⟨_, _, rfl, List.mem_cons_self, firestore_pages_true (sampleCodec [])
    (Wallpaper.fromFirestore sampleDevice) noBoxes oneWallpaper ∅ natureOpened _
    natureOpened_answers rfl _ List.mem_cons_self⟩

/-! ### When a page is final -/

section Final

variable {c : Codec} {toWallpaper : DynMap → Result Wallpaper} {cache : CacheService}
  {id : String} {v : View} {s : State} {x : FirestoreNotifier.State Wallpaper}
  {w w₁ : World State Task} {e : Event Call Outcome} {es : List (Event Call Outcome)} {p : Page}

/-- The notifier of a category has an empty list, and all its pages are built from it. -/
structure Settled (id : String) (x : FirestoreNotifier.State Wallpaper) (s : State) : Prop where
  notifier : s.notifiers id = some x
  built : ∀ p, some p ∈ s.pages → p.categoryId = id → p.built = .data []

theorem settled_frame (hx : x.state = .data []) (h : s.notifiers id = some x) :
    Settled id x (frame cache s) where
  notifier := h
  built p hp hid := by
    obtain ⟨q, -, rfl⟩ := frame_pages hp
    obtain rfl : q.categoryId = id := hid
    exact (congrArg FirestoreNotifier.State.state (state_of_made (F := notifiers cache) h)).trans hx

/-- Another category is called, or answered. -/
theorem settled_after (h : Settled id x s) {id' : String} (hid : id ≠ id')
    (y : FirestoreNotifier.State Wallpaper × List WallpapersTask) :
    Turn (Settled id x) ((notifiers cache).Elsewhere id) ((notifiers cache).after id' s y) :=
  ⟨⟨(made_after_other (F := notifiers cache) hid y).trans h.notifier, h.built⟩,
    elsewhere_after hid y⟩

/-- A page without wallpapers offers nothing. -/
theorem settled_refresh (h : Settled id x s) :
    Turn (Settled id x) ((notifiers cache).Elsewhere id) (refresh c toWallpaper cache s) := by
  unfold refresh
  split
  · exact turn_nil h
  · next p hp =>
    split
    · next ws hview =>
      refine settled_after h (fun hid => ?_) _
      have hmem : some p ∈ s.pages := List.mem_of_mem_head? (topPage_eq_some hp)
      rw [h.built p hmem hid.symm] at hview
      cases hview
    · exact turn_nil h

theorem eachTurn_settled (hx : x.state = .data []) : EachTurn (program c toWallpaper cache)
    (fun _ _ _ => True) (Settled id x) ((notifiers cache).Elsewhere id) where
  call k s h := by
    cases k with
    | push id' =>
      obtain ⟨hmade, htasks⟩ := watch_elsewhere (F := notifiers cache)
        (P := fun _ => wallpapersProgram c toWallpaper) (j := id') (s := opened id' s)
        (.loadWallpapersByCategory id') (congrArg Option.isSome h.notifier)
      exact ⟨settled_frame hx (hmade.trans h.notifier), htasks⟩
    | pushOther =>
      refine turn_nil ⟨h.notifier, fun p hp => h.built p ?_⟩
      exact (List.mem_cons.mp hp).resolve_left fun he => by cases he
    | pop => exact turn_nil ⟨h.notifier, fun p hp => h.built p (List.mem_of_mem_tail hp)⟩
    | frame => exact turn_nil (settled_frame hx h.notifier)
    | refresh => exact settled_refresh h
  resume t o s y h ht _ hr := by
    obtain ⟨z, -, rfl⟩ := Option.map_eq_some_iff.mp hr
    exact settled_after h (fun hid => ht t.awaited (hid ▸ rfl)) z

/-- No page of the category that is open at any later time shows anything else. -/
def Final (c : Codec) (toWallpaper : DynMap → Result Wallpaper) (cache : CacheService)
    (w : World State Task) (id : String) (v : View) : Prop :=
  ∀ es w', (program c toWallpaper cache).run w es = some w' →
    ∀ p, some p ∈ w'.shared.pages → p.categoryId = id → viewOf p.built = v

/-- A final page shows what its notifier has after any step that closes no page. -/
theorem Final.after (h : Final c toWallpaper cache w id v)
    (hs : (program c toWallpaper cache).step w e = some w₁) (hp : some p ∈ w₁.shared.pages)
    (hid : p.categoryId = id) : viewOf ((notifiers cache).state id w₁.shared).state = v := by
  have hrun : (program c toWallpaper cache).run w [e, .call .frame] =
      some ⟨frame cache w₁.shared, w₁.tasks ++ []⟩ := by
    rw [Program.run_cons, hs]
    rfl
  subst hid
  refine h _ _ hrun ⟨p.categoryId, ((notifiers cache).state p.categoryId w₁.shared).state⟩ ?_ rfl
  exact List.mem_map_of_mem hp

theorem Final.answered {answer : Result Snapshot} {ws : List Wallpaper}
    (h : Final c toWallpaper cache w id v) (hp : some p ∈ w.shared.pages)
    (hid : p.categoryId = id) (ht : queryTask id ∈ w.tasks)
    (hanswer : getList toWallpaper answer = .ok ws) : v = viewOf (.data ws) := by
  obtain ⟨l, r, ht⟩ := List.append_of_mem ht
  obtain ⟨s, ts⟩ := w
  obtain rfl : ts = l ++ queryTask id :: r := ht
  obtain ⟨x, hx⟩ : ∃ x, (program c toWallpaper cache).resume (queryTask id) (.answered answer) s =
      some x := ⟨_, rfl⟩
  obtain ⟨answer', ws', b, ho, hws, rfl⟩ := resume_query hx
  obtain rfl := Outcome.answered.inj ho
  obtain rfl := Except.ok.inj (hanswer.symm.trans hws)
  have hafter := h.after (Program.step_resume_of hx) hp hid
  rw [← hafter, state_put_self]

/-- After a frame the pages are built from what the notifiers have. -/
theorem built_frame
    (hr : (program c toWallpaper cache).run start (es ++ [.call .frame]) = some w)
    (hp : some p ∈ w.shared.pages) :
    p.built = ((notifiers cache).state p.categoryId w.shared).state := by
  rw [Program.run_concat] at hr
  obtain ⟨v, -, hs⟩ := Option.bind_eq_some_iff.mp hr
  obtain rfl := Option.some.inj hs
  obtain ⟨q, -, rfl⟩ := frame_pages hp
  rfl

/-- A page with a list can be refreshed, and then shows that it loads. -/
theorem Final.no_list {ws : List Wallpaper} (h : Final c toWallpaper cache w p.categoryId v)
    (hp : topPage w.shared = some p) (hview : viewOf p.built = .wallpapers ws) : v = .loading := by
  have hcall : ((program c toWallpaper cache).call .refresh w.shared).1 =
      (notifiers cache).put p.categoryId
        ⟨.loading, ((notifiers cache).state p.categoryId w.shared).cache⟩ w.shared := by
    simp only [program, refresh, hp, hview]
    rfl
  have hmem : some p ∈ ((program c toWallpaper cache).call .refresh w.shared).1.pages := by
    rw [hcall]
    exact List.mem_of_mem_head? (topPage_eq_some hp)
  have hafter := h.after (Program.step_call .refresh) hmem rfl
  rw [hcall, state_put_self] at hafter
  exact hafter.symm

/-- **When a page is final**: after a frame, the page on top will never show anything else, nor will
any other page of its category, however often it is closed and opened again, exactly when it says
that there are no wallpapers and no query for the category is under way. -/
theorem firestore_page_final_iff (d : Device) (c : Codec) (cache : CacheService)
    (es : List (Event Call Outcome)) (w : World State Task)
    (hr : (program c (Wallpaper.fromFirestore d) cache).run start (es ++ [.call .frame]) = some w)
    (p : Page) (hp : topPage w.shared = some p) :
    Final c (Wallpaper.fromFirestore d) cache w p.categoryId (viewOf p.built) ↔
      viewOf p.built = .empty ∧ queryTask p.categoryId ∉ w.tasks := by
  have hmem : some p ∈ w.shared.pages := List.mem_of_mem_head? (topPage_eq_some hp)
  have hnow := built_frame hr hmem
  obtain ⟨hsound, hqueries⟩ := sound_run hr
  have hnoError := viewOf_ne_error (hnow ▸ hsound.noError p.categoryId)
  constructor
  · intro h
    -- a failure is shown as an empty list, and a document as a list that is not empty
    have herror : getList (Wallpaper.fromFirestore d) (.error (.exception "")) = .ok [] :=
      getList_error _ rfl
    have hfailure : queryTask p.categoryId ∈ w.tasks → viewOf p.built = .empty := fun ht =>
      h.answered hmem rfl ht herror
    cases hview : viewOf p.built with
    | loading =>
      have ht := query_of_loading hr hmem (hnow ▸ viewOf_loading hview)
      rw [hfailure ht] at hview
      cases hview
    | error e => exact absurd hview (hnoError e)
    | wallpapers ws =>
      rw [h.no_list hp hview] at hview
      cases hview
    | empty =>
      refine ⟨rfl, fun ht => ?_⟩
      have hlist := h.answered hmem rfl ht (getList_imageDocument d)
      rw [hview] at hlist
      cases hlist
  · rintro ⟨hview, hquery⟩ es' w' hr' q hq hid
    have hmade := made_of_isSome (hsound.made p hmem)
    have hempty := viewOf_empty hview
    have hend := (eachTurn_settled (hnow.symm.trans hempty)).run (w := w)
      ⟨⟨hmade, fun q hq hid => ?_⟩, fun t ht t' he => ?_⟩
      (each_meets (fun _ _ _ => trivial) _ _) hr'
    · rw [hend.1.built q hq hid, hview]
      rfl
    · rw [built_frame hr hq, hid, ← hnow, hempty]
    · obtain ⟨id, rfl⟩ := hqueries t ht
      obtain rfl : id = p.categoryId := (Task.mk.inj he).1
      exact hquery ht

def failedFirst : List (Event Call Outcome) :=
  [.call (.push "nature"), .resume 0 (.answered (.error (.exception "offline")))]

/-- **A failed query hides the wallpapers for good.** -/
theorem failed_for_good : ∃ w p,
    (program (sampleCodec []) (Wallpaper.fromFirestore sampleDevice) noBoxes).run start
      (failedFirst ++ [.call .frame]) = some w ∧ topPage w.shared = some p ∧
    Final (sampleCodec []) (Wallpaper.fromFirestore sampleDevice) noBoxes w p.categoryId
      (viewOf p.built) ∧ viewOf p.built = .empty :=
  ⟨_, _, rfl, rfl, (firestore_page_final_iff sampleDevice (sampleCodec []) noBoxes failedFirst _ rfl
    _ rfl).mpr ⟨rfl, List.not_mem_nil⟩, rfl⟩

end Final

end PixsBliss.Pages.FirestorePage
