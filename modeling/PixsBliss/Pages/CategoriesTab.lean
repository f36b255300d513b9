import PixsBliss.Lib.Async
import PixsBliss.Lib.DateText
import PixsBliss.Services.DailyImage
import PixsBliss.Services.PremiumService

/-! # The image of a category

`_getDailyCategoryImage` looks in the preferences for the image of a category and a day, and else
asks for one and stores it. The key is made of the id and of the date without padding, and nothing
is ever removed, so a day can find what was stored on another one.

* `dailyKey_eq_iff`: the keys that are equal.
* `keys_distinct_iff`: along a run an image of another day is found exactly when one is looked for
  under a key that holds the image of a shifted day. -/

namespace PixsBliss.Pages.CategoriesTab

open PixsBliss.Lib.Async PixsBliss.Lib.Calendar PixsBliss.Lib.DateText PixsBliss.Lib.IntLiteral
open PixsBliss.Lib.Linked PixsBliss.Models PixsBliss.Services.DailyImage
open PixsBliss.Services.PexelsApiService PixsBliss.Services.PremiumService

/-! ### The key -/

def dailyKey (categoryId : String) (today : Date) : String :=
  "category_bg_" ++ categoryId ++ "_" ++ toString today.year ++ toString today.month ++
    toString today.day

section Keys

variable {c c' : String} {d d' : Date}

theorem toList_dailyKey (c : String) (d : Date) :
    (dailyKey c d).toList = "category_bg_".toList ++ (c.toList ++ '_' :: dateText d) := by
  have hmonth : (toString d.month).toList = digits d.month := Nat.toList_repr
  have hday : (toString d.day).toList = digits d.day := Nat.toList_repr
  simp only [dailyKey, String.toList_append, hmonth, hday, dateText, yearText, List.append_assoc]
  rfl

theorem underscore_notMem_dateText (d : Date) : '_' ∉ dateText d := by
  have hdigits : ∀ n, '_' ∉ digits n := fun n h => absurd (isDigit_of_mem_digits h) (by decide)
  intro h
  rcases List.mem_append.mp h with hyear | hrest
  · rcases mem_toString hyear with hsign | hdigit
    · exact absurd hsign (by decide)
    · exact absurd hdigit (by decide)
  · rcases List.mem_append.mp hrest with hmonth | hday
    · exact hdigits d.month hmonth
    · exact hdigits d.day hday

/-- The last separator splits a text. -/
theorem append_cons_inj {α : Type} {x : α} {l l' r r' : List α} (hr : x ∉ r) (hr' : x ∉ r')
    (h : l ++ x :: r = l' ++ x :: r') : l = l' ∧ r = r' := by
  rcases List.append_eq_append_iff.mp h with ⟨q, hl, hq⟩ | ⟨q, hl, hq⟩
  · cases q with
    | nil => exact ⟨by simpa using hl.symm, (List.cons.inj hq).2⟩
    | cons y q =>
      refine absurd ?_ hr
      rw [(List.cons.inj hq).2]
      simp
  · cases q with
    | nil => exact ⟨by simpa using hl, (List.cons.inj hq).2.symm⟩
    | cons y q =>
      refine absurd ?_ hr'
      rw [(List.cons.inj hq).2]
      simp

/-- **The keys that are equal.** -/
theorem dailyKey_eq_iff : dailyKey c d = dailyKey c' d' ↔
    c = c' ∧ (d = d' ∨ Shifted d d' ∨ Shifted d' d) := by
  rw [← String.toList_inj, toList_dailyKey, toList_dailyKey, List.append_cancel_left_eq,
    ← dateText_eq_iff]
  constructor
  · intro h
    obtain ⟨hc, hd⟩ :=
      append_cons_inj (underscore_notMem_dateText d) (underscore_notMem_dateText d') h
    exact ⟨String.toList_inj.mp hc, hd⟩
  · rintro ⟨rfl, hd⟩
    rw [hd]

end Keys

/-! ### The program -/

/-- An image that was found in the preferences, and what it was stored for. -/
structure CachedImage where
  categoryId : String
  date : Date
  url : String
  owner : Option (String × Date)

/-- The preferences. As ghosts for which category and day the image under a key was stored, and the
images that were found. -/
structure State where
  prefs : Prefs
  owner : String → Option (String × Date)
  cached : List CachedImage

inductive Task
  | opening (categoryName categoryId : String)
  | fetching (request : Request) (categoryId : String) (today : Date)
  | storing (url : String)

inductive Call
  | getDailyCategoryImage (categoryName categoryId : String)

/-- The preferences are there, and the clock is read; the search is answered; the image is stored,
or not. -/
inductive Outcome
  | opened (today : Date)
  | answered (answer : Answer)
  | stored (ok : Bool)

abbrev TabWorld := World State Task
abbrev TabEvent := Event Call Outcome

/-- The image in the preferences, or a search for one. -/
def lookUp (categoryName categoryId : String) (today : Date) (s : State) : State × List Task :=
  match s.prefs.getString (dailyKey categoryId today) with
  | some url =>
    ({ s with
        cached := s.cached ++ [⟨categoryId, today, url, s.owner (dailyKey categoryId today)⟩] },
      [])
  | none => (s, [.fetching (dailyImageRequest categoryName 15) categoryId today])

/-- An image that was found is stored. -/
def store (categoryId : String) (today : Date) (answer : Answer) (s : State) : State × List Task :=
  match fetchDailyCategoryImageUrl answer today with
  | some url =>
    ({ s with
        prefs := s.prefs.setString (dailyKey categoryId today) url
        owner := Function.update s.owner (dailyKey categoryId today) (some (categoryId, today)) },
      [.storing url])
  | none => (s, [])

/-- **The images of the tab.** -/
def program : Program State Task Call Outcome where
  call
    | .getDailyCategoryImage categoryName categoryId, s => (s, [.opening categoryName categoryId])
  resume
    | .opening categoryName categoryId, .opened today, s =>
      some (lookUp categoryName categoryId today s)
    | .fetching _ categoryId today, .answered answer, s => some (store categoryId today answer s)
    | .storing _, .stored _, s => some (s, [])
    | _, _, _ => none

/-- A new device. -/
def installed : TabWorld := ⟨⟨⟨⟨[], by simp⟩, []⟩, fun _ => none, []⟩, []⟩

/-! ### The law -/

/-- **Every image that was found** was stored for the category and the day it was looked for. -/
def Law (s : State) : Prop := ∀ i ∈ s.cached, i.owner = some (i.categoryId, i.date)

/-- Nothing is looked for under a key that holds the image of a shifted day. -/
def NotShifted (w : TabWorld) (e : TabEvent) (_ : TabWorld) : Prop :=
  ∀ i categoryName categoryId today, e = .resume i (.opened today) →
    w.tasks[i]? = some (.opening categoryName categoryId) →
    ∀ d, w.shared.owner (dailyKey categoryId today) = some (categoryId, d) →
      ¬(Shifted today d ∨ Shifted d today)

/-- What is stored under a key was stored for it. -/
def Owned (s : State) : Prop :=
  ∀ key, (s.prefs.getString key = none ∧ s.owner key = none) ∨
    ∃ url c d, s.prefs.getString key = some url ∧ s.owner key = some (c, d) ∧ key = dailyKey c d

section Steps

variable {w w' : TabWorld} {e : TabEvent} {s : State} {c name : String} {today : Date}

theorem owned_store (h : Owned s) (answer : Answer) : Owned (store c today answer s).1 := by
  cases hfetch : fetchDailyCategoryImageUrl answer today with
  | none =>
    simp only [store, hfetch]
    exact h
  | some url =>
    simp only [store, hfetch]
    intro key
    by_cases hkey : key = dailyKey c today
    · subst hkey
      exact Or.inr ⟨url, c, today, Prefs.getString_setString, Function.update_self .., rfl⟩
    · rcases h key with ⟨hget, howner⟩ | ⟨url', c', d', hget, howner, heq⟩
      · exact Or.inl ⟨(Prefs.getString_setString_of_ne hkey).trans hget,
          (Function.update_of_ne hkey ..).trans howner⟩
      · exact Or.inr ⟨url', c', d', (Prefs.getString_setString_of_ne hkey).trans hget,
          (Function.update_of_ne hkey ..).trans howner, heq⟩

/-- What looking for an image does: it finds one, or asks for one. -/
theorem lookUp_cases (h : Owned s) (name c : String) (today : Date) :
    (s.owner (dailyKey c today) = none ∧
      lookUp name c today s = (s, [.fetching (dailyImageRequest name 15) c today])) ∨
    ∃ url c' d', s.owner (dailyKey c today) = some (c', d') ∧ dailyKey c today = dailyKey c' d' ∧
      lookUp name c today s =
        ({ s with cached := s.cached ++ [⟨c, today, url, some (c', d')⟩] }, []) := by
  rcases h (dailyKey c today) with ⟨hget, howner⟩ | ⟨url, c', d', hget, howner, hkey⟩
  · refine Or.inl ⟨howner, ?_⟩
    simp only [lookUp, hget]
  · refine Or.inr ⟨url, c', d', howner, hkey, ?_⟩
    simp only [lookUp, hget, howner]

/-- The condition, where an image is looked for. -/
theorem notShifted_opened {l r : List Task} (ht : w.tasks = l ++ .opening name c :: r) :
    NotShifted w (.resume l.length (.opened today)) w' ↔
      ∀ d, w.shared.owner (dailyKey c today) = some (c, d) →
        ¬(Shifted today d ∨ Shifted d today) := by
  have hi : w.tasks[l.length]? = some (.opening name c) := Program.getElem?_of_eq ht
  constructor
  · exact fun h => h l.length name c today rfl hi
  · intro h i name' c' today' he hi'
    obtain ⟨rfl, ho⟩ := Event.resume.inj he
    obtain rfl := Outcome.opened.inj ho
    obtain ⟨-, rfl⟩ := Task.opening.inj (Option.some.inj (hi.symm.trans hi'))
    exact h

/-- **One step**: what was found before stays, and a new find is right iff it is not of a shifted
day. -/
theorem law_step (h : Owned w.shared) (hlaw : Law w.shared) (hs : program.step w e = some w') :
    Owned w'.shared ∧ (Law w'.shared ↔ NotShifted w e w') := by
  rcases Program.step_cases hs with ⟨k, rfl, rfl⟩ | ⟨l, t, r, o, s, ts, rfl, ht, hr, rfl⟩
  · exact ⟨h, iff_of_true hlaw fun i name c today he => by cases he⟩
  · match t, o with
    | .opening name c, .opened today =>
      rw [notShifted_opened ht]
      rcases lookUp_cases h name c today with ⟨howner, hlook⟩ | ⟨url, c', d', howner, hkey, hlook⟩
      · obtain ⟨rfl, -⟩ := Prod.mk.inj ((Option.some.inj hr).symm.trans hlook)
        refine ⟨h, iff_of_true hlaw fun d hd => ?_⟩
        rw [howner] at hd
        cases hd
      · obtain ⟨rfl, -⟩ := Prod.mk.inj ((Option.some.inj hr).symm.trans hlook)
        obtain ⟨rfl, hdate⟩ := dailyKey_eq_iff.mp hkey
        refine ⟨h, fun hfound d hd hshifted => ?_, fun hno i hi => ?_⟩
        · -- the image that was found is of another day
          have hnew := hfound ⟨c, today, url, some (c, d')⟩ (by simp)
          have hday : d' = today := (Prod.mk.inj (Option.some.inj hnew)).2
          obtain rfl : d' = d := (Prod.mk.inj (Option.some.inj (howner.symm.trans hd))).2
          exact hshifted.elim (fun hsh => hsh.ne hday.symm) fun hsh => hsh.ne hday
        · rcases List.mem_append.mp hi with hold | hnew
          · exact hlaw i hold
          · rw [List.mem_singleton.mp hnew]
            rcases hdate with rfl | hsh
            · rfl
            · exact absurd hsh (hno d' howner)
    | .fetching _ c today, .answered answer =>
      have hshared : s = (store c today answer w.shared).1 :=
        congrArg Prod.fst (Option.some.inj hr).symm
      have hcached : s.cached = w.shared.cached := by
        rw [hshared]
        unfold store
        cases fetchDailyCategoryImageUrl answer today <;> rfl
      refine ⟨hshared ▸ owned_store h answer, iff_of_true ?_ fun i name c today he => by cases he⟩
      intro i hi
      exact hlaw i (hcached ▸ hi)
    | .storing _, .stored _ =>
      obtain ⟨rfl, -⟩ := Prod.mk.inj (Option.some.inj hr)
      exact ⟨h, iff_of_true hlaw fun i name c today he => by cases he⟩

end Steps

/-! ### Runs -/

/-- **Exactly the keys, and the runs, without a collision.** The keys of two categories and days are
only equal if these are, unless the category is the same and one day is the other one shifted; and
along a run every image that is found was stored for its category and its day iff none is looked for
under a key that holds the image of a shifted day. -/
theorem keys_distinct_iff (c c' : String) (d d' : Date) (es : List TabEvent) :
    ((dailyKey c d = dailyKey c' d' → c = c' ∧ d = d') ↔
      ¬(c = c' ∧ (Shifted d d' ∨ Shifted d' d))) ∧
    (program.Each (fun _ _ w' => Law w'.shared) installed es ↔
      program.Each NotShifted installed es) := by
  have hstart : Owned installed.shared ∧ Law installed.shared :=
    ⟨fun _ => Or.inl ⟨rfl, rfl⟩, fun i hi => by cases hi⟩
  refine ⟨?_, ?_⟩
  · rw [dailyKey_eq_iff]
    constructor
    · rintro h ⟨rfl, hsh⟩
      obtain ⟨-, rfl⟩ := h ⟨rfl, Or.inr hsh⟩
      exact hsh.elim (fun hs => hs.ne rfl) fun hs => hs.ne rfl
    · rintro hno ⟨rfl, rfl | hsh⟩
      · exact ⟨rfl, rfl⟩
      · exact absurd ⟨rfl, hsh⟩ hno
  · refine Program.each_iff_each (I := fun w => Owned w.shared ∧ Law w.shared) ?_ hstart
    rintro w e w' ⟨h, hlaw⟩ hs
    obtain ⟨h', hiff⟩ := law_step h hlaw hs
    exact ⟨hiff, fun hlaw' => ⟨h', hlaw'⟩⟩

def januaryEleventh : Date := Date.of 2024 1 11 (by decide)

def novemberFirst : Date := Date.of 2024 11 1 (by decide)

/-- The image of a category in January, and again in November. -/
def inNovember : List TabEvent :=
  [.call (.getDailyCategoryImage "Nature" "nature"), .resume 0 (.opened januaryEleventh),
    .resume 0 (.answered (.wallpapers [sampleWallpaper "7" "pexels"])), .resume 0 (.stored true),
    .call (.getDailyCategoryImage "Nature" "nature"), .resume 0 (.opened novemberFirst)]

/-- **A collision**: in November the image of January is found. -/
theorem january_found : dailyKey "nature" januaryEleventh = dailyKey "nature" novemberFirst ∧
    januaryEleventh ≠ novemberFirst ∧ ∃ w, program.run installed inNovember = some w ∧
      w.shared.cached = [⟨"nature", novemberFirst, "https://img/7.jpg",
        some ("nature", januaryEleventh)⟩] ∧ ¬Law w.shared := by
  refine ⟨by decide, by decide, _, rfl, rfl, fun h => ?_⟩
  have hfound := h _ (List.mem_singleton_self _)
  exact absurd hfound (by decide)

end PixsBliss.Pages.CategoriesTab
