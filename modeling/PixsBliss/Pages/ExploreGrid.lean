import PixsBliss.Lib.Gaps
import PixsBliss.Providers.AdCount
import PixsBliss.Providers.AdMobNotifier

/-! # The grid of the explore tab

`_buildCombinedList` puts an ad, or a placeholder if there is none, after every eighth wallpaper
that is not the last. The grid builds the list once for the number of its tiles and again for each
tile, and every build takes ads from the notifier.

What the notifier answers is left open: `getAd` may be any function of a state.

* `entries_eq`: where the ads stand does not depend on the answers.
* `ads_taken`: the ads of a list and those that are left are the pool before.
* `preloads_of_low`: while no preload runs, a list that is built over fewer than two ads schedules
  one.
* `combined_list`: the list without its ads is the feed, its length is known, the ads are apart and
  inside, and a list that is built again fits in every position. -/

namespace PixsBliss.Pages.ExploreGrid

open PixsBliss.Lib.Gaps PixsBliss.Services.AdMobService
open PixsBliss.Providers.AdMobNotifier (AdMobState)

/-! ### The list -/

/-- An entry: a wallpaper, an ad, or `'ad_placeholder'`. -/
inductive Entry (α β : Type)
  | wallpaper (w : α)
  | ad (banner : β)
  | placeholder
deriving DecidableEq

namespace Entry

variable {α β : Type}

/-- The wallpaper of an entry. -/
def wallpaper? : Entry α β → Option α
  | wallpaper w => some w
  | _ => none

/-- The banner of an entry. -/
def ad? : Entry α β → Option β
  | ad banner => some banner
  | _ => none

/-- An ad, or a placeholder for one. -/
def isAd : Entry α β → Bool
  | wallpaper _ => false
  | _ => true

/-- The entry of an answer. -/
def ofAd : Option β → Entry α β
  | some banner => ad banner
  | none => placeholder

@[simp] theorem wallpaper?_wallpaper (w : α) : (wallpaper w : Entry α β).wallpaper? = some w := rfl

@[simp] theorem wallpaper?_ofAd (answer : Option β) :
    (ofAd answer : Entry α β).wallpaper? = none := by
  cases answer <;> rfl

theorem filterMap_wallpaper (w : α) (es : List (Entry α β)) :
    (wallpaper w :: es).filterMap ad? = es.filterMap ad? := rfl

theorem filterMap_ofAd (answer : Option β) (es : List (Entry α β)) :
    (ofAd answer :: es).filterMap ad? = answer.toList ++ es.filterMap ad? := by
  cases answer <;> rfl

theorem isAd_eq (e : Entry α β) : e.isAd = e.wallpaper?.isNone := by
  cases e <;> rfl

end Entry

section Build

variable {α β σ : Type} (getAd : σ → Option β × σ)

/-- The loop of `_buildCombinedList` from the position `i` on, over the wallpapers that are left of
`length` ones. -/
def addFrom (length : ℕ) : ℕ → List α → σ → List (Entry α β) × σ
  | _, [], notifier => ([], notifier)
  | i, w :: ws, notifier =>
    if (i + 1) % 8 = 0 ∧ i < length - 1 then
      let answer := getAd notifier
      let rest := addFrom length (i + 1) ws answer.2
      (.wallpaper w :: .ofAd answer.1 :: rest.1, rest.2)
    else
      let rest := addFrom length (i + 1) ws notifier
      (.wallpaper w :: rest.1, rest.2)

/-- A list that was built, the notifier after it, and whether the preload of three ads is
scheduled. -/
structure Built (α β σ : Type) where
  entries : List (Entry α β)
  notifier : σ
  preloads : Bool

/-- `_buildCombinedList`, with the ad state that the build watches. -/
def buildCombinedList (wallpapers : List α) (adMobState : AdMobState) (notifier : σ) :
    Built α β σ :=
  let combined := addFrom getAd wallpapers.length 0 wallpapers notifier
  ⟨combined.1, combined.2, decide (adMobState.loadedAdCount < 2) && !adMobState.isPreloading⟩

/-! ### The tiles -/

/-- The tile of a page that is loading, or of an entry. -/
inductive Tile (α β : Type)
  | loading
  | item (e : Entry α β)

/-- `childCount`; a page that is loading has a tile. -/
def childCount (built : Built α β σ) (isLoading : Bool) : ℕ :=
  built.entries.length + if isLoading then 1 else 0

/-- `itemBuilder` builds the list again. -/
def itemBuilder (wallpapers : List α) (adMobState : AdMobState) (index : ℕ) (notifier : σ) :
    Tile α β × σ :=
  let built := buildCombinedList getAd wallpapers adMobState notifier
  (if h : index < built.entries.length then .item built.entries[index] else .loading,
    built.notifier)

end Build

/-- `AdMobNotifier.getAd`, with its answer. -/
def takeAd (s : Providers.AdMobNotifier.State) : Option ℕ × Providers.AdMobNotifier.State :=
  ((getLoadedAd s.service).1, Providers.AdMobNotifier.getAd s)

/-! ### Where the ads stand -/

section Build

variable {α β σ : Type} {getAd : σ → Option β × σ}

theorem addFrom_gapped {length i : ℕ} {ws : List α} (h : i + ws.length = length) (notifier : σ) :
    (addFrom getAd length i ws notifier).1.map Entry.wallpaper? = gapped 8 i ws := by
  induction ws generalizing i notifier with
  | nil => rfl
  | cons w ws ih =>
    rw [List.length_cons] at h
    have hrest := ih (i := i + 1) (by omega)
    cases ws with
    | nil =>
      -- the last wallpaper
      rw [List.length_nil] at h
      have hlast : ¬((i + 1) % 8 = 0 ∧ i < length - 1) := by omega
      rw [addFrom, if_neg hlast]
      rfl
    | cons w' ws =>
      rw [List.length_cons] at h
      have hinside : i < length - 1 := by omega
      by_cases hmod : (i + 1) % 8 = 0
      · rw [addFrom, if_pos ⟨hmod, hinside⟩, gapped_cons_cons_gap hmod]
        simp only [List.map_cons, Entry.wallpaper?_wallpaper, Entry.wallpaper?_ofAd, hrest]
      · rw [addFrom, if_neg fun hc => hmod hc.1, gapped_cons_cons hmod]
        simp only [List.map_cons, Entry.wallpaper?_wallpaper, hrest]

/-- **Where the ads stand does not depend on the answers.** -/
theorem entries_eq (getAd : σ → Option β × σ) (wallpapers : List α) (adMobState : AdMobState)
    (notifier : σ) :
    (buildCombinedList getAd wallpapers adMobState notifier).entries.map Entry.wallpaper? =
      gapped 8 0 wallpapers :=
  addFrom_gapped (Nat.zero_add _) notifier

theorem addFrom_ads (pool : σ → List β)
    (hget : ∀ s, (getAd s).1.toList ++ pool (getAd s).2 = pool s) (length i : ℕ) (ws : List α)
    (notifier : σ) :
    (addFrom getAd length i ws notifier).1.filterMap Entry.ad? ++
      pool (addFrom getAd length i ws notifier).2 = pool notifier := by
  induction ws generalizing i notifier with
  | nil => rfl
  | cons w ws ih =>
    by_cases hgap : (i + 1) % 8 = 0 ∧ i < length - 1
    · have htaken := ih (i + 1) (getAd notifier).2
      rw [addFrom, if_pos hgap, ← hget notifier, ← htaken]
      -- the answer, and what the rest takes
      simp only [Entry.filterMap_wallpaper, Entry.filterMap_ofAd, List.append_assoc]
    · rw [addFrom, if_neg hgap]
      exact ih (i + 1) notifier

/-- **A list of wallpapers with ads in between.** -/
structure Interleaved (wallpapers : List α) (entries : List (Entry α β)) : Prop where
  erased : entries.filterMap Entry.wallpaper? = wallpapers
  length : entries.length = wallpapers.length + (wallpapers.length - 1) / 8
  apart : entries.IsChain fun e e' => ¬(e.isAd = true ∧ e'.isAd = true)
  first : ∀ e, entries.head? = some e → e.isAd = false
  last : ∀ e, entries.getLast? = some e → e.isAd = false

theorem interleaved_of_gapped {wallpapers : List α} {entries : List (Entry α β)}
    (h : entries.map Entry.wallpaper? = gapped 8 0 wallpapers) :
    Interleaved wallpapers entries where
  erased := by
    have hfilter := congrArg (List.filterMap id) h
    rw [List.filterMap_map, filterMap_gapped] at hfilter
    exact hfilter
  length := by
    have hlength := congrArg List.length h
    rw [List.length_map] at hlength
    cases wallpapers with
    | nil => simpa [gapped] using hlength
    | cons w ws =>
      have hgaps := length_gapped (k := 8) (i := 0) (a := w) (l := ws)
      rw [List.length_cons]
      omega
  apart := by
    have hchain := isChain_gapped (k := 8) (i := 0) (l := wallpapers)
    rw [← h, List.isChain_map] at hchain
    simpa only [Entry.isAd_eq] using hchain
  first e he := by
    cases wallpapers with
    | nil =>
      have hnil : entries = [] := List.map_eq_nil_iff.mp h
      rw [hnil] at he
      cases he
    | cons w ws =>
      have hhead := congrArg List.head? h
      rw [List.head?_map, he, head_gapped] at hhead
      rw [Entry.isAd_eq, Option.some.inj hhead]
      rfl
  last e he := by
    have hlast := congrArg List.getLast? h
    rw [List.getLast?_map, he, getLast_gapped] at hlast
    obtain ⟨w, -, hw⟩ := Option.map_eq_some_iff.mp hlast.symm
    rw [Entry.isAd_eq, ← hw]
    rfl

theorem itemBuilder_item {wallpapers : List α} {adMobState : AdMobState} {notifier : σ} {index : ℕ}
    (h : index < (buildCombinedList getAd wallpapers adMobState notifier).entries.length) :
    (itemBuilder getAd wallpapers adMobState index notifier).1 =
      .item (buildCombinedList getAd wallpapers adMobState notifier).entries[index] := by
  simp only [itemBuilder, h, dif_pos]

/-- **Ads in between.** Whatever `getAd` answers, the list is the feed with ads in between; and
whatever it answers when a tile builds the list again, that list has the same length and the same
wallpaper in each position, so that every tile but the one of a page that is loading shows an
entry. -/
theorem combined_list {τ γ : Type} (getAd : σ → Option β × σ) (wallpapers : List α)
    (adMobState : AdMobState) (notifier : σ) (getAd' : τ → Option γ × τ)
    (adMobState' : AdMobState) (notifier' : τ) :
    let built := buildCombinedList getAd wallpapers adMobState notifier
    let rebuilt := buildCombinedList getAd' wallpapers adMobState' notifier'
    Interleaved wallpapers built.entries ∧ rebuilt.entries.length = built.entries.length ∧
    (∀ index : ℕ, rebuilt.entries[index]?.bind Entry.wallpaper? =
      built.entries[index]?.bind Entry.wallpaper?) ∧
    ∀ (isLoading : Bool) (index : ℕ),
      index < childCount built isLoading - (if isLoading then 1 else 0) →
      ∃ e, rebuilt.entries[index]? = some e ∧
        (itemBuilder getAd' wallpapers adMobState' index notifier').1 = .item e := by
  intro built rebuilt
  have hbuilt : built.entries.map Entry.wallpaper? = gapped 8 0 wallpapers :=
    entries_eq getAd wallpapers adMobState notifier
  have hrebuilt : rebuilt.entries.map Entry.wallpaper? = built.entries.map Entry.wallpaper? :=
    (entries_eq getAd' wallpapers adMobState' notifier').trans hbuilt.symm
  have hlength : rebuilt.entries.length = built.entries.length := by
    have h := congrArg List.length hrebuilt
    rwa [List.length_map, List.length_map] at h
  refine ⟨interleaved_of_gapped hbuilt, hlength, fun index => ?_, fun isLoading index h => ?_⟩
  · have h := congrArg (fun l : List (Option α) => l[index]?.bind id) hrebuilt
    simpa [List.getElem?_map, Option.bind_map] using h
  · have hindex : index < rebuilt.entries.length := by
      rw [childCount, Nat.add_sub_cancel] at h
      rwa [hlength]
    exact ⟨rebuilt.entries[index], List.getElem?_eq_getElem hindex, itemBuilder_item hindex⟩

end Build

/-! ### The ads of a list -/

/-- The ads that wait. -/
def pool (s : Providers.AdMobNotifier.State) : List ℕ := s.service.loadedAds

theorem takeAd_pool (s : Providers.AdMobNotifier.State) :
    (takeAd s).1.toList ++ pool (takeAd s).2 = pool s := by
  unfold takeAd Providers.AdMobNotifier.getAd getLoadedAd pool
  cases hl : s.service.loadedAds with
  | nil => simp [give, hl]
  | cons ad ads => simp [give]

/-- **The ads of a list and those that are left are the pool before**, in its order. -/
theorem ads_taken {α : Type} (wallpapers : List α) (adMobState : AdMobState)
    (s : Providers.AdMobNotifier.State) :
    (buildCombinedList takeAd wallpapers adMobState s).entries.filterMap Entry.ad? ++
      pool (buildCombinedList takeAd wallpapers adMobState s).notifier = pool s :=
  addFrom_ads pool takeAd_pool wallpapers.length 0 wallpapers s

/-! ### The preload of a list -/

section Preload

open PixsBliss.Lib.Async PixsBliss.Lib.Flags PixsBliss.Providers.AdCount

variable {α : Type} {w : Providers.AdMobNotifier.AdWorld}

theorem preloads_eq_true (wallpapers : List α) (s : Providers.AdMobNotifier.State) :
    (buildCombinedList takeAd wallpapers s.state s).preloads = true ↔
      s.state.loadedAdCount < 2 ∧ s.state.isPreloading = false := by
  simp [buildCombinedList]

/-- **A list over fewer than two ads preloads more**, in any run, while no preload runs: the count
is never too high. -/
theorem preloads_of_low (wallpapers : List α) {es : List Providers.AdMobNotifier.AdEvent}
    (hr : Providers.AdMobNotifier.program.run Providers.AdMobNotifier.start es = some w)
    (hno : .preloadAds ∉ calls.running w.tasks) (hlow : (pool w.shared).length < 2) :
    (buildCombinedList takeAd wallpapers w.shared.state w.shared).preloads = true := by
  have hcount : w.shared.state.loadedAdCount ≤ (pool w.shared).length := count_le_run hr
  have hdown : w.shared.state.isPreloading = false :=
    Flagged.down_run respects down_start hr .preloadAds hno
  exact (preloads_eq_true wallpapers w.shared).mpr ⟨hcount.trans_lt hlow, hdown⟩

/-- Where the fields are right, without a running call, it preloads only then. -/
theorem preloads_iff_of_law (wallpapers : List α) (h : Law w)
    (hidle : calls.running w.tasks = []) :
    (buildCombinedList takeAd wallpapers w.shared.state w.shared).preloads = true ↔
      (pool w.shared).length < 2 := by
  have hcount : w.shared.state.loadedAdCount = (pool w.shared).length := h.count hidle
  rw [preloads_eq_true, hcount, and_iff_left (h.down hidle).1]

end Preload

/-- Answers in a given order, and none after them. -/
def answers (l : List (Option ℕ)) : Option ℕ × List (Option ℕ) := (l.headD none, l.tail)

example : (buildCombinedList answers [1, 2, 3, 4, 5, 6, 7, 8, 9] {} [some 0]).entries =
    ([1, 2, 3, 4, 5, 6, 7, 8].map .wallpaper) ++ [.ad 0, .wallpaper 9] := by
  decide

/-- Nine wallpapers and an ad, and a tile after the ad was taken. -/
theorem combined_list_nine :
    ∃ e, (buildCombinedList answers [1, 2, 3, 4, 5, 6, 7, 8, 9] {} []).entries[9]? = some e ∧
      (itemBuilder answers [1, 2, 3, 4, 5, 6, 7, 8, 9] {} 9 []).1 = .item e :=
  (combined_list answers [1, 2, 3, 4, 5, 6, 7, 8, 9] {} [some 0] answers {} []).2.2.2 true 9
    (by decide)

end PixsBliss.Pages.ExploreGrid
