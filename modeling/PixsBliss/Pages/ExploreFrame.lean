import PixsBliss.Pages.ExploreGrid

/-! # The ads of a frame

In a frame the grid builds its list for the number of its tiles, and again for each tile it shows. A
tile shows one entry of its list, and the ads of the other entries go nowhere.

* `count_tiles_le`: the ads on the tiles are among those the builds of the tiles took.
* `ads_kept_iff`: so all ads that were taken are shown iff none was taken: there are at most eight
  wallpapers, or no ad waits. -/

namespace PixsBliss.Pages.ExploreFrame

open PixsBliss.Services.AdMobService PixsBliss.Pages.ExploreGrid
open PixsBliss.Providers.AdMobNotifier (AdMobState State)

variable {α : Type}

/-! ### A frame -/

/-- The tiles the grid asks for, in this order. -/
def buildTiles (wallpapers : List α) (adMobState : AdMobState) :
    List ℕ → State → List (Tile α ℕ) × State
  | [], s => ([], s)
  | index :: indices, s =>
    let tile := itemBuilder takeAd wallpapers adMobState index s
    let rest := buildTiles wallpapers adMobState indices tile.2
    (tile.1 :: rest.1, rest.2)

/-- The notifier after the list was built for `childCount`. -/
def counted (wallpapers : List α) (adMobState : AdMobState) (s : State) : State :=
  (buildCombinedList takeAd wallpapers adMobState s).notifier

/-- **A frame**: the build for `childCount`, and the tiles. -/
def buildFrame (wallpapers : List α) (adMobState : AdMobState) (indices : List ℕ) (s : State) :
    List (Tile α ℕ) × State :=
  buildTiles wallpapers adMobState indices (counted wallpapers adMobState s)

def shownAd : Tile α ℕ → Option ℕ
  | .loading => none
  | .item e => e.ad?

def shown (tiles : List (Tile α ℕ)) : List ℕ := tiles.filterMap shownAd

/-! ### The law -/

/-- **No ad is lost** between two states: each time an ad was taken, it is on a tile, or it was
disposed. -/
def Accounted (s s' : State) (tiles : List (Tile α ℕ)) : Prop :=
  ∀ ad, s'.service.given.count ad + s.service.disposed.count ad ≤
    s.service.given.count ad + (shown tiles).count ad + s'.service.disposed.count ad

/-- The same for a pool without repetitions: an ad that has left it is on a tile, or was disposed
since. -/
def NoneLost (s s' : State) (tiles : List (Tile α ℕ)) : Prop :=
  ∀ ad ∈ pool s, ad ∉ pool s' → ad ∈ shown tiles ∨
    (ad ∈ s'.service.disposed ∧ ad ∉ s.service.disposed)

/-- Building a tile again takes no ad. -/
def RebuildsFreely (wallpapers : List α) (adMobState : AdMobState) (s : State) : Prop :=
  ∀ index, pool (itemBuilder takeAd wallpapers adMobState index s).2 = pool s

/-- No build takes an ad: no ad stands in the list, or none waits. -/
def TakesNothing (wallpapers : List α) (s : State) : Prop := wallpapers.length ≤ 8 ∨ pool s = []

/-! ### What a build takes -/

section Build

variable {wallpapers : List α} {adMobState : AdMobState} {s : State}

def taken (wallpapers : List α) (adMobState : AdMobState) (s : State) : List ℕ :=
  (buildCombinedList takeAd wallpapers adMobState s).entries.filterMap Entry.ad?

theorem taken_append_pool (wallpapers : List α) (adMobState : AdMobState) (s : State) :
    taken wallpapers adMobState s ++ pool (counted wallpapers adMobState s) = pool s :=
  addFrom_ads pool takeAd_pool wallpapers.length 0 wallpapers s

/-- What `getAd` does to the books. -/
theorem takeAd_books (s : State) :
    (takeAd s).2.service.given = s.service.given ++ (takeAd s).1.toList ∧
      (takeAd s).2.service.disposed = s.service.disposed := by
  unfold takeAd Providers.AdMobNotifier.getAd getLoadedAd
  cases s.service.loadedAds with
  | nil => exact ⟨rfl, rfl⟩
  | cons ad ads => exact ⟨rfl, rfl⟩

theorem takeAd_of_empty (h : pool s = []) : takeAd s = (none, s) := by
  have hloaded : s.service.loadedAds = [] := h
  unfold takeAd Providers.AdMobNotifier.getAd getLoadedAd
  rw [hloaded]
  simp [give]

theorem takeAd_of_ne_nil (h : pool s ≠ []) : (takeAd s).1 ≠ none := by
  have hloaded : s.service.loadedAds ≠ [] := h
  unfold takeAd getLoadedAd
  cases hl : s.service.loadedAds with
  | nil => exact absurd hl hloaded
  | cons ad ads => exact Option.some_ne_none ad

theorem addFrom_books (length i : ℕ) (ws : List α) (s : State) :
    (addFrom takeAd length i ws s).2.service.given =
        s.service.given ++ (addFrom takeAd length i ws s).1.filterMap Entry.ad? ∧
      (addFrom takeAd length i ws s).2.service.disposed = s.service.disposed := by
  induction ws generalizing i s with
  | nil => exact ⟨(List.append_nil _).symm, rfl⟩
  | cons w ws ih =>
    by_cases hgap : (i + 1) % 8 = 0 ∧ i < length - 1
    · obtain ⟨hgiven, hdisposed⟩ := ih (i + 1) (takeAd s).2
      obtain ⟨hanswer, hsame⟩ := takeAd_books s
      rw [addFrom, if_pos hgap]
      refine ⟨?_, hdisposed.trans hsame⟩
      simp only [Entry.filterMap_wallpaper, Entry.filterMap_ofAd]
      rw [hgiven, hanswer, List.append_assoc]
    · rw [addFrom, if_neg hgap]
      exact ih (i + 1) s

/-- Without a waiting ad a build leaves the notifier alone. -/
theorem addFrom_of_empty (h : pool s = []) (length i : ℕ) (ws : List α) :
    (addFrom takeAd length i ws s).2 = s := by
  induction ws generalizing i with
  | nil => rfl
  | cons w ws ih =>
    by_cases hgap : (i + 1) % 8 = 0 ∧ i < length - 1
    · rw [addFrom, if_pos hgap, takeAd_of_empty h]
      exact ih (i + 1)
    · rw [addFrom, if_neg hgap]
      exact ih (i + 1)

/-- The first eight wallpapers have no ad between them. -/
theorem addFrom_of_short {length : ℕ} (hshort : length ≤ 8) {i : ℕ} {ws : List α}
    (h : i + ws.length = length) : (addFrom takeAd length i ws s).2 = s := by
  induction ws generalizing i with
  | nil => rfl
  | cons w ws ih =>
    rw [List.length_cons] at h
    have hno : ¬((i + 1) % 8 = 0 ∧ i < length - 1) := by omega
    rw [addFrom, if_neg hno]
    exact ih (by omega)

/-- A build that takes no ad out of a pool with ads has no place for one. -/
theorem addFrom_of_no_ads {length i : ℕ} {ws : List α} (hpool : pool s ≠ [])
    (h : (addFrom takeAd length i ws s).1.filterMap Entry.ad? = []) :
    (addFrom takeAd length i ws s).1.length = ws.length := by
  induction ws generalizing i with
  | nil => rfl
  | cons w ws ih =>
    by_cases hgap : (i + 1) % 8 = 0 ∧ i < length - 1
    · rw [addFrom, if_pos hgap] at h
      simp only [Entry.filterMap_wallpaper, Entry.filterMap_ofAd, List.append_eq_nil_iff] at h
      exact absurd (Option.toList_eq_nil_iff.mp h.1) (takeAd_of_ne_nil hpool)
    · rw [addFrom, if_neg hgap] at h ⊢
      exact congrArg (· + 1) (ih h)

/-- A build that takes nothing leaves the notifier as it is. -/
theorem counted_eq_self (h : TakesNothing wallpapers s) : counted wallpapers adMobState s = s := by
  rcases h with hshort | hempty
  · exact addFrom_of_short hshort (Nat.zero_add _)
  · exact addFrom_of_empty hempty wallpapers.length 0 wallpapers

theorem taken_eq_nil_iff : taken wallpapers adMobState s = [] ↔ TakesNothing wallpapers s := by
  constructor
  · intro h
    by_cases hpool : pool s = []
    · exact Or.inr hpool
    · have hentries : (buildCombinedList takeAd wallpapers adMobState s).entries.length =
          wallpapers.length := addFrom_of_no_ads hpool h
      have hplaces := (interleaved_of_gapped (entries_eq takeAd wallpapers adMobState s)).length
      refine Or.inl ?_
      omega
  · intro h
    have hpool := taken_append_pool wallpapers adMobState s
    rw [counted_eq_self h] at hpool
    exact List.append_left_eq_self.mp hpool

theorem rebuildsFreely_iff :
    RebuildsFreely wallpapers adMobState s ↔ TakesNothing wallpapers s := by
  have hpool := taken_append_pool wallpapers adMobState s
  constructor
  · intro h
    have hsame : pool (counted wallpapers adMobState s) = pool s := h 0
    rw [hsame] at hpool
    exact taken_eq_nil_iff.mp (List.append_left_eq_self.mp hpool)
  · intro h index
    have hself : counted wallpapers adMobState s = s := counted_eq_self h
    exact congrArg pool hself

end Build

/-! ### What the tiles show -/

section Tiles

variable {wallpapers : List α} {adMobState : AdMobState} {s : State} {indices : List ℕ}

/-- A tile shows an ad that its build took, or none. -/
theorem shownAd_itemBuilder (index : ℕ) :
    (shownAd (itemBuilder takeAd wallpapers adMobState index s).1).toList.Sublist
      (taken wallpapers adMobState s) := by
  by_cases h : index < (buildCombinedList takeAd wallpapers adMobState s).entries.length
  · rw [itemBuilder_item h, shownAd]
    cases had : (buildCombinedList takeAd wallpapers adMobState s).entries[index].ad? with
    | none => exact List.nil_sublist _
    | some ad =>
      refine List.singleton_sublist.mpr (List.mem_filterMap.mpr ⟨_, ?_, had⟩)
      exact List.getElem_mem h
  · simp [itemBuilder, h, shownAd]

/-- **The ads on the tiles** are among those that the builds of the tiles took. -/
theorem buildTiles_spec (wallpapers : List α) (adMobState : AdMobState) (indices : List ℕ)
    (s : State) : ∃ mid, (shown (buildTiles wallpapers adMobState indices s).1).Sublist mid ∧
    mid ++ pool (buildTiles wallpapers adMobState indices s).2 = pool s ∧
    (buildTiles wallpapers adMobState indices s).2.service.given = s.service.given ++ mid ∧
    (buildTiles wallpapers adMobState indices s).2.service.disposed = s.service.disposed := by
  induction indices generalizing s with
  | nil => exact ⟨[], List.nil_sublist _, rfl, (List.append_nil _).symm, rfl⟩
  | cons index indices ih =>
    obtain ⟨mid, hshown, hpool, hgiven, hdisposed⟩ :=
      ih (itemBuilder takeAd wallpapers adMobState index s).2
    obtain ⟨hgiven₀, hdisposed₀⟩ := addFrom_books wallpapers.length 0 wallpapers s
    refine ⟨taken wallpapers adMobState s ++ mid, ?_, ?_, ?_, hdisposed.trans hdisposed₀⟩
    · have hcons : shown (buildTiles wallpapers adMobState (index :: indices) s).1 =
          (shownAd (itemBuilder takeAd wallpapers adMobState index s).1).toList ++
            shown (buildTiles wallpapers adMobState indices
              (itemBuilder takeAd wallpapers adMobState index s).2).1 := by
        unfold shown
        rw [buildTiles, List.filterMap_cons]
        cases shownAd (itemBuilder takeAd wallpapers adMobState index s).1 <;> rfl
      rw [hcons]
      exact (shownAd_itemBuilder index).append hshown
    · rw [List.append_assoc]
      exact (congrArg (taken wallpapers adMobState s ++ ·) hpool).trans
        (taken_append_pool wallpapers adMobState s)
    · refine hgiven.trans ?_
      rw [← List.append_assoc]
      exact congrArg (· ++ mid) hgiven₀

theorem buildTiles_eq_self (h : TakesNothing wallpapers s) :
    (buildTiles wallpapers adMobState indices s).2 = s := by
  induction indices with
  | nil => rfl
  | cons index indices ih =>
    have hself : counted wallpapers adMobState s = s := counted_eq_self h
    have hitem : (itemBuilder takeAd wallpapers adMobState index s).2 = s := hself
    rw [buildTiles, hitem]
    exact ih

end Tiles

/-! ### Frames -/

section Frames

variable {wallpapers : List α} {adMobState : AdMobState} {s : State} {indices : List ℕ}

/-- **What a frame does to the pool**: the ads that the build for `childCount` takes come first. -/
theorem buildFrame_spec (wallpapers : List α) (adMobState : AdMobState) (indices : List ℕ)
    (s : State) : ∃ mid, (shown (buildFrame wallpapers adMobState indices s).1).Sublist mid ∧
    taken wallpapers adMobState s ++ (mid ++ pool (buildFrame wallpapers adMobState indices s).2) =
      pool s ∧
    (buildFrame wallpapers adMobState indices s).2.service.given =
      s.service.given ++ taken wallpapers adMobState s ++ mid ∧
    (buildFrame wallpapers adMobState indices s).2.service.disposed = s.service.disposed := by
  obtain ⟨mid, hshown, hpool, hgiven, hdisposed⟩ :=
    buildTiles_spec wallpapers adMobState indices (counted wallpapers adMobState s)
  obtain ⟨hgiven₀, hdisposed₀⟩ := addFrom_books wallpapers.length 0 wallpapers s
  refine ⟨mid, hshown, ?_, ?_, hdisposed.trans hdisposed₀⟩
  · exact (congrArg (taken wallpapers adMobState s ++ ·) hpool).trans
      (taken_append_pool wallpapers adMobState s)
  · exact hgiven.trans (congrArg (· ++ mid) hgiven₀)

theorem buildFrame_eq_self (h : TakesNothing wallpapers s) :
    (buildFrame wallpapers adMobState indices s).2 = s := by
  have hself : counted wallpapers adMobState s = s := counted_eq_self h
  rw [buildFrame, hself]
  exact buildTiles_eq_self h

theorem accounted_iff : Accounted s (buildFrame wallpapers adMobState indices s).2
    (buildFrame wallpapers adMobState indices s).1 ↔ TakesNothing wallpapers s := by
  constructor
  · intro h
    obtain ⟨mid, hshown, -, hgiven, hdisposed⟩ := buildFrame_spec wallpapers adMobState indices s
    have hnil : taken wallpapers adMobState s = [] := by
      refine List.eq_nil_iff_forall_not_mem.mpr fun ad had => ?_
      -- the ad is counted once more than it can be shown
      have hcount := h ad
      have hle := hshown.count_le ad
      have hpos := List.count_pos_iff.mpr had
      rw [hgiven, hdisposed, List.count_append, List.count_append] at hcount
      omega
    exact taken_eq_nil_iff.mp hnil
  · intro h ad
    have hself : (buildFrame wallpapers adMobState indices s).2 = s := buildFrame_eq_self h
    rw [hself]
    omega

theorem noneLost_iff (hnodup : (pool s).Nodup) : NoneLost s
    (buildFrame wallpapers adMobState indices s).2
    (buildFrame wallpapers adMobState indices s).1 ↔ TakesNothing wallpapers s := by
  constructor
  · intro h
    obtain ⟨mid, hshown, hpool, -, hdisposed⟩ := buildFrame_spec wallpapers adMobState indices s
    have hnil : taken wallpapers adMobState s = [] := by
      refine List.eq_nil_iff_forall_not_mem.mpr fun ad had => ?_
      rw [← hpool] at hnodup
      have hdisjoint := List.disjoint_of_nodup_append hnodup had
      have hmem : ad ∈ pool s := by
        rw [← hpool]
        exact List.mem_append_left _ had
      have hgone : ad ∉ pool (buildFrame wallpapers adMobState indices s).2 := fun hleft =>
        hdisjoint (List.mem_append_right _ hleft)
      rcases h ad hmem hgone with hon | ⟨hnow, hbefore⟩
      · exact hdisjoint (List.mem_append_left _ (hshown.subset hon))
      · rw [hdisposed] at hnow
        exact hbefore hnow
    exact taken_eq_nil_iff.mp hnil
  · intro h ad had hleft
    have hself : (buildFrame wallpapers adMobState indices s).2 = s := buildFrame_eq_self h
    rw [hself] at hleft
    exact absurd had hleft

/-- **Exactly the frames that lose no ad.** In a frame every ad that is taken is on a tile or is
disposed, and building a tile of it again takes none, iff there are at most eight wallpapers or no
ad waits; for a pool without repetitions this says that no ad that has left the pool is lost. -/
theorem ads_kept_iff (wallpapers : List α) (adMobState : AdMobState) (indices : List ℕ)
    (s : State) :
    let frame := buildFrame wallpapers adMobState indices s
    (Accounted s frame.2 frame.1 ∧ RebuildsFreely wallpapers adMobState frame.2 ↔
      TakesNothing wallpapers s) ∧
    ((pool s).Nodup → (NoneLost s frame.2 frame.1 ↔ TakesNothing wallpapers s)) ∧
    (RebuildsFreely wallpapers adMobState s ↔ TakesNothing wallpapers s) := by
  intro frame
  refine ⟨⟨fun h => accounted_iff.mp h.1, fun h => ⟨accounted_iff.mpr h, ?_⟩⟩, noneLost_iff,
    rebuildsFreely_iff⟩
  have hself : frame.2 = s := buildFrame_eq_self h
  rw [hself]
  exact rebuildsFreely_iff.mpr h

def oneAd : State := ⟨{ loadedAdCount := 1 }, { loadedAds := [0], created := 1, everLoaded := [0] }⟩

theorem ads_kept_iff_oneAd : NoneLost oneAd (buildFrame (List.range 9) {} [8] oneAd).2
    (buildFrame (List.range 9) {} [8] oneAd).1 ↔ TakesNothing (List.range 9) oneAd :=
  (ads_kept_iff (List.range 9) {} [8] oneAd).2.1 (List.nodup_singleton 0)

/-- **A lost ad**: the build for `childCount` takes the only ad, and none of the ten tiles shows
it. -/
theorem ad_lost : ∃ tiles s', buildFrame (List.range 9) {} (List.range 10) oneAd = (tiles, s') ∧
    shown tiles = [] ∧ pool s' = [] ∧ s'.service.given = [0] ∧ s'.service.disposed = [] ∧
    ¬Accounted oneAd s' tiles ∧ ¬NoneLost oneAd s' tiles := by
  refine ⟨_, _, rfl, rfl, rfl, rfl, rfl, fun h => ?_, fun h => ?_⟩
  · exact absurd (h 0) (by decide)
  · rcases h 0 (List.mem_singleton_self 0) List.not_mem_nil with hon | ⟨hnow, -⟩
    · cases hon
    · cases hnow

end Frames
end PixsBliss.Pages.ExploreFrame
