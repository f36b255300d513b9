import Mathlib.Data.List.Nodup
import Mathlib.Tactic

/-! # The ad service

`admob_service.dart` keeps the banners that were loaded, `_loadedAds`, and those that are being
loaded, `_loadingAds`. A banner is a number, in the order of their creation. The SDK calls
`onAdLoaded` and `onAdFailedToLoad` of a banner at any time after its creation, `onAdLoaded` again
whenever the banner refreshes itself.

* `GivenOnce`: a banner is given out at most once, and is in the pool at most once and only while
  it may be given out.
* `Owned`: the invariant behind it.
* `givenOnce_onAdLoaded_iff`, `givenOnce_onAdFailedToLoad_iff`, `givenOnce_giveLoaded_iff`: exactly
  when a callback, or the end of the wait of `loadBannerAd`, keeps it. -/

namespace PixsBliss.Services.AdMobService

/-- The pools. As ghosts the number of banners created, those `onAdLoaded` was called for, those
that were given to a caller, in this order, and those that were disposed. -/
structure Pools where
  isInitialized : Bool := false
  loadedAds : List ℕ := []
  loadingAds : List ℕ := []
  created : ℕ := 0
  everLoaded : List ℕ := []
  given : List ℕ := []
  disposed : List ℕ := []

/-- `loadBannerAd`, up to `ad.load()`: the new banner is `s.created`. -/
def createBannerAd (s : Pools) : Pools :=
  { s with loadingAds := s.loadingAds ++ [s.created], created := s.created + 1 }

def onAdLoaded (ad : ℕ) (s : Pools) : Pools :=
  { s with
    loadedAds := s.loadedAds ++ [ad]
    loadingAds := s.loadingAds.erase ad
    everLoaded := s.everLoaded ++ [ad] }

def onAdFailedToLoad (ad : ℕ) (s : Pools) : Pools :=
  { s with loadingAds := s.loadingAds.erase ad, disposed := s.disposed ++ [ad] }

/-- The end of `loadBannerAd`: the banner, if it is in the pool. -/
def loadedAd (ad : ℕ) (s : Pools) : Option ℕ := if ad ∈ s.loadedAds then some ad else none

/-- `getLoadedAd`: the first banner leaves the pool. -/
def getLoadedAd (s : Pools) : Option ℕ × Pools :=
  match s.loadedAds with
  | [] => (none, s)
  | ad :: ads => (some ad, { s with loadedAds := ads })

/-- A result is given to the caller. -/
def give (ad : Option ℕ) (s : Pools) : Pools :=
  { s with given := s.given ++ ad.toList }

/-! ### Ownership -/

/-- **A banner is given out at most once**, is in `_loadedAds` at most once, not after it was given
out or disposed, and not while it is in `_loadingAds`. -/
structure GivenOnce (s : Pools) : Prop where
  given : s.given.Nodup
  loaded : s.loadedAds.Nodup
  not_given : ∀ ad ∈ s.loadedAds, ad ∉ s.given
  not_disposed : ∀ ad ∈ s.loadedAds, ad ∉ s.disposed
  not_loading : ∀ ad ∈ s.loadedAds, ad ∉ s.loadingAds

/-- A banner that was loaded is in the pool or was given out, and conversely; a banner is added to
`_loadingAds` once. -/
structure Owned (s : Pools) : Prop where
  givenOnce : GivenOnce s
  everLoaded : ∀ ad, ad ∈ s.everLoaded ↔ ad ∈ s.loadedAds ∨ ad ∈ s.given
  loading : s.loadingAds.Nodup
  known : ∀ ad, ad ∈ s.everLoaded ∨ ad ∈ s.loadingAds ∨ ad ∈ s.disposed → ad < s.created

variable {s : Pools} {ad : ℕ}

theorem owned_new : Owned {} :=
  ⟨⟨by simp, by simp, by simp, by simp, by simp⟩, by simp, by simp, by simp⟩

theorem owned_createBannerAd (h : Owned s) : Owned (createBannerAd s) := by
  have hnew : ∀ ad, ad ∈ s.everLoaded ∨ ad ∈ s.loadingAds ∨ ad ∈ s.disposed → ad ≠ s.created :=
    fun ad had => (h.known ad had).ne
  refine ⟨⟨h.givenOnce.given, h.givenOnce.loaded, h.givenOnce.not_given,
    h.givenOnce.not_disposed, fun ad had => ?_⟩, h.everLoaded, ?_, fun ad had => ?_⟩
  · have hne := hnew ad (Or.inl ((h.everLoaded ad).mpr (Or.inl had)))
    simp only [createBannerAd, List.mem_append, List.mem_singleton, not_or]
    exact ⟨h.givenOnce.not_loading ad had, hne⟩
  · simp only [createBannerAd]
    rw [List.nodup_append]
    refine ⟨h.loading, by simp, fun x hx y hy => ?_⟩
    rw [List.mem_singleton.mp hy]
    exact hnew x (Or.inr (Or.inl hx))
  · simp only [createBannerAd, List.mem_append, List.mem_singleton] at had ⊢
    rcases had with had | (had | rfl) | had
    · exact (h.known ad (Or.inl had)).trans (Nat.lt_succ_self _)
    · exact (h.known ad (Or.inr (Or.inl had))).trans (Nat.lt_succ_self _)
    · exact Nat.lt_succ_self _
    · exact (h.known ad (Or.inr (Or.inr had))).trans (Nat.lt_succ_self _)

/-- **The first banner of the pool is given out for the first time.** -/
theorem owned_getLoadedAd (h : Owned s) : Owned (give (getLoadedAd s).1 (getLoadedAd s).2) := by
  unfold getLoadedAd
  cases hl : s.loadedAds with
  | nil =>
    have hs : give none s = s := by simp [give]
    rw [hs]
    exact h
  | cons ad ads =>
    have hmem : ∀ x ∈ ads, x ∈ s.loadedAds := fun x hx => by
      rw [hl]
      exact List.mem_cons_of_mem _ hx
    have had : ad ∈ s.loadedAds := by rw [hl]; exact List.mem_cons_self
    have hnodup := h.givenOnce.loaded
    rw [hl, List.nodup_cons] at hnodup
    have hgiven : ∀ x, x ∈ s.given ++ [ad] ↔ x ∈ s.given ∨ x = ad := by simp
    refine ⟨⟨?_, hnodup.2, fun x hx => ?_, fun x hx => h.givenOnce.not_disposed x (hmem x hx),
      fun x hx => h.givenOnce.not_loading x (hmem x hx)⟩, fun x => ?_, h.loading, h.known⟩
    · show (s.given ++ [ad]).Nodup
      rw [List.nodup_append]
      refine ⟨h.givenOnce.given, by simp, fun x hx y hy => ?_⟩
      rw [List.mem_singleton.mp hy]
      exact fun he => h.givenOnce.not_given ad had (he ▸ hx)
    · show x ∉ s.given ++ [ad]
      rw [hgiven, not_or]
      exact ⟨h.givenOnce.not_given x (hmem x hx), fun he => hnodup.1 (he ▸ hx)⟩
    · show x ∈ s.everLoaded ↔ x ∈ ads ∨ x ∈ s.given ++ [ad]
      rw [h.everLoaded, hl, List.mem_cons, hgiven]
      tauto

/-! ### Callbacks -/

/-- **The first `onAdLoaded` of a banner that was not disposed**, and no other, keeps the law. -/
theorem givenOnce_onAdLoaded_iff (h : Owned s) :
    GivenOnce (onAdLoaded ad s) ↔ ad ∉ s.everLoaded ∧ ad ∉ s.disposed := by
  have hmem : ∀ x, x ∈ s.loadedAds ++ [ad] ↔ x ∈ s.loadedAds ∨ x = ad := by simp
  have hself : ad ∈ s.loadedAds ++ [ad] := by simp
  constructor
  · intro hg
    refine ⟨fun hm => ?_, hg.not_disposed ad hself⟩
    rcases (h.everLoaded ad).mp hm with hl | hgiven
    · have hnodup : (s.loadedAds ++ [ad]).Nodup := hg.loaded
      rw [List.nodup_append] at hnodup
      exact hnodup.2.2 ad hl ad (List.mem_singleton_self ad) rfl
    · exact hg.not_given ad hself hgiven
  · rintro ⟨hnew, hdisp⟩
    rw [h.everLoaded, not_or] at hnew
    refine ⟨h.givenOnce.given, ?_, fun x hx => ?_, fun x hx => ?_, fun x hx => ?_⟩
    · show (s.loadedAds ++ [ad]).Nodup
      rw [List.nodup_append]
      refine ⟨h.givenOnce.loaded, by simp, fun x hx y hy => ?_⟩
      rw [List.mem_singleton.mp hy]
      exact fun he => hnew.1 (he ▸ hx)
    · rcases (hmem x).mp hx with hx | rfl
      · exact h.givenOnce.not_given x hx
      · exact hnew.2
    · rcases (hmem x).mp hx with hx | rfl
      · exact h.givenOnce.not_disposed x hx
      · exact hdisp
    · rcases (hmem x).mp hx with hx | rfl
      · exact fun hm => h.givenOnce.not_loading x hx (List.mem_of_mem_erase hm)
      · exact h.loading.not_mem_erase

theorem owned_onAdLoaded (h : Owned s) (had : ad < s.created) (hg : GivenOnce (onAdLoaded ad s)) :
    Owned (onAdLoaded ad s) := by
  refine ⟨hg, fun x => ?_, h.loading.erase ad, fun x hx => ?_⟩
  · show x ∈ s.everLoaded ++ [ad] ↔ x ∈ s.loadedAds ++ [ad] ∨ x ∈ s.given
    rw [List.mem_append, List.mem_append, h.everLoaded]
    tauto
  · have hx : x ∈ s.everLoaded ++ [ad] ∨ x ∈ s.loadingAds.erase ad ∨ x ∈ s.disposed := hx
    rw [List.mem_append, List.mem_singleton] at hx
    rcases hx with (hx | rfl) | hx | hx
    · exact h.known x (Or.inl hx)
    · exact had
    · exact h.known x (Or.inr (Or.inl (List.mem_of_mem_erase hx)))
    · exact h.known x (Or.inr (Or.inr hx))

/-- **A failure of a banner that is not in the pool**, and no other, keeps the law. -/
theorem givenOnce_onAdFailedToLoad_iff (h : Owned s) :
    GivenOnce (onAdFailedToLoad ad s) ↔ ad ∉ s.loadedAds := by
  have hmem : ∀ x, x ∈ s.disposed ++ [ad] ↔ x ∈ s.disposed ∨ x = ad := by simp
  constructor
  · intro hg hm
    exact hg.not_disposed ad hm ((hmem ad).mpr (Or.inr rfl))
  · intro hn
    refine ⟨h.givenOnce.given, h.givenOnce.loaded, h.givenOnce.not_given, fun x hx => ?_,
      fun x hx hm => h.givenOnce.not_loading x hx (List.mem_of_mem_erase hm)⟩
    show x ∉ s.disposed ++ [ad]
    rw [hmem, not_or]
    exact ⟨h.givenOnce.not_disposed x hx, fun he => hn (he ▸ hx)⟩

theorem owned_onAdFailedToLoad (h : Owned s) (had : ad < s.created)
    (hg : GivenOnce (onAdFailedToLoad ad s)) : Owned (onAdFailedToLoad ad s) := by
  refine ⟨hg, h.everLoaded, h.loading.erase ad, fun x hx => ?_⟩
  have hx : x ∈ s.everLoaded ∨ x ∈ s.loadingAds.erase ad ∨ x ∈ s.disposed ++ [ad] := hx
  rw [List.mem_append, List.mem_singleton] at hx
  rcases hx with hx | hx | hx | rfl
  · exact h.known x (Or.inl hx)
  · exact h.known x (Or.inr (Or.inl (List.mem_of_mem_erase hx)))
  · exact h.known x (Or.inr (Or.inr hx))
  · exact had

/-- **`loadBannerAd` gives out a banner that stays in the pool**, unless it is not there. -/
theorem givenOnce_giveLoaded_iff (h : Owned s) :
    GivenOnce (give (loadedAd ad s) s) ↔ ad ∉ s.loadedAds := by
  unfold loadedAd
  constructor
  · intro hg hm
    rw [if_pos hm] at hg
    exact hg.not_given ad hm (List.mem_append_right _ (List.mem_singleton_self ad))
  · intro hn
    have hs : give none s = s := by simp [give]
    rw [if_neg hn, hs]
    exact h.givenOnce

theorem owned_giveLoaded (h : Owned s) (hg : GivenOnce (give (loadedAd ad s) s)) :
    Owned (give (loadedAd ad s) s) := by
  have hn := (givenOnce_giveLoaded_iff h).mp hg
  have hs : give (loadedAd ad s) s = s := by simp [give, loadedAd, hn]
  rw [hs]
  exact h

end PixsBliss.Services.AdMobService
