import PixsBliss.Lib.Traces
import PixsBliss.Pages.WallpaperDetailPage

/-! # The runs of a download

`_downloadWallpaper` sets `_downloadComplete` behind the inner `try`, whose `catch` shows an error
of the gallery and goes on. The count is tried once the image is saved, after the service was
initialized once more.

* `passes_gotTo`: what a routine has saved and counted by the time it awaits something.
* `reported_iff`: a run completes, and counts, what it saved exactly if no gallery refuses an image
  and no initialization fails. -/

namespace PixsBliss.Pages.DownloadRuns

open PixsBliss.Lib.Async PixsBliss.Lib.Traces PixsBliss.Models
open PixsBliss.Pages.WallpaperDetailPage

abbrev PageTurn := Turn State Task Outcome

/-! ### What a routine has saved and counted -/

/-- The images the turns put in the gallery. -/
def saves (turns : List PageTurn) : ℕ := (turns.map fun u => u.after.saved - u.before.saved).sum

/-- The calls of `incrementDownloadCount` in the turns. -/
def counts (turns : List PageTurn) : ℕ :=
  (turns.map fun u => u.after.counted.length - u.before.counted.length).sum

/-- What a routine has saved and counted when it awaits a task. -/
def progress : Task → ℕ × ℕ
  | .initializingFirestore => (1, 0)
  | .counting => (1, 1)
  | _ => (0, 0)

/-- The turns got as far as the task. -/
def GotTo (turns : List PageTurn) (t : Task) : Prop := (saves turns, counts turns) = progress t

section Progress

variable {wallpaper : Wallpaper} {s s' : State} {t : Task} {o : Outcome} {ts : List Task}
  {turns : List PageTurn} {u : PageTurn}

theorem saves_concat (turns : List PageTurn) (u : PageTurn) :
    saves (turns ++ [u]) = saves turns + (u.after.saved - u.before.saved) := by
  simp [saves]

theorem counts_concat (turns : List PageTurn) (u : PageTurn) :
    counts (turns ++ [u]) = counts turns + (u.after.counted.length - u.before.counted.length) := by
  simp [counts]

theorem progress_of_early (h : Early t) : progress t = (0, 0) := by
  cases t with
  | initializingFirestore => exact absurd rfl h.1
  | counting => exact absurd rfl h.2
  | _ => rfl

theorem GotTo.of_early (h : GotTo turns t) (ht : Early t) : saves turns = 0 ∧ counts turns = 0 :=
  Prod.mk.inj (h.trans (progress_of_early ht))

/-- A turn that shows things saves and counts nothing. -/
theorem concat_of_shows (h : Shows s s') (turns : List PageTurn) (t : Task) (o : Outcome) :
    saves (turns ++ [⟨t, o, s, s'⟩]) = saves turns ∧
      counts (turns ++ [⟨t, o, s, s'⟩]) = counts turns := by
  rw [saves_concat, counts_concat, h.saved, h.counted, Nat.sub_self, Nat.sub_self]
  exact ⟨rfl, rfl⟩

theorem concat_of_saves (turns : List PageTurn) (t : Task) (o : Outcome) (s : State) :
    saves (turns ++ [⟨t, o, s, { s with saved := s.saved + 1 }⟩]) = saves turns + 1 ∧
      counts (turns ++ [⟨t, o, s, { s with saved := s.saved + 1 }⟩]) = counts turns := by
  rw [saves_concat, counts_concat]
  simp

theorem concat_of_counts (turns : List PageTurn) (t : Task) (o : Outcome) (s : State)
    (id : String) :
    saves (turns ++ [⟨t, o, s, { s with counted := s.counted ++ [id] }⟩]) = saves turns ∧
      counts (turns ++ [⟨t, o, s, { s with counted := s.counted ++ [id] }⟩]) =
        counts turns + 1 := by
  rw [saves_concat, counts_concat]
  simp

theorem early_start (a : Action) (h : t ∈ start a) : Early t := by
  cases a with
  | nothing => cases h
  | unlockWallpaper =>
    rw [List.mem_singleton.mp h]
    exact ⟨nofun, nofun⟩
  | downloadWallpaper =>
    rw [List.mem_singleton.mp h]
    exact ⟨nofun, nofun⟩

/-- A tap starts a routine, and the other signals none. -/
theorem early_call {k : Signal} (h : t ∈ ((program wallpaper).call k s).2) : Early t := by
  cases k with
  | tap =>
    have h : t ∈ (if s.mounted then tap s else (s, [])).2 := h
    split_ifs at h
    · unfold tap at h
      cases hb : ButtonAnimation.onTap s.button with
      | none =>
        rw [hb] at h
        cases h
      | some a =>
        rw [hb] at h
        exact early_start a h
    · cases h
  | _ => cases h

/-- **What a routine has saved and counted** by the time it awaits something. -/
theorem passes_gotTo (wallpaper : Wallpaper) : Passes (program wallpaper) GotTo where
  call k s t ht := (progress_of_early (early_call ht)).symm
  resume turns t o s s' ts hgot hres t' ht' := by
    unfold GotTo
    cases does_resume hres with
    | saves ht ho hs hts =>
      subst ht hs hts
      obtain ⟨h0, h1⟩ := Prod.mk.inj hgot
      obtain ⟨hsaves, hcounts⟩ := concat_of_saves turns .puttingImage o s
      rw [List.mem_singleton.mp ht', hsaves, hcounts, h0, h1]
      rfl
    | counts ht ho hs hts =>
      subst ht hs hts
      obtain ⟨h0, h1⟩ := Prod.mk.inj hgot
      obtain ⟨hsaves, hcounts⟩ := concat_of_counts turns .initializingFirestore o s wallpaper.id
      rw [List.mem_singleton.mp ht', hsaves, hcounts, h0, h1]
      rfl
    | finishes ht hs hts =>
      rw [hts] at ht'
      cases ht'
    | goesOn ht hs hts =>
      obtain ⟨hsaves, hcounts⟩ := concat_of_shows hs.toShows turns t o
      obtain ⟨h0, h1⟩ := hgot.of_early ht
      rw [hsaves, hcounts, h0, h1, progress_of_early (hts t' ht')]

theorem gotTo_initState (wallpaper : Wallpaper) :
    ∀ t ∈ (initState wallpaper).tasks, GotTo [] t := by
  intro t ht
  rw [List.mem_singleton.mp ht]
  rfl

end Progress

/-! ### The law -/

/-- The turn sets `_downloadComplete`: it is true after the turn also if it was not before. -/
def SetsComplete (wallpaper : Wallpaper) (u : PageTurn) : Prop :=
  ∃ s' ts, (program wallpaper).resume u.task u.outcome
    { u.before with page := { u.before.page with downloadComplete := false } } = some (s', ts) ∧
    s'.page.downloadComplete = true

/-- The initialization or the count fails. -/
def TrackingFails (u : PageTurn) : Prop := ¬Early u.task ∧ ∃ error, u.outcome = .threw error

/-- **A download is reported and counted as it was saved**: a turn only completes a download that
has saved its image; by the time it returns, the routine has counted what it saved, and never more;
and where the tracking fails, nothing is shown. -/
structure Reported (wallpaper : Wallpaper) (turns : List PageTurn) (u : PageTurn) (ts : List Task) :
    Prop where
  complete : SetsComplete wallpaper u → saves (turns ++ [u]) = 1
  counts_le : counts (turns ++ [u]) ≤ saves (turns ++ [u])
  counted : ts = [] → counts (turns ++ [u]) = saves (turns ++ [u])
  id : u.after.counted = u.before.counted ∨
    u.after.counted = u.before.counted ++ [wallpaper.id]
  quiet : TrackingFails u → u.after.messages = u.before.messages

/-- On a mounted page the gallery refuses no image, and after a save no initialization fails. -/
def NoneRefused (_ : List PageTurn) (u : PageTurn) (_ : List Task) : Prop :=
  (u.before.mounted = true → u.task = .puttingImage →
      ∀ message, u.outcome ≠ .galException message) ∧
    (u.task = .initializingFirestore → ∀ error, u.outcome ≠ .threw error)

section Turns

variable {wallpaper : Wallpaper} {s s' : State} {t : Task} {o : Outcome} {ts : List Task}
  {turns : List PageTurn} {u : PageTurn}

theorem downloaded_of_mounted (hm : s.mounted = true) :
    downloaded s = { s with page := { s.page with
      isDownloading := false, downloadProgress := 0, downloadComplete := true } } := by
  unfold downloaded endDownload
  rw [setState_of_mounted hm]
  exact congrArg Prod.fst (setState_of_mounted (s := { s with
    page := { s.page with downloadComplete := true } }) hm _)

theorem messages_downloaded (s : State) : (downloaded s).messages = s.messages := by
  cases hm : s.mounted with
  | true => rw [downloaded_of_mounted hm]
  | false => exact (shows_downloaded s).messages_eq hm

theorem complete_galleryFailed (message : String) (hm : s.mounted = true) :
    (galleryFailed message s).page.downloadComplete = true := by
  unfold galleryFailed
  rw [showMessage_of_mounted hm]
  exact congrArg (fun s => s.page.downloadComplete)
    (downloaded_of_mounted (s := { s with messages := s.messages ++ [.error message] }) hm)

/-- A turn that sets `_downloadComplete` is a last one of a download. -/
theorem finishes_of_setsComplete (h : SetsComplete wallpaper u) :
    Finishes u.task u.outcome ∧ u.before.mounted = true := by
  obtain ⟨s', ts, hres, hc⟩ := h
  cases does_resume hres with
  | saves _ _ hs _ =>
    rw [hs] at hc
    cases hc
  | counts _ _ hs _ =>
    rw [hs] at hc
    cases hc
  | finishes ht hs _ =>
    refine ⟨ht, ?_⟩
    by_contra hm
    rw [hs.page_eq (Bool.eq_false_iff.mpr hm)] at hc
    cases hc
  | goesOn _ hs _ => cases hs.complete hc

/-- A turn that shows things keeps to the law where what was saved is counted, nothing is completed
without a save, and the tracking does not fail or nothing is shown. -/
theorem reported_of_shows (hs : Shows s s') (hn : saves turns = counts turns)
    (hc : SetsComplete wallpaper ⟨t, o, s, s'⟩ → saves turns = 1)
    (hq : TrackingFails ⟨t, o, s, s'⟩ → s'.messages = s.messages) :
    Reported wallpaper turns ⟨t, o, s, s'⟩ ts := by
  obtain ⟨hsaves, hcounts⟩ := concat_of_shows hs turns t o
  refine ⟨fun h => hsaves.trans (hc h), ?_, fun _ => ?_, Or.inl hs.counted, hq⟩
  · rw [hsaves, hcounts, hn]
  · rw [hsaves, hcounts, hn]

/-- The last turn of a download, where nothing fails: it was counted, or the page is gone. -/
theorem reported_of_finishes (hgot : GotTo turns t) (hf : Finishes t o) (hs : Shows s s')
    (hres : (program wallpaper).resume t o s = some (s', ts))
    (h : NoneRefused turns ⟨t, o, s, s'⟩ ts) : Reported wallpaper turns ⟨t, o, s, s'⟩ ts := by
  rcases hf with ⟨rfl, message, rfl⟩ | ⟨rfl, error, rfl⟩ | rfl
  · obtain ⟨hsaves, hcounts⟩ := Prod.mk.inj hgot
    refine reported_of_shows hs (hsaves.trans hcounts.symm) (fun hc => ?_) fun hq => ?_
    · exact absurd rfl (h.1 (finishes_of_setsComplete hc).2 rfl message)
    · exact absurd ⟨nofun, nofun⟩ hq.1
  · exact absurd rfl (h.2 rfl error)
  · obtain ⟨hsaves, hcounts⟩ := Prod.mk.inj hgot
    refine reported_of_shows hs (hsaves.trans hcounts.symm) (fun _ => hsaves) fun hq => ?_
    obtain ⟨-, error, rfl⟩ := hq
    obtain ⟨rfl, -⟩ := Prod.mk.inj (Option.some.inj hres)
    exact messages_downloaded s

/-- The turns in which nothing fails. -/
theorem reported_of_noneRefused (hgot : GotTo turns t)
    (hres : (program wallpaper).resume t o s = some (s', ts))
    (h : NoneRefused turns ⟨t, o, s, s'⟩ ts) : Reported wallpaper turns ⟨t, o, s, s'⟩ ts := by
  cases does_resume hres with
  | saves ht ho hs hts =>
    subst ht ho hs hts
    obtain ⟨hsaves, hcounts⟩ := concat_of_saves turns .puttingImage .done s
    obtain ⟨h0, h1⟩ := Prod.mk.inj hgot
    refine ⟨fun _ => ?_, ?_, nofun, Or.inl rfl, fun _ => rfl⟩
    · rw [hsaves, h0]
    · rw [hsaves, hcounts, h0, h1]
      exact Nat.zero_le _
  | counts ht ho hs hts =>
    subst ht ho hs hts
    obtain ⟨hsaves, hcounts⟩ := concat_of_counts turns .initializingFirestore .done s wallpaper.id
    obtain ⟨h0, h1⟩ := Prod.mk.inj hgot
    refine ⟨fun _ => hsaves.trans h0, ?_, nofun, Or.inr rfl, fun _ => rfl⟩
    rw [hsaves, hcounts, h0, h1]
  | finishes hf hs _ => exact reported_of_finishes hgot hf hs hres h
  | goesOn ht hs _ =>
    obtain ⟨h0, h1⟩ := hgot.of_early ht
    refine reported_of_shows hs.toShows (h0.trans h1.symm) (fun hc => ?_) fun hq => absurd ht hq.1
    obtain ⟨hf, hm⟩ := finishes_of_setsComplete hc
    rcases hf with ⟨rfl, message, rfl⟩ | ⟨rfl, -⟩ | rfl
    · exact absurd rfl (h.1 hm rfl message)
    · exact absurd rfl ht.1
    · exact absurd rfl ht.2

/-- **One turn.** -/
theorem reported_iff_noneRefused (hgot : GotTo turns t)
    (hres : (program wallpaper).resume t o s = some (s', ts)) :
    Reported wallpaper turns ⟨t, o, s, s'⟩ ts ↔ NoneRefused turns ⟨t, o, s, s'⟩ ts := by
  refine ⟨fun h => ⟨?_, ?_⟩, reported_of_noneRefused hgot hres⟩
  · rintro hm rfl message rfl
    -- the download is taken to be complete, and nothing was saved
    obtain ⟨rfl, rfl⟩ := Prod.mk.inj (Option.some.inj hres)
    have hsets : SetsComplete wallpaper
        ⟨.puttingImage, .galException message, s, galleryFailed message s⟩ :=
      ⟨_, _, rfl, complete_galleryFailed message hm⟩
    have hone := h.complete hsets
    rw [(concat_of_shows (shows_galleryFailed message s) ..).1, (Prod.mk.inj hgot).1] at hone
    cases hone
  · rintro rfl error rfl
    -- the image was saved, and is not counted
    obtain ⟨rfl, rfl⟩ := Prod.mk.inj (Option.some.inj hres)
    have hequal := h.counted rfl
    obtain ⟨hsaves, hcounts⟩ := concat_of_shows (shows_downloaded s) turns .initializingFirestore
      (.threw error)
    rw [hsaves, hcounts, (Prod.mk.inj hgot).1, (Prod.mk.inj hgot).2] at hequal
    cases hequal

end Turns

/-! ### Runs -/

/-- The world of the page whose routines carry their turns. -/
abbrev PageWorld := World State (List PageTurn × Task)

/-- A call saves, counts and completes nothing. -/
def Idle (w : PageWorld) (e : Event Signal Outcome) (w' : PageWorld) : Prop :=
  ∀ k, e = .call k → w'.shared.saved = w.shared.saved ∧ w'.shared.counted = w.shared.counted ∧
    (w'.shared.page.downloadComplete = true → w.shared.page.downloadComplete = true)

/-- **The law** of a step: a turn reports and counts what was saved, and a call does neither. -/
def ReportsSaved (wallpaper : Wallpaper) (w : PageWorld) (e : Event Signal Outcome)
    (w' : PageWorld) : Prop :=
  EachTurn (program wallpaper) (Reported wallpaper) w e w' ∧ Idle w e w'

variable {wallpaper : Wallpaper} {w w' : PageWorld} {e : Event Signal Outcome}

theorem idle_step (hs : (traced (program wallpaper)).step w e = some w') : Idle w e w' := by
  rintro k rfl
  obtain rfl := Option.some.inj hs
  show ((program wallpaper).call k w.shared).1.saved = _ ∧
    ((program wallpaper).call k w.shared).1.counted = _ ∧
    (((program wallpaper).call k w.shared).1.page.downloadComplete = true → _)
  rcases call_cases wallpaper k w.shared with ⟨m, b, heq⟩ | ⟨wallpaperId, -, heq⟩
  · rw [heq]
    exact ⟨rfl, rfl, id⟩
  · have hkeeps : Keeps w.shared (onUnlockEvent wallpaper wallpaperId w.shared) :=
      keeps_onUnlockEvent wallpaperId w.shared
    rw [heq]
    exact ⟨hkeeps.saved, hkeeps.counted, hkeeps.complete⟩

/-- **Downloads are reported and counted exactly as they were saved**, in a run, exactly if no
gallery refuses an image on a mounted page and no initialization fails after a save. -/
theorem reported_iff (wallpaper : Wallpaper) (es : List (Event Signal Outcome)) :
    (traced (program wallpaper)).Each (ReportsSaved wallpaper) (start (initState wallpaper)) es ↔
      (traced (program wallpaper)).Each (EachTurn (program wallpaper) NoneRefused)
        (start (initState wallpaper)) es := by
  have hidle : (traced (program wallpaper)).Each Idle (start (initState wallpaper)) es :=
    Program.each_of_inv (I := fun _ => True) (fun _ _ _ _ hs => ⟨trivial, idle_step hs⟩) trivial
  rw [← each_turn_iff (passes_gotTo wallpaper) (gotTo_initState wallpaper)
    fun _ _ _ _ _ _ hgot hres => reported_iff_noneRefused hgot hres]
  exact Program.each_and.trans (and_iff_left hidle)

/-- The image is fetched and written, and the gallery refuses it. -/
def refusedSave : List (Event Signal Outcome) :=
  [.resume 0 .done, .resume 0 (.unlockStatus false), .call .rebuild, .call .tap,
    .resume 0 (.permission true), .resume 0 .done, .resume 0 .done, .resume 0 .done,
    .resume 0 (.galException "The disk is full.")]

/-- The page takes the download to be complete, and nothing was saved. -/
theorem complete_after_refusedSave :
    (∃ w, (program freeWallpaper).run (initState freeWallpaper) refusedSave = some w ∧
      w.shared.page.downloadComplete = true ∧ w.shared.saved = 0) ∧
    ¬(traced (program freeWallpaper)).Each (ReportsSaved freeWallpaper)
      (start (initState freeWallpaper)) refusedSave := by
  refine ⟨⟨_, rfl, rfl, rfl⟩, fun h => ?_⟩
  have hlast := Program.each_iff.mp h (refusedSave.take 8) (.resume 0 (.galException
    "The disk is full.")) [] _ _ rfl rfl rfl
  have hone := (hlast.1 0 _ _ _ _ _ rfl rfl rfl).complete ⟨_, _, rfl, rfl⟩
  cases hone

end PixsBliss.Pages.DownloadRuns
