import PixsBliss.Lib.Traces
import PixsBliss.Pages.DownloadRuns

/-! # The detail page after it is left

The user leaves the page while its routines go on. The unlock check and the listener of the unlock
stream ask whether the page is mounted before they show something; the download, the payment and
the message after it do not, and on a disposed page the call throws.

* `late_eq_iff`: a turn shows something on a disposed page exactly if it reports.
* `undisturbed_iff`: so a run does nothing on a disposed page, and saves and counts each download
  that no step fails, exactly if no turn reports on a disposed page. -/

namespace PixsBliss.Pages.DisposedPage

open PixsBliss.Lib.Async PixsBliss.Lib.Traces PixsBliss.Models
open PixsBliss.Pages.WallpaperDetailPage PixsBliss.Pages.DownloadRuns

/-! ### The law and its condition -/

/-- The awaits of a download. -/
def IsDownload : Task → Prop
  | .requestingPermission | .fetching | .gettingDirectory | .writing | .puttingImage
  | .initializingFirestore | .counting => True
  | _ => False

/-- What is awaited does not fail. -/
def Succeeds : Outcome → Prop
  | .permission isGranted => isGranted = true
  | .threw _ | .galException _ => False
  | _ => True

/-- A download that no step fails has saved and counted the image when it returns. -/
def SavesAndCounts (turns : List PageTurn) (u : PageTurn) (ts : List Task) : Prop :=
  IsDownload u.task → (∀ v ∈ turns ++ [u], Succeeds v.outcome) → ts = [] →
    saves (turns ++ [u]) = 1 ∧ counts (turns ++ [u]) = 1

/-- **The law** of a step: no `setState` and no message after the disposal, and no download is
aborted. -/
def Undisturbed (wallpaper : Wallpaper) (w : PageWorld) (e : Event Signal Outcome)
    (w' : PageWorld) : Prop :=
  w'.shared.late = w.shared.late ∧ EachTurn (program wallpaper) SavesAndCounts w e w'

/-- **What is shown without asking** whether the page is mounted: the permission, a known progress,
every error and the end of a download; an error and the answer of a payment; and after a payment
that the wallpaper is unlocked. -/
def Reports (p : Page) : Task → Outcome → Prop
  | .checking .paymentSuccess, .unlockStatus _ => p.isUnlocked = true
  | .requestingPermission, .permission _ => True
  | .fetching, .received _ total => total ≠ -1
  | .fetching, .threw _ | .gettingDirectory, .threw _ | .writing, .threw _ => True
  | .puttingImage, .threw _ | .puttingImage, .galException _ => True
  | .initializingFirestore, .threw _ | .counting, .done | .counting, .threw _ => True
  | .initializingPremium, .threw _ | .unlocking, .payment _ => True
  | _, _ => False

/-- No turn reports on a disposed page. -/
def NoneLeft (_ : List PageTurn) (u : PageTurn) (_ : List Task) : Prop :=
  u.before.mounted = false → ¬Reports u.before.page u.task u.outcome

variable {wallpaper : Wallpaper} {s s' : State} {t : Task} {o : Outcome} {ts : List Task}
  {turns : List PageTurn}

/-! ### A report on a disposed page -/

@[simp] theorem andThen_throw {β : Type} (s : State) (next throw : State → β) :
    andThen (s, false) next throw = throw s := rfl

theorem late_lt_showMessage (hm : s.mounted = false) (m : Message) :
    s.late < (showMessage m s).1.late := by
  rw [showMessage_of_disposed hm]
  exact Nat.lt_succ_self _

theorem late_lt_downloadFailed (hm : s.mounted = false) (error : String) :
    s.late < (downloadFailed error s).late :=
  (late_lt_showMessage hm _).trans_le (keeps_endDownload _).late_le

theorem late_lt_downloaded (hm : s.mounted = false) : s.late < (downloaded s).late := by
  unfold downloaded
  rw [setState_of_disposed hm, andThen_throw]
  exact (Nat.lt_succ_self s.late).trans_le
    (keeps_downloadFailed disposedError { s with late := s.late + 1 }).late_le

theorem late_lt_galleryFailed (hm : s.mounted = false) (message : String) :
    s.late < (galleryFailed message s).late := by
  unfold galleryFailed
  rw [showMessage_of_disposed hm, andThen_throw]
  exact (Nat.lt_succ_self s.late).trans_le
    (keeps_downloadFailed disposedError { s with late := s.late + 1 }).late_le

theorem late_lt_afterPermission (hm : s.mounted = false) (isGranted : Bool) :
    s.late < (afterPermission isGranted s).1.late := by
  unfold afterPermission
  cases isGranted with
  | true =>
    rw [if_pos rfl, setState_of_disposed hm, andThen_throw]
    exact Nat.lt_succ_self _
  | false => exact late_lt_showMessage hm _

theorem late_lt_onReceiveProgress (hm : s.mounted = false) (received : ℤ) {total : ℤ}
    (h : total ≠ -1) : s.late < (onReceiveProgress received total s).late := by
  unfold onReceiveProgress
  rw [if_neg h, setState_of_disposed hm]
  exact Nat.lt_succ_self _

theorem late_lt_afterPayment (hm : s.mounted = false) (initiated : Bool) :
    s.late < (afterPayment initiated s).1.late := by
  unfold afterPayment
  cases initiated with
  | true =>
    rw [if_pos rfl, showMessage_of_disposed hm, andThen_throw]
    exact (Nat.lt_succ_self s.late).trans_le
      (keeps_paymentFailed disposedError { s with late := s.late + 1 }).late_le
  | false =>
    rw [if_neg Bool.false_ne_true, showMessage_of_disposed hm, andThen_throw]
    exact (Nat.lt_succ_self s.late).trans_le
      (keeps_paymentFailed disposedError { s with late := s.late + 1 }).late_le

/-- The unlock check asks first. -/
theorem checked_of_disposed (hm : s.mounted = false) (isUnlocked : Bool) :
    checked isUnlocked s = s := if_neg (by simp [hm])

/-- What a turn shows on a disposed page. -/
def ShowsLate (s s' : State) (t : Task) (o : Outcome) : Prop :=
  (Reports s.page t o ∧ s.late < s'.late) ∨ (¬Reports s.page t o ∧ s'.late = s.late)

theorem showsLate_of_lt {s₁ : State} {ts₁ : List Task} (h : some (s₁, ts₁) = some (s', ts))
    (hr : Reports s.page t o) (hlt : s.late < s₁.late) : ShowsLate s s' t o := by
  obtain ⟨rfl, -⟩ := Prod.mk.inj (Option.some.inj h)
  exact Or.inl ⟨hr, hlt⟩

theorem showsLate_of_eq {s₁ : State} {ts₁ : List Task} (h : some (s₁, ts₁) = some (s', ts))
    (hr : ¬Reports s.page t o) (heq : s₁.late = s.late) : ShowsLate s s' t o := by
  obtain ⟨rfl, -⟩ := Prod.mk.inj (Option.some.inj h)
  exact Or.inr ⟨hr, heq⟩

/-- The unlock check, and the message after a payment. -/
theorem showsLate_checking (hm : s.mounted = false) {caller : Caller} {isUnlocked : Bool}
    (h : some (announce caller (checked isUnlocked s), []) = some (s', ts)) :
    ShowsLate s s' (.checking caller) (.unlockStatus isUnlocked) := by
  rw [checked_of_disposed hm] at h
  cases caller with
  | initState => exact showsLate_of_eq h id rfl
  | paymentSuccess =>
    by_cases hu : s.page.isUnlocked = true
    · refine showsLate_of_lt h hu ?_
      show s.late < (if s.page.isUnlocked then _ else s).late
      rw [if_pos hu]
      exact late_lt_showMessage hm _
    · refine showsLate_of_eq h hu ?_
      show (if s.page.isUnlocked then _ else s).late = s.late
      rw [if_neg hu]

/-- **One turn on a disposed page**: something is shown exactly if the turn reports. -/
theorem showsLate_resume (hm : s.mounted = false)
    (h : (program wallpaper).resume t o s = some (s', ts)) : ShowsLate s s' t o := by
  cases t with
  | initializing caller =>
    cases o with
    | done => exact showsLate_of_eq h id rfl
    | threw error => exact showsLate_of_eq h id rfl
    | _ => cases h
  | checking caller =>
    cases o with
    | unlockStatus isUnlocked => exact showsLate_checking hm h
    | threw error => cases caller <;> exact showsLate_of_eq h id rfl
    | _ => cases h
  | requestingPermission =>
    cases o with
    | permission isGranted =>
      exact showsLate_of_lt h trivial (late_lt_afterPermission hm isGranted)
    | threw error => exact showsLate_of_eq h id rfl
    | _ => cases h
  | fetching =>
    cases o with
    | received received total =>
      by_cases htotal : total = -1
      · exact showsLate_of_eq h (fun hr => hr htotal) (congrArg State.late (if_pos htotal))
      · exact showsLate_of_lt h htotal (late_lt_onReceiveProgress hm received htotal)
    | done => exact showsLate_of_eq h id rfl
    | threw error => exact showsLate_of_lt h trivial (late_lt_downloadFailed hm error)
    | _ => cases h
  | gettingDirectory =>
    cases o with
    | done => exact showsLate_of_eq h id rfl
    | threw error => exact showsLate_of_lt h trivial (late_lt_downloadFailed hm error)
    | _ => cases h
  | writing =>
    cases o with
    | done => exact showsLate_of_eq h id rfl
    | threw error => exact showsLate_of_lt h trivial (late_lt_downloadFailed hm error)
    | _ => cases h
  | puttingImage =>
    cases o with
    | done => exact showsLate_of_eq h id rfl
    | galException message => exact showsLate_of_lt h trivial (late_lt_galleryFailed hm message)
    | threw error => exact showsLate_of_lt h trivial (late_lt_downloadFailed hm error)
    | _ => cases h
  | initializingFirestore =>
    cases o with
    | done => exact showsLate_of_eq h id rfl
    | threw error => exact showsLate_of_lt h trivial (late_lt_downloaded hm)
    | _ => cases h
  | counting =>
    cases o with
    | done => exact showsLate_of_lt h trivial (late_lt_downloaded hm)
    | threw error => exact showsLate_of_lt h trivial (late_lt_downloaded hm)
    | _ => cases h
  | initializingPremium =>
    cases o with
    | done => exact showsLate_of_eq h id rfl
    | threw error => exact showsLate_of_lt h trivial (late_lt_showMessage hm _)
    | _ => cases h
  | unlocking =>
    cases o with
    | payment initiated => exact showsLate_of_lt h trivial (late_lt_afterPayment hm initiated)
    | _ => cases h
  | delayed =>
    cases o with
    | done => exact showsLate_of_eq h id rfl
    | _ => cases h

/-- A turn on a mounted page is not late. -/
theorem late_of_mounted (hm : s.mounted = true)
    (h : (program wallpaper).resume t o s = some (s', ts)) : s'.late = s.late := by
  cases does_resume h with
  | saves _ _ hs _ => rw [hs]
  | counts _ _ hs _ => rw [hs]
  | finishes _ hs _ => exact hs.late_eq hm
  | goesOn _ hs _ => exact hs.late_eq hm

/-- **A turn is not late** exactly if it reports nothing on a disposed page. -/
theorem late_eq_iff (h : (program wallpaper).resume t o s = some (s', ts)) :
    s'.late = s.late ↔ (s.mounted = false → ¬Reports s.page t o) := by
  cases hm : s.mounted with
  | true => exact iff_of_true (late_of_mounted hm h) nofun
  | false =>
    rcases showsLate_resume hm h with ⟨hr, hlt⟩ | ⟨hr, heq⟩
    · exact iff_of_false (by omega) fun hn => hn rfl hr
    · exact iff_of_true heq fun _ => hr

/-- No call is late: the listener of the unlock stream asks first. -/
theorem late_call (wallpaper : Wallpaper) (k : Signal) (s : State) :
    ((program wallpaper).call k s).1.late = s.late := by
  rcases call_cases wallpaper k s with ⟨m, b, heq⟩ | ⟨wallpaperId, -, heq⟩
  · rw [heq]
  · rw [heq]
    by_cases hm : s.mounted = true
    · exact (keeps_onUnlockEvent wallpaperId s).late_eq hm
    · exact congrArg State.late (if_neg fun h => hm h.2)

/-! ### A download goes on -/

/-- A download that no step fails goes on, unless the permission comes too late, until its count
ends. -/
theorem returns_of_succeeds (hd : IsDownload t) (ho : Succeeds o)
    (hn : s.mounted = false → ¬Reports s.page t o)
    (h : (program wallpaper).resume t o s = some (s', ts)) : ts ≠ [] ∨ t = .counting := by
  cases t with
  | requestingPermission =>
    left
    cases o with
    | permission isGranted =>
      obtain rfl : isGranted = true := ho
      cases hm : s.mounted with
      | true =>
        have h : afterPermission true s = (s', ts) := Option.some.inj h
        unfold afterPermission at h
        rw [if_pos rfl, setState_of_mounted hm] at h
        obtain ⟨-, rfl⟩ := Prod.mk.inj h
        exact List.cons_ne_nil _ _
      | false => exact absurd trivial (hn hm)
    | threw error => exact absurd ho id
    | _ => cases h
  | counting => exact Or.inr rfl
  | fetching =>
    left
    cases o with
    | received received total =>
      obtain ⟨-, rfl⟩ := Prod.mk.inj (Option.some.inj h)
      exact List.cons_ne_nil _ _
    | done =>
      obtain ⟨-, rfl⟩ := Prod.mk.inj (Option.some.inj h)
      exact List.cons_ne_nil _ _
    | threw error => exact absurd ho id
    | _ => cases h
  | gettingDirectory | writing | puttingImage | initializingFirestore =>
    left
    cases o with
    | done =>
      obtain ⟨-, rfl⟩ := Prod.mk.inj (Option.some.inj h)
      exact List.cons_ne_nil _ _
    | threw error => exact absurd ho id
    | galException message => exact absurd ho id
    | _ => cases h
  | _ => exact absurd hd id

/-- **A download that is not disturbed** saves and counts. -/
theorem savesAndCounts_of_noneLeft (hgot : GotTo turns t)
    (h : (program wallpaper).resume t o s = some (s', ts))
    (hn : NoneLeft turns ⟨t, o, s, s'⟩ ts) : SavesAndCounts turns ⟨t, o, s, s'⟩ ts := by
  intro hd ho hts
  have hlast : Succeeds o := ho ⟨t, o, s, s'⟩ (List.mem_concat_self)
  rcases returns_of_succeeds hd hlast hn h with hne | rfl
  · exact absurd hts hne
  · cases does_resume h with
    | finishes _ hs _ =>
      obtain ⟨hsaves, hcounts⟩ := concat_of_shows hs turns .counting o
      rw [hsaves, hcounts]
      exact Prod.mk.inj hgot
    | goesOn ht _ _ => exact absurd rfl ht.2
    | saves ht _ _ _ => cases ht
    | counts ht _ _ _ => cases ht

/-! ### Runs -/

/-- **One step.** -/
theorem undisturbed_step {w w' : PageWorld} {e : Event Signal Outcome} (hw : Suspended GotTo w)
    (hs : (traced (program wallpaper)).step w e = some w') :
    Undisturbed wallpaper w e w' ↔ EachTurn (program wallpaper) NoneLeft w e w' := by
  unfold Undisturbed
  rcases turn_cases hs with ⟨k, rfl, heq⟩ | ⟨i, o, turns, t, ts, rfl, ht, hres⟩
  · rw [heq]
    exact iff_of_true ⟨late_call wallpaper k w.shared, eachTurn_call⟩ eachTurn_call
  · have hgot : GotTo turns t := hw (turns, t) (List.mem_of_getElem? ht)
    rw [eachTurn_resume ht hres, eachTurn_resume ht hres, late_eq_iff hres]
    exact ⟨fun h => h.1, fun h => ⟨h, savesAndCounts_of_noneLeft hgot hres h⟩⟩

/-- **No work on a disposed page**, in a run, exactly if no turn reports there. -/
theorem undisturbed_iff (wallpaper : Wallpaper) (es : List (Event Signal Outcome)) :
    (traced (program wallpaper)).Each (Undisturbed wallpaper) (start (initState wallpaper)) es ↔
      (traced (program wallpaper)).Each (EachTurn (program wallpaper) NoneLeft)
        (start (initState wallpaper)) es :=
  each_iff_of_passes (passes_gotTo wallpaper) (gotTo_initState wallpaper)
    (fun _ _ _ hw hs => undisturbed_step hw hs) es

/-- The page is left while the image is fetched. -/
def leftEarly : List (Event Signal Outcome) :=
  [.resume 0 .done, .resume 0 (.unlockStatus false), .call .rebuild, .call .tap,
    .resume 0 (.permission true), .call .dispose, .resume 0 (.received 10 100)]

/-- The next progress calls `setState` on the disposed page. -/
theorem late_after_leftEarly :
    (∃ w, (program freeWallpaper).run (initState freeWallpaper) leftEarly = some w ∧
      w.shared.mounted = false ∧ w.shared.late = 1) ∧
    ¬(traced (program freeWallpaper)).Each (Undisturbed freeWallpaper)
      (start (initState freeWallpaper)) leftEarly := by
  refine ⟨⟨_, rfl, rfl, rfl⟩, fun h => ?_⟩
  have hlast := Program.each_iff.mp h (leftEarly.take 6) (.resume 0 (.received 10 100)) [] _ _
    rfl rfl rfl
  cases hlast.1

end PixsBliss.Pages.DisposedPage
