import PixsBliss.Lib.Async
import PixsBliss.Models.RoundTrip
import PixsBliss.Pages.ButtonAnimation
import Mathlib.Data.Rat.Defs

/-! # The detail page of a wallpaper

The page checks whether the wallpaper is unlocked, and its button unlocks or downloads the
wallpaper. The program has the awaits of these routines as its tasks; taps, rebuilds, the ends of
the animations, the unlock stream and the disposal of the page are calls of the environment. A
`setState` and a message need a mounted page: on a disposed one they throw, into the `catch` or
`finally` around them. A rebuild may come at any time, and hands the button its configuration.

* `never_stuck_iff`: the button accepts a tap in a state of rest exactly when the last rebuild
  offered it one and its bar has not run to its end since.
* `stuck_after_refusal`: the permission is refused, and the bar ends after the last rebuild. -/

namespace PixsBliss.Pages.WallpaperDetailPage

open PixsBliss.Lib.Async PixsBliss.Models PixsBliss.Pages.ButtonAnimation

/-! ### The state -/

/-- The fields of the page. -/
structure Page where
  isDownloading : Bool
  downloadProgress : ℚ
  downloadComplete : Bool
  isUnlocked : Bool
  isCheckingUnlockStatus : Bool

/-- What a tap on the button calls. -/
inductive Action
  | nothing
  | unlockWallpaper
  | downloadWallpaper
deriving DecidableEq

/-- A snack bar. -/
inductive Message
  | error (text : String)
  | success (text : String)
deriving DecidableEq

/-- The page with its button. As ghosts the images put in the gallery, the calls of
`incrementDownloadCount`, and the calls of `setState` and of messages after the disposal. -/
structure State where
  mounted : Bool
  page : Page
  button : Button Action
  messages : List Message
  saved : ℕ
  counted : List String
  late : ℕ

/-- Who has called `_checkUnlockStatus`. -/
inductive Caller
  | initState
  | paymentSuccess
deriving DecidableEq

/-- What a routine awaits. -/
inductive Task
  -- `_checkUnlockStatus`
  | initializing (caller : Caller)
  | checking (caller : Caller)
  -- `_downloadWallpaper`
  | requestingPermission
  | fetching
  | gettingDirectory
  | writing
  | puttingImage
  | initializingFirestore
  | counting
  -- `_unlockWallpaper`, `_listenForPaymentSuccess`
  | initializingPremium
  | unlocking
  | delayed
deriving DecidableEq

/-- How it ends, or goes on. -/
inductive Outcome
  | done
  | threw (error : String)
  | permission (isGranted : Bool)
  | received (received total : ℤ)
  | galException (message : String)
  | unlockStatus (isUnlocked : Bool)
  | payment (initiated : Bool)
deriving DecidableEq

/-- What comes from outside. -/
inductive Signal
  | tap
  | tick (t : Tick)
  | rebuild
  | unlockEvent (wallpaperId : String)
  | dispose
deriving DecidableEq

/-! ### Effects that need a mounted page -/

/-- `setState`, and whether it went without an exception. -/
def setState (f : Page → Page) (s : State) : State × Bool :=
  if s.mounted then ({ s with page := f s.page }, true) else ({ s with late := s.late + 1 }, false)

/-- A message, and whether it went without an exception. -/
def showMessage (m : Message) (s : State) : State × Bool :=
  if s.mounted then ({ s with messages := s.messages ++ [m] }, true)
  else ({ s with late := s.late + 1 }, false)

/-- Goes on after such an effect, or with its exception. -/
def andThen {β : Type} (x : State × Bool) (next throw : State → β) : β :=
  if x.2 then next x.1 else throw x.1

/-! ### The routines -/

section Routines

variable (wallpaper : Wallpaper)

/-- The text of `setState` on a disposed page. -/
def disposedError : String := "setState() called after dispose()"

def buttonText (p : Page) : String :=
  if p.isCheckingUnlockStatus then "Loading..."
  else if wallpaper.isPremium && !p.isUnlocked then "Unlock for ₹" ++ toString wallpaper.price
  else "Download"

def buttonAction (p : Page) : Option Action :=
  if p.isCheckingUnlockStatus then none
  else if wallpaper.isPremium && !p.isUnlocked then some .unlockWallpaper
  else some .downloadWallpaper

/-- What `build` makes the button from. -/
def build (p : Page) : Config Action where
  key := p.isUnlocked
  onDownload := (buttonAction wallpaper p).getD .nothing
  isComplete := p.downloadComplete
  buttonText := buttonText wallpaper p
  isEnabled := !p.isCheckingUnlockStatus && !p.isDownloading

/-- The status is there. -/
def checked (isUnlocked : Bool) (s : State) : State :=
  if s.mounted then
    (setState (fun p => { p with
      isUnlocked := isUnlocked, isCheckingUnlockStatus := false }) s).1
  else s

/-- After a payment an unlocked wallpaper is announced. -/
def announce (caller : Caller) (s : State) : State :=
  match caller with
  | .initState => s
  | .paymentSuccess =>
    if s.page.isUnlocked then
      (showMessage (.success "Wallpaper unlocked successfully! You can now download it.") s).1
    else s

/-- The `finally` block of the download. -/
def endDownload (s : State) : State :=
  (setState (fun p => { p with isDownloading := false, downloadProgress := 0 }) s).1

/-- The `catch` block of the download. -/
def downloadFailed (error : String) (s : State) : State :=
  endDownload (showMessage (.error ("Download failed: " ++ error)) s).1

/-- The end of the `try` block of the download. -/
def downloaded (s : State) : State :=
  andThen (setState (fun p => { p with downloadComplete := true }) s) endDownload
    (downloadFailed disposedError)

/-- With the permission the download starts. -/
def afterPermission (isGranted : Bool) (s : State) : State × List Task :=
  if isGranted then
    andThen (setState (fun p => { p with
        isDownloading := true, downloadProgress := 0, downloadComplete := false }) s)
      (fun s => (s, [.fetching])) fun s => (s, [])
  else ((showMessage (.error "Storage permission denied") s).1, [])

def onReceiveProgress (received total : ℤ) (s : State) : State :=
  if total = -1 then s
  else (setState (fun p => { p with downloadProgress := (received : ℚ) / total }) s).1

/-- An error of the gallery is shown, and the download goes on as if it was saved. -/
def galleryFailed (message : String) (s : State) : State :=
  andThen (showMessage (.error message) s) downloaded (downloadFailed disposedError)

/-- The `catch` block of the payment. -/
def paymentFailed (error : String) (s : State) : State :=
  (showMessage (.error ("Error: " ++ error)) s).1

/-- The payment is initiated; its success is looked for later. -/
def afterPayment (initiated : Bool) (s : State) : State × List Task :=
  if initiated then
    andThen (showMessage (.success
        "Payment initiated! Please complete the payment to unlock this wallpaper.") s)
      (fun s => (s, [.delayed])) fun s => (paymentFailed disposedError s, [])
  else
    andThen (showMessage (.error "Failed to initiate payment. Please try again.") s)
      (fun s => (s, [])) fun s => (paymentFailed disposedError s, [])

/-- The first awaits of what a tap calls. -/
def start : Action → List Task
  | .nothing => []
  | .unlockWallpaper => [.initializingPremium]
  | .downloadWallpaper => [.requestingPermission]

def tap (s : State) : State × List Task :=
  match onTap s.button with
  | none => (s, [])
  | some action => ({ s with button := tapped s.button }, start action)

/-- The listener of the unlock stream. -/
def onUnlockEvent (wallpaperId : String) (s : State) : State :=
  if wallpaperId = wallpaper.id ∧ s.mounted then
    (showMessage (.success "Wallpaper unlocked successfully! You can now download it.")
      (setState (fun p => { p with isUnlocked := true, downloadComplete := false }) s).1).1
  else s

/-- Without a mounted page there is no button. -/
def onButton (f : Button Action → Button Action) (s : State) : State :=
  if s.mounted then { s with button := f s.button } else s

/-- **The page.** -/
def program : Program State Task Signal Outcome where
  call
    | .tap, s => if s.mounted then tap s else (s, [])
    | .tick t, s => (onButton (fun b => tick b t) s, [])
    | .rebuild, s => (onButton (update (build wallpaper s.page)) s, [])
    | .unlockEvent wallpaperId, s => (onUnlockEvent wallpaper wallpaperId s, [])
    | .dispose, s => ({ s with mounted := false }, [])
  resume
    | .initializing caller, .done, s => some (s, [.checking caller])
    | .initializing _, .threw _, s => some (s, [])
    | .checking caller, .unlockStatus isUnlocked, s =>
      some (announce caller (checked isUnlocked s), [])
    | .checking _, .threw _, s => some (s, [])
    | .requestingPermission, .permission isGranted, s => some (afterPermission isGranted s)
    | .requestingPermission, .threw _, s => some (s, [])
    | .fetching, .received received total, s =>
      some (onReceiveProgress received total s, [.fetching])
    | .fetching, .done, s => some (s, [.gettingDirectory])
    | .fetching, .threw error, s => some (downloadFailed error s, [])
    | .gettingDirectory, .done, s => some (s, [.writing])
    | .gettingDirectory, .threw error, s => some (downloadFailed error s, [])
    | .writing, .done, s => some (s, [.puttingImage])
    | .writing, .threw error, s => some (downloadFailed error s, [])
    | .puttingImage, .done, s => some ({ s with saved := s.saved + 1 }, [.initializingFirestore])
    | .puttingImage, .galException message, s => some (galleryFailed message s, [])
    | .puttingImage, .threw error, s => some (downloadFailed error s, [])
    | .initializingFirestore, .done, s =>
      some ({ s with counted := s.counted ++ [wallpaper.id] }, [.counting])
    -- the count is tried once the image is saved; its errors are swallowed
    | .initializingFirestore, .threw _, s => some (downloaded s, [])
    | .counting, .done, s => some (downloaded s, [])
    | .counting, .threw _, s => some (downloaded s, [])
    | .initializingPremium, .done, s => some (s, [.unlocking])
    | .initializingPremium, .threw error, s => some (paymentFailed error s, [])
    | .unlocking, .payment initiated, s => some (afterPayment initiated s)
    | .delayed, .done, s => some (s, [.initializing .paymentSuccess])
    | _, _, _ => none

/-- `initState`, and the first `build`. -/
def initState : World State Task :=
  let page : Page := ⟨false, 0, false, false, true⟩
  ⟨⟨true, page, create (build wallpaper page), [], 0, [], 0⟩, [.initializing .initState]⟩

end Routines

/-! ### The law and its condition -/

/-- **A state of rest**: all animations have finished, the unlock check is done, no download is
running, and `_downloadComplete` is false. -/
def AtRest (s : State) : Prop :=
  s.mounted = true ∧ Finished s.button ∧ s.page.isCheckingUnlockStatus = false ∧
    s.page.isDownloading = false ∧ s.page.downloadComplete = false

/-- A rebuild that offers a tap: the check is done, no download is running, and it is not complete
(or the button is a new one). -/
def Rebuilds (wallpaper : Wallpaper) (w : World State Task) (e : Event Signal Outcome)
    (_ : World State Task) : Prop :=
  e = .call .rebuild ∧ w.shared.mounted = true ∧
    Offers (build wallpaper w.shared.page) w.shared.button

/-- No rebuild, and not the end of the bar. -/
def Quiet (w : World State Task) (e : Event Signal Outcome) (_ : World State Task) : Prop :=
  w.shared.mounted = true → e ≠ .call .rebuild ∧
    ∀ t, e = .call (.tick t) → ¬BarEnds w.shared.button t

/-! ### What the routines leave alone -/

/-- The routines show things: they change the fields of the page, the messages and what was late; a
mounted page is not late, and a disposed one does not change. -/
structure Shows (s s' : State) : Prop where
  mounted : s'.mounted = s.mounted
  button : s'.button = s.button
  saved : s'.saved = s.saved
  counted : s'.counted = s.counted
  late_le : s.late ≤ s'.late
  late_eq : s.mounted = true → s'.late = s.late
  page_eq : s.mounted = false → s'.page = s.page
  messages_eq : s.mounted = false → s'.messages = s.messages

/-- And they do not complete the download. -/
structure Keeps (s s' : State) : Prop extends Shows s s' where
  complete : s'.page.downloadComplete = true → s.page.downloadComplete = true

variable {wallpaper : Wallpaper} {s s' s'' : State} {w w' : World State Task}
  {e : Event Signal Outcome}

theorem Shows.trans (h : Shows s s') (h' : Shows s' s'') : Shows s s'' where
  mounted := h'.mounted.trans h.mounted
  button := h'.button.trans h.button
  saved := h'.saved.trans h.saved
  counted := h'.counted.trans h.counted
  late_le := h.late_le.trans h'.late_le
  late_eq hm := (h'.late_eq (h.mounted.trans hm)).trans (h.late_eq hm)
  page_eq hm := (h'.page_eq (h.mounted.trans hm)).trans (h.page_eq hm)
  messages_eq hm := (h'.messages_eq (h.mounted.trans hm)).trans (h.messages_eq hm)

theorem Keeps.refl (s : State) : Keeps s s where
  mounted := rfl
  button := rfl
  saved := rfl
  counted := rfl
  late_le := le_rfl
  late_eq _ := rfl
  page_eq _ := rfl
  messages_eq _ := rfl
  complete h := h

theorem Keeps.trans (h : Keeps s s') (h' : Keeps s' s'') : Keeps s s'' :=
  ⟨h.toShows.trans h'.toShows, fun hc => h.complete (h'.complete hc)⟩

theorem setState_of_mounted (hm : s.mounted = true) (f : Page → Page) :
    setState f s = ({ s with page := f s.page }, true) := if_pos hm

theorem showMessage_of_mounted (hm : s.mounted = true) (m : Message) :
    showMessage m s = ({ s with messages := s.messages ++ [m] }, true) := if_pos hm

theorem setState_of_disposed (hm : s.mounted = false) (f : Page → Page) :
    setState f s = ({ s with late := s.late + 1 }, false) := if_neg (by simp [hm])

theorem showMessage_of_disposed (hm : s.mounted = false) (m : Message) :
    showMessage m s = ({ s with late := s.late + 1 }, false) := if_neg (by simp [hm])

theorem shows_setState (f : Page → Page) (s : State) : Shows s (setState f s).1 := by
  cases hm : s.mounted with
  | true =>
    rw [setState_of_mounted hm]
    exact ⟨rfl, rfl, rfl, rfl, le_rfl, fun _ => rfl, fun h => by simp [hm] at h, fun _ => rfl⟩
  | false =>
    rw [setState_of_disposed hm]
    exact ⟨rfl, rfl, rfl, rfl, Nat.le_succ _, fun h => by simp [hm] at h, fun _ => rfl,
      fun _ => rfl⟩

theorem keeps_setState {f : Page → Page}
    (hf : ∀ p, (f p).downloadComplete = true → p.downloadComplete = true) (s : State) :
    Keeps s (setState f s).1 := by
  refine ⟨shows_setState f s, fun hc => ?_⟩
  cases hm : s.mounted with
  | true =>
    rw [setState_of_mounted hm] at hc
    exact hf s.page hc
  | false =>
    rw [setState_of_disposed hm] at hc
    exact hc

theorem keeps_showMessage (m : Message) (s : State) : Keeps s (showMessage m s).1 := by
  cases hm : s.mounted with
  | true =>
    rw [showMessage_of_mounted hm]
    exact ⟨⟨rfl, rfl, rfl, rfl, le_rfl, fun _ => rfl, fun _ => rfl, fun h => by simp [hm] at h⟩, id⟩
  | false =>
    rw [showMessage_of_disposed hm]
    exact ⟨⟨rfl, rfl, rfl, rfl, Nat.le_succ _, fun h => by simp [hm] at h, fun _ => rfl,
      fun _ => rfl⟩, id⟩

theorem shows_andThen {x : State × Bool} {next throw : State → State} (hx : Shows s x.1)
    (hn : ∀ s, Shows s (next s)) (ht : ∀ s, Shows s (throw s)) :
    Shows s (andThen x next throw) := by
  unfold andThen
  split_ifs
  · exact hx.trans (hn x.1)
  · exact hx.trans (ht x.1)

theorem keeps_andThen_fst {x : State × Bool} {next throw : State → State × List Task}
    (hx : Keeps s x.1) (hn : ∀ s, Keeps s (next s).1) (ht : ∀ s, Keeps s (throw s).1) :
    Keeps s (andThen x next throw).1 := by
  unfold andThen
  split_ifs
  · exact hx.trans (hn x.1)
  · exact hx.trans (ht x.1)

theorem keeps_endDownload (s : State) : Keeps s (endDownload s) := by
  refine keeps_setState ?_ s
  exact fun _ hc => hc

theorem keeps_downloadFailed (error : String) (s : State) : Keeps s (downloadFailed error s) :=
  (keeps_showMessage _ s).trans (keeps_endDownload _)

theorem shows_downloaded (s : State) : Shows s (downloaded s) :=
  shows_andThen (shows_setState _ s) (fun s => (keeps_endDownload s).toShows)
    fun s => (keeps_downloadFailed disposedError s).toShows

theorem shows_galleryFailed (message : String) (s : State) : Shows s (galleryFailed message s) :=
  shows_andThen (keeps_showMessage _ s).toShows shows_downloaded
    fun s => (keeps_downloadFailed disposedError s).toShows

theorem keeps_checked (isUnlocked : Bool) (s : State) : Keeps s (checked isUnlocked s) := by
  unfold checked
  split_ifs
  · refine keeps_setState ?_ s
    exact fun _ hc => hc
  · exact Keeps.refl s

theorem keeps_announce (caller : Caller) (s : State) : Keeps s (announce caller s) := by
  unfold announce
  cases caller with
  | initState => exact Keeps.refl s
  | paymentSuccess =>
    simp only
    split_ifs
    · exact keeps_showMessage _ s
    · exact Keeps.refl s

theorem keeps_afterPermission (isGranted : Bool) (s : State) :
    Keeps s (afterPermission isGranted s).1 := by
  unfold afterPermission
  split_ifs
  · exact keeps_andThen_fst (keeps_setState (fun _ h => by cases h) s) Keeps.refl Keeps.refl
  · exact keeps_showMessage _ s

theorem keeps_onReceiveProgress (received total : ℤ) (s : State) :
    Keeps s (onReceiveProgress received total s) := by
  unfold onReceiveProgress
  split_ifs
  · exact Keeps.refl s
  · refine keeps_setState ?_ s
    exact fun _ hc => hc

theorem keeps_paymentFailed (error : String) (s : State) : Keeps s (paymentFailed error s) :=
  keeps_showMessage _ s

theorem keeps_afterPayment (initiated : Bool) (s : State) :
    Keeps s (afterPayment initiated s).1 := by
  have hcatch : ∀ s, Keeps s (paymentFailed disposedError s) := keeps_paymentFailed disposedError
  unfold afterPayment
  split_ifs
  · exact keeps_andThen_fst (keeps_showMessage _ s) Keeps.refl hcatch
  · exact keeps_andThen_fst (keeps_showMessage _ s) Keeps.refl hcatch

theorem keeps_onUnlockEvent (wallpaperId : String) (s : State) :
    Keeps s (onUnlockEvent wallpaper wallpaperId s) := by
  unfold onUnlockEvent
  split_ifs
  · exact (keeps_setState (fun _ h => by cases h) s).trans (keeps_showMessage _ _)
  · exact Keeps.refl s

/-! ### What a turn can do -/

/-- Not one of the last two awaits of a download. -/
def Early (t : Task) : Prop := t ≠ .initializingFirestore ∧ t ≠ .counting

/-- The download is taken to be complete. -/
def Finishes (t : Task) (o : Outcome) : Prop :=
  (t = .puttingImage ∧ ∃ message, o = .galException message) ∨
    (t = .initializingFirestore ∧ ∃ error, o = .threw error) ∨ t = .counting

/-- **What a turn can do**: an image is saved, or counted, or the download is taken to be complete,
or things are shown. -/
inductive Does (wallpaper : Wallpaper) (t : Task) (o : Outcome) (s s' : State) (ts : List Task) :
    Prop
  | saves (ht : t = .puttingImage) (ho : o = .done) (hs : s' = { s with saved := s.saved + 1 })
    (hts : ts = [.initializingFirestore])
  | counts (ht : t = .initializingFirestore) (ho : o = .done)
    (hs : s' = { s with counted := s.counted ++ [wallpaper.id] }) (hts : ts = [.counting])
  | finishes (ht : Finishes t o) (hs : Shows s s') (hts : ts = [])
  | goesOn (ht : Early t) (hs : Keeps s s') (hts : ∀ t' ∈ ts, Early t')

/-- With the permission the image is fetched next. -/
theorem mem_afterPermission {isGranted : Bool} {t : Task}
    (h : t ∈ (afterPermission isGranted s).2) : t = .fetching := by
  unfold afterPermission andThen at h
  split_ifs at h
  · exact List.mem_singleton.mp h
  · cases h
  · cases h

theorem mem_afterPayment {initiated : Bool} {t : Task} (h : t ∈ (afterPayment initiated s).2) :
    t = .delayed := by
  unfold afterPayment andThen at h
  split_ifs at h
  · exact List.mem_singleton.mp h
  · cases h
  · cases h
  · cases h

theorem does_goesOn {t : Task} {o : Outcome} {x : State × List Task} {ts : List Task}
    (h : some x = some (s', ts)) (ht : Early t) (hs : Keeps s x.1) (hts : ∀ t' ∈ x.2, Early t') :
    Does wallpaper t o s s' ts := by
  obtain rfl := Option.some.inj h
  exact .goesOn ht hs hts

theorem does_next {t t' : Task} {o : Outcome} {s₁ : State} {ts : List Task}
    (h : some (s₁, [t']) = some (s', ts)) (ht : Early t) (hs : Keeps s s₁) (ht' : Early t') :
    Does wallpaper t o s s' ts :=
  does_goesOn h ht hs fun _ hmem => List.mem_singleton.mp hmem ▸ ht'

theorem does_returns {t : Task} {o : Outcome} {s₁ : State} {ts : List Task}
    (h : some (s₁, []) = some (s', ts)) (ht : Early t) (hs : Keeps s s₁) :
    Does wallpaper t o s s' ts :=
  does_goesOn h ht hs fun _ hmem => by cases hmem

theorem does_finishes {t : Task} {o : Outcome} {s₁ : State} {ts : List Task}
    (h : some (s₁, []) = some (s', ts)) (ht : Finishes t o) (hs : Shows s s₁) :
    Does wallpaper t o s s' ts := by
  obtain ⟨rfl, rfl⟩ := Prod.mk.inj (Option.some.inj h)
  exact .finishes ht hs rfl

theorem does_resume {t : Task} {o : Outcome} {ts : List Task}
    (h : (program wallpaper).resume t o s = some (s', ts)) : Does wallpaper t o s s' ts := by
  have hrefl := Keeps.refl s
  cases t with
  | initializing caller =>
    cases o with
    | done => exact does_next h ⟨nofun, nofun⟩ hrefl ⟨nofun, nofun⟩
    | threw error => exact does_returns h ⟨nofun, nofun⟩ hrefl
    | _ => cases h
  | checking caller =>
    cases o with
    | unlockStatus isUnlocked =>
      exact does_returns h ⟨nofun, nofun⟩
        ((keeps_checked isUnlocked s).trans (keeps_announce caller _))
    | threw error => exact does_returns h ⟨nofun, nofun⟩ hrefl
    | _ => cases h
  | requestingPermission =>
    cases o with
    | permission isGranted =>
      refine does_goesOn h ⟨nofun, nofun⟩ (keeps_afterPermission isGranted s) fun t' ht' => ?_
      rw [mem_afterPermission ht']
      exact ⟨nofun, nofun⟩
    | threw error => exact does_returns h ⟨nofun, nofun⟩ hrefl
    | _ => cases h
  | fetching =>
    cases o with
    | received received total =>
      exact does_next h ⟨nofun, nofun⟩ (keeps_onReceiveProgress received total s) ⟨nofun, nofun⟩
    | done => exact does_next h ⟨nofun, nofun⟩ hrefl ⟨nofun, nofun⟩
    | threw error => exact does_returns h ⟨nofun, nofun⟩ (keeps_downloadFailed error s)
    | _ => cases h
  | gettingDirectory =>
    cases o with
    | done => exact does_next h ⟨nofun, nofun⟩ hrefl ⟨nofun, nofun⟩
    | threw error => exact does_returns h ⟨nofun, nofun⟩ (keeps_downloadFailed error s)
    | _ => cases h
  | writing =>
    cases o with
    | done => exact does_next h ⟨nofun, nofun⟩ hrefl ⟨nofun, nofun⟩
    | threw error => exact does_returns h ⟨nofun, nofun⟩ (keeps_downloadFailed error s)
    | _ => cases h
  | puttingImage =>
    cases o with
    | done =>
      obtain ⟨rfl, rfl⟩ := Prod.mk.inj (Option.some.inj h)
      exact .saves rfl rfl rfl rfl
    | galException message =>
      exact does_finishes h (Or.inl ⟨rfl, message, rfl⟩) (shows_galleryFailed message s)
    | threw error => exact does_returns h ⟨nofun, nofun⟩ (keeps_downloadFailed error s)
    | _ => cases h
  | initializingFirestore =>
    cases o with
    | done =>
      obtain ⟨rfl, rfl⟩ := Prod.mk.inj (Option.some.inj h)
      exact .counts rfl rfl rfl rfl
    | threw error => exact does_finishes h (Or.inr (Or.inl ⟨rfl, error, rfl⟩)) (shows_downloaded s)
    | _ => cases h
  | counting =>
    cases o with
    | done => exact does_finishes h (Or.inr (Or.inr rfl)) (shows_downloaded s)
    | threw error => exact does_finishes h (Or.inr (Or.inr rfl)) (shows_downloaded s)
    | _ => cases h
  | initializingPremium =>
    cases o with
    | done => exact does_next h ⟨nofun, nofun⟩ hrefl ⟨nofun, nofun⟩
    | threw error => exact does_returns h ⟨nofun, nofun⟩ (keeps_paymentFailed error s)
    | _ => cases h
  | unlocking =>
    cases o with
    | payment initiated =>
      refine does_goesOn h ⟨nofun, nofun⟩ (keeps_afterPayment initiated s) fun t' ht' => ?_
      rw [mem_afterPayment ht']
      exact ⟨nofun, nofun⟩
    | _ => cases h
  | delayed =>
    cases o with
    | done => exact does_next h ⟨nofun, nofun⟩ hrefl ⟨nofun, nofun⟩
    | _ => cases h

theorem onButton_eq (f : Button Action → Button Action) (s : State) :
    ∃ b, onButton f s = { s with button := b } := by
  unfold onButton
  split_ifs
  · exact ⟨_, rfl⟩
  · exact ⟨s.button, rfl⟩

theorem tap_eq (s : State) : ∃ b, (tap s).1 = { s with button := b } := by
  unfold tap
  cases onTap s.button with
  | none => exact ⟨s.button, rfl⟩
  | some action => exact ⟨_, rfl⟩

/-- **What a call can do**: the button changes, or the page is disposed of, or the wallpaper is
unlocked. -/
theorem call_cases (wallpaper : Wallpaper) (k : Signal) (s : State) :
    (∃ m b, ((program wallpaper).call k s).1 = { s with mounted := m, button := b }) ∨
      ∃ wallpaperId, k = .unlockEvent wallpaperId ∧
        ((program wallpaper).call k s).1 = onUnlockEvent wallpaper wallpaperId s := by
  cases k with
  | tap =>
    left
    obtain ⟨b, hb⟩ := tap_eq s
    show ∃ m b, (if s.mounted then tap s else (s, [])).1 = { s with mounted := m, button := b }
    split_ifs
    · exact ⟨s.mounted, b, hb⟩
    · exact ⟨s.mounted, s.button, rfl⟩
  | tick t =>
    obtain ⟨b, hb⟩ := onButton_eq (fun b => tick b t) s
    exact Or.inl ⟨s.mounted, b, hb⟩
  | rebuild =>
    obtain ⟨b, hb⟩ := onButton_eq (update (build wallpaper s.page)) s
    exact Or.inl ⟨s.mounted, b, hb⟩
  | unlockEvent wallpaperId => exact Or.inr ⟨wallpaperId, rfl, rfl⟩
  | dispose => exact Or.inl ⟨false, s.button, rfl⟩

/-- **The routines of the page leave the button alone**: it changes by taps, animations and
rebuilds only. -/
theorem button_resume {t : Task} {o : Outcome} {ts : List Task}
    (h : (program wallpaper).resume t o s = some (s', ts)) : s'.button = s.button := by
  cases does_resume h with
  | saves _ _ hs _ => rw [hs]
  | counts _ _ hs _ => rw [hs]
  | finishes _ hs _ => exact hs.button
  | goesOn _ hs _ => exact hs.button

/-! ### When the button accepts a tap -/

theorem accepts_tap : Accepts (tap s).1.button ↔ Accepts s.button := by
  unfold tap
  cases onTap s.button with
  | none => rfl
  | some action => exact accepts_tapped

/-- A step that leaves the readiness alone. -/
theorem accepts_quiet (hb : Accepts w'.shared.button ↔ Accepts w.shared.button)
    (hr : e ≠ .call .rebuild) (ht : ∀ t, e ≠ .call (.tick t)) :
    Accepts w'.shared.button ↔
      Rebuilds wallpaper w e w' ∨ (Accepts w.shared.button ∧ Quiet w e w') := by
  have hquiet : Quiet w e w' := fun _ => ⟨hr, fun t he => absurd he (ht t)⟩
  have hno : ¬Rebuilds wallpaper w e w' := fun h => hr h.1
  rw [hb, or_iff_right hno, and_iff_left hquiet]

/-- On a disposed page nothing happens to the button. -/
theorem accepts_disposed (hb : w'.shared.button = w.shared.button)
    (hm : w.shared.mounted ≠ true) : Accepts w'.shared.button ↔
      Rebuilds wallpaper w e w' ∨ (Accepts w.shared.button ∧ Quiet w e w') := by
  have hquiet : Quiet w e w' := fun h => absurd h hm
  have hno : ¬Rebuilds wallpaper w e w' := fun h => hm h.2.1
  rw [hb, or_iff_right hno, and_iff_left hquiet]

/-- **One step**: a rebuild decides, and the end of the bar ends the readiness. -/
theorem accepts_step (hs : (program wallpaper).step w e = some w') :
    Accepts w'.shared.button ↔
      Rebuilds wallpaper w e w' ∨ (Accepts w.shared.button ∧ Quiet w e w') := by
  rcases Program.step_cases hs with ⟨k, rfl, rfl⟩ | ⟨l, t, r, o, s, ts, rfl, -, hr, rfl⟩
  · cases k with
    | tap =>
      refine accepts_quiet ?_ (by simp) (by simp)
      show Accepts (if w.shared.mounted then tap w.shared else (w.shared, [])).1.button ↔ _
      split_ifs
      · exact accepts_tap
      · rfl
    | tick t =>
      by_cases hm : w.shared.mounted = true
      · have hbutton : onButton (fun b => tick b t) w.shared =
            { w.shared with button := tick w.shared.button t } := if_pos hm
        simp only [program, hbutton, accepts_tick]
        unfold Rebuilds Quiet
        simp [hm]
      · exact accepts_disposed (congrArg State.button (if_neg hm)) hm
    | rebuild =>
      by_cases hm : w.shared.mounted = true
      · have hbutton : onButton (update (build wallpaper w.shared.page)) w.shared =
            { w.shared with
              button := update (build wallpaper w.shared.page) w.shared.button } := if_pos hm
        simp only [program, hbutton, accepts_update]
        unfold Rebuilds Quiet
        simp [hm]
      · exact accepts_disposed (congrArg State.button (if_neg hm)) hm
    | unlockEvent wallpaperId =>
      refine accepts_quiet ?_ (by simp) (by simp)
      show Accepts (onUnlockEvent wallpaper wallpaperId w.shared).button ↔ _
      rw [(keeps_onUnlockEvent wallpaperId w.shared).button]
    | dispose => exact accepts_quiet Iff.rfl (by simp) (by simp)
  · refine accepts_quiet ?_ (by simp) (by simp)
    rw [button_resume hr]

/-- At the start the button waits for the check. -/
theorem not_accepts_initState : ¬Accepts (initState wallpaper).shared.button := by
  rw [accepts_iff]
  rintro ⟨h, -⟩
  cases h

/-- **The button**, after any run: the last rebuild offered it a tap, and its bar has not ended
since. -/
theorem accepts_iff_since {es : List (Event Signal Outcome)}
    (hr : (program wallpaper).run (initState wallpaper) es = some w) :
    Accepts w.shared.button ↔
      (program wallpaper).Since (Rebuilds wallpaper) Quiet (initState wallpaper) es := by
  rw [Program.iff_since (fun _ _ _ => accepts_step) hr]
  exact or_iff_left fun h => not_accepts_initState h.1

/-- **The button is not stuck** in a state of rest exactly when the last rebuild offered it a tap
and its bar has not ended since. -/
theorem never_stuck_iff {es : List (Event Signal Outcome)}
    (hr : (program wallpaper).run (initState wallpaper) es = some w) :
    (AtRest w.shared → Accepts w.shared.button) ↔ (AtRest w.shared →
      (program wallpaper).Since (Rebuilds wallpaper) Quiet (initState wallpaper) es) := by
  rw [accepts_iff_since hr]

/-- A free wallpaper. -/
abbrev freeWallpaper : Wallpaper := sampleWallpaper "7" "firestore"

/-- It is tapped, and the permission is refused before the bar ends. -/
def refusal : List (Event Signal Outcome) :=
  [.resume 0 .done, .resume 0 (.unlockStatus false), .call .rebuild, .call .tap,
    .call (.tick .scaleCompleted), .resume 0 (.permission false), .call (.tick .scaleDismissed),
    .call (.tick .fadeCompleted), .call (.tick .animationCompleted)]

theorem never_stuck_iff_refusal : ∃ w,
    (program freeWallpaper).run (initState freeWallpaper) refusal = some w ∧
      ((AtRest w.shared → Accepts w.shared.button) ↔ (AtRest w.shared →
        (program freeWallpaper).Since (Rebuilds freeWallpaper) Quiet (initState freeWallpaper)
          refusal)) :=
  ⟨_, rfl, never_stuck_iff rfl⟩

/-- After the refusal nothing is running, and the button takes no tap. -/
theorem stuck_after_refusal : ∃ w,
    (program freeWallpaper).run (initState freeWallpaper) refusal = some w ∧
      w.tasks = [] ∧ AtRest w.shared ∧ ¬Accepts w.shared.button :=
  ⟨_, rfl, rfl, ⟨rfl, ⟨rfl, rfl, rfl⟩, rfl, rfl, rfl⟩, fun h => h rfl⟩

end PixsBliss.Pages.WallpaperDetailPage
