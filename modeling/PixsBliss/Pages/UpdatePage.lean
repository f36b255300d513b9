import PixsBliss.Lib.Async
import PixsBliss.Services.UpdateService

/-! # The update page

`_downloadUpdate` shows the dialog of the progress and hides it by a `pop` of whatever route is on
top. Cancel pops the dialog itself, and lets the download return no path like a failed one, so that
the `pop` after the download then takes the page.

A run is that of one call, from its start; besides the ends of its awaits, the user may press Cancel
in the dialog whenever it is on top. The Back button of Android, which also pops the dialog, is not
modelled.

* `restored_iff`: at the end of the run the routes are those of its start, with every pushed route
  popped and no other, exactly when Cancel was not pressed, or no route is below the page.
* `cancel_pops_page`: Cancel over the home page. -/

namespace PixsBliss.Pages.UpdatePage

open PixsBliss.Lib.Async PixsBliss.Services.UpdateService

/-! ### The program -/

inductive Route
  | downloadProgressDialog
  | updatePage
  | other (name : String)
deriving DecidableEq

/-- The routes, the top one first. As ghosts what was pushed and what was popped. -/
structure Navigator where
  routes : List Route
  pushed : List Route
  popped : List Route
deriving DecidableEq

namespace Navigator

def canPop (n : Navigator) : Bool := decide (2 ≤ n.routes.length)

def push (r : Route) (n : Navigator) : Navigator :=
  { n with routes := r :: n.routes, pushed := r :: n.pushed }

def pop (n : Navigator) : Navigator :=
  { n with routes := n.routes.tail, popped := n.routes.head?.toList ++ n.popped }

end Navigator

/-- The status of the download, with the numbers its text is made of. -/
inductive DownloadStatus
  | none
  | preparing
  | downloading (received total : ℤ)
  | installing
deriving DecidableEq

/-- The page and the providers of the update. Of the token it is kept whether it is cancelled, of
the progress the numbers of the percentage, of the messages all that were shown. -/
structure State where
  navigator : Navigator
  cancelToken : Option Bool
  isDownloading : Bool
  progress : Option (ℤ × ℤ)
  status : DownloadStatus
  messages : List String
deriving DecidableEq

/-- What the call awaits. -/
inductive Task
  | requestingPermissions (apkUrl : String)
  | downloading (apkUrl : String)
  | installing (apkPath : String)

inductive Outcome
  | permissions (env : PermissionEnv)
  | received (received total : ℤ)
  | downloaded (env : DownloadEnv)
  | opened (result : Attempt ResultType)

inductive Tap
  | cancel
deriving DecidableEq

def showInfoMessage (message : String) (s : State) : State :=
  { s with messages := s.messages ++ [message] }

/-- `_cancelToken?.isCancelled ?? false`. -/
def isCancelled (s : State) : Bool := s.cancelToken.getD false

/-- The dialog is hidden if the navigator can pop. -/
def hideDialog (s : State) : State :=
  if s.navigator.canPop then { s with navigator := s.navigator.pop } else s

/-- The `finally` block. -/
def reset (s : State) : State :=
  { s with isDownloading := false, progress := none, status := .none, cancelToken := none }

/-- The `catch` block. -/
def onError (e : Thrown) (s : State) : State :=
  match e with
  | .dio type =>
    if type = .cancel ∨ isCancelled s then showInfoMessage "Download canceled" (hideDialog s)
    else showInfoMessage "Failed to download update. Please try again." (hideDialog s)
  | .other _ => showInfoMessage "Failed to download update. Please try again." (hideDialog s)

/-- With the permissions the dialog is shown and the download starts. -/
def afterPermissions (apkUrl : String) (granted : Bool) (s : State) : State × List Task :=
  if granted then
    ({ s with
        isDownloading := true, status := .preparing,
        navigator := s.navigator.push .downloadProgressDialog },
      [.downloading apkUrl])
  else
    (reset (showInfoMessage
      "Storage and install permissions are required to download updates." s), [])

/-- The progress of the download, unless the size is unknown. -/
def onProgress (received total : ℤ) (s : State) : State :=
  if total = -1 then s
  else { s with progress := some (received, total), status := .downloading received total }

/-- After the download the dialog is hidden, and a package is installed. -/
def afterDownload (apkPath : Option String) (s : State) : State × List Task :=
  match apkPath with
  | some path => ({ hideDialog s with status := .installing }, [.installing path])
  | none =>
    (reset (if isCancelled (hideDialog s) then hideDialog s
      else showInfoMessage "Failed to download update. Please try again." (hideDialog s)), [])

def afterInstall (success : Bool) (s : State) : State :=
  reset (showInfoMessage
    (if success then
      "Update downloaded successfully! Please complete the installation."
    else
      "Download completed! Please install the APK manually from your Downloads folder.") s)

/-- Goes on with the result of an `await`, or into the `catch` block. -/
def handle {α : Type} (x : Attempt α) (f : α → State → State × List Task) (s : State) :
    State × List Task :=
  match x with
  | .ok a => f a s
  | .error e => (reset (onError e s), [])

/-- The button of the dialog. -/
def onCancel (s : State) : State :=
  showInfoMessage "Download canceled"
    { s with
      cancelToken := s.cancelToken.map fun _ => true
      isDownloading := false
      navigator := s.navigator.pop }

/-- **The run of a call.** The dialog takes a tap only when it is on top. -/
def program : Program State Task Tap Outcome where
  call
    | .cancel, s =>
      if s.navigator.routes.head? = some .downloadProgressDialog then (onCancel s, []) else (s, [])
  resume
    | .requestingPermissions apkUrl, .permissions env, s =>
      some (handle (requestPermissions env) (afterPermissions apkUrl) s)
    | .downloading apkUrl, .received received total, s =>
      some (onProgress received total s, [.downloading apkUrl])
    | .downloading apkUrl, .downloaded env, s =>
      some (handle (downloadApk env apkUrl) afterDownload s)
    | .installing _, .opened result, s =>
      some (handle (installApk result) (fun success s => (afterInstall success s, [])) s)
    | _, _, _ => none

/-- `_downloadUpdate`, up to its first `await`. -/
def downloadUpdate (apkUrl : String) (s : State) : World State Task :=
  ⟨{ s with cancelToken := some false }, [.requestingPermissions apkUrl]⟩

/-! ### The law and its condition -/

/-- **The navigation is as it was**: the same routes, and what was popped is what was pushed. -/
def Restored (s s' : State) : Prop :=
  s'.navigator.routes = s.navigator.routes ∧
    ∃ pushed, s'.navigator.pushed = pushed ++ s.navigator.pushed ∧
      s'.navigator.popped = pushed ++ s.navigator.popped

def NotCancelled (w : World State Task) (e : Event Tap Outcome) (_ : World State Task) : Prop :=
  e = .call .cancel → w.shared.navigator.routes.head? ≠ some .downloadProgressDialog

/-! ### What the steps do to the navigation -/

variable {s s' : State} {w w' : World State Task} {e : Event Tap Outcome} {below p q : List Route}
  {apkUrl : String}

/-- The services throw nothing: what follows an `await` is never the `catch` block. -/
theorem handle_ok {α : Type} {x : Attempt α} {a : α} (h : x = .ok a)
    (f : α → State → State × List Task) (s : State) : handle x f s = f a s := by
  rw [h]
  rfl

@[simp] theorem navigator_reset (s : State) : (reset s).navigator = s.navigator := rfl

theorem navigator_onProgress (received total : ℤ) (s : State) :
    (onProgress received total s).navigator = s.navigator := by
  unfold onProgress
  split_ifs <;> rfl

/-- Over another route, `hideDialog` pops whatever is on top. -/
theorem navigator_hideDialog {r r' : Route} {rs : List Route}
    (h : s.navigator = ⟨r :: r' :: rs, p, q⟩) :
    (hideDialog s).navigator = ⟨r' :: rs, p, r :: q⟩ := by
  have hpop : s.navigator.canPop = true := by
    rw [h]
    simp [Navigator.canPop]
  unfold hideDialog
  rw [if_pos hpop]
  simp only [h, Navigator.pop, List.tail_cons, List.head?_cons, Option.toList_some,
    List.singleton_append]

theorem hideDialog_of_single {r : Route} (h : s.navigator = ⟨[r], p, q⟩) : hideDialog s = s := by
  have hpop : s.navigator.canPop = false := by
    rw [h]
    rfl
  unfold hideDialog
  rw [hpop]
  rfl

/-- The last stages of a run: the installation, or nothing. -/
def Ending (ts : List Task) : Prop := ts = [] ∨ ∃ path, ts = [.installing path]

/-- After the download the dialog is hidden, with a path or without. -/
theorem afterDownload_spec (apkPath : Option String) (s : State) :
    (afterDownload apkPath s).1.navigator = (hideDialog s).navigator ∧
      Ending (afterDownload apkPath s).2 := by
  cases apkPath with
  | some path => exact ⟨rfl, Or.inr ⟨path, rfl⟩⟩
  | none =>
    refine ⟨?_, Or.inl rfl⟩
    simp only [afterDownload, navigator_reset]
    split_ifs <;> rfl

theorem afterPermissions_spec (apkUrl : String) (granted : Bool) (s : State) :
    ((afterPermissions apkUrl granted s).1.navigator = s.navigator.push .downloadProgressDialog ∧
      (afterPermissions apkUrl granted s).2 = [.downloading apkUrl]) ∨
    ((afterPermissions apkUrl granted s).1.navigator = s.navigator ∧
      (afterPermissions apkUrl granted s).2 = []) := by
  cases granted with
  | true => exact Or.inl ⟨rfl, rfl⟩
  | false => exact Or.inr ⟨rfl, rfl⟩

/-! ### Resumptions, by what the call awaits -/

theorem resume_requesting {o : Outcome} {ts : List Task}
    (h : program.resume (.requestingPermissions apkUrl) o s = some (s', ts)) :
    (s'.navigator = s.navigator.push .downloadProgressDialog ∧ ts = [.downloading apkUrl]) ∨
    (s'.navigator = s.navigator ∧ ts = []) := by
  cases o with
  | permissions env =>
    obtain ⟨granted, hg⟩ := requestPermissions_ok env
    have heq : handle (requestPermissions env) (afterPermissions apkUrl) s = (s', ts) :=
      Option.some.inj h
    rw [handle_ok hg] at heq
    have hspec := afterPermissions_spec apkUrl granted s
    rwa [heq] at hspec
  | _ => cases h

/-- The download goes on, or is over and the dialog is hidden. -/
theorem resume_downloading {o : Outcome} {ts : List Task}
    (h : program.resume (.downloading apkUrl) o s = some (s', ts)) :
    (s'.navigator = s.navigator ∧ ts = [.downloading apkUrl]) ∨
    (s'.navigator = (hideDialog s).navigator ∧ Ending ts) := by
  cases o with
  | received received total =>
    obtain ⟨rfl, rfl⟩ := Prod.mk.inj (Option.some.inj h)
    exact Or.inl ⟨navigator_onProgress received total s, rfl⟩
  | downloaded env =>
    obtain ⟨apkPath, hp⟩ := downloadApk_ok env apkUrl
    have heq : handle (downloadApk env apkUrl) afterDownload s = (s', ts) := Option.some.inj h
    rw [handle_ok hp] at heq
    have hspec := afterDownload_spec apkPath s
    rw [heq] at hspec
    exact Or.inr hspec
  | _ => cases h

theorem resume_installing {o : Outcome} {path : String} {ts : List Task}
    (h : program.resume (.installing path) o s = some (s', ts)) :
    s'.navigator = s.navigator ∧ ts = [] := by
  cases o with
  | opened result =>
    obtain ⟨success, hs⟩ := installApk_ok result
    have heq : handle (installApk result) (fun success s => (afterInstall success s, [])) s =
        (s', ts) := Option.some.inj h
    rw [handle_ok hs] at heq
    obtain ⟨rfl, rfl⟩ := Prod.mk.inj heq
    exact ⟨rfl, rfl⟩
  | _ => cases h

/-- A step of the last stages leaves the navigation alone, but for Cancel. -/
theorem resume_ending {ts : List Task} {i : ℕ} {o : Outcome} (hts : Ending ts)
    (hs : program.step ⟨s, ts⟩ (.resume i o) = some w') :
    w'.shared.navigator = s.navigator ∧ Ending w'.tasks := by
  rcases hts with rfl | ⟨path, rfl⟩
  · cases hs
  · obtain ⟨-, s', ts, hres, rfl⟩ := Program.step_alone hs
    obtain ⟨hn, rfl⟩ := resume_installing hres
    exact ⟨hn, Or.inl rfl⟩

theorem call_dialog {k : Tap} (hdialog : s.navigator.routes.head? = some .downloadProgressDialog) :
    program.call k s = (onCancel s, []) := if_pos hdialog

/-- Under another route there is no Cancel to be pressed. -/
theorem call_other {k : Tap} (hother : s.navigator.routes.head? ≠ some .downloadProgressDialog) :
    program.call k s = (s, []) := if_neg hother

theorem step_dialog {ts : List Task} {k : Tap}
    (hdialog : s.navigator.routes.head? = some .downloadProgressDialog)
    (hs : program.step ⟨s, ts⟩ (.call k) = some w') :
    w' = ⟨onCancel s, ts⟩ ∧ ¬NotCancelled ⟨s, ts⟩ (.call k) w' := by
  refine ⟨?_, fun hn => hn rfl hdialog⟩
  rw [Program.step_call, call_dialog hdialog, List.append_nil] at hs
  exact (Option.some.inj hs).symm

theorem step_other {ts : List Task} {k : Tap}
    (hother : s.navigator.routes.head? ≠ some .downloadProgressDialog)
    (hs : program.step ⟨s, ts⟩ (.call k) = some w') :
    w' = ⟨s, ts⟩ ∧ NotCancelled ⟨s, ts⟩ (.call k) w' := by
  refine ⟨?_, fun _ => hother⟩
  rw [Program.step_call, call_other hother, List.append_nil] at hs
  exact (Option.some.inj hs).symm

/-- Where the page is on top, a tap does nothing to the dialog. -/
theorem step_page {ts : List Task} {k : Tap} {below p q : List Route}
    (h : s.navigator = ⟨.updatePage :: below, p, q⟩)
    (hs : program.step ⟨s, ts⟩ (.call k) = some w') :
    w' = ⟨s, ts⟩ ∧ NotCancelled ⟨s, ts⟩ (.call k) w' := by
  have hother : s.navigator.routes.head? ≠ some .downloadProgressDialog := by
    rw [h]
    simp
  exact step_other hother hs

/-- A tap pops at most one route. -/
theorem step_call_spec {ts : List Task} {k : Tap}
    (hs : program.step ⟨s, ts⟩ (.call k) = some w') :
    w'.tasks = ts ∧ w'.shared.navigator.pushed = s.navigator.pushed ∧
      s.navigator.popped.length ≤ w'.shared.navigator.popped.length := by
  by_cases hd : s.navigator.routes.head? = some .downloadProgressDialog
  · obtain ⟨rfl, -⟩ := step_dialog hd hs
    refine ⟨rfl, rfl, ?_⟩
    show s.navigator.popped.length ≤ s.navigator.pop.popped.length
    unfold Navigator.pop
    rw [List.length_append]
    omega
  · obtain ⟨rfl, -⟩ := step_other hd hs
    exact ⟨rfl, rfl, le_rfl⟩

/-! ### The run -/

/-- **Cancel was not pressed**: the dialog is shown while the download runs. -/
inductive Sound (below p q : List Route) : World State Task → Prop
  | asking {s : State} {url : String} (h : s.navigator = ⟨.updatePage :: below, p, q⟩) :
    Sound below p q ⟨s, [.requestingPermissions url]⟩
  | loading {s : State} {url : String}
    (h : s.navigator = ⟨.downloadProgressDialog :: .updatePage :: below,
      .downloadProgressDialog :: p, q⟩) : Sound below p q ⟨s, [.downloading url]⟩
  | refused {s : State} (h : s.navigator = ⟨.updatePage :: below, p, q⟩) : Sound below p q ⟨s, []⟩
  | hidden {s : State} {ts : List Task} (h : s.navigator = ⟨.updatePage :: below,
      .downloadProgressDialog :: p, .downloadProgressDialog :: q⟩) (hts : Ending ts) :
    Sound below p q ⟨s, ts⟩

/-- **Cancel was pressed**: the dialog is gone before the download is over; after the download the
page is gone as well, unless it is the only route. -/
inductive Astray (below p q : List Route) : World State Task → Prop
  | loading {s : State} {url : String} (h : s.navigator = ⟨.updatePage :: below,
      .downloadProgressDialog :: p, .downloadProgressDialog :: q⟩) :
    Astray below p q ⟨s, [.downloading url]⟩
  | kept {s : State} {ts : List Task} (hb : below = []) (h : s.navigator = ⟨[.updatePage],
      .downloadProgressDialog :: p, .downloadProgressDialog :: q⟩) (hts : Ending ts) :
    Astray below p q ⟨s, ts⟩
  | gone {s : State} {ts : List Task} (hb : below ≠ [])
      (h : s.navigator.pushed = .downloadProgressDialog :: p)
      (hlen : q.length + 2 ≤ s.navigator.popped.length) (hts : Ending ts) : Astray below p q ⟨s, ts⟩

theorem sound_step (hw : Sound below p q w) (hs : program.step w e = some w') :
    (NotCancelled w e w' ∧ Sound below p q w') ∨ (¬NotCancelled w e w' ∧ Astray below p q w') := by
  cases e with
  | call k =>
    cases hw with
    | asking h =>
      obtain ⟨rfl, hn⟩ := step_page h hs
      exact Or.inl ⟨hn, .asking h⟩
    | @loading s url h =>
      have hdialog : s.navigator.routes.head? = some .downloadProgressDialog := by
        rw [h]
        rfl
      obtain ⟨rfl, hn⟩ := step_dialog hdialog hs
      refine Or.inr ⟨hn, .loading ?_⟩
      show s.navigator.pop = _
      rw [h]
      rfl
    | refused h =>
      obtain ⟨rfl, hn⟩ := step_page h hs
      exact Or.inl ⟨hn, .refused h⟩
    | hidden h hts =>
      obtain ⟨rfl, hn⟩ := step_page h hs
      exact Or.inl ⟨hn, .hidden h hts⟩
  | resume i o =>
    refine Or.inl ⟨(nomatch ·), ?_⟩
    cases hw with
    | asking h =>
      obtain ⟨-, s', ts, hres, rfl⟩ := Program.step_alone hs
      rcases resume_requesting hres with ⟨hn, rfl⟩ | ⟨hn, rfl⟩
      · exact .loading (by rw [hn, h]; rfl)
      · exact .refused (hn.trans h)
    | loading h =>
      obtain ⟨-, s', ts, hres, rfl⟩ := Program.step_alone hs
      rcases resume_downloading hres with ⟨hn, rfl⟩ | ⟨hn, hts⟩
      · exact .loading (hn.trans h)
      · exact .hidden (hn.trans (navigator_hideDialog h)) hts
    | refused h => cases hs
    | hidden h hts =>
      obtain ⟨hn, hts'⟩ := resume_ending hts hs
      exact .hidden (hn.trans h) hts'

theorem astray_step (hw : Astray below p q w) (hs : program.step w e = some w') :
    Astray below p q w' := by
  cases e with
  | call k =>
    cases hw with
    | loading h =>
      obtain ⟨rfl, -⟩ := step_page h hs
      exact .loading h
    | kept hb h hts =>
      obtain ⟨rfl, -⟩ := step_page h hs
      exact .kept hb h hts
    | gone hb h hlen hts =>
      obtain ⟨s', ts'⟩ := w'
      obtain ⟨rfl, hpushed, hle⟩ := step_call_spec hs
      exact .gone hb (hpushed.trans h) (hlen.trans hle) hts
  | resume i o =>
    cases hw with
    | loading h =>
      obtain ⟨-, s', ts, hres, rfl⟩ := Program.step_alone hs
      rcases resume_downloading hres with ⟨hn, rfl⟩ | ⟨hn, hts⟩
      · exact .loading (hn.trans h)
      · cases below with
        | nil =>
          rw [hideDialog_of_single h] at hn
          exact .kept rfl (hn.trans h) hts
        | cons r rs =>
          rw [navigator_hideDialog h] at hn
          exact .gone (List.cons_ne_nil r rs) (by rw [hn]) (by rw [hn]; rfl) hts
    | kept hb h hts =>
      obtain ⟨hn, hts'⟩ := resume_ending hts hs
      exact .kept hb (hn.trans h) hts'
    | gone hb h hlen hts =>
      obtain ⟨s', ts'⟩ := w'
      obtain ⟨hn, hts'⟩ := resume_ending hts hs
      simp only at hn
      exact .gone hb (by rw [hn, h]) (by rwa [hn]) hts'

/-! ### The law -/

theorem Sound.restored (hw : Sound below p q w) (hdone : w.tasks = [])
    (hs : s.navigator = ⟨.updatePage :: below, p, q⟩) : Restored s w.shared := by
  cases hw with
  | asking h => cases hdone
  | loading h => cases hdone
  | refused h =>
    unfold Restored
    rw [h, hs]
    exact ⟨rfl, [], rfl, rfl⟩
  | hidden h hts =>
    unfold Restored
    rw [h, hs]
    exact ⟨rfl, [.downloadProgressDialog], rfl, rfl⟩

theorem Astray.restored (hw : Astray below p q w) (hdone : w.tasks = [])
    (hs : s.navigator = ⟨.updatePage :: below, p, q⟩) : Restored s w.shared ↔ below = [] := by
  unfold Restored
  rw [hs]
  cases hw with
  | loading h => cases hdone
  | kept hb h hts =>
    subst hb
    rw [h]
    exact ⟨fun _ => rfl, fun _ => ⟨rfl, [.downloadProgressDialog], rfl, rfl⟩⟩
  | gone hb h hlen hts =>
    refine ⟨?_, fun hn => absurd hn hb⟩
    rintro ⟨-, pushed, hpushed, hpopped⟩
    have hone := congrArg List.length hpushed
    rw [h] at hone
    rw [hpopped] at hlen
    simp only [List.length_append, List.length_cons] at hone hlen
    omega

/-- **At the end of a run** the navigation is as it was exactly when Cancel was not pressed, or no
route is below the page. -/
theorem restored_iff {es : List (Event Tap Outcome)}
    (hs : s.navigator.routes = .updatePage :: below)
    (hr : program.run (downloadUpdate apkUrl s) es = some w) (hdone : w.tasks = []) :
    Restored s w.shared ↔ program.Each NotCancelled (downloadUpdate apkUrl s) es ∨ below = [] := by
  have hnav : s.navigator = ⟨.updatePage :: below, s.navigator.pushed, s.navigator.popped⟩ := by
    rw [← hs]
  have hstart : Sound below s.navigator.pushed s.navigator.popped (downloadUpdate apkUrl s) :=
    .asking hnav
  rcases Program.run_inv_or (fun _ _ _ => sound_step) (fun _ _ _ => astray_step) hstart hr with
    ⟨heach, hw⟩ | ⟨heach, hw⟩
  · exact ⟨fun _ => Or.inl heach, fun _ => hw.restored hdone hnav⟩
  · rw [hw.restored hdone hnav, or_iff_right heach]

def overHome : State :=
  ⟨⟨[.updatePage, .other "/home"], [], []⟩, none, false, none, .none, []⟩

/-- Android 13, with the permission to install. -/
def android13 : PermissionEnv := ⟨true, .ok 33, .ok false, .ok 33, .ok true⟩

/-- The client throws as the token is cancelled. -/
def cancelledDownload : DownloadEnv :=
  ⟨true, .ok true, .ok none, .error (.other ""), 0, fun _ => .error (.dio .cancel), .ok false⟩

def cancelRun : List (Event Tap Outcome) :=
  [.resume 0 (.permissions android13), .resume 0 (.received 100 5000), .call .cancel,
    .resume 0 (.downloaded cancelledDownload)]

theorem restored_iff_cancelRun : ∃ w,
    program.run (downloadUpdate "https://u/app.apk" overHome) cancelRun = some w ∧ w.tasks = [] ∧
      (Restored overHome w.shared ↔
        program.Each NotCancelled (downloadUpdate "https://u/app.apk" overHome) cancelRun ∨
          [Route.other "/home"] = []) :=
  ⟨_, rfl, rfl, restored_iff rfl rfl rfl⟩

/-- Cancel over the home page: at the end the page is gone. -/
theorem cancel_pops_page : ∃ w,
    program.run (downloadUpdate "https://u/app.apk" overHome) cancelRun = some w ∧ w.tasks = [] ∧
      w.shared.navigator.routes = [.other "/home"] ∧ ¬Restored overHome w.shared := by
  refine ⟨_, rfl, rfl, rfl, ?_⟩
  rintro ⟨hroutes, -⟩
  cases hroutes

end PixsBliss.Pages.UpdatePage
