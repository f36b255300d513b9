import PixsBliss.Pages.UpdatePage

/-! # What is installed

`downloadApk` takes an answer for the package if its status is below 500 and its file is large, or a
text without two tags. So an error page is handed to the installer if it is large, or none of HTML.

* `downloadApk_isSome_iff`: the answers that are taken.
* `only_packages_iff`: only packages are installed exactly if those answers are packages. -/

namespace PixsBliss.Pages.UpdateInstall

open PixsBliss.Lib.Async PixsBliss.Services.UpdateService PixsBliss.Pages.UpdatePage

/-! ### The answers that are taken -/

/-- The answer is in the file. -/
structure Written (env : DownloadEnv) (apkUrl : String) (answer : ServerAnswer) : Prop where
  directory : ∃ dir, downloadsDir env = .ok (some dir)
  answered : env.get apkUrl = .ok answer
  status_lt : answer.statusCode < 500
  created : env.fileExists = .ok true

/-- A large file, or a text without the tags. -/
def Passes (body : ByteArray) : Prop :=
  1000 ≤ body.size ∨ ∃ content, String.fromUTF8? body = some content ∧ looksLikeHtml content = false

section Taken

variable {env : DownloadEnv} {apkUrl : String} {answer : ServerAnswer}

theorem downloadApk_isSome : (∃ path, downloadApk env apkUrl = .ok (some path)) ↔
    ∃ path, fetchApk env apkUrl = .ok path := by
  unfold downloadApk
  cases fetchApk env apkUrl with
  | error e => exact iff_of_false (fun ⟨_, h⟩ => nomatch h) fun ⟨_, h⟩ => nomatch h
  | ok path => exact ⟨fun _ => ⟨path, rfl⟩, fun _ => ⟨path, rfl⟩⟩

theorem fetchApk_of_written (h : Written env apkUrl answer) :
    (∃ path, fetchApk env apkUrl = .ok path) ↔ Passes answer.body := by
  obtain ⟨⟨dir, hdir⟩, hget, hstatus, hcreated⟩ := h
  have hvalid : validateStatus (some answer.statusCode) = true := decide_eq_true hstatus
  unfold fetchApk download readAsString Passes
  simp only [hdir, hget, hcreated, hvalid, bind, Except.bind, pure, Except.pure, if_true,
    Bool.not_true, Bool.false_eq_true, if_false]
  by_cases hsize : answer.body.size < 1000
  · have hsmall : ¬1000 ≤ answer.body.size := not_le.mpr hsize
    simp only [hsize, hsmall, if_true, false_or]
    cases String.fromUTF8? answer.body with
    | none => exact iff_of_false (fun ⟨_, h⟩ => nomatch h) fun ⟨_, h, _⟩ => nomatch h
    | some content =>
      cases hhtml : looksLikeHtml content with
      | true =>
        refine iff_of_false (fun ⟨path, h⟩ => ?_) ?_
        · simp only [hhtml, if_true] at h
          cases h
        · rintro ⟨content', heq, hno⟩
          rw [← Option.some.inj heq, hhtml] at hno
          cases hno
      | false =>
        simp only [hhtml, Bool.false_eq_true, if_false]
        exact iff_of_true ⟨_, rfl⟩ ⟨content, rfl, hhtml⟩
  · simp only [hsize, if_false]
    exact iff_of_true ⟨_, rfl⟩ (Or.inl (not_lt.mp hsize))

theorem written_of_fetchApk {path : String} (h : fetchApk env apkUrl = .ok path) :
    ∃ answer, Written env apkUrl answer := by
  unfold fetchApk download at h
  cases hdir : downloadsDir env with
  | error e =>
    rw [hdir] at h
    cases h
  | ok directory =>
    cases directory with
    | none =>
      rw [hdir] at h
      cases h
    | some dir =>
      cases hget : env.get apkUrl with
      | error e =>
        rw [hdir, hget] at h
        cases h
      | ok answer =>
        cases hvalid : validateStatus (some answer.statusCode) with
        | false =>
          simp only [hdir, hget, hvalid, bind, Except.bind, Bool.false_eq_true, if_false] at h
          cases h
        | true =>
          refine ⟨answer, ⟨dir, hdir⟩, hget, of_decide_eq_true hvalid, ?_⟩
          simp only [hdir, hget, hvalid, bind, Except.bind, if_true, pure, Except.pure] at h
          cases hcreated : env.fileExists with
          | error e =>
            rw [hcreated] at h
            cases h
          | ok created =>
            cases created with
            | true => rfl
            | false =>
              rw [hcreated] at h
              cases h

/-- **The answers that are taken for the package.** -/
theorem downloadApk_isSome_iff : (∃ path, downloadApk env apkUrl = .ok (some path)) ↔
    ∃ answer, Written env apkUrl answer ∧ Passes answer.body := by
  rw [downloadApk_isSome]
  constructor
  · rintro ⟨path, h⟩
    obtain ⟨answer, hw⟩ := written_of_fetchApk h
    exact ⟨answer, hw, (fetchApk_of_written hw).mp ⟨path, h⟩⟩
  · rintro ⟨answer, hw, hp⟩
    exact (fetchApk_of_written hw).mpr hp

end Taken

/-! ### Packages -/

/-- **The server answered with a package**: with success, and with no HTML page. -/
def IsPackage (isHtmlPage : ByteArray → Prop) (env : DownloadEnv) (apkUrl : String) : Prop :=
  ∃ answer, env.get apkUrl = .ok answer ∧ 200 ≤ answer.statusCode ∧ answer.statusCode < 300 ∧
    ¬isHtmlPage answer.body

/-- An answer that is written and is large, or a text without the tags, is of no status below 200 or
from 300 on, and no page. -/
def NoPageTaken (isHtmlPage : ByteArray → Prop) (env : DownloadEnv) (apkUrl : String) : Prop :=
  ∀ answer, Written env apkUrl answer → Passes answer.body →
    200 ≤ answer.statusCode ∧ answer.statusCode < 300 ∧ ¬isHtmlPage answer.body

section Packages

variable {isHtmlPage : ByteArray → Prop} {env : DownloadEnv} {apkUrl : String}

theorem isPackage_iff : ((∃ path, downloadApk env apkUrl = .ok (some path)) →
    IsPackage isHtmlPage env apkUrl) ↔ NoPageTaken isHtmlPage env apkUrl := by
  rw [downloadApk_isSome_iff]
  constructor
  · intro h answer hw hp
    obtain ⟨answer', hget, hpackage⟩ := h ⟨answer, hw, hp⟩
    obtain rfl := Except.ok.inj (hw.answered.symm.trans hget)
    exact hpackage
  · rintro h ⟨answer, hw, hp⟩
    exact ⟨answer, hw.answered, h answer hw hp⟩

end Packages

/-! ### Runs -/

/-- **Only packages are installed**: an installation that starts is of a file that was downloaded by
then, from an answer with a package. -/
def OnlyPackages (isHtmlPage : ByteArray → Prop) (w : World State Task) (e : Event Tap Outcome)
    (w' : World State Task) : Prop :=
  ∀ path, .installing path ∈ w'.tasks → .installing path ∈ w.tasks ∨
    ∃ i env apkUrl, e = .resume i (.downloaded env) ∧ w.tasks[i]? = some (.downloading apkUrl) ∧
      IsPackage isHtmlPage env apkUrl

def NoneTaken (isHtmlPage : ByteArray → Prop) (w : World State Task) (e : Event Tap Outcome)
    (_ : World State Task) : Prop :=
  ∀ i env apkUrl, e = .resume i (.downloaded env) → w.tasks[i]? = some (.downloading apkUrl) →
    NoPageTaken isHtmlPage env apkUrl

/-- A call awaits one thing at a time. -/
def OneTask (w : World State Task) : Prop := w.tasks = [] ∨ ∃ t, w.tasks = [t]

section Steps

variable {isHtmlPage : ByteArray → Prop} {s s' : State} {w w' : World State Task}
  {e : Event Tap Outcome} {env : DownloadEnv} {apkUrl : String} {ts : List Task}

/-- The end of a download starts an installation iff there is a path. -/
theorem downloaded_cases
    (h : program.resume (.downloading apkUrl) (.downloaded env) s = some (s', ts)) :
    (downloadApk env apkUrl = .ok none ∧ ts = []) ∨
      ∃ path, downloadApk env apkUrl = .ok (some path) ∧ ts = [.installing path] := by
  obtain ⟨apkPath, hpath⟩ := downloadApk_ok env apkUrl
  have heq : handle (downloadApk env apkUrl) afterDownload s = (s', ts) := Option.some.inj h
  rw [handle_ok hpath] at heq
  rw [hpath]
  cases apkPath with
  | none => exact Or.inl ⟨rfl, (Prod.mk.inj heq).2.symm⟩
  | some path => exact Or.inr ⟨path, rfl, (Prod.mk.inj heq).2.symm⟩

theorem resume_of_path {path : String} (h : downloadApk env apkUrl = .ok (some path)) (s : State) :
    program.resume (.downloading apkUrl) (.downloaded env) s =
      some ({ hideDialog s with status := .installing }, [.installing path]) := by
  show some (handle (downloadApk env apkUrl) afterDownload s) = _
  rw [handle_ok h]
  rfl

theorem onlyPackages_downloaded
    (h : program.resume (.downloading apkUrl) (.downloaded env) s = some (s', ts)) :
    OnlyPackages isHtmlPage ⟨s, [.downloading apkUrl]⟩ (.resume 0 (.downloaded env)) ⟨s', ts⟩ ↔
      NoPageTaken isHtmlPage env apkUrl := by
  rw [← isPackage_iff]
  constructor
  · rintro honly ⟨path, hpath⟩
    rcases downloaded_cases h with ⟨hnone, -⟩ | ⟨path', -, rfl⟩
    · rw [hnone] at hpath
      cases hpath
    · rcases honly path' (List.mem_singleton_self _) with hold | ⟨i, env', url, he, hi, hpackage⟩
      · cases List.mem_singleton.mp hold
      · obtain ⟨rfl, ho⟩ := Event.resume.inj he
        obtain rfl := Outcome.downloaded.inj ho
        obtain rfl := Task.downloading.inj (Option.some.inj hi)
        exact hpackage
  · intro hpackage path hmem
    rcases downloaded_cases h with ⟨-, rfl⟩ | ⟨path', hpath, -⟩
    · cases hmem
    · exact Or.inr ⟨0, env, apkUrl, rfl, rfl, hpackage ⟨path', hpath⟩⟩

theorem onlyPackages_quiet {t : Task} {o : Outcome} (hts : ∀ path, .installing path ∉ ts)
    (ho : ∀ env apkUrl, t = .downloading apkUrl → o ≠ .downloaded env) :
    OnlyPackages isHtmlPage ⟨s, [t]⟩ (.resume 0 o) ⟨s', ts⟩ ↔
      NoneTaken isHtmlPage ⟨s, [t]⟩ (.resume 0 o) ⟨s', ts⟩ := by
  refine iff_of_true (fun path hmem => absurd hmem (hts path)) fun i env url he hi => ?_
  obtain ⟨rfl, heq⟩ := Event.resume.inj he
  exact absurd heq (ho env url (Option.some.inj hi))

/-- **One step.** -/
theorem onlyPackages_step (hw : OneTask w) (hs : program.step w e = some w') :
    OneTask w' ∧ (OnlyPackages isHtmlPage w e w' ↔ NoneTaken isHtmlPage w e w') := by
  obtain ⟨s, tasks⟩ := w
  cases e with
  | call k =>
    have htasks : w'.tasks = tasks := (step_call_spec hs).1
    refine ⟨?_, iff_of_true (fun path hmem => Or.inl (htasks ▸ hmem)) ?_⟩
    · unfold OneTask
      rw [htasks]
      exact hw
    · intro i env url he
      cases he
  | resume i o =>
    rcases hw with hnil | ⟨t, ht⟩
    · obtain rfl : tasks = [] := hnil
      cases hs
    · obtain rfl : tasks = [t] := ht
      obtain ⟨rfl, s', ts, hres, rfl⟩ := Program.step_alone hs
      cases t with
      | requestingPermissions url =>
        have hts : ts = [.downloading url] ∨ ts = [] :=
          (resume_requesting hres).imp And.right And.right
        refine ⟨?_, onlyPackages_quiet (fun path hmem => ?_) fun env apkUrl h => by cases h⟩
        · rcases hts with rfl | rfl
          · exact Or.inr ⟨_, rfl⟩
          · exact Or.inl rfl
        · rcases hts with rfl | rfl
          · cases List.mem_singleton.mp hmem
          · cases hmem
      | downloading url =>
        cases o with
        | received received total =>
          obtain ⟨rfl, rfl⟩ := Prod.mk.inj (Option.some.inj hres)
          refine ⟨Or.inr ⟨_, rfl⟩, onlyPackages_quiet (fun path hmem => ?_) ?_⟩
          · cases List.mem_singleton.mp hmem
          · intro env apkUrl _ ho
            cases ho
        | downloaded env =>
          refine ⟨?_, (onlyPackages_downloaded hres).trans ⟨fun h i env' url' he hi => ?_, ?_⟩⟩
          · rcases downloaded_cases hres with ⟨-, rfl⟩ | ⟨path, -, rfl⟩
            · exact Or.inl rfl
            · exact Or.inr ⟨_, rfl⟩
          · obtain ⟨rfl, ho⟩ := Event.resume.inj he
            obtain rfl := Outcome.downloaded.inj ho
            obtain rfl := Task.downloading.inj (Option.some.inj hi)
            exact h
          · exact fun h => h 0 env url rfl rfl
        | _ => cases hres
      | installing path =>
        obtain ⟨-, rfl⟩ := resume_installing hres
        refine ⟨Or.inl rfl, onlyPackages_quiet (fun _ => List.not_mem_nil) fun env apkUrl h => ?_⟩
        cases h

end Steps

/-- **Exactly the answers, and the runs, without an error page.** For whatever counts as an HTML
page: a path means that the server answered with success and no page, iff no other answer is written
that is large or a text without the tags. And along a run of `_downloadUpdate` only packages are
installed iff no such answer comes. -/
theorem only_packages_iff (isHtmlPage : ByteArray → Prop) :
    (∀ env apkUrl, ((∃ path, downloadApk env apkUrl = .ok (some path)) →
      IsPackage isHtmlPage env apkUrl) ↔ NoPageTaken isHtmlPage env apkUrl) ∧
    ∀ (apkUrl : String) (s : State) (es : List (Event Tap Outcome)),
      program.Each (OnlyPackages isHtmlPage) (downloadUpdate apkUrl s) es ↔
        program.Each (NoneTaken isHtmlPage) (downloadUpdate apkUrl s) es := by
  refine ⟨fun env apkUrl => isPackage_iff, fun apkUrl s es => ?_⟩
  have hstart : OneTask (downloadUpdate apkUrl s) := Or.inr ⟨_, rfl⟩
  refine Program.each_iff_each (I := OneTask) (fun w e w' hw hs => ?_) hstart
  obtain ⟨hw', hiff⟩ := onlyPackages_step hw hs
  exact ⟨hiff, fun _ => hw'⟩

/-- The page begins as one of HTML. -/
def BeginsAsHtml (body : ByteArray) : Prop := ∃ rest, body = "<!DOCTYPE html>".toByteArray ++ rest

def errorPage : ByteArray := "<!DOCTYPE html>".toByteArray ++ ⟨Array.replicate 1000 32⟩

def notFound : DownloadEnv :=
  ⟨true, .ok true, .ok none, .error (.other ""), 0, fun _ => .ok ⟨404, errorPage⟩, .ok true⟩

/-- **An error page that is installed.** -/
theorem error_page_installed : ¬IsPackage BeginsAsHtml notFound "https://u/app.apk" ∧
    BeginsAsHtml errorPage ∧ ∃ path w,
      downloadApk notFound "https://u/app.apk" = .ok (some path) ∧
      program.run (downloadUpdate "https://u/app.apk" overHome)
        [.resume 0 (.permissions android13), .resume 0 (.downloaded notFound)] = some w ∧
      w.tasks = [.installing path] := by
  have hsize : 1000 ≤ errorPage.size := by
    have hlen : (⟨Array.replicate 1000 32⟩ : ByteArray).size = 1000 := Array.size_replicate
    rw [errorPage, ByteArray.size_append, hlen]
    omega
  have hwritten : Written notFound "https://u/app.apk" ⟨404, errorPage⟩ :=
    ⟨⟨_, rfl⟩, rfl, by decide, rfl⟩
  obtain ⟨path, hpath⟩ := downloadApk_isSome_iff.mpr ⟨_, hwritten, Or.inl hsize⟩
  have hrun : program.run (downloadUpdate "https://u/app.apk" overHome)
      [.resume 0 (.permissions android13), .resume 0 (.downloaded notFound)] = some
        ⟨_, [.installing path]⟩ :=
    Program.run_cons_some.mpr ⟨_, rfl, Program.run_cons_some.mpr
      ⟨_, Program.step_resume_of (l := []) (r := []) (resume_of_path hpath _), rfl⟩⟩
  refine ⟨?_, ⟨_, rfl⟩, path, _, hpath, hrun, rfl⟩
  rintro ⟨answer, hget, -, hlt, -⟩
  rw [← Except.ok.inj hget] at hlt
  cases hlt

end PixsBliss.Pages.UpdateInstall
