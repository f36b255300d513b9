import PixsBliss.Lib.Async
import PixsBliss.Models.RoundTrip
import PixsBliss.Services.UpdateCheck

/-! # The cards of the update page

The page says that it is up to date whenever it knows of no update, checks for none and has no error
to show. But `checkForUpdate` catches everything, so that a check that failed looks like one that
found nothing, and before the first check nothing is known either.

* `known_and_completed_iff`: the checks after which the page is right.
* `card_known_iff`: it is right in every state exactly if it was opened with an update and all
  checks were such. -/

namespace PixsBliss.Pages.UpdateCard

open PixsBliss.Lib.Async PixsBliss.Models PixsBliss.Models.Json PixsBliss.Services.UpdateCheck

/-! ### The page -/

/-- The flags of the page, and whether the button of the last frame can be pressed. As a ghost what
the check awaited that completed last. -/
structure State where
  isChecking : Bool := false
  updateInfo : Option UpdateInfo := none
  errorMessage : Option String := none
  enabled : Bool := true
  lastCheck : Option CheckEnv := none

inductive Card
  | updateAvailable (updateInfo : UpdateInfo)
  | upToDate

structure Status where
  errorMessage : Option String
  card : Option Card

/-- The update status of `build`. -/
def build (s : State) : Status where
  errorMessage := s.errorMessage
  card :=
    match s.updateInfo with
    | some updateInfo => some (.updateAvailable updateInfo)
    | none => if !s.isChecking && s.errorMessage.isNone then some .upToDate else none

/-- The end of `_checkForUpdates`, with what the service gave or threw. -/
def afterCheck (result : Result (Option UpdateInfo)) (s : State) : State :=
  match result with
  | .ok updateInfo => { s with isChecking := false, updateInfo := updateInfo }
  | .error _ =>
    { s with
      isChecking := false
      errorMessage := some "Failed to check for updates. Please try again." }

/-- The service catches everything. -/
def endCheck (c : Codec) (env : CheckEnv) (s : State) : State :=
  { afterCheck (.ok (checkForUpdate c env)) s with lastCheck := some env }

/-- The start of `_checkForUpdates`. -/
def startCheck (s : State) : State :=
  { s with isChecking := true, updateInfo := none, errorMessage := none }

inductive Task
  | checking

/-- The button is pressed; a frame is built. -/
inductive Call
  | checkForUpdates
  | frame

inductive Outcome
  | checked (env : CheckEnv)

abbrev PageWorld := World State Task
abbrev PageEvent := Event Call Outcome

/-- **The page.** The button of a frame stays until the next one. -/
def program (c : Codec) : Program State Task Call Outcome where
  call
    | .checkForUpdates, s =>
      if s.enabled then (startCheck s, [.checking]) else (s, [])
    | .frame, s => ({ s with enabled := !s.isChecking }, [])
  resume
    | .checking, .checked env, s => some (endCheck c env s, [])

def opened (initialUpdateInfo : Option UpdateInfo) : PageWorld :=
  ⟨{ updateInfo := initialUpdateInfo }, []⟩

/-! ### The law -/

/-- The server answered with 200, and with this update. -/
def Answered (c : Codec) (env : CheckEnv) (info : UpdateInfo) : Prop :=
  ∃ response json, getUpdate env = .ok response ∧ response.statusCode = some 200 ∧
    jsonData c response.data = .ok json ∧ UpdateInfo.fromJson json = .ok info

/-- The check did not fail: the version could be compared. -/
def Completed (c : Codec) (env : CheckEnv) : Prop :=
  ∃ info newer, Answered c env info ∧
    isNewerVersion info.version (getCurrentVersion env) = .ok newer

/-- **It is known that nothing is newer** than what is installed. -/
def Known (c : Codec) (env : CheckEnv) : Prop :=
  ∃ info current, Answered c env info ∧ env.packageVersion = .ok current ∧
    isNewerVersion info.version current = .ok false

/-- **What the page may show**: that it is up to date only if this is known from the last check, and
an error if that one failed. -/
def Law (c : Codec) (s : State) : Prop :=
  ((build s).card = some .upToDate → ∃ env, s.lastCheck = some env ∧ Known c env) ∧
    (s.isChecking = false → ∀ env, s.lastCheck = some env → ¬Completed c env →
      (build s).errorMessage ≠ none)

/-- The server offers a newer version, or one that is not newer than the one of the package. -/
def Succeeds (c : Codec) (env : CheckEnv) : Prop :=
  ∃ info, Answered c env info ∧
    (isNewerVersion info.version (getCurrentVersion env) = .ok true ∨
      ∃ current, env.packageVersion = .ok current ∧
        isNewerVersion info.version current = .ok false)

/-- The checks that end succeed. -/
def ChecksSucceed (c : Codec) (_ : PageWorld) (e : PageEvent) (_ : PageWorld) : Prop :=
  ∀ i env, e = .resume i (.checked env) → Succeeds c env

section Checks

variable {c : Codec} {env : CheckEnv} {info : UpdateInfo} {newer : Bool} {s : State}

theorem checkForUpdate_of_answered (h : Answered c env info)
    (hnewer : isNewerVersion info.version (getCurrentVersion env) = .ok newer) :
    checkForUpdate c env = if newer then some info else none := by
  obtain ⟨response, json, hget, hstatus, hjson, hinfo⟩ := h
  unfold checkForUpdate readUpdate
  rw [hget, ok_bind, if_pos hstatus, hjson, ok_bind, hinfo, ok_bind, hnewer, ok_bind]
  cases newer <;> rfl

theorem getCurrentVersion_of_ok {current : String} (h : env.packageVersion = .ok current) :
    getCurrentVersion env = current := by
  rw [getCurrentVersion, h]

/-- **The checks after which the page is right.** -/
theorem known_and_completed_iff :
    ((checkForUpdate c env = none → Known c env) ∧ Completed c env) ↔ Succeeds c env := by
  constructor
  · rintro ⟨hknown, info, newer, hanswered, hnewer⟩
    cases newer with
    | true => exact ⟨info, hanswered, Or.inl hnewer⟩
    | false =>
      obtain ⟨info', current, hanswered', hpackage, hnot⟩ :=
        hknown (checkForUpdate_of_answered hanswered hnewer)
      exact ⟨info', hanswered', Or.inr ⟨current, hpackage, hnot⟩⟩
  · rintro ⟨info, hanswered, hnewer | ⟨current, hpackage, hnot⟩⟩
    · refine ⟨fun hnone => ?_, info, true, hanswered, hnewer⟩
      rw [checkForUpdate_of_answered hanswered hnewer] at hnone
      cases hnone
    · refine ⟨fun _ => ⟨info, current, hanswered, hpackage, hnot⟩, info, false, hanswered, ?_⟩
      rw [getCurrentVersion_of_ok hpackage]
      exact hnot

theorem upToDate_iff (h : s.errorMessage = none) :
    (build s).card = some .upToDate ↔ s.updateInfo = none ∧ s.isChecking = false := by
  unfold build
  cases hinfo : s.updateInfo with
  | some info => simp
  | none => cases hchecking : s.isChecking <;> simp [h]

theorem law_endCheck (h : s.errorMessage = none) :
    Law c (endCheck c env s) ↔ Succeeds c env := by
  have hnone : (endCheck c env s).errorMessage = none := h
  have herror : (build (endCheck c env s)).errorMessage = none := h
  have hinfo : (endCheck c env s).updateInfo = checkForUpdate c env := rfl
  have hlast : (endCheck c env s).lastCheck = some env := rfl
  have hchecking : (endCheck c env s).isChecking = false := rfl
  unfold Law
  rw [upToDate_iff hnone, herror, hlast, hinfo, ← known_and_completed_iff]
  simp only [hchecking, and_true, Option.some.injEq, exists_eq_left', true_imp_iff, ne_eq,
    not_true_eq_false, imp_false, not_not, forall_eq']

theorem law_of_checking (h : s.isChecking = true) : Law c s := by
  refine ⟨fun hcard => ?_, fun hnot => ?_⟩
  · unfold build at hcard
    cases hinfo : s.updateInfo <;> simp [hinfo, h] at hcard
  · rw [h] at hnot
    cases hnot

end Checks

section Steps

variable {c : Codec} {w w' : PageWorld} {e : PageEvent}

theorem call_checkForUpdates (c : Codec) (s : State) :
    (program c).call .checkForUpdates s = (startCheck s, [.checking]) ∨
      (program c).call .checkForUpdates s = (s, []) := by
  by_cases h : s.enabled = true
  · exact Or.inl (if_pos h)
  · exact Or.inr (if_neg h)

/-- **One step.** The button starts over, and a check that ends decides. -/
theorem law_step (herror : w.shared.errorMessage = none) (hlaw : Law c w.shared)
    (hs : (program c).step w e = some w') :
    w'.shared.errorMessage = none ∧ (Law c w'.shared ↔ ChecksSucceed c w e w') := by
  rcases Program.step_cases hs with ⟨k, rfl, rfl⟩ | ⟨l, t, r, o, s, ts, rfl, ht, hr, rfl⟩
  · have hcond : ChecksSucceed c w (.call k) ⟨((program c).call k w.shared).1,
        w.tasks ++ ((program c).call k w.shared).2⟩ := fun i env he => by cases he
    cases k with
    | frame => exact ⟨herror, iff_of_true hlaw hcond⟩
    | checkForUpdates =>
      rcases call_checkForUpdates c w.shared with heq | heq
      · rw [heq] at hcond ⊢
        exact ⟨rfl, iff_of_true (law_of_checking rfl) hcond⟩
      · rw [heq] at hcond ⊢
        exact ⟨herror, iff_of_true hlaw hcond⟩
  · cases t
    cases o with
    | checked env =>
      obtain ⟨rfl, rfl⟩ := Prod.mk.inj (Option.some.inj hr)
      refine ⟨herror, (law_endCheck herror).trans ⟨fun h i env' he => ?_, fun h => h _ env rfl⟩⟩
      obtain ⟨-, ho⟩ := Event.resume.inj he
      obtain rfl := Outcome.checked.inj ho
      exact h

/-- A page that was opened knows of an update, or says that there is none. -/
theorem law_opened_iff (c : Codec) (initialUpdateInfo : Option UpdateInfo) :
    Law c (opened initialUpdateInfo).shared ↔ initialUpdateInfo ≠ none := by
  have hlast : (opened initialUpdateInfo).shared.lastCheck = none := rfl
  have hinfo : (opened initialUpdateInfo).shared.updateInfo = initialUpdateInfo := rfl
  have hchecking : (opened initialUpdateInfo).shared.isChecking = false := rfl
  unfold Law
  rw [upToDate_iff rfl, hlast, hinfo, hchecking]
  constructor
  · rintro ⟨hcard, -⟩ hnone
    obtain ⟨env, henv, -⟩ := hcard ⟨hnone, rfl⟩
    cases henv
  · exact fun hsome => ⟨fun h => absurd h.1 hsome, fun _ env henv => by cases henv⟩

end Steps

/-- **Exactly the runs in which the page only says what is known.** In every state the card is only
shown if the last check found nothing newer, and a failed check shows its error, iff the page was
opened with an update and every check that ends succeeds. -/
theorem card_known_iff (c : Codec) (initialUpdateInfo : Option UpdateInfo) (es : List PageEvent) :
    (Law c (opened initialUpdateInfo).shared ∧
      (program c).Each (fun _ _ w' => Law c w'.shared) (opened initialUpdateInfo) es) ↔
    initialUpdateInfo ≠ none ∧
      (program c).Each (ChecksSucceed c) (opened initialUpdateInfo) es := by
  rw [← law_opened_iff c initialUpdateInfo]
  refine and_congr_right fun hlaw => ?_
  have hstart : (opened initialUpdateInfo).shared.errorMessage = none ∧
      Law c (opened initialUpdateInfo).shared := ⟨rfl, hlaw⟩
  refine Program.each_iff_each
    (I := fun w => w.shared.errorMessage = none ∧ Law c w.shared) ?_ hstart
  rintro w e w' ⟨herror, hw⟩ hs
  obtain ⟨herror', hiff⟩ := law_step herror hw hs
  exact ⟨hiff, fun hw' => ⟨herror', hw'⟩⟩

def offline : CheckEnv := ⟨.error (.exception "DioException [connection error]"), .ok "1.0.0"⟩

def pressed : List PageEvent :=
  [.call .checkForUpdates, .call .frame, .resume 0 (.checked offline), .call .frame]

/-- **Up to date without a check, and after one that failed.** -/
theorem upToDate_unknown : (build (opened none).shared).card = some .upToDate ∧
    ¬Law (sampleCodec []) (opened none).shared ∧
    ∃ w, (program (sampleCodec [])).run (opened none) pressed = some w ∧
      build w.shared = ⟨none, some .upToDate⟩ ∧ ¬Completed (sampleCodec []) offline ∧
      ¬Law (sampleCodec []) w.shared := by
  have hfailed : ¬Completed (sampleCodec []) offline := by
    rintro ⟨info, newer, ⟨response, json, hget, -⟩, -⟩
    cases hget
  refine ⟨rfl, fun h => (law_opened_iff _ none).mp h rfl, _, rfl, rfl, hfailed, fun h => ?_⟩
  exact h.2 rfl offline rfl hfailed rfl

end PixsBliss.Pages.UpdateCard
