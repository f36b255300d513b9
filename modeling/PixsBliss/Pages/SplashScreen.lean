import PixsBliss.Lib.Flight
import PixsBliss.Lib.Linked

/-! # The splash screen

Each launch starts two routines: `_handleInstallTracking` and `_sendActiveUserHeartbeat`. Both look
up the id of the device in the preferences and, if there is none, generate one and store it; the
first then writes the document of the install, the second that of the active user. Errors of these
writes are swallowed. The preference is the only trace of a tracked install, and it is stored before
the document is written.

A launch is a run of the two routines that may stop anywhere, since the process can be killed; a
history is a list of launches, of which the next one finds what the platform has stored.

* `recorded_iff_careful`: after a launch whose writes have all succeeded, the stored id has its
  document and the heartbeat was sent under it, exactly when in all launches so far the id was
  stored by the tracking, its write has not failed, and no launch has ended between the two.
* `killed_launch_not_recorded`: a launch that is killed after the id was stored. -/

namespace PixsBliss.Pages.SplashScreen

open PixsBliss.Lib.Async PixsBliss.Lib.Flight PixsBliss.Lib.Linked

/-! ### The program -/

/-- A document of `installs`. -/
structure InstallDoc where
  id : String
  platform : String
  appVersion : String
  timestamp : ℤ
deriving DecidableEq

/-- A document of `active_users`, but for the time of the server. -/
structure ActiveUserDoc where
  deviceId : String
  platform : String
  appVersion : String
deriving DecidableEq

/-- What outlives a launch: the preference `install_tracked_id` and the two collections. -/
structure Device where
  installTrackedId : Option String
  installs : LinkedMap String InstallDoc
  activeUsers : LinkedMap String ActiveUserDoc

/-- A launch: the cache of the preferences, which a write changes at once. As ghosts the id of the
heartbeat document that was written, and whether a write to Firestore has failed. -/
structure Session where
  device : Device
  prefs : Option String
  beat : Option String
  writeFailed : Bool

inductive Routine
  | handleInstallTracking
  | sendActiveUserHeartbeat
deriving DecidableEq

/-- What a routine awaits. -/
inductive Stage
  | getInstance
  | storing (id : String)
  | packageInfo (id : String)
  | initializing (id appVersion : String)
  | writing (id appVersion : String) (timestamp : ℤ)
deriving DecidableEq

structure Task where
  routine : Routine
  stage : Stage
deriving DecidableEq

/-- How it ends: the preferences are there, and `uuid` is what `Uuid().v4()` gives; the platform has
stored the id; the package info is there; Firestore is initialized, at a time; a document was
written, or not. -/
inductive Outcome
  | gotPrefs (uuid : String)
  | stored
  | gotPackageInfo (version : String)
  | initialized (now : ℤ)
  | written
  | failed
deriving DecidableEq

abbrev LaunchWorld := World Session Task
abbrev LaunchEvent := Event Empty Outcome

section Program

variable (platform : String)

/-- A routine has the preferences; without an id it stores a new one. -/
def lookUp (r : Routine) (uuid : String) (s : Session) : Session × List Task :=
  match s.prefs with
  | none => ({ s with prefs := some uuid }, [⟨r, .storing uuid⟩])
  | some id =>
    match r with
    | .handleInstallTracking => (s, [])
    | .sendActiveUserHeartbeat => (s, [⟨r, .packageInfo id⟩])

/-- The platform has stored the id. -/
def store (id : String) (s : Session) : Session :=
  { s with device := { s.device with installTrackedId := some id } }

/-- `trackInstall`. -/
def trackInstall (id appVersion : String) (timestamp : ℤ) (s : Session) : Session :=
  { s with device := { s.device with
      installs := s.device.installs.set id ⟨id, platform, appVersion, timestamp⟩ } }

/-- `sendActiveUserHeartbeat`. -/
def sendActiveUserHeartbeat (deviceId appVersion : String) (s : Session) : Session :=
  { s with
    device := { s.device with
      activeUsers := s.device.activeUsers.set deviceId ⟨deviceId, platform, appVersion⟩ }
    beat := some deviceId }

/-- **A launch.** -/
def program : Program Session Task Empty Outcome where
  call k := nomatch k
  resume
    | ⟨r, .getInstance⟩, .gotPrefs uuid, s => some (lookUp r uuid s)
    | ⟨r, .storing id⟩, .stored, s => some (store id s, [⟨r, .packageInfo id⟩])
    | ⟨r, .packageInfo id⟩, .gotPackageInfo version, s => some (s, [⟨r, .initializing id version⟩])
    | ⟨r, .initializing id version⟩, .initialized now, s => some (s, [⟨r, .writing id version now⟩])
    | ⟨.handleInstallTracking, .writing id version now⟩, .written, s =>
      some (trackInstall platform id version now s, [])
    | ⟨.sendActiveUserHeartbeat, .writing id version _⟩, .written, s =>
      some (sendActiveUserHeartbeat platform id version s, [])
    | ⟨_, .writing _ _ _⟩, .failed, s => some ({ s with writeFailed := true }, [])
    | _, _, _ => none

/-- The start of a launch: `initState` calls the two routines. -/
def launch (d : Device) : LaunchWorld :=
  ⟨⟨d, d.installTrackedId, none, false⟩,
    [⟨.handleInstallTracking, .getInstance⟩, ⟨.sendActiveUserHeartbeat, .getInstance⟩]⟩

/-- A history: each launch runs for as long as its list of events says. -/
def history (d : Device) : List (List LaunchEvent) → Option Device
  | [] => some d
  | es :: launches =>
    ((program platform).run (launch d) es).bind fun w => history w.shared.device launches

end Program

/-- A device before the first launch. -/
def newDevice : Device := ⟨none, .empty, .empty⟩

/-! ### The law and its condition -/

/-- **The device is recorded**: the stored id has a document in `installs`, and the heartbeat of the
launch was sent under the same id. -/
def Recorded (s : Session) : Prop :=
  ∃ id doc user, s.device.installTrackedId = some id ∧ s.device.installs.get id = some doc ∧
    doc.id = id ∧ s.beat = some id ∧ s.device.activeUsers.get id = some user ∧ user.deviceId = id

/-- The launch is over and its writes to Firestore have all succeeded. -/
def Succeeded (w : LaunchWorld) : Prop := w.tasks = [] ∧ w.shared.writeFailed = false

/-- The id that is stored is that of the tracking, and the write of the install does not fail. -/
def CarefulTurn : Task → Outcome → Session → Prop
  | ⟨.sendActiveUserHeartbeat, .storing _⟩, .stored, _ => False
  | ⟨.handleInstallTracking, .writing _ _ _⟩, .failed, _ => False
  | _, _, _ => True

/-- The id a task has stored and goes on with. -/
def Stage.carries : Stage → Option String
  | .packageInfo id => some id
  | .initializing id _ => some id
  | .writing id _ _ => some id
  | _ => none

/-- The launch does not end between the storing of the id by the tracking and its write. -/
def CarefulEnd (w : LaunchWorld) : Prop :=
  ∀ t ∈ w.tasks, t.routine = .handleInstallTracking → t.stage.carries = none

/-- A careful launch. -/
def CarefulLaunch (platform : String) (d : Device) (es : List LaunchEvent) : Prop :=
  (program platform).Each (Meets CarefulTurn) (launch d) es ∧
    ∀ w, (program platform).run (launch d) es = some w → CarefulEnd w

/-- A history of careful launches. -/
def CarefulHistory (platform : String) (d : Device) : List (List LaunchEvent) → Prop
  | [] => True
  | es :: launches => CarefulLaunch platform d es ∧
    ∀ w, (program platform).run (launch d) es = some w →
      CarefulHistory platform w.shared.device launches

/-! ### The two routines -/

/-- The stages at which a routine is suspended. -/
def stages (r : Routine) (ts : List Task) : List Stage :=
  ts.filterMap fun t => if t.routine = r then some t.stage else none

/-- The task of a routine at a stage, if it has not ended. -/
def taskAt (r : Routine) (st : Option Stage) : List Task := (st.map (Task.mk r)).toList

theorem stages_append (r : Routine) (ts ts' : List Task) :
    stages r (ts ++ ts') = stages r ts ++ stages r ts' := List.filterMap_append

theorem stages_cons_self (r : Routine) (st : Stage) (ts : List Task) :
    stages r (⟨r, st⟩ :: ts) = st :: stages r ts := by
  simp [stages]

theorem stages_cons_ne {r r' : Routine} (h : r' ≠ r) (st : Stage) (ts : List Task) :
    stages r (⟨r', st⟩ :: ts) = stages r ts := by
  simp [stages, h]

theorem stages_taskAt (r : Routine) (st : Option Stage) : stages r (taskAt r st) = st.toList := by
  cases st with
  | none => rfl
  | some st => exact stages_cons_self r st []

theorem stages_taskAt_ne {r r' : Routine} (h : r' ≠ r) (st : Option Stage) :
    stages r (taskAt r' st) = [] := by
  cases st with
  | none => rfl
  | some st => exact stages_cons_ne h st []

variable {platform : String} {s s' : Session} {w w' : LaunchWorld} {e : LaunchEvent}
  {es : List LaunchEvent} {d d' : Device} {o : Outcome} {ts : List Task}

/-- **What a turn of a routine does.** -/
inductive Turn (platform : String) : Routine → Stage → Outcome → Session → Session →
    Option Stage → Prop
  | create {r : Routine} {uuid : String} {s : Session} (h : s.prefs = none) :
    Turn platform r .getInstance (.gotPrefs uuid) s { s with prefs := some uuid }
      (some (.storing uuid))
  | skip {uuid id : String} {s : Session} (h : s.prefs = some id) :
    Turn platform .handleInstallTracking .getInstance (.gotPrefs uuid) s s none
  | goOn {uuid id : String} {s : Session} (h : s.prefs = some id) :
    Turn platform .sendActiveUserHeartbeat .getInstance (.gotPrefs uuid) s s
      (some (.packageInfo id))
  | store {r : Routine} {id : String} {s : Session} :
    Turn platform r (.storing id) .stored s (store id s) (some (.packageInfo id))
  | info {r : Routine} {id version : String} {s : Session} :
    Turn platform r (.packageInfo id) (.gotPackageInfo version) s s
      (some (.initializing id version))
  | init {r : Routine} {id version : String} {now : ℤ} {s : Session} :
    Turn platform r (.initializing id version) (.initialized now) s s
      (some (.writing id version now))
  | track {id version : String} {now : ℤ} {s : Session} :
    Turn platform .handleInstallTracking (.writing id version now) .written s
      (trackInstall platform id version now s) none
  | beat {id version : String} {now : ℤ} {s : Session} :
    Turn platform .sendActiveUserHeartbeat (.writing id version now) .written s
      (sendActiveUserHeartbeat platform id version s) none
  | fail {r : Routine} {id version : String} {now : ℤ} {s : Session} :
    Turn platform r (.writing id version now) .failed s { s with writeFailed := true } none

theorem lookUp_turn (platform : String) (r : Routine) (uuid : String) (s : Session) :
    ∃ st, (lookUp r uuid s).2 = taskAt r st ∧
      Turn platform r .getInstance (.gotPrefs uuid) s (lookUp r uuid s).1 st := by
  unfold lookUp
  cases hp : s.prefs with
  | none => exact ⟨_, rfl, .create hp⟩
  | some id =>
    cases r with
    | handleInstallTracking => exact ⟨none, rfl, .skip hp⟩
    | sendActiveUserHeartbeat => exact ⟨some (.packageInfo id), rfl, .goOn hp⟩

theorem resume_turn {r : Routine} {st : Stage}
    (h : (program platform).resume ⟨r, st⟩ o s = some (s', ts)) :
    ∃ st', ts = taskAt r st' ∧ Turn platform r st o s s' st' := by
  cases st with
  | getInstance =>
    cases o with
    | gotPrefs uuid =>
      obtain ⟨st', hts, hturn⟩ := lookUp_turn platform r uuid s
      rw [show lookUp r uuid s = (s', ts) from Option.some.inj h] at hts hturn
      exact ⟨st', hts, hturn⟩
    | _ => cases h
  | storing id =>
    cases o with
    | stored =>
      obtain ⟨rfl, rfl⟩ := Prod.mk.inj (Option.some.inj h)
      exact ⟨_, rfl, .store⟩
    | _ => cases h
  | packageInfo id =>
    cases o with
    | gotPackageInfo version =>
      obtain ⟨rfl, rfl⟩ := Prod.mk.inj (Option.some.inj h)
      exact ⟨_, rfl, .info⟩
    | _ => cases h
  | initializing id version =>
    cases o with
    | initialized now =>
      obtain ⟨rfl, rfl⟩ := Prod.mk.inj (Option.some.inj h)
      exact ⟨_, rfl, .init⟩
    | _ => cases h
  | writing id version now =>
    cases o with
    | written =>
      cases r with
      | handleInstallTracking =>
        obtain ⟨rfl, rfl⟩ := Prod.mk.inj (Option.some.inj h)
        exact ⟨none, rfl, .track⟩
      | sendActiveUserHeartbeat =>
        obtain ⟨rfl, rfl⟩ := Prod.mk.inj (Option.some.inj h)
        exact ⟨none, rfl, .beat⟩
    | failed =>
      have hf : ({ s with writeFailed := true }, []) = (s', ts) := by
        cases r <;> exact Option.some.inj h
      obtain ⟨rfl, rfl⟩ := Prod.mk.inj hf
      exact ⟨none, rfl, .fail⟩
    | _ => cases r <;> cases h

/-- Where the two routines are. -/
structure At (w : LaunchWorld) (t h : Option Stage) : Prop where
  tracking : stages .handleInstallTracking w.tasks = t.toList
  heartbeat : stages .sendActiveUserHeartbeat w.tasks = h.toList

theorem at_launch (d : Device) : At (launch d) (some .getInstance) (some .getInstance) := ⟨rfl, rfl⟩

/-- The stages of a routine before and after its turn. -/
theorem stages_turn {r : Routine} {st : Stage} {now : Option Stage} {us l r' : List Task}
    (st' : Option Stage) (hus : us = l ++ ⟨r, st⟩ :: r') (hn : stages r us = now.toList) :
    now = some st ∧ stages r (l ++ taskAt r st' ++ r') = st'.toList := by
  rw [hus, stages_append, stages_cons_self] at hn
  cases now with
  | none => simp at hn
  | some st₀ =>
    have hlen := congrArg List.length hn
    simp only [List.length_append, List.length_cons, Option.toList, List.length_nil] at hlen
    have hl : stages r l = [] := List.length_eq_zero_iff.mp (by omega)
    have hr : stages r r' = [] := List.length_eq_zero_iff.mp (by omega)
    rw [hl, hr] at hn
    rw [stages_append, stages_append, hl, hr, stages_taskAt]
    obtain ⟨rfl, -⟩ := List.cons.inj hn
    exact ⟨rfl, by simp⟩

/-- The stages of the other routine. -/
theorem stages_other {r r' : Routine} (hr : r ≠ r') {st : Stage} {us l l' : List Task}
    (st' : Option Stage) (hus : us = l ++ ⟨r, st⟩ :: l') :
    stages r' (l ++ taskAt r st' ++ l') = stages r' us := by
  rw [hus, stages_append, stages_append, stages_append, stages_taskAt_ne hr, stages_cons_ne hr,
    List.append_nil]

/-- **One step**: a turn of the tracking, or of the heartbeat. -/
theorem step_at {t h : Option Stage} (ha : At w t h) (hs : (program platform).step w e = some w') :
    (∃ st o t', t = some st ∧ At w' t' h ∧
      Turn platform .handleInstallTracking st o w.shared w'.shared t' ∧
      (Meets CarefulTurn w e w' ↔ CarefulTurn ⟨.handleInstallTracking, st⟩ o w.shared)) ∨
    ∃ st o h', h = some st ∧ At w' t h' ∧
      Turn platform .sendActiveUserHeartbeat st o w.shared w'.shared h' ∧
      (Meets CarefulTurn w e w' ↔ CarefulTurn ⟨.sendActiveUserHeartbeat, st⟩ o w.shared) := by
  rcases Program.step_cases hs with ⟨k, -, -⟩ | ⟨l, ⟨r, st⟩, l', o, s, ts, rfl, ht, hr, rfl⟩
  · exact nomatch k
  · obtain ⟨st', rfl, hturn⟩ := resume_turn hr
    cases r with
    | handleInstallTracking =>
      obtain ⟨rfl, hself⟩ := stages_turn st' ht ha.tracking
      have hne : Routine.handleInstallTracking ≠ .sendActiveUserHeartbeat := by decide
      have hother := stages_other hne st' ht
      exact Or.inl ⟨st, o, st', rfl, ⟨hself, hother.trans ha.heartbeat⟩, hturn, meets_resume ht⟩
    | sendActiveUserHeartbeat =>
      obtain ⟨rfl, hself⟩ := stages_turn st' ht ha.heartbeat
      have hne : Routine.sendActiveUserHeartbeat ≠ .handleInstallTracking := by decide
      have hother := stages_other hne st' ht
      exact Or.inr ⟨st, o, st', rfl, ⟨hother.trans ha.tracking, hself⟩, hturn, meets_resume ht⟩

/-! ### The stored id and its document -/

/-- The tracking has not looked up the id yet, or has ended. -/
def Idle (t : Option Stage) : Prop := t = some .getInstance ∨ t = none

/-- The heartbeat is not storing an id. -/
def Calm (h : Option Stage) : Prop := ∀ id, h ≠ some (.storing id)

/-- No install has been written. -/
def Unwritten (d : Device) : Prop := ∀ id, d.installs.get id = none

/-- **A launch in which nothing has gone wrong**: no id, an id that one of the two is storing, a
stored id with its document to come, or with its document. -/
inductive Phase (s : Session) (t h : Option Stage) : Prop
  | fresh (hp : s.prefs = none) (hd : s.device.installTrackedId = none) (hi : Unwritten s.device)
    (ht : t = some .getInstance) (hh : h = some .getInstance)
  | generated (id : String) (hp : s.prefs = some id) (hd : s.device.installTrackedId = none)
    (hi : Unwritten s.device) (ht : t = some (.storing id)) (hh : Calm h)
  | foreign (id : String) (hp : s.prefs = some id) (hd : s.device.installTrackedId = none)
    (hi : Unwritten s.device) (ht : Idle t) (hh : h = some (.storing id))
  | tracking (id : String) (st : Stage) (hp : s.prefs = some id)
    (hd : s.device.installTrackedId = some id) (hi : s.device.installs.get id = none)
    (ht : t = some st) (hst : st.carries = some id) (hh : Calm h)
  | tracked (id : String) (doc : InstallDoc) (hp : s.prefs = some id)
    (hd : s.device.installTrackedId = some id) (hi : s.device.installs.get id = some doc)
    (hdoc : doc.id = id) (ht : Idle t) (hh : Calm h)

/-- **A launch that has lost its install**: the id is stored, and nothing will write its
document. -/
structure Lost (s : Session) (t h : Option Stage) : Prop where
  stored : ∃ id, s.prefs = some id ∧ s.device.installTrackedId = some id ∧
    s.device.installs.get id = none
  idle : Idle t
  calm : Calm h

theorem idle_some {st : Stage} : Idle (some st) ↔ st = .getInstance := by
  simp [Idle]

theorem calm_none : Calm none := by
  rintro id ⟨⟩

theorem calm_getInstance : Calm (some .getInstance) := by
  rintro id ⟨⟩

theorem calm_of_carries {st : Stage} {id : String} (h : st.carries = some id) : Calm (some st) := by
  rintro id' ⟨⟩
  cases h

theorem Stage.not_idle {st : Stage} {id : String} (h : st.carries = some id) :
    ¬Idle (some st) := by
  rw [idle_some]
  rintro rfl
  cases h

section Turns

variable {t t' h h' : Option Stage} {st : Stage} {id : String}

/-- Without an id in the preferences, nothing has begun. -/
theorem Phase.unset (hp : Phase s t h) (hn : s.prefs = none) :
    s.device.installTrackedId = none ∧ Unwritten s.device ∧ t = some .getInstance ∧
      h = some .getInstance := by
  cases hp with
  | fresh _ hd hi ht hh => exact ⟨hd, hi, ht, hh⟩
  | generated id hp _ _ _ _ => cases hn.symm.trans hp
  | foreign id hp _ _ _ _ => cases hn.symm.trans hp
  | tracking id st hp _ _ _ _ _ => cases hn.symm.trans hp
  | tracked id doc hp _ _ _ _ _ => cases hn.symm.trans hp

/-- While the tracking carries an id, the id is stored and has no document. -/
theorem Phase.carried (hp : Phase s (some st) h) (hst : st.carries = some id) :
    s.prefs = some id ∧ s.device.installTrackedId = some id ∧
      s.device.installs.get id = none ∧ Calm h := by
  cases hp with
  | fresh _ _ _ ht _ =>
    cases ht
    cases hst
  | generated id' _ _ _ ht _ =>
    cases ht
    cases hst
  | foreign id' _ _ _ ht _ => exact absurd ht (Stage.not_idle hst)
  | tracking id' st' hp hd hi ht hst' hh =>
    cases ht
    obtain rfl : id = id' := Option.some.inj (hst.symm.trans hst')
    exact ⟨hp, hd, hi, hh⟩
  | tracked id' doc _ _ _ _ ht _ => exact absurd ht (Stage.not_idle hst)

/-- While the tracking is storing an id, none is stored. -/
theorem Phase.storing (hp : Phase s (some (.storing id)) h) :
    s.prefs = some id ∧ s.device.installTrackedId = none ∧ Unwritten s.device ∧ Calm h := by
  cases hp with
  | fresh _ _ _ ht _ => cases ht
  | generated id' hp hd hi ht hh =>
    cases ht
    exact ⟨hp, hd, hi, hh⟩
  | foreign id' _ _ _ ht _ => cases idle_some.mp ht
  | tracking id' st' _ _ _ ht hst' _ =>
    cases ht
    cases hst'
  | tracked id' doc _ _ _ _ ht _ => cases idle_some.mp ht

/-- With an id in the preferences, a tracking that begins changes nothing. -/
theorem Phase.skipped (hp : Phase s (some .getInstance) h) (hid : s.prefs = some id) :
    Phase s none h := by
  cases hp with
  | fresh hp _ _ _ _ => cases hp.symm.trans hid
  | generated id' _ _ _ ht _ => cases ht
  | foreign id' hp hd hi _ hh => exact .foreign id' hp hd hi (Or.inr rfl) hh
  | tracking id' st' _ _ _ ht hst' _ =>
    cases ht
    cases hst'
  | tracked id' doc hp hd hi hdoc _ hh => exact .tracked id' doc hp hd hi hdoc (Or.inr rfl) hh

/-- **A turn of the tracking.** -/
theorem phase_tracking (hp : Phase s (some st) h)
    (hturn : Turn platform .handleInstallTracking st o s s' t') :
    (CarefulTurn ⟨.handleInstallTracking, st⟩ o s ∧ Phase s' t' h) ∨
    (¬CarefulTurn ⟨.handleInstallTracking, st⟩ o s ∧ Lost s' t' h) := by
  cases hturn with
  | create hn =>
    obtain ⟨hd, hi, -, rfl⟩ := hp.unset hn
    exact Or.inl ⟨trivial, .generated _ rfl hd hi rfl calm_getInstance⟩
  | skip hid => exact Or.inl ⟨trivial, hp.skipped hid⟩
  | store =>
    obtain ⟨hp, hd, hi, hh⟩ := hp.storing
    exact Or.inl ⟨trivial, .tracking _ _ hp rfl (hi _) rfl rfl hh⟩
  | info =>
    obtain ⟨hp, hd, hi, hh⟩ := hp.carried rfl
    exact Or.inl ⟨trivial, .tracking _ _ hp hd hi rfl rfl hh⟩
  | init =>
    obtain ⟨hp, hd, hi, hh⟩ := hp.carried rfl
    exact Or.inl ⟨trivial, .tracking _ _ hp hd hi rfl rfl hh⟩
  | track =>
    obtain ⟨hp, hd, -, hh⟩ := hp.carried rfl
    exact Or.inl ⟨trivial, .tracked _ _ hp hd LinkedMap.get_set_self rfl (Or.inr rfl) hh⟩
  | fail =>
    obtain ⟨hp, hd, hi, hh⟩ := hp.carried rfl
    exact Or.inr ⟨id, ⟨_, hp, hd, hi⟩, Or.inr rfl, hh⟩

/-- A turn of the heartbeat that changes neither id nor installs. -/
theorem Phase.of_calm (hp : Phase s t h) (hfresh : s.prefs = none → h ≠ some .getInstance)
    (hh : Calm h) (hprefs : s'.prefs = s.prefs)
    (hdev : s'.device.installTrackedId = s.device.installTrackedId)
    (hinst : s'.device.installs = s.device.installs) (hh' : Calm h') : Phase s' t h' := by
  cases hp with
  | fresh hp _ _ _ hst => exact absurd hst (hfresh hp)
  | generated id' hp hd hi ht _ =>
    refine .generated id' (hprefs.trans hp) (hdev.trans hd) (fun id => ?_) ht hh'
    rw [hinst]
    exact hi id
  | foreign id' _ _ _ _ hst => exact absurd hst (hh id')
  | tracking id' st' hp hd hi ht hst' _ =>
    exact .tracking id' st' (hprefs.trans hp) (hdev.trans hd) (by rwa [hinst]) ht hst' hh'
  | tracked id' doc hp hd hi hdoc ht _ =>
    exact .tracked id' doc (hprefs.trans hp) (hdev.trans hd) (by rwa [hinst]) hdoc ht hh'

/-- **A turn of the heartbeat.** -/
theorem phase_heartbeat (hp : Phase s t (some st))
    (hturn : Turn platform .sendActiveUserHeartbeat st o s s' h') :
    (CarefulTurn ⟨.sendActiveUserHeartbeat, st⟩ o s ∧ Phase s' t h') ∨
    (¬CarefulTurn ⟨.sendActiveUserHeartbeat, st⟩ o s ∧ Lost s' t h') := by
  have hquiet : ∀ {id : String} {s' : Session}, st.carries = some id → s'.prefs = s.prefs →
      s'.device.installTrackedId = s.device.installTrackedId →
      s'.device.installs = s.device.installs → Calm h' → Phase s' t h' := by
    intro id s' hst hprefs hdev hinst hh'
    refine hp.of_calm (fun _ he => ?_) (calm_of_carries hst) hprefs hdev hinst hh'
    cases he
    cases hst
  cases hturn with
  | create hn =>
    obtain ⟨hd, hi, ht, -⟩ := hp.unset hn
    exact Or.inl ⟨trivial, .foreign _ rfl hd hi (Or.inl ht) rfl⟩
  | goOn hid =>
    refine Or.inl ⟨trivial, hp.of_calm (fun hn => ?_) calm_getInstance rfl rfl rfl ?_⟩
    · cases hn.symm.trans hid
    · exact calm_of_carries rfl
  | store =>
    cases hp with
    | fresh _ _ _ _ hh => cases hh
    | generated id' _ _ _ _ hh => exact absurd rfl (hh _)
    | foreign id' hp _ hi ht hh =>
      cases hh
      exact Or.inr ⟨id, ⟨_, hp, rfl, hi _⟩, ht, calm_of_carries rfl⟩
    | tracking id' st' _ _ _ _ _ hh => exact absurd rfl (hh _)
    | tracked id' doc _ _ _ _ _ hh => exact absurd rfl (hh _)
  | info => exact Or.inl ⟨trivial, hquiet rfl rfl rfl rfl (calm_of_carries rfl)⟩
  | init => exact Or.inl ⟨trivial, hquiet rfl rfl rfl rfl (calm_of_carries rfl)⟩
  | beat => exact Or.inl ⟨trivial, hquiet rfl rfl rfl rfl calm_none⟩
  | fail => exact Or.inl ⟨trivial, hquiet rfl rfl rfl rfl calm_none⟩

/-- What is lost stays lost: the tracking finds the id, and the heartbeat writes no install. -/
theorem lost_tracking (hl : Lost s (some st) h)
    (hturn : Turn platform .handleInstallTracking st o s s' t') : Lost s' t' h := by
  obtain ⟨⟨id, hp, hd, hi⟩, ht, hh⟩ := hl
  obtain rfl := idle_some.mp ht
  cases hturn with
  | create hn => cases hn.symm.trans hp
  | skip _ => exact ⟨⟨id, hp, hd, hi⟩, Or.inr rfl, hh⟩

theorem lost_heartbeat (hl : Lost s t (some st))
    (hturn : Turn platform .sendActiveUserHeartbeat st o s s' h') : Lost s' t h' := by
  obtain ⟨⟨id, hp, hd, hi⟩, ht, hh⟩ := hl
  cases hturn with
  | create hn => cases hn.symm.trans hp
  | store => exact absurd rfl (hh _)
  | goOn _ => exact ⟨⟨id, hp, hd, hi⟩, ht, calm_of_carries rfl⟩
  | info => exact ⟨⟨id, hp, hd, hi⟩, ht, calm_of_carries rfl⟩
  | init => exact ⟨⟨id, hp, hd, hi⟩, ht, calm_of_carries rfl⟩
  | beat => exact ⟨⟨id, hp, hd, hi⟩, ht, calm_none⟩
  | fail => exact ⟨⟨id, hp, hd, hi⟩, ht, calm_none⟩

/-! ### The heartbeat -/

/-- The heartbeat goes on with the id of the preferences, under which it is sent in the end. -/
def Beaten (s : Session) : Option Stage → Prop
  | none => s.writeFailed = true ∨ ∃ id user, s.prefs = some id ∧ s.beat = some id ∧
      s.device.activeUsers.get id = some user ∧ user.deviceId = id
  | some st => ∀ id, st = .storing id ∨ st.carries = some id → s.prefs = some id

theorem prefs_turn {r : Routine} (hturn : Turn platform r st o s s' t') (hp : s.prefs = some id) :
    s'.prefs = some id := by
  cases hturn with
  | create hn => cases hn.symm.trans hp
  | _ => exact hp

theorem beaten_tracking (hb : Beaten s h)
    (hturn : Turn platform .handleInstallTracking st o s s' t') : Beaten s' h := by
  cases h with
  | some st' => exact fun id hst => prefs_turn hturn (hb id hst)
  | none =>
    rcases hb with hw | ⟨id, user, hp, hbeat, hget, hu⟩
    · left
      cases hturn <;> first | exact hw | rfl
    · right
      refine ⟨id, user, prefs_turn hturn hp, ?_, ?_, hu⟩
      · cases hturn <;> exact hbeat
      · cases hturn <;> exact hget

theorem beaten_heartbeat (hb : Beaten s (some st))
    (hturn : Turn platform .sendActiveUserHeartbeat st o s s' h') : Beaten s' h' := by
  cases hturn with
  | create _ =>
    rintro id (⟨⟨⟩⟩ | ⟨⟨⟩⟩)
    rfl
  | goOn hid =>
    rintro id (⟨⟨⟩⟩ | ⟨⟨⟩⟩)
    exact hid
  | store =>
    rintro id (⟨⟨⟩⟩ | ⟨⟨⟩⟩)
    exact hb _ (Or.inl rfl)
  | info =>
    rintro id (⟨⟨⟩⟩ | ⟨⟨⟩⟩)
    exact hb _ (Or.inr rfl)
  | init =>
    rintro id (⟨⟨⟩⟩ | ⟨⟨⟩⟩)
    exact hb _ (Or.inr rfl)
  | beat => exact Or.inr ⟨_, _, hb _ (Or.inr rfl), rfl, LinkedMap.get_set_self, rfl⟩
  | fail => exact Or.inl rfl

end Turns

/-! ### A launch -/

/-- Nothing has gone wrong. -/
def Sound (w : LaunchWorld) : Prop :=
  ∃ t h, At w t h ∧ Phase w.shared t h ∧ Beaten w.shared h

/-- The install is lost. -/
def Astray (w : LaunchWorld) : Prop :=
  ∃ t h, At w t h ∧ Lost w.shared t h ∧ Beaten w.shared h

/-- A device without an id, or with an id that has its document. -/
def Tracked (d : Device) : Prop :=
  (d.installTrackedId = none ∧ Unwritten d) ∨
  ∃ id doc, d.installTrackedId = some id ∧ d.installs.get id = some doc ∧ doc.id = id

/-- A device with an id that has no document. -/
def Untracked (d : Device) : Prop :=
  ∃ id, d.installTrackedId = some id ∧ d.installs.get id = none

theorem beaten_getInstance (s : Session) : Beaten s (some .getInstance) := by
  rintro id (⟨⟨⟩⟩ | ⟨⟨⟩⟩)

theorem sound_launch (hd : Tracked d) : Sound (launch d) := by
  refine ⟨_, _, at_launch d, ?_, beaten_getInstance _⟩
  rcases hd with ⟨hn, hi⟩ | ⟨id, doc, hid, hget, hdoc⟩
  · exact .fresh hn hn hi rfl rfl
  · exact .tracked id doc hid hid hget hdoc (Or.inl rfl) calm_getInstance

theorem astray_launch (hd : Untracked d) : Astray (launch d) := by
  obtain ⟨id, hid, hget⟩ := hd
  exact ⟨_, _, at_launch d, ⟨⟨id, hid, hid, hget⟩, Or.inl rfl, calm_getInstance⟩,
    beaten_getInstance _⟩

theorem sound_step (hw : Sound w) (hs : (program platform).step w e = some w') :
    (Meets CarefulTurn w e w' ∧ Sound w') ∨ (¬Meets CarefulTurn w e w' ∧ Astray w') := by
  obtain ⟨t, h, ha, hp, hb⟩ := hw
  rcases step_at ha hs with ⟨st, o, t', rfl, ha', hturn, hm⟩ | ⟨st, o, h', rfl, ha', hturn, hm⟩
  · have hb' := beaten_tracking hb hturn
    rw [hm]
    rcases phase_tracking hp hturn with ⟨hc, hp'⟩ | ⟨hc, hl⟩
    · exact Or.inl ⟨hc, t', h, ha', hp', hb'⟩
    · exact Or.inr ⟨hc, t', h, ha', hl, hb'⟩
  · have hb' := beaten_heartbeat hb hturn
    rw [hm]
    rcases phase_heartbeat hp hturn with ⟨hc, hp'⟩ | ⟨hc, hl⟩
    · exact Or.inl ⟨hc, t, h', ha', hp', hb'⟩
    · exact Or.inr ⟨hc, t, h', ha', hl, hb'⟩

theorem astray_step (hw : Astray w) (hs : (program platform).step w e = some w') : Astray w' := by
  obtain ⟨t, h, ha, hl, hb⟩ := hw
  rcases step_at ha hs with ⟨st, o, t', rfl, ha', hturn, -⟩ | ⟨st, o, h', rfl, ha', hturn, -⟩
  · exact ⟨t', h, ha', lost_tracking hl hturn, beaten_tracking hb hturn⟩
  · exact ⟨t, h', ha', lost_heartbeat hl hturn, beaten_heartbeat hb hturn⟩

/-- The task of a routine that is suspended. -/
theorem mem_tasks_iff {r : Routine} {st : Stage} {us : List Task} :
    ⟨r, st⟩ ∈ us ↔ st ∈ stages r us := by
  unfold stages
  rw [List.mem_filterMap]
  constructor
  · exact fun h => ⟨⟨r, st⟩, h, if_pos rfl⟩
  · rintro ⟨⟨r', st'⟩, h, hst⟩
    split_ifs at hst with hr
    obtain rfl := Option.some.inj hst
    exact hr ▸ h

/-- A sound launch leaves a tracked device, if it does not end while the tracking carries an id. -/
theorem Sound.ends (hw : Sound w) : (CarefulEnd w ∧ Tracked w.shared.device) ∨
    (¬CarefulEnd w ∧ Untracked w.shared.device) := by
  obtain ⟨t, h, ha, hp, -⟩ := hw
  have hcareful : (∀ st, t = some st → st.carries = none) → CarefulEnd w := by
    rintro ht ⟨r, st⟩ hmem rfl
    have hst := mem_tasks_iff.mp hmem
    rw [ha.tracking, Option.mem_toList] at hst
    exact ht st hst
  have hidle : Idle t → CarefulEnd w := by
    rintro (rfl | rfl)
    · exact hcareful fun st hst => by cases hst; rfl
    · exact hcareful fun st hst => by cases hst
  cases hp with
  | fresh _ hd hi ht _ => exact Or.inl ⟨hidle (Or.inl ht), Or.inl ⟨hd, hi⟩⟩
  | generated id _ hd hi ht _ =>
    refine Or.inl ⟨hcareful fun st hst => ?_, Or.inl ⟨hd, hi⟩⟩
    cases ht.symm.trans hst
    rfl
  | foreign id _ hd hi ht _ => exact Or.inl ⟨hidle ht, Or.inl ⟨hd, hi⟩⟩
  | tracking id st _ hd hi ht hst _ =>
    refine Or.inr ⟨fun hc => ?_, id, hd, hi⟩
    have hmem : (⟨.handleInstallTracking, st⟩ : Task) ∈ w.tasks := by
      rw [mem_tasks_iff, ha.tracking, ht]
      exact List.mem_singleton.mpr rfl
    cases (hc _ hmem rfl).symm.trans hst
  | tracked id doc _ hd hi hdoc ht _ => exact Or.inl ⟨hidle ht, Or.inr ⟨id, doc, hd, hi, hdoc⟩⟩

theorem Astray.ends (hw : Astray w) : Untracked w.shared.device := by
  obtain ⟨t, h, -, ⟨⟨id, -, hd, hi⟩, -, -⟩, -⟩ := hw
  exact ⟨id, hd, hi⟩

/-- **One launch.** -/
theorem tracked_launch (hd : Tracked d) (hw : (program platform).run (launch d) es = some w) :
    (CarefulLaunch platform d es ∧ Tracked w.shared.device) ∨
    (¬CarefulLaunch platform d es ∧ Untracked w.shared.device) := by
  have hend : (∀ w', (program platform).run (launch d) es = some w' → CarefulEnd w') ↔
      CarefulEnd w := by
    rw [hw]
    simp
  unfold CarefulLaunch
  rw [hend]
  rcases Program.run_inv_or (fun _ _ _ => sound_step) (fun _ _ _ => astray_step)
    (sound_launch hd) hw with ⟨heach, hs⟩ | ⟨heach, ha⟩
  · rcases hs.ends with ⟨hc, ht⟩ | ⟨hc, hu⟩
    · exact Or.inl ⟨⟨heach, hc⟩, ht⟩
    · exact Or.inr ⟨fun h => hc h.2, hu⟩
  · exact Or.inr ⟨fun h => heach h.1, ha.ends⟩

theorem untracked_launch (hd : Untracked d)
    (hw : (program platform).run (launch d) es = some w) : Untracked w.shared.device :=
  (Program.run_inv (fun _ _ _ => astray_step) (astray_launch hd) hw).ends

/-! ### Histories -/

theorem history_cons {launches : List (List LaunchEvent)} :
    history platform d (es :: launches) = some d' ↔
      ∃ w, (program platform).run (launch d) es = some w ∧
        history platform w.shared.device launches = some d' :=
  Option.bind_eq_some_iff

theorem untracked_history : ∀ {launches : List (List LaunchEvent)} {d d' : Device}, Untracked d →
    history platform d launches = some d' → Untracked d'
  | [], _, _, hd, hr => Option.some.inj hr ▸ hd
  | es :: launches, _, _, hd, hr => by
    obtain ⟨w, hw, hr⟩ := history_cons.mp hr
    exact untracked_history (untracked_launch hd hw) hr

/-- **Any history.** -/
theorem tracked_history : ∀ {launches : List (List LaunchEvent)} {d d' : Device}, Tracked d →
    history platform d launches = some d' →
      (CarefulHistory platform d launches ∧ Tracked d') ∨
      (¬CarefulHistory platform d launches ∧ Untracked d')
  | [], _, _, hd, hr => Or.inl ⟨trivial, Option.some.inj hr ▸ hd⟩
  | es :: launches, d, d', hd, hr => by
    obtain ⟨w, hw, hr⟩ := history_cons.mp hr
    have hrest : (∀ w', (program platform).run (launch d) es = some w' →
        CarefulHistory platform w'.shared.device launches) ↔
        CarefulHistory platform w.shared.device launches := by
      rw [hw]
      simp
    rw [CarefulHistory, hrest]
    rcases tracked_launch hd hw with ⟨hc, ht⟩ | ⟨hc, hu⟩
    · rcases tracked_history ht hr with ⟨hcs, ht'⟩ | ⟨hcs, hu'⟩
      · exact Or.inl ⟨⟨hc, hcs⟩, ht'⟩
      · exact Or.inr ⟨fun h => hcs h.2, hu'⟩
    · exact Or.inr ⟨fun h => hc h.1, untracked_history hu hr⟩

theorem tracked_newDevice : Tracked newDevice := Or.inl ⟨rfl, fun _ => rfl⟩

/-! ### The law -/

theorem Untracked.not_recorded (h : Untracked s.device) : ¬Recorded s := by
  rintro ⟨id, doc, user, hid, hget, -⟩
  obtain ⟨id', hid', hnone⟩ := h
  obtain rfl : id = id' := Option.some.inj (hid.symm.trans hid')
  cases hnone.symm.trans hget

/-- At the end of a sound launch the heartbeat has gone to the stored id. -/
theorem Sound.recorded (hw : Sound w) (hs : Succeeded w) : Recorded w.shared := by
  obtain ⟨t, h, ha, hp, hb⟩ := hw
  obtain ⟨htasks, hok⟩ := hs
  have ht : t = none := by
    have htr := ha.tracking
    rw [htasks] at htr
    cases t with
    | none => rfl
    | some st => cases htr
  have hh : h = none := by
    have hbe := ha.heartbeat
    rw [htasks] at hbe
    cases h with
    | none => rfl
    | some st => cases hbe
  subst ht hh
  rcases hb with hf | ⟨id, user, hid, hbeat, hget, huser⟩
  · cases hok.symm.trans hf
  · cases hp with
    | fresh _ _ _ ht _ => cases ht
    | generated _ _ _ _ ht _ => cases ht
    | foreign _ _ _ _ _ hh => cases hh
    | tracking _ _ _ _ _ ht _ _ => cases ht
    | tracked id' doc hp hd hi hdoc _ _ =>
      obtain rfl : id = id' := Option.some.inj (hid.symm.trans hp)
      exact ⟨id, doc, user, hd, hi, hdoc, hbeat, hget, huser⟩

theorem careful_iff_of_succeeded (hw : (program platform).run (launch d) es = some w)
    (hs : Succeeded w) :
    CarefulLaunch platform d es ↔ (program platform).Each (Meets CarefulTurn) (launch d) es := by
  refine ⟨fun h => h.1, fun h => ⟨h, fun w' hw' t ht => ?_⟩⟩
  obtain rfl : w = w' := Option.some.inj (hw.symm.trans hw')
  rw [hs.1] at ht
  exact absurd ht List.not_mem_nil

/-- **The device is recorded** after a launch whose writes have all succeeded exactly when all
launches were careful. -/
theorem recorded_iff_careful {launches : List (List LaunchEvent)}
    (hd : history platform newDevice launches = some d)
    (hw : (program platform).run (launch d) es = some w) (hs : Succeeded w) :
    Recorded w.shared ↔
      CarefulHistory platform newDevice launches ∧ CarefulLaunch platform d es := by
  rw [careful_iff_of_succeeded hw hs]
  rcases tracked_history tracked_newDevice hd with ⟨hc, ht⟩ | ⟨hc, hu⟩
  · rcases Program.run_inv_or (fun _ _ _ => sound_step) (fun _ _ _ => astray_step)
      (sound_launch ht) hw with ⟨heach, hsound⟩ | ⟨heach, hastray⟩
    · exact ⟨fun _ => ⟨hc, heach⟩, fun _ => hsound.recorded hs⟩
    · exact ⟨fun h => absurd h hastray.ends.not_recorded, fun h => absurd h.2 heach⟩
  · have hu' := untracked_launch hu hw
    exact ⟨fun h => absurd h hu'.not_recorded, fun h => absurd h.1 hc⟩

/-- A launch of a new device that is killed once the id is stored. -/
def killedLaunch : List LaunchEvent := [.resume 0 (.gotPrefs "u1"), .resume 0 .stored]

/-- A first launch to its end. -/
def firstLaunch : List LaunchEvent :=
  [.resume 0 (.gotPrefs "u1"), .resume 1 (.gotPrefs "u2"), .resume 0 .stored,
    .resume 0 (.gotPackageInfo "1.0"), .resume 0 (.initialized 5), .resume 0 .written,
    .resume 0 (.gotPackageInfo "1.0"), .resume 0 (.initialized 6), .resume 0 .written]

/-- A launch that finds an id, to its end. -/
def laterLaunch : List LaunchEvent :=
  [.resume 0 (.gotPrefs "u3"), .resume 0 (.gotPrefs "u4"), .resume 0 (.gotPackageInfo "1.0"),
    .resume 0 (.initialized 7), .resume 0 .written]

/-- A first launch in which the heartbeat has the preferences first, to its end. -/
def heartbeatFirstLaunch : List LaunchEvent :=
  [.resume 1 (.gotPrefs "u1"), .resume 0 (.gotPrefs "u2"), .resume 0 .stored,
    .resume 0 (.gotPackageInfo "1.0"), .resume 0 (.initialized 5), .resume 0 .written]

/-- The second launch of a device. -/
theorem recorded_iff_careful_second : ∃ d w, history "android" newDevice [firstLaunch] = some d ∧
    (program "android").run (launch d) laterLaunch = some w ∧ Succeeded w ∧
      (Recorded w.shared ↔ CarefulHistory "android" newDevice [firstLaunch] ∧
        CarefulLaunch "android" d laterLaunch) :=
  ⟨_, _, rfl, rfl, ⟨rfl, rfl⟩, recorded_iff_careful rfl rfl ⟨rfl, rfl⟩⟩

/-- A device whose first launch was killed, or whose heartbeat was first, is never recorded. -/
theorem killed_launch_not_recorded :
    (∃ d w, history "android" newDevice [killedLaunch] = some d ∧
      (program "android").run (launch d) laterLaunch = some w ∧ Succeeded w ∧
      ¬Recorded w.shared) ∧
    ∃ w, (program "android").run (launch newDevice) heartbeatFirstLaunch = some w ∧ Succeeded w ∧
      ¬Recorded w.shared :=
  ⟨⟨_, _, rfl, rfl, ⟨rfl, rfl⟩, Untracked.not_recorded ⟨"u1", rfl, rfl⟩⟩,
    _, rfl, ⟨rfl, rfl⟩, Untracked.not_recorded ⟨"u1", rfl, rfl⟩⟩

end PixsBliss.Pages.SplashScreen
