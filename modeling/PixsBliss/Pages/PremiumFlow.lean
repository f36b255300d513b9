import PixsBliss.Lib.Turns
import PixsBliss.Pages.WallpaperDetailPage
import PixsBliss.Services.PremiumService

/-! # A premium wallpaper

The detail page with the premium service behind it. The page reads the unlock status from the
preferences, asks for a payment, and listens to the unlock stream; other pages may ask for payments
of their own, and the gateways answer when they like.

* `locked_until_paid`: a premium wallpaper that is not unlocked is not downloaded until a payment
  succeeds that finds it in `pending_unlock`. -/

namespace PixsBliss.Pages.PremiumFlow

open PixsBliss.Lib.Async PixsBliss.Lib.Flight PixsBliss.Lib.Turns PixsBliss.Models PixsBliss.Pages
open PixsBliss.Pages.ButtonAnimation PixsBliss.Services
open PixsBliss.Services.PremiumService (isWallpaperUnlocked pendingKey unlockedKey)

/-! ### The program -/

structure State where
  service : PremiumService.State
  page : WallpaperDetailPage.State

/-- What is awaited: an operation of the service, or one of the page. The status is read when
`isWallpaperUnlocked` is called; the page awaits the write of its own request, or a request that was
refused; an id is on its way to the listeners. -/
inductive Task
  | service (t : PremiumService.Task)
  | page (t : WallpaperDetailPage.Task)
  | checking (caller : WallpaperDetailPage.Caller) (isUnlocked : Bool)
  | unlocking
  | refused
  | delivering (wallpaperId : String)
deriving DecidableEq

/-- What comes from outside; the last is a request of another page. -/
inductive Call
  | tap
  | tick (t : Tick)
  | rebuild
  | dispose
  | unlockWallpaper (wallpaperId wallpaperTitle : String) (price : ℤ) (opens : Bool)

/-- How it ends; after the service is initialized the gateway opens, or throws. -/
inductive Outcome
  | service (o : PremiumService.Outcome)
  | page (o : WallpaperDetailPage.Outcome)
  | initialized (opens : Bool)
  | delivered

abbrev FlowWorld := World State Task
abbrev FlowEvent := Event Call Outcome

/-- A turn of the service; the ids it adds to the stream are delivered later. -/
def serviceTurn (x : PremiumService.State × List PremiumService.Task) (s : State) :
    State × List Task :=
  ({ s with service := x.1 }, x.2.map .service ++
    (x.1.unlockStream.drop s.service.unlockStream.length).map .delivering)

/-- A turn of the page. -/
def pageTurn (x : WallpaperDetailPage.State × List WallpaperDetailPage.Task) (s : State) :
    State × List Task :=
  ({ s with page := x.1 }, x.2.map .page)

section Flow

variable (wallpaper : Wallpaper)

/-- `unlockWallpaper` of the service, called by the page: the page awaits the write. -/
def requestUnlock (opens : Bool) (s : State) : State × List Task :=
  let x :=
    PremiumService.unlockWallpaper wallpaper.id wallpaper.title wallpaper.price opens s.service
  ({ s with service := x.1 },
    (x.2.map fun
      | .storingPending _ => .unlocking
      | t => .service t) ++ if opens then [] else [.refused])

def signal (k : WallpaperDetailPage.Signal) (s : State) : State × List Task :=
  pageTurn ((WallpaperDetailPage.program wallpaper).call k s.page) s

/-- A resumption of the page alone. -/
def resumePage (t : WallpaperDetailPage.Task) (o : WallpaperDetailPage.Outcome) (s : State) :
    Option (State × List Task) :=
  ((WallpaperDetailPage.program wallpaper).resume t o s.page).map fun x => pageTurn x s

/-- **The page of a wallpaper and the service.** -/
def program : Program State Task Call Outcome where
  call
    | .tap, s => signal wallpaper .tap s
    | .tick t, s => signal wallpaper (.tick t) s
    | .rebuild, s => signal wallpaper .rebuild s
    | .dispose, s => signal wallpaper .dispose s
    | .unlockWallpaper id title price opens, s =>
      serviceTurn (PremiumService.unlockWallpaper id title price opens s.service) s
  resume
    | .service t, .service o, s =>
      (PremiumService.program.resume t o s.service).map fun x => serviceTurn x s
    | .page (.initializing caller), .page .done, s =>
      some (s, [.checking caller (isWallpaperUnlocked s.service wallpaper.id)])
    | .checking caller isUnlocked, .page .done, s =>
      resumePage wallpaper (.checking caller) (.unlockStatus isUnlocked) s
    | .page .initializingPremium, .initialized opens, s => some (requestUnlock wallpaper opens s)
    | .page .initializingPremium, .page .done, _ => none
    | .unlocking, .service (.stored ok), s => resumePage wallpaper .unlocking (.payment ok) s
    | .refused, .page .done, s => resumePage wallpaper .unlocking (.payment false) s
    | .delivering wallpaperId, .delivered, s => some (signal wallpaper (.unlockEvent wallpaperId) s)
    | .page t, .page o, s => resumePage wallpaper t o s
    | _, _, _ => none

/-- The page is opened while the service has the tasks `ts`. -/
def opened (service : PremiumService.State) (ts : List PremiumService.Task) : FlowWorld :=
  ⟨⟨service, (WallpaperDetailPage.initState wallpaper).shared⟩,
    ts.map .service ++ [.page (.initializing .initState)]⟩

end Flow

/-! ### The service -/

/-- A payment succeeds, and finds the wallpaper. -/
def Pays (wallpaperId : String) : Task → Outcome → State → Prop
  | .service (.gateway _ _), .service (.success _), s =>
    s.service.prefs.getString pendingKey = some wallpaperId
  | _, _, _ => False

section Service

variable {s s' : PremiumService.State} {t : PremiumService.Task} {o : PremiumService.Outcome}
  {ts : List PremiumService.Task} {id : String}

theorem isUnlocked_setBool {v : String} (h : v ≠ id) :
    isWallpaperUnlocked { s with prefs := s.prefs.setBool (unlockedKey v) true } id =
      isWallpaperUnlocked s id := by
  have hne : unlockedKey id ≠ unlockedKey v := fun he =>
    h (PremiumService.unlockedKey_inj.mp he).symm
  unfold isWallpaperUnlocked
  rw [PremiumService.Prefs.getBool_setBool_of_ne hne]

theorem isUnlocked_remove : isWallpaperUnlocked { s with prefs := s.prefs.remove pendingKey } id =
    isWallpaperUnlocked s id := by
  unfold isWallpaperUnlocked
  rw [PremiumService.Prefs.getBool_remove (PremiumService.unlockedKey_ne_pending id)]

/-- A request changes no flag and sends nothing to the stream. -/
theorem unlockWallpaper_spec (id v title : String) (price : ℤ) (opens : Bool)
    (s : PremiumService.State) :
    isWallpaperUnlocked (PremiumService.unlockWallpaper v title price opens s).1 id =
      isWallpaperUnlocked s id ∧
    (PremiumService.unlockWallpaper v title price opens s).1.unlockStream = s.unlockStream ∧
    ∀ t ∈ (PremiumService.unlockWallpaper v title price opens s).2,
      ∀ v', t ≠ .storingUnlocked v' := by
  unfold PremiumService.unlockWallpaper
  split_ifs
  · refine ⟨?_, rfl, by simp⟩
    unfold isWallpaperUnlocked
    rw [PremiumService.Prefs.getBool_setString (PremiumService.unlockedKey_ne_pending id)]
  · exact ⟨rfl, rfl, by simp⟩

/-- **What a turn of the service does to a wallpaper** that no success finds and that is not being
unlocked: nothing. -/
theorem resume_spec (h : PremiumService.program.resume t o s = some (s', ts))
    (ht : t ≠ .storingUnlocked id)
    (hpay : ∀ options v paymentId, t = .gateway options v → o = .success paymentId →
      s.prefs.getString pendingKey ≠ some id) :
    isWallpaperUnlocked s' id = isWallpaperUnlocked s id ∧
    (∀ t' ∈ ts, t' ≠ .storingUnlocked id) ∧
    ∀ v ∈ s'.unlockStream.drop s.unlockStream.length, v ≠ id := by
  have hsame : ∀ v ∈ s.unlockStream.drop s.unlockStream.length, v ≠ id := by simp
  cases PremiumService.resumes_of_resume h with
  | success options v paymentId =>
    have hne := hpay options v paymentId rfl rfl
    unfold PremiumService.handlePaymentSuccess
    cases hp : s.prefs.getString pendingKey with
    | none => exact ⟨rfl, by simp, hsame⟩
    | some v' =>
      have hv : v' ≠ id := fun he => hne (he ▸ hp)
      exact ⟨isUnlocked_setBool hv, by simpa using hv, hsame⟩
  | error options v code message => exact ⟨isUnlocked_remove, by simp, hsame⟩
  | externalWallet options v walletName => exact ⟨rfl, by simp, hsame⟩
  | storedPending v ok => exact ⟨rfl, by simp, hsame⟩
  | storedUnlocked v =>
    have hv : v ≠ id := fun he => ht (he ▸ rfl)
    refine ⟨isUnlocked_remove, by simp, ?_⟩
    simpa [PremiumService.finishPaymentSuccess] using hv
  | notStored v => exact ⟨rfl, by simp, hsame⟩

end Service

/-! ### The page -/

open PixsBliss.Pages.WallpaperDetailPage (Keeps)

/-- **A page that shows a locked wallpaper**: it does not take it to be unlocked, its button does
not download, and nothing was downloaded. -/
structure LockedPage (s : WallpaperDetailPage.State) : Prop where
  isUnlocked : s.page.isUnlocked = false
  action : s.button.widget.onDownload ≠ .downloadWallpaper
  saved : s.saved = 0
  counted : s.counted = []

/-- The awaits of a page that only asks: not those of a download. -/
inductive Asks : WallpaperDetailPage.Task → Prop
  | initializing (caller : WallpaperDetailPage.Caller) : Asks (.initializing caller)
  | initializingPremium : Asks .initializingPremium
  | delayed : Asks .delayed

section Page

variable {wallpaper : Wallpaper} {s s' : WallpaperDetailPage.State} {t : WallpaperDetailPage.Task}
  {ts : List WallpaperDetailPage.Task}

theorem lockedPage_of_keeps (h : LockedPage s) (hk : Keeps s s')
    (hu : s'.page.isUnlocked = s.page.isUnlocked) : LockedPage s' where
  isUnlocked := hu.trans h.isUnlocked
  action := hk.button ▸ h.action
  saved := hk.saved.trans h.saved
  counted := hk.counted.trans h.counted

theorem page_showMessage (m : WallpaperDetailPage.Message) (s : WallpaperDetailPage.State) :
    (WallpaperDetailPage.showMessage m s).1.page = s.page := by
  unfold WallpaperDetailPage.showMessage
  split_ifs <;> rfl

theorem lockedPage_showMessage (h : LockedPage s) (m : WallpaperDetailPage.Message) :
    LockedPage (WallpaperDetailPage.showMessage m s).1 :=
  lockedPage_of_keeps h (WallpaperDetailPage.keeps_showMessage m s)
    (congrArg WallpaperDetailPage.Page.isUnlocked (page_showMessage m s))

/-- The status is there: the wallpaper is locked. -/
theorem lockedPage_checked (h : LockedPage s) (caller : WallpaperDetailPage.Caller) :
    LockedPage (WallpaperDetailPage.announce caller (WallpaperDetailPage.checked false s)) := by
  have hchecked : (WallpaperDetailPage.checked false s).page.isUnlocked = s.page.isUnlocked := by
    unfold WallpaperDetailPage.checked
    split_ifs with hm
    · rw [WallpaperDetailPage.setState_of_mounted hm]
      exact h.isUnlocked.symm
    · rfl
  have hlocked := lockedPage_of_keeps h (WallpaperDetailPage.keeps_checked false s) hchecked
  cases caller with
  | initState => exact hlocked
  | paymentSuccess =>
    unfold WallpaperDetailPage.announce
    simpa [hlocked.isUnlocked] using hlocked

theorem lockedPage_afterPayment (h : LockedPage s) (initiated : Bool) :
    LockedPage (WallpaperDetailPage.afterPayment initiated s).1 ∧
      ∀ t ∈ (WallpaperDetailPage.afterPayment initiated s).2, Asks t := by
  refine ⟨?_, fun t ht => WallpaperDetailPage.mem_afterPayment ht ▸ .delayed⟩
  have hfailed : ∀ {s}, LockedPage s → LockedPage
      (WallpaperDetailPage.paymentFailed WallpaperDetailPage.disposedError s) := fun h =>
    lockedPage_showMessage h _
  unfold WallpaperDetailPage.afterPayment WallpaperDetailPage.andThen
  split_ifs
  · exact lockedPage_showMessage h _
  · exact hfailed (lockedPage_showMessage h _)
  · exact lockedPage_showMessage h _
  · exact hfailed (lockedPage_showMessage h _)

/-- An unlocking of another wallpaper is not for this page. -/
theorem lockedPage_unlockEvent {v : String} (h : LockedPage s) (hv : v ≠ wallpaper.id) :
    LockedPage (WallpaperDetailPage.onUnlockEvent wallpaper v s) := by
  unfold WallpaperDetailPage.onUnlockEvent
  rw [if_neg fun hand => hv hand.1]
  exact h

theorem widget_update {α : Type} (c : Config α) (b : Button α) : (update c b).widget = c := by
  unfold update
  split_ifs
  · exact didUpdateWidget_spec.1
  · rfl

theorem widget_tick {α : Type} (b : Button α) (t : Tick) : (tick b t).widget = b.widget := by
  cases t <;> simp only [tick] <;> split_ifs <;> rfl

/-- A locked page of a premium wallpaper builds a button that does not download. -/
theorem build_action (hp : wallpaper.isPremium = true) {p : WallpaperDetailPage.Page}
    (hu : p.isUnlocked = false) :
    (WallpaperDetailPage.build wallpaper p).onDownload ≠ .downloadWallpaper := by
  have haction : (WallpaperDetailPage.buttonAction wallpaper p).getD .nothing ≠
      .downloadWallpaper := by
    unfold WallpaperDetailPage.buttonAction
    rw [hp, hu]
    cases p.isCheckingUnlockStatus <;> simp
  exact haction

theorem lockedPage_onButton (h : LockedPage s)
    {f : Button WallpaperDetailPage.Action → Button WallpaperDetailPage.Action}
    (hf : (f s.button).widget.onDownload ≠ .downloadWallpaper) :
    LockedPage (WallpaperDetailPage.onButton f s) := by
  unfold WallpaperDetailPage.onButton
  split_ifs
  · exact ⟨h.isUnlocked, hf, h.saved, h.counted⟩
  · exact h

/-- A tap on the button asks, if it does anything. -/
theorem lockedPage_tap (h : LockedPage s) : LockedPage (WallpaperDetailPage.tap s).1 ∧
    ∀ t ∈ (WallpaperDetailPage.tap s).2, Asks t := by
  unfold WallpaperDetailPage.tap onTap
  split_ifs
  · refine ⟨⟨h.isUnlocked, h.action, h.saved, h.counted⟩, ?_⟩
    cases haction : s.button.widget.onDownload with
    | nothing => exact List.forall_mem_nil _
    | unlockWallpaper => exact List.forall_mem_singleton.mpr .initializingPremium
    | downloadWallpaper => exact absurd haction h.action
  · exact ⟨h, List.forall_mem_nil _⟩

/-- The signals of the environment. -/
theorem lockedPage_call (hp : wallpaper.isPremium = true) (h : LockedPage s)
    {k : WallpaperDetailPage.Signal} (hk : ∀ v, k = .unlockEvent v → v ≠ wallpaper.id) :
    LockedPage ((WallpaperDetailPage.program wallpaper).call k s).1 ∧
      ∀ t ∈ ((WallpaperDetailPage.program wallpaper).call k s).2, Asks t := by
  cases k with
  | tap =>
    simp only [WallpaperDetailPage.program]
    split_ifs
    · exact lockedPage_tap h
    · exact ⟨h, List.forall_mem_nil _⟩
  | tick t =>
    have haction : (tick s.button t).widget.onDownload ≠ .downloadWallpaper := by
      rw [widget_tick]
      exact h.action
    exact ⟨lockedPage_onButton (f := fun b => tick b t) h haction, List.forall_mem_nil _⟩
  | rebuild =>
    refine ⟨lockedPage_onButton h ?_, List.forall_mem_nil _⟩
    rw [widget_update]
    exact build_action hp h.isUnlocked
  | unlockEvent v => exact ⟨lockedPage_unlockEvent h (hk v rfl), List.forall_mem_nil _⟩
  | dispose => exact ⟨⟨h.isUnlocked, h.action, h.saved, h.counted⟩, List.forall_mem_nil _⟩

/-- A resumption of an await that asks, but for those that read the status or open a payment. -/
theorem lockedPage_resume {o : WallpaperDetailPage.Outcome} (h : LockedPage s) (ht : Asks t)
    (hinit : ∀ caller, t = .initializing caller → o ≠ .done)
    (hpay : t = .initializingPremium → o ≠ .done)
    (hr : (WallpaperDetailPage.program wallpaper).resume t o s = some (s', ts)) :
    LockedPage s' ∧ ∀ t' ∈ ts, Asks t' := by
  cases ht with
  | initializing caller =>
    cases o with
    | done => exact absurd rfl (hinit caller rfl)
    | threw error =>
      obtain ⟨rfl, rfl⟩ := Prod.mk.inj (Option.some.inj hr)
      exact ⟨h, List.forall_mem_nil _⟩
    | _ => cases hr
  | initializingPremium =>
    cases o with
    | done => exact absurd rfl (hpay rfl)
    | threw error =>
      obtain ⟨rfl, rfl⟩ := Prod.mk.inj (Option.some.inj hr)
      exact ⟨lockedPage_showMessage h _, List.forall_mem_nil _⟩
    | _ => cases hr
  | delayed =>
    cases o with
    | done =>
      obtain ⟨rfl, rfl⟩ := Prod.mk.inj (Option.some.inj hr)
      exact ⟨h, List.forall_mem_singleton.mpr (.initializing .paymentSuccess)⟩
    | _ => cases hr

end Page

/-! ### The flow -/

/-- A task that cannot unlock or download the wallpaper. -/
inductive Harmless (wallpaperId : String) : Task → Prop
  | service {t : PremiumService.Task} (h : t ≠ .storingUnlocked wallpaperId) :
    Harmless wallpaperId (.service t)
  | page {t : WallpaperDetailPage.Task} (h : Asks t) : Harmless wallpaperId (.page t)
  | checking (caller : WallpaperDetailPage.Caller) : Harmless wallpaperId (.checking caller false)
  | unlocking : Harmless wallpaperId .unlocking
  | refused : Harmless wallpaperId .refused
  | delivering {v : String} (h : v ≠ wallpaperId) : Harmless wallpaperId (.delivering v)

/-- The state of a locked wallpaper. -/
structure LockedState (wallpaper : Wallpaper) (s : State) : Prop where
  flag : isWallpaperUnlocked s.service wallpaper.id = false
  page : LockedPage s.page

/-- A turn that keeps a wallpaper locked. -/
abbrev Stays (wallpaper : Wallpaper) : State × List Task → Prop :=
  Turn (LockedState wallpaper) (Harmless wallpaper.id)

section Flow

variable {wallpaper : Wallpaper} {s : State}

theorem stays_pageTurn {x : WallpaperDetailPage.State × List WallpaperDetailPage.Task}
    (h : LockedState wallpaper s) (hx : LockedPage x.1 ∧ ∀ t ∈ x.2, Asks t) :
    Stays wallpaper (pageTurn x s) := by
  refine ⟨⟨h.flag, hx.1⟩, fun t ht => ?_⟩
  obtain ⟨t', ht', rfl⟩ := List.mem_map.mp ht
  exact .page (hx.2 t' ht')

theorem stays_serviceTurn {x : PremiumService.State × List PremiumService.Task}
    (h : LockedState wallpaper s)
    (hflag : isWallpaperUnlocked x.1 wallpaper.id = isWallpaperUnlocked s.service wallpaper.id)
    (hts : ∀ t ∈ x.2, t ≠ .storingUnlocked wallpaper.id)
    (hstream : ∀ v ∈ x.1.unlockStream.drop s.service.unlockStream.length, v ≠ wallpaper.id) :
    Stays wallpaper (serviceTurn x s) := by
  refine ⟨⟨hflag.trans h.flag, h.page⟩, fun t ht => ?_⟩
  rcases List.mem_append.mp ht with ht | ht
  · obtain ⟨t', ht', rfl⟩ := List.mem_map.mp ht
    exact .service (hts t' ht')
  · obtain ⟨v, hv, rfl⟩ := List.mem_map.mp ht
    exact .delivering (hstream v hv)

theorem stays_requestUnlock (h : LockedState wallpaper s) (opens : Bool) :
    Stays wallpaper (requestUnlock wallpaper opens s) := by
  obtain ⟨hflag, -, hts⟩ := unlockWallpaper_spec wallpaper.id wallpaper.id wallpaper.title
    wallpaper.price opens s.service
  refine ⟨⟨hflag.trans h.flag, h.page⟩, fun t ht => ?_⟩
  rcases List.mem_append.mp ht with ht | ht
  · obtain ⟨t', ht', rfl⟩ := List.mem_map.mp ht
    cases t' with
    | storingPending v => exact .unlocking
    | gateway options v => exact .service nofun
    | storingUnlocked v => exact absurd rfl (hts _ ht' v)
  · split_ifs at ht
    · cases ht
    · exact List.mem_singleton.mp ht ▸ .refused

theorem stays_call (hp : wallpaper.isPremium = true) (h : LockedState wallpaper s) (k : Call) :
    Stays wallpaper ((program wallpaper).call k s) := by
  have hsignal : ∀ k', (∀ v, k' ≠ .unlockEvent v) → Stays wallpaper (signal wallpaper k' s) :=
    fun k' hk => stays_pageTurn h (lockedPage_call hp h.page fun v hv => absurd hv (hk v))
  cases k with
  | tap => exact hsignal _ nofun
  | tick t => exact hsignal _ nofun
  | rebuild => exact hsignal _ nofun
  | dispose => exact hsignal _ nofun
  | unlockWallpaper id title price opens =>
    obtain ⟨hflag, hstream, hts⟩ :=
      unlockWallpaper_spec wallpaper.id id title price opens s.service
    refine stays_serviceTurn h hflag (fun t ht => hts t ht wallpaper.id) ?_
    simp [hstream]

theorem stays_resumePage {t : WallpaperDetailPage.Task} {o : WallpaperDetailPage.Outcome}
    {x : State × List Task} (h : LockedState wallpaper s)
    (hlocked : ∀ s' ts, (WallpaperDetailPage.program wallpaper).resume t o s.page = some (s', ts) →
      LockedPage s' ∧ ∀ t' ∈ ts, Asks t')
    (hr : resumePage wallpaper t o s = some x) : Stays wallpaper x := by
  obtain ⟨⟨s', ts⟩, hy, rfl⟩ := Option.map_eq_some_iff.mp hr
  exact stays_pageTurn h (hlocked s' ts hy)

/-- An await that asks is resumed by the page alone, but for those that read the status or open a
payment. -/
theorem resume_asks {t : WallpaperDetailPage.Task} {o : WallpaperDetailPage.Outcome} (ht : Asks t)
    (hinit : ∀ caller, t = .initializing caller → o ≠ .done)
    (hpay : t = .initializingPremium → o ≠ .done) :
    (program wallpaper).resume (.page t) (.page o) s = resumePage wallpaper t o s := by
  cases ht with
  | initializing caller =>
    cases o with
    | done => exact absurd rfl (hinit caller rfl)
    | _ => rfl
  | initializingPremium =>
    cases o with
    | done => exact absurd rfl (hpay rfl)
    | _ => rfl
  | delayed => cases o <;> rfl

/-- **A resumption** of a harmless task keeps the wallpaper locked, if it is not a success that
finds it. -/
theorem stays_resume {t : Task} {o : Outcome} {x : State × List Task}
    (h : LockedState wallpaper s) (ht : Harmless wallpaper.id t) (hpay : ¬Pays wallpaper.id t o s)
    (hr : (program wallpaper).resume t o s = some x) : Stays wallpaper x := by
  cases ht with
  | @service t ht =>
    cases o with
    | service o =>
      obtain ⟨⟨s', ts⟩, hy, rfl⟩ := Option.map_eq_some_iff.mp hr
      obtain ⟨hflag, hts, hstream⟩ := resume_spec hy ht fun options v paymentId hgate hsucc hp =>
        hpay (by rw [hgate, hsucc]; exact hp)
      exact stays_serviceTurn h hflag hts hstream
    | _ => cases hr
  | @page t ht =>
    cases o with
    | page o =>
      by_cases hread : ∃ caller, t = .initializing caller ∧ o = .done
      · obtain ⟨caller, rfl, rfl⟩ := hread
        obtain rfl := Option.some.inj hr
        refine ⟨h, List.forall_mem_singleton.mpr ?_⟩
        rw [h.flag]
        exact .checking caller
      · have hinit : ∀ caller, t = .initializing caller → o ≠ .done := fun caller he ho =>
          hread ⟨caller, he, ho⟩
        by_cases hopen : t = .initializingPremium ∧ o = .done
        · obtain ⟨rfl, rfl⟩ := hopen
          cases hr
        · have hnot : t = .initializingPremium → o ≠ .done := fun he ho => hopen ⟨he, ho⟩
          rw [resume_asks ht hinit hnot] at hr
          exact stays_resumePage h
            (fun s' ts hs' => lockedPage_resume h.page ht hinit hnot hs') hr
    | initialized opens =>
      cases ht with
      | initializingPremium =>
        obtain rfl := Option.some.inj hr
        exact stays_requestUnlock h opens
      | _ => cases hr
    | _ => cases ht <;> cases hr
  | checking caller =>
    cases o with
    | page o =>
      cases o with
      | done =>
        refine stays_resumePage (t := .checking caller) (o := .unlockStatus false) h
          (fun s' ts hs' => ?_) hr
        obtain ⟨rfl, rfl⟩ := Prod.mk.inj (Option.some.inj hs')
        exact ⟨lockedPage_checked h.page caller, List.forall_mem_nil _⟩
      | _ => cases hr
    | _ => cases hr
  | unlocking =>
    cases o with
    | service o =>
      cases o with
      | stored ok =>
        refine stays_resumePage (t := .unlocking) (o := .payment ok) h (fun s' ts hs' => ?_) hr
        have hpayment := lockedPage_afterPayment h.page ok
        rw [Option.some.inj hs'] at hpayment
        exact hpayment
      | _ => cases hr
    | _ => cases hr
  | refused =>
    cases o with
    | page o =>
      cases o with
      | done =>
        refine stays_resumePage (t := .unlocking) (o := .payment false) h (fun s' ts hs' => ?_) hr
        have hpayment := lockedPage_afterPayment h.page false
        rw [Option.some.inj hs'] at hpayment
        exact hpayment
      | _ => cases hr
    | _ => cases hr
  | @delivering v hv =>
    cases o with
    | delivered =>
      obtain rfl := Option.some.inj hr
      refine stays_pageTurn h ⟨lockedPage_unlockEvent h.page hv, List.forall_mem_nil _⟩
    | _ => cases hr

/-- **Every turn** but a success that finds the wallpaper keeps it locked. -/
theorem eachTurn_stays (hp : wallpaper.isPremium = true) :
    EachTurn (program wallpaper) (fun t o s => ¬Pays wallpaper.id t o s) (LockedState wallpaper)
      (Harmless wallpaper.id) where
  call k _ h := stays_call hp h k
  resume _ _ _ _ h ht hpay hr := stays_resume h ht hpay hr

/-- A page that is opened on a locked wallpaper. -/
theorem stays_opened (hp : wallpaper.isPremium = true) {service : PremiumService.State}
    {ts : List PremiumService.Task} (h0 : isWallpaperUnlocked service wallpaper.id = false)
    (hts : .storingUnlocked wallpaper.id ∉ ts) :
    Stays wallpaper
      ((opened wallpaper service ts).shared, (opened wallpaper service ts).tasks) := by
  have hstate : LockedState wallpaper (opened wallpaper service ts).shared :=
    ⟨h0, rfl, build_action hp rfl, rfl, rfl⟩
  refine ⟨hstate, List.forall_mem_append.mpr ⟨fun t ht => ?_, ?_⟩⟩
  · obtain ⟨t', ht', rfl⟩ := List.mem_map.mp ht
    exact .service fun he => hts (he ▸ ht')
  · exact List.forall_mem_singleton.mpr (.page (.initializing .initState))

/-- **A premium wallpaper is locked until it is paid**: in every interleaving of its page, the
service, the gateways and the requests of other pages, as long as no success finds the wallpaper in
`pending_unlock`, the flag is down, no image is saved or counted, and no download is running. -/
theorem locked_until_paid (wallpaper : Wallpaper) (hp : wallpaper.isPremium = true)
    (service : PremiumService.State) (ts : List PremiumService.Task)
    (h0 : isWallpaperUnlocked service wallpaper.id = false)
    (hts : .storingUnlocked wallpaper.id ∉ ts) (es : List FlowEvent) (w : FlowWorld)
    (hr : (program wallpaper).run (opened wallpaper service ts) es = some w)
    (hpay : (program wallpaper).Each (Meets fun t o s => ¬Pays wallpaper.id t o s)
      (opened wallpaper service ts) es) :
    isWallpaperUnlocked w.shared.service wallpaper.id = false ∧
    w.shared.page.page.isUnlocked = false ∧ w.shared.page.saved = 0 ∧
    w.shared.page.counted = [] ∧ ∀ t, .page t ∈ w.tasks → Asks t := by
  have hlocked : Stays wallpaper (w.shared, w.tasks) :=
    (eachTurn_stays hp).run (stays_opened hp h0 hts) hpay hr
  obtain ⟨⟨hflag, hunlocked, -, hsaved, hcounted⟩, htasks⟩ := hlocked
  refine ⟨hflag, hunlocked, hsaved, hcounted, fun t ht => ?_⟩
  cases htasks _ ht with
  | page h => exact h

/-- A premium wallpaper. -/
def premiumWallpaper : Wallpaper :=
  { sampleWallpaper "7" "firestore" with isPremium := true, price := 49 }

/-- New preferences. -/
def newService : PremiumService.State := ⟨⟨.empty, []⟩, []⟩

/-- The wallpaper is asked for, and the payment is cancelled. -/
def cancelled : List FlowEvent :=
  [.resume 0 (.page .done), .resume 0 (.page .done), .call .rebuild, .call .tap,
    .resume 0 (.initialized true), .resume 1 (.service (.stored true)),
    .resume 0 (.service (.error 2 "cancelled"))]

theorem cancelled_unpaid : (program premiumWallpaper).Each
    (Meets fun t o s => ¬Pays premiumWallpaper.id t o s) (opened premiumWallpaper newService [])
    cancelled := by
  refine (Program.each_cons rfl).mpr ⟨meets_of_task rfl id, ?_⟩
  refine (Program.each_cons rfl).mpr ⟨meets_of_task rfl id, ?_⟩
  refine (Program.each_cons rfl).mpr ⟨meets_call, ?_⟩
  refine (Program.each_cons rfl).mpr ⟨meets_call, ?_⟩
  refine (Program.each_cons rfl).mpr ⟨meets_of_task rfl id, ?_⟩
  refine (Program.each_cons rfl).mpr ⟨meets_of_task rfl id, ?_⟩
  exact (Program.each_cons rfl).mpr ⟨meets_of_task rfl id, trivial⟩

theorem locked_after_cancelled : ∃ w,
    (program premiumWallpaper).run (opened premiumWallpaper newService []) cancelled = some w ∧
    isWallpaperUnlocked w.shared.service premiumWallpaper.id = false ∧
    w.shared.page.page.isUnlocked = false ∧ w.shared.page.saved = 0 ∧
    w.shared.page.counted = [] ∧ ∀ t, .page t ∈ w.tasks → Asks t :=
  ⟨_, rfl, locked_until_paid premiumWallpaper rfl newService [] rfl (List.not_mem_nil) cancelled _
    rfl cancelled_unpaid⟩

end Flow

end PixsBliss.Pages.PremiumFlow
