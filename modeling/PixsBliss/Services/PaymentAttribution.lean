import PixsBliss.Services.PremiumService

/-! # Which wallpaper a payment unlocks

A success callback should set `unlocked_w` for the wallpaper `w` of the request it answers, and
nothing else should set such a flag (`Attributed`). The code finds `w` in the one key
`pending_unlock`, which every request overwrites and every error and every finished success removes,
whoever it belongs to.

* `attributed_step_iff`: a step is attributed when a success it delivers finds its own wallpaper in
  `pending_unlock`.
* `pending_iff_requestedLast`: `pending_unlock` holds the id of the last request, as long as no
  error and no finished success came after it.
* `each_attributed_iff`: so a run is attributed exactly when every success arrives while the last of
  these events is a request for its own wallpaper; `two_requests_misattributed` is a run that is
  not.
* `unlocked_iff_paid`: in an attributed run the wallpapers that become unlocked are those paid for.
  -/

namespace PixsBliss.Services.PaymentAttribution

open PixsBliss.Lib.Async PixsBliss.Lib.Linked PixsBliss.Services.PremiumService

abbrev PWorld := World State Task
abbrev PEvent := Event Call Outcome

/-- The flags `setBool` was called for, in order. The service writes no Boolean preference but the
flags `unlocked_w`. -/
def flagWrites (s : State) : List (String × Bool) :=
  s.prefs.sent.filterMap fun
    | .setBool key value => some (key, value)
    | _ => none

/-- The wallpaper whose open request a success answers, if the event is one. -/
def answeredBySuccess (w : PWorld) : PEvent → Option String
  | .resume i (.success _) =>
    match w.tasks[i]? with
    | some (.gateway _ wallpaperId) => some wallpaperId
    | _ => none
  | _ => none

/-- **Payment attribution of one step**: a success that answers a request for `w` sets `unlocked_w`
and no other flag; any other event sets no flag. -/
def Attributed (w : PWorld) (e : PEvent) (w' : PWorld) : Prop :=
  flagWrites w'.shared = flagWrites w.shared ++
    match answeredBySuccess w e with
    | some wallpaperId => [(unlockedKey wallpaperId, true)]
    | none => []

instance (w : PWorld) (e : PEvent) (w' : PWorld) : Decidable (Attributed w e w') :=
  inferInstanceAs (Decidable (_ = _))

/-- The event writes `pending_unlock`: a request, an error, or the end of a success. -/
def WritesPending (w : PWorld) : PEvent → Prop
  | .call (.unlockWallpaper _ _ _ opens) => opens = true
  | .resume i (.error _ _) => ∃ options id, w.tasks[i]? = some (.gateway options id)
  | .resume i (.stored true) => ∃ id, w.tasks[i]? = some (.storingUnlocked id)
  | _ => False

/-- Of the events of `es` that write `pending_unlock`, the last is a request for `wallpaperId`. -/
def RequestedLast (w₀ : PWorld) (es : List PEvent) (wallpaperId : String) : Prop :=
  ∃ pre title price post w₁,
    es = pre ++ .call (.unlockWallpaper wallpaperId title price true) :: post ∧
    program.run w₀ (pre ++ [.call (.unlockWallpaper wallpaperId title price true)]) = some w₁ ∧
    program.Each (fun w e _ => ¬ WritesPending w e) w₁ post

def pending (w : PWorld) : Option String := w.shared.prefs.getString pendingKey

/-! ### One step -/

section Step
variable {w w' : PWorld} {e : PEvent}

theorem step_request {id title : String} {price : ℤ}
    (h : program.step w (.call (.unlockWallpaper id title price true)) = some w') :
    pending w' = some id := by
  rw [Program.step_call] at h
  cases h
  simp [pending, program, unlockWallpaper]

/-- **What a step does to `pending_unlock`.** -/
theorem step_pending (h : program.step w e = some w') :
    (¬ WritesPending w e ∧ pending w' = pending w) ∨
    (WritesPending w e ∧ pending w' = none) ∨
    ∃ id title price, e = .call (.unlockWallpaper id title price true) ∧ pending w' = some id := by
  rcases Program.step_cases h with ⟨k, rfl, rfl⟩ | ⟨l, t, r, o, s, ts, rfl, ht, hr, rfl⟩
  · obtain ⟨id, title, price, opens⟩ := k
    cases opens with
    | true => exact Or.inr (Or.inr ⟨id, title, price, rfl, step_request h⟩)
    | false => exact Or.inl ⟨by simp [WritesPending], rfl⟩
  · have hi := Program.getElem?_of_eq ht
    cases resumes_of_resume hr with
    | success options id paymentId =>
      refine Or.inl ⟨by simp [WritesPending], ?_⟩
      unfold pending handlePaymentSuccess
      split
      · rfl
      · exact Prefs.getString_setBool (unlockedKey_ne_pending _).symm
    | error options id code message =>
      exact Or.inr (Or.inl ⟨⟨options, id, hi⟩, by simp [pending, handlePaymentError]⟩)
    | externalWallet options id walletName => exact Or.inl ⟨by simp [WritesPending], rfl⟩
    | storedPending id ok => exact Or.inl ⟨by cases ok <;> simp [WritesPending, hi], rfl⟩
    | storedUnlocked id =>
      exact Or.inr (Or.inl ⟨⟨id, hi⟩, by simp [pending, finishPaymentSuccess]⟩)
    | notStored id => exact Or.inl ⟨by simp [WritesPending], rfl⟩

/-- **A step is attributed when the success it delivers finds its own wallpaper.** -/
theorem attributed_step_iff (h : program.step w e = some w') :
    Attributed w e w' ↔ ∀ id, answeredBySuccess w e = some id → pending w = some id := by
  rcases Program.step_cases h with ⟨k, rfl, rfl⟩ | ⟨l, t, r, o, s, ts, rfl, ht, hr, rfl⟩
  · obtain ⟨id, title, price, opens⟩ := k
    cases opens <;>
      simp [Attributed, answeredBySuccess, program, unlockWallpaper, flagWrites, Prefs.setString]
  · have hi := Program.getElem?_of_eq ht
    cases resumes_of_resume hr with
    | success options id paymentId =>
      simp only [Attributed, answeredBySuccess, hi, Option.some.injEq, forall_eq', pending,
        handlePaymentSuccess]
      cases hp : w.shared.prefs.getString pendingKey with
      | none => simp
      | some v => simp [flagWrites, Prefs.setBool, unlockedKey_inj]
    | error options id code message =>
      simp [Attributed, answeredBySuccess, handlePaymentError, flagWrites, Prefs.remove]
    | externalWallet options id walletName => simp [Attributed, answeredBySuccess]
    | storedPending id ok => simp [Attributed, answeredBySuccess]
    | storedUnlocked id =>
      simp [Attributed, answeredBySuccess, finishPaymentSuccess, flagWrites, Prefs.remove]
    | notStored id => simp [Attributed, answeredBySuccess]

/-- A gateway is open after a step if it was before, or the step is a request. -/
theorem step_gateway (h : program.step w e = some w') {options : PaymentOptions} {id : String}
    (hg : Task.gateway options id ∈ w'.tasks) :
    Task.gateway options id ∈ w.tasks ∨
      ∃ id' title price, e = .call (.unlockWallpaper id' title price true) := by
  rcases Program.step_cases h with ⟨k, rfl, rfl⟩ | ⟨l, t, r, o, s, ts, rfl, ht, hr, rfl⟩
  · obtain ⟨id', title, price, opens⟩ := k
    cases opens with
    | true => exact Or.inr ⟨id', title, price, rfl⟩
    | false => exact Or.inl (by simpa [program, unlockWallpaper] using hg)
  · left
    rw [ht]
    have hts : Task.gateway options id ∈ ts → Task.gateway options id = t := by
      cases resumes_of_resume hr with
      | success options' id' paymentId =>
        unfold handlePaymentSuccess
        split <;> simp
      | externalWallet options' id' walletName => exact List.mem_singleton.mp
      | _ => simp
    simp only [List.mem_append, List.mem_cons] at hg ⊢
    rcases hg with (hg | hg) | hg
    · exact Or.inl hg
    · exact Or.inr (Or.inl (hts hg))
    · exact Or.inr (Or.inr hg)

end Step

/-! ### Runs -/

variable {s₀ : State} {es : List PEvent} {w : PWorld} {id : String}

/-- A gateway is open only after some request. -/
theorem request_of_gateway {options : PaymentOptions} :
    ∀ {es : List PEvent} {w : PWorld}, program.run ⟨s₀, []⟩ es = some w →
      Task.gateway options id ∈ w.tasks →
        ∃ id' title price, .call (.unlockWallpaper id' title price true) ∈ es := by
  intro es
  induction es using List.reverseRecOn with
  | nil =>
    intro w h hg
    simp only [Program.run_nil, Option.some.injEq] at h
    subst h
    simp at hg
  | append_singleton es e ih =>
    intro w h hg
    rw [Program.run_concat, Option.bind_eq_some_iff] at h
    obtain ⟨w₁, h₁, hs⟩ := h
    rcases step_gateway hs hg with hg | ⟨id', title, price, rfl⟩
    · obtain ⟨id', title, price, hm⟩ := ih h₁ hg
      exact ⟨id', title, price, by simp [hm]⟩
    · exact ⟨id', title, price, by simp⟩

theorem pending_of_requestedLast (h : program.run ⟨s₀, []⟩ es = some w)
    (hl : RequestedLast ⟨s₀, []⟩ es id) : pending w = some id := by
  obtain ⟨pre, title, price, post, w₁, rfl, hw₁, hpost⟩ := hl
  have hp₁ : pending w₁ = some id := by
    rw [Program.run_concat, Option.bind_eq_some_iff] at hw₁
    obtain ⟨w₂, -, hs⟩ := hw₁
    exact step_request hs
  rw [List.append_cons, Program.run_append, hw₁] at h
  refine Program.run_inv_of_each (I := fun w => pending w = some id) ?_ hp₁ hpost h
  intro v e v' hv hnw hs
  rcases step_pending hs with ⟨-, hp⟩ | ⟨hw, -⟩ | ⟨id', title', price', rfl, -⟩
  · rw [hp]; exact hv
  · exact absurd hw hnw
  · exact absurd rfl hnw

theorem requestedLast_of_pending : ∀ {es : List PEvent} {w : PWorld},
    program.run ⟨s₀, []⟩ es = some w →
    (∃ id' title price, .call (.unlockWallpaper id' title price true) ∈ es) →
    pending w = some id → RequestedLast ⟨s₀, []⟩ es id := by
  intro es
  induction es using List.reverseRecOn with
  | nil => rintro w - ⟨_, _, _, h⟩ -; simp at h
  | append_singleton es e ih =>
    intro w h hreq hp
    have h' := h
    rw [Program.run_concat, Option.bind_eq_some_iff] at h
    obtain ⟨w₁, h₁, hs⟩ := h
    rcases step_pending hs with ⟨hnw, hp'⟩ | ⟨-, hp'⟩ | ⟨id', title, price, rfl, hp'⟩
    · -- the step keeps the key, so the request is an earlier one
      have hreq' : ∃ id' title price, .call (.unlockWallpaper id' title price true) ∈ es := by
        obtain ⟨id', title, price, hm⟩ := hreq
        rcases List.mem_append.mp hm with hm | hm
        · exact ⟨id', title, price, hm⟩
        · rw [List.mem_singleton] at hm
          subst hm
          exact absurd rfl hnw
      obtain ⟨pre, title, price, post, w₂, rfl, hw₂, hpost⟩ := ih h₁ hreq' (by rw [← hp']; exact hp)
      refine ⟨pre, title, price, post ++ [e], w₂, by simp, hw₂, Program.each_concat.mpr ⟨hpost, ?_⟩⟩
      intro v v' hv hv'
      rw [List.append_cons, Program.run_append, hw₂] at h₁
      obtain rfl : v = w₁ := Option.some.inj (hv.symm.trans h₁)
      exact hnw
    · rw [hp'] at hp; simp at hp
    · obtain rfl : id' = id := by rw [hp'] at hp; exact Option.some.inj hp
      exact ⟨es, title, price, [], w, rfl, h', trivial⟩

/-- **`pending_unlock` names the last request.** -/
theorem pending_iff_requestedLast (h : program.run ⟨s₀, []⟩ es = some w)
    {options : PaymentOptions} {id' : String} (hg : Task.gateway options id' ∈ w.tasks) :
    pending w = some id ↔ RequestedLast ⟨s₀, []⟩ es id :=
  ⟨requestedLast_of_pending h (request_of_gateway h hg), pending_of_requestedLast h⟩

theorem gateway_of_answered {e : PEvent} (h : answeredBySuccess w e = some id) :
    ∃ options, Task.gateway options id ∈ w.tasks := by
  unfold answeredBySuccess at h
  split at h
  · split at h
    · next options id' hi =>
      cases h
      exact ⟨options, List.mem_of_getElem? hi⟩
    · cases h
  · cases h

/-- **Exactly the runs in which payments are attributed**: whenever a success answers a request for
`id`, the last event that wrote `pending_unlock` is a request for `id`. -/
theorem each_attributed_iff (s₀ : State) (es : List PEvent) :
    program.Each Attributed ⟨s₀, []⟩ es ↔
      ∀ pre e post w w' id, es = pre ++ e :: post → program.run ⟨s₀, []⟩ pre = some w →
        program.step w e = some w' → answeredBySuccess w e = some id →
          RequestedLast ⟨s₀, []⟩ pre id := by
  rw [Program.each_iff]
  constructor
  · intro h pre e post w w' id hes hpre hs ha
    obtain ⟨options, hg⟩ := gateway_of_answered ha
    exact (pending_iff_requestedLast hpre hg).mp
      ((attributed_step_iff hs).mp (h pre e post w w' hes hpre hs) id ha)
  · intro h pre e post w w' hes hpre hs
    refine (attributed_step_iff hs).mpr fun id ha => ?_
    obtain ⟨options, hg⟩ := gateway_of_answered ha
    exact (pending_iff_requestedLast hpre hg).mpr (h pre e post w w' id hes hpre hs ha)

def freshState : State := ⟨⟨LinkedMap.empty, []⟩, []⟩

/-- **A payment that unlocks another wallpaper**: `a` is paid for after `b` was requested. -/
theorem two_requests_misattributed :
    ¬ program.Each Attributed ⟨freshState, []⟩
      [.call (.unlockWallpaper "a" "A" 49 true), .call (.unlockWallpaper "b" "B" 49 true),
        .resume 0 (.success "pay_1")] := by
  intro h
  have h3 := (((h _ rfl).2 _ rfl).2 _ rfl).1
  revert h3
  decide

/-! ### What becomes unlocked -/

/-- The wallpapers whose requests were answered by a success along the run. -/
def paid (w : PWorld) : List PEvent → List String
  | [] => []
  | e :: es =>
    (answeredBySuccess w e).toList ++
      match program.step w e with
      | none => []
      | some w' => paid w' es

/-- A flag is set iff it was before or `setBool` was called for it. -/
theorem step_unlocked {w' : PWorld} {e : PEvent} (h : program.step w e = some w')
    (ha : Attributed w e w') (v : String) :
    isWallpaperUnlocked w'.shared v = true ↔
      isWallpaperUnlocked w.shared v = true ∨ answeredBySuccess w e = some v := by
  have hp := (attributed_step_iff h).mp ha
  have hne := unlockedKey_ne_pending v
  rcases Program.step_cases h with ⟨k, rfl, rfl⟩ | ⟨l, t, r, o, s, ts, rfl, ht, hr, rfl⟩
  · obtain ⟨id, title, price, opens⟩ := k
    cases opens <;>
      simp [isWallpaperUnlocked, answeredBySuccess, program, unlockWallpaper,
        Prefs.getBool_setString hne]
  · have hi := Program.getElem?_of_eq ht
    cases resumes_of_resume hr with
    | success options id paymentId =>
      have hid : w.shared.prefs.getString pendingKey = some id :=
        hp id (by simp [answeredBySuccess, hi])
      simp only [isWallpaperUnlocked, answeredBySuccess, hi, handlePaymentSuccess, hid,
        Option.some.injEq]
      by_cases hv : id = v
      · subst hv; simp
      · rw [Prefs.getBool_setBool_of_ne fun he => hv (unlockedKey_inj.mp he).symm]
        simp [hv]
    | error options id code message =>
      simp [isWallpaperUnlocked, answeredBySuccess, handlePaymentError, Prefs.getBool_remove hne]
    | externalWallet options id walletName => simp [answeredBySuccess]
    | storedPending id ok => simp [answeredBySuccess]
    | storedUnlocked id =>
      simp [isWallpaperUnlocked, answeredBySuccess, finishPaymentSuccess,
        Prefs.getBool_remove hne]
    | notStored id => simp [answeredBySuccess]

/-- **In an attributed run exactly the wallpapers paid for become unlocked.** -/
theorem unlocked_iff_paid : ∀ {es : List PEvent} {w w' : PWorld},
    program.Each Attributed w es → program.run w es = some w' → ∀ v,
      isWallpaperUnlocked w'.shared v = true ↔
        isWallpaperUnlocked w.shared v = true ∨ v ∈ paid w es
  | [], w, w', _, h, v => by
    simp only [Program.run_nil, Option.some.injEq] at h
    subst h
    simp [paid]
  | e :: es, w, w', ha, h, v => by
    obtain ⟨w₁, hs, hr⟩ := Program.run_cons_some.mp h
    rw [unlocked_iff_paid (ha w₁ hs).2 hr v, step_unlocked hs (ha w₁ hs).1 v, paid, hs]
    simp only [List.mem_append, Option.mem_toList]
    exact or_assoc

end PixsBliss.Services.PaymentAttribution
