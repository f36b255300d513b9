import PixsBliss.Lib.Async
import PixsBliss.Lib.Linked

/-! # The premium service

`premium_service.dart` as an asynchronous program over the preferences of the device.
`unlockWallpaper` opens the payment gateway and stores the wallpaper's id under the one key
`pending_unlock`; the three Razorpay handlers run when an open gateway answers. `main` awaits `init`
before the first screen, so the guards `if (!_isInitialized) await init()` never suspend.

The task `gateway` is an open payment; the id it carries is a ghost, as the gateway is given the
options only. The gateway answers at most once with success or error; the choice of an external
wallet leaves it open. -/

namespace PixsBliss.Services.PremiumService

open PixsBliss.Lib.Async PixsBliss.Lib.Linked

/-! ### Preferences -/

/-- The value of a preference; a double by its bits. -/
inductive PrefValue
  | bool (b : Bool)
  | str (s : String)
  | int (n : ℤ)
  | double (bits : UInt64)
  | stringList (l : List String)
deriving DecidableEq

/-- A write that was sent to the platform's store. -/
inductive PrefWrite
  | setBool (key : String) (value : Bool)
  | setString (key value : String)
  | remove (key : String)
deriving DecidableEq

/-- SharedPreferences: reads see the cache, which a write changes at once; the write is also sent to
the platform's store. -/
structure Prefs where
  cache : LinkedMap String PrefValue
  sent : List PrefWrite

namespace Prefs

/-- `getString(key)`. -/
def getString (p : Prefs) (key : String) : Option String :=
  match p.cache.get key with
  | some (.str s) => some s
  | _ => none

/-- `getBool(key)`. -/
def getBool (p : Prefs) (key : String) : Option Bool :=
  match p.cache.get key with
  | some (.bool b) => some b
  | _ => none

def setString (p : Prefs) (key value : String) : Prefs :=
  ⟨p.cache.set key (.str value), p.sent ++ [.setString key value]⟩

def setBool (p : Prefs) (key : String) (value : Bool) : Prefs :=
  ⟨p.cache.set key (.bool value), p.sent ++ [.setBool key value]⟩

def remove (p : Prefs) (key : String) : Prefs := ⟨p.cache.remove key, p.sent ++ [.remove key]⟩

variable {p : Prefs} {key key' value : String} {b : Bool}

@[simp] theorem getString_setString : (p.setString key value).getString key = some value := by
  simp [getString, setString]

theorem getString_setString_of_ne (h : key' ≠ key) :
    (p.setString key value).getString key' = p.getString key' := by
  unfold getString setString
  rw [LinkedMap.get_set_of_ne h]

@[simp] theorem getString_remove : (p.remove key).getString key = none := by
  simp [getString, remove]

theorem getString_setBool (h : key' ≠ key) :
    (p.setBool key b).getString key' = p.getString key' := by
  unfold getString setBool
  rw [LinkedMap.get_set_of_ne h]

@[simp] theorem getBool_setBool : (p.setBool key b).getBool key = some b := by
  simp [getBool, setBool]

theorem getBool_setBool_of_ne (h : key' ≠ key) :
    (p.setBool key b).getBool key' = p.getBool key' := by
  unfold getBool setBool
  rw [LinkedMap.get_set_of_ne h]

theorem getBool_setString (h : key' ≠ key) :
    (p.setString key value).getBool key' = p.getBool key' := by
  unfold getBool setString
  rw [LinkedMap.get_set_of_ne h]

theorem getBool_remove (h : key' ≠ key) : (p.remove key).getBool key' = p.getBool key' := by
  unfold getBool remove
  rw [LinkedMap.get_remove_of_ne h]

end Prefs

/-! ### Keys -/

def pendingKey : String := "pending_unlock"

/-- `'unlocked_$wallpaperId'`. -/
def unlockedKey (wallpaperId : String) : String := "unlocked_" ++ wallpaperId

theorem unlockedKey_inj {v w : String} : unlockedKey v = unlockedKey w ↔ v = w := by
  simp [unlockedKey]

theorem unlockedKey_ne_pending (w : String) : unlockedKey w ≠ pendingKey := by
  intro h
  have := congrArg String.toList h
  simp [unlockedKey, pendingKey] at this

/-! ### The program -/

/-- The options of a payment. -/
structure PaymentOptions where
  key : String
  amount : ℤ
  name : String
  description : String
  timeout : ℤ
  contact : String
  email : String
  wallets : List String
deriving DecidableEq

def razorpayKeyId : String := "rzp_test_G189rYNiSIRUzR"

/-- The options `unlockWallpaper` opens the gateway with; the amount is in paise. -/
def paymentOptions (wallpaperTitle : String) (price : ℤ) : PaymentOptions where
  key := razorpayKeyId
  amount := price * 100
  name := "PixsBliss"
  description := "Unlock Premium Wallpaper: " ++ wallpaperTitle
  timeout := 180
  contact := ""
  email := ""
  wallets := ["paytm"]

/-- The preferences, and the ids sent to the listeners of `unlockStream`. -/
structure State where
  prefs : Prefs
  unlockStream : List String

inductive Task
  | gateway (options : PaymentOptions) (wallpaperId : String)
  | storingPending (wallpaperId : String)
  | storingUnlocked (wallpaperId : String)
deriving DecidableEq

/-- `opens` is false when `_razorpay.open` throws. -/
inductive Call
  | unlockWallpaper (wallpaperId wallpaperTitle : String) (price : ℤ) (opens : Bool)
deriving DecidableEq

/-- How an awaited operation ends: the answers of the gateway, and the end of a write (`stored
false` when the platform's store throws). -/
inductive Outcome
  | success (paymentId : String)
  | error (code : ℤ) (message : String)
  | externalWallet (walletName : String)
  | stored (ok : Bool)
deriving DecidableEq

/-- `unlockWallpaper` up to the `await` of `setString`: nothing can run between the opening of the
gateway and the write. -/
def unlockWallpaper (wallpaperId wallpaperTitle : String) (price : ℤ) (opens : Bool) (s : State) :
    State × List Task :=
  if opens then
    ({ s with prefs := s.prefs.setString pendingKey wallpaperId },
      [.gateway (paymentOptions wallpaperTitle price) wallpaperId, .storingPending wallpaperId])
  else (s, [])

/-- `_handlePaymentSuccess` up to the `await` of `setBool`. -/
def handlePaymentSuccess (s : State) : State × List Task :=
  match s.prefs.getString pendingKey with
  | none => (s, [])
  | some wallpaperId =>
    ({ s with prefs := s.prefs.setBool (unlockedKey wallpaperId) true },
      [.storingUnlocked wallpaperId])

/-- The rest of `_handlePaymentSuccess`. -/
def finishPaymentSuccess (wallpaperId : String) (s : State) : State where
  prefs := s.prefs.remove pendingKey
  unlockStream := s.unlockStream ++ [wallpaperId]

/-- `_handlePaymentError`. -/
def handlePaymentError (s : State) : State := { s with prefs := s.prefs.remove pendingKey }

/-- `_handleExternalWallet` only logs. -/
def handleExternalWallet (s : State) : State := s

/-- **The premium service.** -/
def program : Program State Task Call Outcome where
  call
    | .unlockWallpaper id title price opens, s => unlockWallpaper id title price opens s
  resume
    | .gateway _ _, .success _, s => some (handlePaymentSuccess s)
    | .gateway _ _, .error _ _, s => some (handlePaymentError s, [])
    | .gateway options id, .externalWallet _, s =>
      some (handleExternalWallet s, [.gateway options id])
    | .storingPending _, .stored _, s => some (s, [])
    | .storingUnlocked id, .stored ok, s =>
      some (if ok then finishPaymentSuccess id s else s, [])
    | _, _, _ => none

/-- What a resumption does. -/
inductive Resumes (s : State) : Task → Outcome → State → List Task → Prop
  | success (options : PaymentOptions) (id paymentId : String) :
    Resumes s (.gateway options id) (.success paymentId) (handlePaymentSuccess s).1
      (handlePaymentSuccess s).2
  | error (options : PaymentOptions) (id : String) (code : ℤ) (message : String) :
    Resumes s (.gateway options id) (.error code message) (handlePaymentError s) []
  | externalWallet (options : PaymentOptions) (id walletName : String) :
    Resumes s (.gateway options id) (.externalWallet walletName) s [.gateway options id]
  | storedPending (id : String) (ok : Bool) : Resumes s (.storingPending id) (.stored ok) s []
  | storedUnlocked (id : String) :
    Resumes s (.storingUnlocked id) (.stored true) (finishPaymentSuccess id s) []
  | notStored (id : String) : Resumes s (.storingUnlocked id) (.stored false) s []

theorem resumes_of_resume {t : Task} {o : Outcome} {s s' : State} {ts : List Task}
    (h : program.resume t o s = some (s', ts)) : Resumes s t o s' ts := by
  cases t <;> cases o <;> simp only [program, Option.some.injEq, reduceCtorEq] at h
  case gateway.success options id paymentId =>
    obtain ⟨rfl, rfl⟩ : (handlePaymentSuccess s).1 = s' ∧ (handlePaymentSuccess s).2 = ts :=
      Prod.mk.inj h
    exact .success options id paymentId
  case gateway.error options id code message =>
    obtain ⟨rfl, rfl⟩ := Prod.mk.inj h
    exact .error options id code message
  case gateway.externalWallet options id walletName =>
    obtain ⟨rfl, rfl⟩ := Prod.mk.inj h
    exact .externalWallet options id walletName
  case storingPending.stored id ok =>
    obtain ⟨rfl, rfl⟩ := Prod.mk.inj h
    exact .storedPending id ok
  case storingUnlocked.stored id ok =>
    obtain ⟨rfl, rfl⟩ := Prod.mk.inj h
    cases ok with
    | true => exact .storedUnlocked id
    | false => exact .notStored id

/-- `isWallpaperUnlocked`. -/
def isWallpaperUnlocked (s : State) (wallpaperId : String) : Bool :=
  (s.prefs.getBool (unlockedKey wallpaperId)).getD false

end PixsBliss.Services.PremiumService
