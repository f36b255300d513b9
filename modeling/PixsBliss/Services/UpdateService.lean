import PixsBliss.Models.Json
import Mathlib.Data.List.Infix
import Mathlib.Tactic

/-! # The update service

`update_service.dart`: the permissions, the download of the package and its installation. What each
`await` gives is part of an environment, a value or what was thrown; each of the three functions
catches everything (`requestPermissions_ok`, `downloadApk_ok`, `installApk_ok`), so that a cancelled
download returns no path, like a failed one. -/

namespace PixsBliss.Services.UpdateService

open PixsBliss.Models.Json (DioExceptionType)

/-- What is thrown: an error of the client, or any other. -/
inductive Thrown
  | dio (type : DioExceptionType)
  | other (message : String)
deriving DecidableEq

/-- What an `await` gives. -/
abbrev Attempt := Except Thrown

/-! ### The download -/

/-- The answer of a server. -/
structure ServerAnswer where
  statusCode : ℤ
  body : ByteArray

/-- What `downloadApk` awaits. A request has no answer without a connection, or once the token is
cancelled. -/
structure DownloadEnv where
  isAndroid : Bool
  downloadExists : Attempt Bool
  externalStorage : Attempt (Option String)
  documents : Attempt String
  millisecondsSinceEpoch : ℕ
  get : String → Attempt ServerAnswer
  fileExists : Attempt Bool

/-- The statuses the client accepts. -/
def validateStatus : Option ℤ → Bool
  | none => false
  | some status => status < 500

def downloadsDir (env : DownloadEnv) : Attempt (Option String) :=
  if env.isAndroid then do
    if ← env.downloadExists then pure (some "/storage/emulated/0/Download")
    else env.externalStorage
  else some <$> env.documents

def fileName (timestamp : ℕ) : String := "PixsBliss_" ++ toString timestamp ++ ".apk"

/-- The download of the client: what is written to the file. -/
def download (env : DownloadEnv) (url : String) : Attempt ByteArray := do
  let answer ← env.get url
  if validateStatus (some answer.statusCode) then pure answer.body
  else throw (.dio .badResponse)

/-- `readAsString`, which fails on a file that is not UTF-8. -/
def readAsString (content : ByteArray) : Attempt String :=
  match String.fromUTF8? content with
  | none => throw (.other "Failed to decode data using encoding 'utf-8'")
  | some s => pure s

def contains (s pattern : String) : Bool := decide (pattern.toList <:+: s.toList)

/-- What makes a small file an error page. -/
def looksLikeHtml (content : String) : Bool :=
  contains content "<!DOCTYPE html>" || contains content "<html"

/-- The body of `downloadApk`. -/
def fetchApk (env : DownloadEnv) (apkUrl : String) : Attempt String := do
  match ← downloadsDir env with
  | none => throw (.other "Exception: Could not access downloads directory")
  | some dir =>
    let filePath := dir ++ "/" ++ fileName env.millisecondsSinceEpoch
    let content ← download env apkUrl
    if !(← env.fileExists) then throw (.other "Exception: File was not created after download")
    if content.size < 1000 then
      if looksLikeHtml (← readAsString content) then
        throw (.other ("Exception: Downloaded file is HTML (error page), not APK. File size: " ++
          toString content.size ++ " bytes"))
    pure filePath

/-- `downloadApk`: every error is caught. -/
def downloadApk (env : DownloadEnv) (apkUrl : String) : Attempt (Option String) :=
  tryCatch (some <$> fetchApk env apkUrl) fun _ => pure none

/-! ### The permissions and the installation -/

/-- What `requestPermissions` awaits. -/
structure PermissionEnv where
  isAndroid : Bool
  storageSdkInt : Attempt ℕ
  storage : Attempt Bool
  installSdkInt : Attempt ℕ
  requestInstallPackages : Attempt Bool

/-- The body of `requestPermissions`: storage below Android 10, installation from Android 8 on. -/
def askPermissions (env : PermissionEnv) : Attempt Bool := do
  if env.isAndroid then
    if (← env.storageSdkInt) < 29 then
      if !(← env.storage) then return false
    if (← env.installSdkInt) ≥ 26 then
      if !(← env.requestInstallPackages) then return false
  return true

def requestPermissions (env : PermissionEnv) : Attempt Bool :=
  tryCatch (askPermissions env) fun _ => pure false

/-- How the opening of a file ends. -/
inductive ResultType
  | done
  | fileNotFound
  | noAppToOpen
  | permissionDenied
  | error
deriving DecidableEq

def installApk (opened : Attempt ResultType) : Attempt Bool :=
  tryCatch ((fun type => decide (type = .done)) <$> opened) fun _ => pure false

/-! ### Nothing is thrown -/

theorem tryCatch_ok {α : Type} (x : Attempt α) (a : α) :
    ∃ r, (tryCatch x fun _ => pure a : Attempt α) = .ok r := by
  cases x with
  | error e => exact ⟨a, rfl⟩
  | ok r => exact ⟨r, rfl⟩

theorem downloadApk_ok (env : DownloadEnv) (apkUrl : String) :
    ∃ apkPath, downloadApk env apkUrl = .ok apkPath :=
  tryCatch_ok _ none

theorem requestPermissions_ok (env : PermissionEnv) :
    ∃ granted, requestPermissions env = .ok granted :=
  tryCatch_ok _ false

theorem installApk_ok (opened : Attempt ResultType) : ∃ success, installApk opened = .ok success :=
  tryCatch_ok _ false

end PixsBliss.Services.UpdateService
