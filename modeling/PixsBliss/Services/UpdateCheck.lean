import PixsBliss.Lib.IntLiteral
import PixsBliss.Lib.KeyOrder
import PixsBliss.Models.Json
import PixsBliss.Services.UpdateService
import Mathlib.Data.Prod.Lex

/-! # Checking for updates

`isNewerVersion` and `checkForUpdate` of `update_service.dart`. A version is a text of integers with
dots between them; the first three decide, and a missing one counts as 0.

* `isNewerVersion_eq`: a version is newer iff its padded components are lexicographically greater.
* `readParts_text_iff`: integers with dots between them are a version iff they fit into 64 bits.
* `offers_newer`: a check only offers what is newer than the version it finds on the device. -/

namespace PixsBliss.Services.UpdateCheck

open PixsBliss.Lib.IntLiteral PixsBliss.Lib.KeyOrder PixsBliss.Models.Json
open PixsBliss.Services.UpdateService

/-! ### Comparing versions -/

/-- `int.parse`. -/
def parseInt (s : List Char) : Result ℤ :=
  match tryParse s with
  | some n => .ok n
  | none => .error .formatException

/-- `split('.').map(int.parse).toList()`. -/
def readParts (version : String) : Result (List ℤ) := (version.toList.splitOn '.').mapM parseInt

/-- The part at a position, 0 if there is none. -/
def part (parts : List ℤ) (i : ℕ) : ℤ := if h : i < parts.length then parts[i] else 0

/-- The loop from the position `i`, with `n` rounds left. -/
def compareParts (newParts currentParts : List ℤ) : ℕ → ℕ → Bool
  | _, 0 => false
  | i, n + 1 =>
    if part newParts i > part currentParts i then true
    else if part newParts i < part currentParts i then false
    else compareParts newParts currentParts (i + 1) n

def isNewerVersion (newVersion currentVersion : String) : Result Bool := do
  let newParts ← readParts newVersion
  let currentParts ← readParts currentVersion
  return compareParts newParts currentParts 0 3

/-! ### The check -/

structure UpdateInfo where
  version : String
  apkUrl : String
  changelog : String
deriving DecidableEq

/-- The changelog has its escaped newlines replaced. -/
def UpdateInfo.fromJson (json : DynMap) : Result UpdateInfo := do
  let changelog := (← orNull asString (field "changelog" json)).getD ""
  return {
    version := (← orNull asString (field "version" json)).getD ""
    apkUrl := (← orNull asString (field "apk_url" json)).getD ""
    changelog := changelog.replace "\\n" "\n" }

/-- An answer of the server; the client may have decoded its data. -/
structure UpdateAnswer where
  statusCode : Option ℤ
  data : Dyn

/-- What a check awaits: the answer, and the version of the package. -/
structure CheckEnv where
  answer : Result UpdateAnswer
  packageVersion : Result String

/-- The request: the client throws at a status it does not accept. -/
def getUpdate (env : CheckEnv) : Result UpdateAnswer := do
  let response ← env.answer
  if validateStatus response.statusCode then return response
  else throw (.exception "DioException [bad response]")

def getCurrentVersion (env : CheckEnv) : String :=
  match env.packageVersion with
  | .ok version => version
  | .error _ => "1.0.0"

/-- The data of an answer, as a map. -/
def jsonData (c : Codec) : Dyn → Result DynMap
  | .str text => do asMap (← c.jsonDecode text)
  | data => asMap data

def readUpdate (c : Codec) (env : CheckEnv) : Result (Option UpdateInfo) := do
  let response ← getUpdate env
  if response.statusCode = some 200 then
    let updateInfo ← UpdateInfo.fromJson (← jsonData c response.data)
    if ← isNewerVersion updateInfo.version (getCurrentVersion env) then return some updateInfo
    else return none
  else return none

/-- `checkForUpdate`: every error is caught. -/
def checkForUpdate (c : Codec) (env : CheckEnv) : Option UpdateInfo :=
  match readUpdate c env with
  | .ok updateInfo => updateInfo
  | .error _ => none

/-! ### The order of versions -/

/-- The first three components, padded with zeros, in lexicographic order. -/
def padded (parts : List ℤ) : ℤ ×ₗ ℤ ×ₗ ℤ :=
  toLex (part parts 0, toLex (part parts 1, part parts 2))

theorem compareParts_succ {newParts currentParts : List ℤ} {i n : ℕ} :
    compareParts newParts currentParts i (n + 1) = true ↔
      part currentParts i < part newParts i ∨
        part currentParts i = part newParts i ∧
          compareParts newParts currentParts (i + 1) n = true := by
  rw [compareParts]
  split_ifs with hgt hlt
  · exact iff_of_true rfl (Or.inl hgt)
  · refine iff_of_false (by decide) ?_
    rintro (h | ⟨h, -⟩)
    · exact lt_asymm h hlt
    · exact hlt.ne' h
  · have heq : part currentParts i = part newParts i :=
      le_antisymm (not_lt.mp hlt) (not_lt.mp hgt)
    rw [or_iff_right hgt, and_iff_right heq]

theorem compareParts_iff {newParts currentParts : List ℤ} :
    compareParts newParts currentParts 0 3 = true ↔ padded currentParts < padded newParts := by
  rw [compareParts_succ, compareParts_succ, compareParts_succ, padded, padded,
    Prod.Lex.toLex_lt_toLex, Prod.Lex.toLex_lt_toLex]
  simp [compareParts]

/-- **A version**: a text with its components. Each of them fits into 64 bits, as `int.parse` reads
no others. -/
structure Version where
  text : String
  parts : List ℤ
  reads : readParts text = .ok parts

/-- **What the loop computes.** -/
theorem isNewerVersion_eq (a b : Version) :
    isNewerVersion a.text b.text = .ok (decide (padded b.parts < padded a.parts)) := by
  rw [isNewerVersion, a.reads, ok_bind, b.reads, ok_bind]
  exact congrArg Except.ok (Bool.eq_iff_iff.mpr (by rw [compareParts_iff, decide_eq_true_iff]))

example : isNewerVersion "1.0.10" "1.0.9" = .ok true := rfl
example : isNewerVersion "1.2" "1.2.0" = .ok false := rfl

def Newer (a b : Version) : Prop := isNewerVersion a.text b.text = .ok true

theorem newer_iff (a b : Version) : Newer a b ↔ padded b.parts < padded a.parts := by
  rw [Newer, isNewerVersion_eq, Except.ok.injEq, decide_eq_true_iff]

/-- Versions are compared by their padded components, the greatest first. -/
theorem compares_newer : Compares (fun v => OrderDual.toDual (padded v.parts)) Newer := newer_iff

/-! ### Integers with dots between them -/

def versionText (parts : List ℤ) : String :=
  String.ofList (['.'].intercalate (parts.map fun n => (toString n).toList))

theorem dot_notMem_toString (n : ℤ) : '.' ∉ (toString n).toList := by
  intro h
  rcases mem_toString h with hsign | hdigit
  · revert hsign
    decide
  · revert hdigit
    decide

/-- A component is read back if it fits into 64 bits. -/
theorem parseInt_toString (n : ℤ) : parseInt (toString n).toList =
    if -2 ^ 63 ≤ n ∧ n < 2 ^ 63 then .ok n else .error .formatException := by
  rw [parseInt, tryParse_toString_eq, fits]
  split_ifs <;> rfl

theorem mapM_parseInt_iff {parts : List ℤ} :
    (parts.map fun n => (toString n).toList).mapM parseInt = .ok parts ↔
      ∀ n ∈ parts, -2 ^ 63 ≤ n ∧ n < 2 ^ 63 := by
  induction parts with
  | nil => exact iff_of_true rfl (List.forall_mem_nil _)
  | cons n parts ih =>
    rw [List.map_cons, List.mapM_cons, parseInt_toString, List.forall_mem_cons, ← ih]
    split_ifs with hn
    · rw [and_iff_right hn, ok_bind]
      cases (parts.map fun n => (toString n).toList).mapM parseInt with
      | error e => exact iff_of_false (by rintro ⟨⟩) (by rintro ⟨⟩)
      | ok read => simp [pure, Except.pure]
    · exact iff_of_false (by rintro ⟨⟩) fun h => hn h.1

/-- **Integers with dots between them are a version** if all of them fit into 64 bits, also those
after the third, which are not compared. -/
theorem readParts_text_iff {parts : List ℤ} (hne : parts ≠ []) :
    readParts (versionText parts) = .ok parts ↔ ∀ n ∈ parts, -2 ^ 63 ≤ n ∧ n < 2 ^ 63 := by
  have hdots : ∀ s ∈ parts.map fun n => (toString n).toList, '.' ∉ s := by
    intro s hs
    obtain ⟨n, -, rfl⟩ := List.mem_map.mp hs
    exact dot_notMem_toString n
  rw [readParts, versionText, String.toList_ofList,
    List.splitOn_intercalate '.' hdots (by simpa using hne)]
  exact mapM_parseInt_iff

/-! ### Chains of updates -/

/-- On a device with the version `current` a check can offer the version `new`. -/
def Offers (c : Codec) (current new : String) : Prop :=
  ∃ env updateInfo, getCurrentVersion env = current ∧ checkForUpdate c env = some updateInfo ∧
    updateInfo.version = new

theorem readUpdate_newer (c : Codec) (env : CheckEnv) :
    Yields (fun offer => ∀ updateInfo, offer = some updateInfo →
      isNewerVersion updateInfo.version (getCurrentVersion env) = .ok true) (readUpdate c env) := by
  unfold readUpdate
  refine yields_bind fun response _ => ?_
  split_ifs
  · refine yields_bind fun json _ => yields_bind fun info _ => yields_bind fun newer hnewer => ?_
    cases newer with
    | true =>
      refine yields_return fun updateInfo h => ?_
      obtain rfl := Option.some.inj h
      exact hnewer
    | false => exact yields_return fun updateInfo h => (by cases h)
  · exact yields_return fun updateInfo h => (by cases h)

/-- What can be compared is a version. -/
theorem exists_version {new current : String} (h : isNewerVersion new current = .ok true) :
    ∃ a b : Version, a.text = new ∧ b.text = current ∧ Newer a b := by
  have hreads : Yields (fun _ => ∃ p q, readParts new = .ok p ∧ readParts current = .ok q)
      (isNewerVersion new current) := by
    unfold isNewerVersion
    exact yields_bind fun p hp => yields_bind fun q hq => yields_return ⟨p, q, hp, hq⟩
  obtain ⟨p, q, hp, hq⟩ := hreads true h
  exact ⟨⟨new, p, hp⟩, ⟨current, q, hq⟩, rfl, rfl, h⟩

/-- **A check only offers what is newer.** -/
theorem offers_newer {c : Codec} {current new : String} (h : Offers c current new) :
    ∃ a b : Version, a.text = new ∧ b.text = current ∧ Newer a b := by
  obtain ⟨env, updateInfo, rfl, hcheck, rfl⟩ := h
  unfold checkForUpdate at hcheck
  cases hread : readUpdate c env with
  | error e =>
    rw [hread] at hcheck
    cases hcheck
  | ok offer =>
    rw [hread] at hcheck
    exact exists_version (readUpdate_newer c env offer hread updateInfo hcheck)

/-- The key of a text; one that is not a version counts as `0`. -/
def keyOf (text : String) : ℤ ×ₗ ℤ ×ₗ ℤ :=
  match readParts text with
  | .ok parts => padded parts
  | .error _ => padded []

theorem keyOf_text (v : Version) : keyOf v.text = padded v.parts := by
  rw [keyOf, v.reads]

theorem offers_acyclic (c : Codec) (text : String) : ¬Relation.TransGen (Offers c) text text := by
  have hkey : ∀ current new, Offers c current new → keyOf current < keyOf new := by
    intro current new h
    obtain ⟨a, b, rfl, rfl, hnewer⟩ := offers_newer h
    rw [keyOf_text, keyOf_text]
    exact (newer_iff a b).mp hnewer
  have hcompares : Compares keyOf fun current new => keyOf current < keyOf new := fun _ _ => Iff.rfl
  intro h
  exact hcompares.acyclic text (Relation.TransGen.mono hkey text text h)

/-- **A strict weak order** on the texts of 64-bit integers: a version is newer iff its padded
components are lexicographically greater; versions are only incomparable if these are equal; and no
chain of updates that are offered one after the other comes back to a version. -/
theorem newer_isStrictWeakOrder (c : Codec) :
    (∀ parts, parts ≠ [] → ((∃ v : Version, v.text = versionText parts ∧ v.parts = parts) ↔
      ∀ n ∈ parts, -2 ^ 63 ≤ n ∧ n < 2 ^ 63)) ∧
    (∀ a b : Version,
      isNewerVersion a.text b.text = .ok (decide (padded b.parts < padded a.parts))) ∧
    IsStrictWeakOrder Version Newer ∧ Std.Asymm Newer ∧
    (Equivalence fun a b => ¬Newer a b ∧ ¬Newer b a) ∧
    (∀ a b, (¬Newer a b ∧ ¬Newer b a) ↔ padded a.parts = padded b.parts) ∧
    ∀ text, ¬Relation.TransGen (Offers c) text text := by
  refine ⟨fun parts hne => ?_, isNewerVersion_eq, compares_newer.isStrictWeakOrder,
    ⟨fun _ _ => compares_newer.asymm⟩, compares_newer.equivalence, fun a b => ?_, offers_acyclic c⟩
  · rw [← readParts_text_iff hne]
    constructor
    · rintro ⟨v, htext, hparts⟩
      rw [← htext, v.reads, hparts]
    · exact fun hreads => ⟨⟨versionText parts, parts, hreads⟩, rfl, rfl⟩
  · rw [compares_newer.incomparable_iff]
    exact OrderDual.toDual_inj

/-- A greater component that does not fit into 64 bits makes the comparison throw, and so does one
that would not be compared. -/
theorem wide_components_throw :
    (padded [1, 0, 0] < padded [9223372036854775808, 0, 0] ∧
      versionText [9223372036854775808, 0, 0] = "9223372036854775808.0.0" ∧
      isNewerVersion "9223372036854775808.0.0" "1.0.0" = .error .formatException) ∧
    padded [1, 0, 0] < padded [1, 0, 1, 99999999999999999999] ∧
      versionText [1, 0, 1, 99999999999999999999] = "1.0.1.99999999999999999999" ∧
      isNewerVersion "1.0.1.99999999999999999999" "1.0.0" = .error .formatException := by
  decide

end PixsBliss.Services.UpdateCheck
