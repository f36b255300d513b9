import Mathlib.Tactic

/-! # Dynamic values, casts and the text conversions

`Dyn` is a Dart value of static type `dynamic` as the app meets it: in a decoded JSON text and in a
Firestore document. The casts (`as String`, `as int?`, …) throw a `TypeError` on a value of another
type; `field` reads a key of a map, `null` if it is missing.

The conversions between values and texts (`jsonEncode`, `jsonDecode`, `toIso8601String`,
`DateTime.parse`) and of texts (`toLowerCase`) are those of the Dart library, collected in `Codec`.
That a text is read back as what it was written from is not built in: `ReadsBackJson`,
`ReadsBackDate` say it of one value. -/

namespace PixsBliss.Models.Json

/-- What Dart code throws. -/
inductive DartError
  | typeError
  | formatException
  | firebaseException (code : String)
  | exception (message : String)
deriving DecidableEq

/-- The exceptions of the HTTP client. -/
inductive DioExceptionType
  | connectionTimeout
  | sendTimeout
  | receiveTimeout
  | badCertificate
  | badResponse
  | cancel
  | connectionError
  | unknown
deriving DecidableEq

/-- A computation that may throw. -/
abbrev Result (α : Type) := Except DartError α

@[simp] theorem ok_bind {α β : Type} (a : α) (f : α → Result β) : (Except.ok a >>= f) = f a := rfl

/-- What holds of the value of a computation that does not throw. -/
def Yields {α : Type} (P : α → Prop) (x : Result α) : Prop := ∀ a, x = .ok a → P a

section Yields

variable {α β : Type} {x : Result α} {f : α → Result β} {P : β → Prop}

theorem yields_bind (h : ∀ a, x = .ok a → Yields P (f a)) : Yields P (x >>= f) := by
  intro b hb
  cases x with
  | error e => cases hb
  | ok a => exact h a rfl b hb

theorem yields_return {b : β} (h : P b) : Yields P (pure b) := by
  intro b' hb
  obtain rfl := Except.ok.inj hb
  exact h

theorem bind_eq_ok {b : β} : (x >>= f) = .ok b ↔ ∃ a, x = .ok a ∧ f a = .ok b := by
  cases x with
  | error e => exact ⟨nofun, fun ⟨_, ha, _⟩ => nomatch ha⟩
  | ok a => exact ⟨fun h => ⟨a, rfl, h⟩, fun ⟨_, ha, h⟩ => Except.ok.inj ha ▸ h⟩

theorem exists_of_forall₂ {α β : Type} {r : α → β → Prop} {l : List α} {l' : List β}
    (h : List.Forall₂ r l l') : ∀ a ∈ l, ∃ b ∈ l', r a b := by
  induction h with
  | nil => nofun
  | cons hab _ ih =>
    refine List.forall_mem_cons.mpr ⟨⟨_, List.mem_cons_self, hab⟩, fun a ha => ?_⟩
    obtain ⟨b, hb, hr⟩ := ih a ha
    exact ⟨b, List.mem_cons_of_mem _ hb, hr⟩

/-- A list is computed item by item. -/
theorem mapM_eq_ok {l : List α} {r : List β} :
    l.mapM f = .ok r ↔ List.Forall₂ (fun a b => f a = .ok b) l r := by
  induction l generalizing r with
  | nil =>
    rw [List.mapM_nil, List.forall₂_nil_left_iff]
    exact ⟨fun h => (Except.ok.inj h).symm, fun h => h ▸ rfl⟩
  | cons a l ih =>
    rw [List.mapM_cons, List.forall₂_cons_left_iff, bind_eq_ok]
    constructor
    · rintro ⟨b, hb, h⟩
      obtain ⟨bs, hbs, hr⟩ := bind_eq_ok.mp h
      exact ⟨b, bs, hb, ih.mp hbs, (Except.ok.inj hr).symm⟩
    · rintro ⟨b, bs, hb, hbs, rfl⟩
      exact ⟨b, hb, bind_eq_ok.mpr ⟨bs, ih.mpr hbs, rfl⟩⟩

theorem exists_of_mapM_eq_ok {l : List α} {r : List β} (h : l.mapM f = .ok r) :
    ∀ b ∈ r, ∃ a ∈ l, f a = .ok b :=
  exists_of_forall₂ (mapM_eq_ok.mp h).flip

end Yields

/-- An instant, in microseconds since the epoch, and whether it is held in UTC. -/
structure DateTime where
  microsecondsSinceEpoch : ℤ
  isUtc : Bool
deriving DecidableEq

/-- A value of type `dynamic`. -/
inductive Dyn
  | null
  | bool (b : Bool)
  | int (n : ℤ)
  | double (x : Float)
  | str (s : String)
  | timestamp (micros : ℤ)
  | list (l : List Dyn)
  | map (m : List (String × Dyn))

/-- A `Map<String, dynamic>`; no key occurs twice. -/
abbrev DynMap := List (String × Dyn)

/-- `json[key]`. -/
def field (key : String) : DynMap → Dyn
  | [] => .null
  | (k, v) :: m => if key = k then v else field key m

/-- `v == null`. -/
def isNull : Dyn → Bool
  | .null => true
  | _ => false

/-- The error of a call of a method that the value does not have. -/
def noSuchMethodError : DartError := .exception "NoSuchMethodError"

/-- `v[key]` of a dynamic value. -/
def index (key : String) : Dyn → Result Dyn
  | .map m => .ok (field key m)
  | .str _ | .list _ => .error .typeError
  | _ => .error noSuchMethodError

/-! ### Casts -/

/-- `as String`. -/
def asString : Dyn → Result String
  | .str s => .ok s
  | _ => .error .typeError

/-- `as int`. -/
def asInt : Dyn → Result ℤ
  | .int n => .ok n
  | _ => .error .typeError

/-- `as bool`. -/
def asBool : Dyn → Result Bool
  | .bool b => .ok b
  | _ => .error .typeError

/-- `as List`. -/
def asList : Dyn → Result (List Dyn)
  | .list l => .ok l
  | _ => .error .typeError

/-- `as Map<String, dynamic>`. -/
def asMap : Dyn → Result DynMap
  | .map m => .ok m
  | _ => .error .typeError

/-- The cast to a nullable type: `as String?` is `orNull asString`. -/
def orNull {α : Type} (cast : Dyn → Result α) : Dyn → Result (Option α)
  | .null => .ok none
  | v => (cast v).map some

/-- `List<String>.from(l)`. -/
def stringList (l : List Dyn) : Result (List String) := l.mapM asString

/-- The dynamic value of a nullable one. -/
def ofOption {α : Type} (f : α → Dyn) : Option α → Dyn
  | none => .null
  | some a => f a

@[simp] theorem asString_str (s : String) : asString (.str s) = .ok s := rfl
@[simp] theorem asInt_int (n : ℤ) : asInt (.int n) = .ok n := rfl
@[simp] theorem asBool_bool (b : Bool) : asBool (.bool b) = .ok b := rfl
@[simp] theorem asList_list (l : List Dyn) : asList (.list l) = .ok l := rfl
@[simp] theorem asMap_map (m : DynMap) : asMap (.map m) = .ok m := rfl

theorem asString_eq_ok {v : Dyn} {s : String} : asString v = .ok s ↔ v = .str s := by
  cases v with
  | str s' => exact ⟨fun h => congrArg _ (Except.ok.inj h), fun h => congrArg _ (Dyn.str.inj h)⟩
  | _ => exact ⟨nofun, nofun⟩

theorem asInt_eq_ok {v : Dyn} {n : ℤ} : asInt v = .ok n ↔ v = .int n := by
  cases v with
  | int n' => exact ⟨fun h => congrArg _ (Except.ok.inj h), fun h => congrArg _ (Dyn.int.inj h)⟩
  | _ => exact ⟨nofun, nofun⟩

theorem asBool_eq_ok {v : Dyn} {b : Bool} : asBool v = .ok b ↔ v = .bool b := by
  cases v with
  | bool b' => exact ⟨fun h => congrArg _ (Except.ok.inj h), fun h => congrArg _ (Dyn.bool.inj h)⟩
  | _ => exact ⟨nofun, nofun⟩

theorem asMap_ok_iff {v : Dyn} {m : DynMap} : asMap v = .ok m ↔ v = .map m := by
  cases v with
  | map m' => exact ⟨fun h => congrArg _ (Except.ok.inj h), fun h => congrArg _ (Dyn.map.inj h)⟩
  | _ => exact ⟨nofun, nofun⟩

theorem asList_ok_iff {v : Dyn} {l : List Dyn} : asList v = .ok l ↔ v = .list l := by
  cases v with
  | list l' => exact ⟨fun h => congrArg _ (Except.ok.inj h), fun h => congrArg _ (Dyn.list.inj h)⟩
  | _ => exact ⟨nofun, nofun⟩

theorem index_ok_iff {key : String} {v v' : Dyn} :
    index key v = .ok v' ↔ ∃ m, v = .map m ∧ field key m = v' := by
  cases v with
  | map m =>
    refine ⟨fun h => ⟨m, rfl, Except.ok.inj h⟩, ?_⟩
    rintro ⟨m', hm, rfl⟩
    obtain rfl := Dyn.map.inj hm
    rfl
  | _ => exact ⟨nofun, by rintro ⟨m, hm, -⟩; cases hm⟩

@[simp] theorem orNull_ofOption_str (s : Option String) :
    orNull asString (ofOption .str s) = .ok s := by
  cases s <;> rfl

@[simp] theorem orNull_ofOption_int (n : Option ℤ) :
    orNull asInt (ofOption .int n) = .ok n := by
  cases n <;> rfl

theorem orNull_str (s : String) : orNull asString (.str s) = .ok (some s) := rfl

@[simp] theorem orNull_bool (b : Bool) : orNull asBool (.bool b) = .ok (some b) := rfl

@[simp] theorem orNull_int (n : ℤ) : orNull asInt (.int n) = .ok (some n) := rfl

@[simp] theorem stringList_map (l : List String) : stringList (l.map .str) = .ok l := by
  induction l with
  | nil => rfl
  | cons s l ih =>
    unfold stringList at ih ⊢
    rw [List.map_cons, List.mapM_cons, ih]
    rfl

/-! ### Texts -/

/-- **The text conversions of the Dart library**, as they work on the device at some moment (a local
time is written and read in the zone in force). -/
structure Codec where
  jsonEncode : Dyn → String
  jsonDecode : String → Result Dyn
  toIso8601String : DateTime → String
  parseDateTime : String → Result DateTime
  toLowerCase : String → String

namespace Codec

variable (c : Codec)

/-- `jsonDecode` inverts `jsonEncode` on `v`. -/
def ReadsBackJson (v : Dyn) : Prop := c.jsonDecode (c.jsonEncode v) = .ok v

/-- `DateTime.parse` inverts `toIso8601String` on `d`. -/
def ReadsBackDate (d : DateTime) : Prop := c.parseDateTime (c.toIso8601String d) = .ok d

end Codec
end PixsBliss.Models.Json
