import PixsBliss.Lib.Changes
import PixsBliss.Services.PremiumService

/-! # The set of unlocked wallpapers

The premium service keeps the unlocked wallpapers in the preferences, as true flags under the keys
`unlocked_<id>`, next to the other keys of the app; the set is read back by going through all keys.

* `unlockedSet`: the set that is stored; `unlockedSet_apply`: each operation changes it as its
  `change` says, so the store refines a set under a list of changes.
* `unlock_store_is_set`: the three readings of the store agree after every sequence of operations.
* `get_clearAllUnlockStatuses`: clearing all of them leaves the other keys alone. -/

namespace PixsBliss.Services.UnlockStore

open PixsBliss.Lib.Changes PixsBliss.Lib.Entries PixsBliss.Lib.Linked
open PixsBliss.Services.PremiumService

/-! ### Keys -/

def unlockedPrefix : String := "unlocked_"

/-- `s.startsWith(pattern)`. -/
def startsWith (s pattern : String) : Bool := pattern.toList.isPrefixOf s.toList

/-- The first occurrence of the pattern is replaced. -/
def replaceFirstChars (pattern replacement : List Char) : List Char → List Char
  | [] => if pattern = [] then replacement else []
  | ch :: s =>
    if pattern.isPrefixOf (ch :: s) then replacement ++ (ch :: s).drop pattern.length
    else ch :: replaceFirstChars pattern replacement s

/-- `s.replaceFirst(pattern, replacement)`. -/
def replaceFirst (s pattern replacement : String) : String :=
  String.ofList (replaceFirstChars pattern.toList replacement.toList s.toList)

theorem toList_unlockedKey (w : String) :
    (unlockedKey w).toList = unlockedPrefix.toList ++ w.toList := String.toList_append

/-- The keys of flags are those with the prefix. -/
theorem startsWith_iff {key : String} :
    startsWith key unlockedPrefix = true ↔ ∃ w, key = unlockedKey w := by
  unfold startsWith
  rw [List.isPrefixOf_iff_prefix]
  constructor
  · rintro ⟨s, hs⟩
    refine ⟨String.ofList s, String.toList_inj.mp ?_⟩
    rw [← hs, toList_unlockedKey]
    exact congrArg (unlockedPrefix.toList ++ ·) String.toList_ofList.symm
  · rintro ⟨w, rfl⟩
    rw [toList_unlockedKey]
    exact List.prefix_append _ _

theorem startsWith_unlockedKey (w : String) :
    startsWith (unlockedKey w) unlockedPrefix = true := startsWith_iff.mpr ⟨w, rfl⟩

theorem replaceFirstChars_append (pattern replacement s : List Char) :
    replaceFirstChars pattern replacement (pattern ++ s) = replacement ++ s := by
  cases pattern with
  | nil => cases s <;> simp [replaceFirstChars]
  | cons ch pattern =>
    have hp : (ch :: pattern).isPrefixOf (ch :: (pattern ++ s)) = true :=
      List.isPrefixOf_iff_prefix.mpr (List.prefix_append _ _)
    have hd : (ch :: (pattern ++ s)).drop (ch :: pattern).length = s := List.drop_left
    show replaceFirstChars (ch :: pattern) replacement (ch :: (pattern ++ s)) = _
    rw [replaceFirstChars, if_pos hp]
    exact congrArg (replacement ++ ·) hd

/-- The id is read back from its key, also when it contains the prefix. -/
theorem replaceFirst_unlockedKey (w : String) :
    replaceFirst (unlockedKey w) unlockedPrefix "" = w := by
  unfold replaceFirst
  rw [toList_unlockedKey]
  have h := replaceFirstChars_append unlockedPrefix.toList [] w.toList
  rw [List.nil_append] at h
  exact (congrArg String.ofList h).trans String.ofList_toList

/-! ### The operations of the service -/

/-- `getKeys()`. -/
def getKeys (p : Prefs) : List String := p.cache.entries.map Prod.fst

def manuallyUnlockWallpaper (wallpaperId : String) (s : State) : State :=
  { s with prefs := s.prefs.setBool (unlockedKey wallpaperId) true }

def getUnlockedWallpapers (s : State) : List String :=
  (((getKeys s.prefs).filter fun key => startsWith key unlockedPrefix).filter
    fun key => s.prefs.getBool key == some true).map
      fun key => replaceFirst key unlockedPrefix ""

def clearUnlockStatus (wallpaperId : String) (s : State) : State :=
  { s with prefs := s.prefs.remove (unlockedKey wallpaperId) }

/-- The keys are collected before the first of them is removed. -/
def clearAllUnlockStatuses (s : State) : State :=
  { s with prefs :=
    ((getKeys s.prefs).filter fun key => startsWith key unlockedPrefix).foldl Prefs.remove s.prefs }

/-- A key of the app that is not a flag. -/
def OtherKey : Type := { key : String // startsWith key unlockedPrefix = false }

/-- What is done with the preferences; `stored` says whether the platform's store took the flag of a
payment. -/
inductive Op
  | manuallyUnlockWallpaper (wallpaperId : String)
  | paymentSuccess (stored : Bool)
  | clearUnlockStatus (wallpaperId : String)
  | clearAllUnlockStatuses
  | setString (key : OtherKey) (value : String)
  | remove (key : OtherKey)

/-- `_handlePaymentSuccess`, to its end. -/
def paymentSuccess (stored : Bool) (s : State) : State :=
  match s.prefs.getString pendingKey with
  | none => (handlePaymentSuccess s).1
  | some wallpaperId =>
    if stored then finishPaymentSuccess wallpaperId (handlePaymentSuccess s).1
    else (handlePaymentSuccess s).1

/-- The state after an operation. -/
def Op.apply : Op → State → State
  | .manuallyUnlockWallpaper wallpaperId, s => UnlockStore.manuallyUnlockWallpaper wallpaperId s
  | .paymentSuccess stored, s => UnlockStore.paymentSuccess stored s
  | .clearUnlockStatus wallpaperId, s => UnlockStore.clearUnlockStatus wallpaperId s
  | .clearAllUnlockStatuses, s => UnlockStore.clearAllUnlockStatuses s
  | .setString key value, s => { s with prefs := s.prefs.setString key.1 value }
  | .remove key, s => { s with prefs := s.prefs.remove key.1 }

def applyOps (ops : List Op) (s : State) : State := ops.foldl (fun s op => op.apply s) s

/-! ### The set -/

/-- The set the store stands for. -/
def unlockedSet (s : State) : Set String := { w | isWallpaperUnlocked s w = true }

/-- What an operation is meant to do with the set: a payment unlocks the pending wallpaper. -/
def Op.change : Op → State → Change String
  | .manuallyUnlockWallpaper wallpaperId, _ => .insert wallpaperId
  | .paymentSuccess _, s =>
    match s.prefs.getString pendingKey with
    | none => .keep
    | some wallpaperId => .insert wallpaperId
  | .clearUnlockStatus wallpaperId, _ => .erase wallpaperId
  | .clearAllUnlockStatuses, _ => .clear
  | .setString _ _, _ => .keep
  | .remove _, _ => .keep

/-- The changes of a sequence of operations. -/
def changes : List Op → State → List (Change String)
  | [], _ => []
  | op :: ops, s => op.change s :: changes ops (op.apply s)

/-- The flags are booleans, so that no read of a flag throws. -/
def FlagsBoolean (p : Prefs) : Prop :=
  ∀ key v, startsWith key unlockedPrefix = true → p.cache.get key = some v → ∃ b, v = .bool b

/-! ### What the operations do with a flag -/

section Flags

variable {s : State} {w : String} {key : OtherKey}

theorem isWallpaperUnlocked_iff : isWallpaperUnlocked s w = true ↔
    s.prefs.cache.get (unlockedKey w) = some (.bool true) := by
  unfold isWallpaperUnlocked Prefs.getBool
  cases h : s.prefs.cache.get (unlockedKey w) with
  | none => simp
  | some v =>
    cases v with
    | bool b => simp
    | _ => simp

theorem unlockedKey_ne_other (w : String) (key : OtherKey) : unlockedKey w ≠ key.1 := by
  intro h
  have hkey := key.2
  rw [← h, startsWith_unlockedKey] at hkey
  cases hkey

/-- The removal of a list of keys. -/
theorem get_foldl_remove (x : String) : ∀ (keys : List String) (p : Prefs),
    (keys.foldl Prefs.remove p).cache.get x = if x ∈ keys then none else p.cache.get x
  | [], p => by simp
  | key :: keys, p => by
    rw [List.foldl_cons, get_foldl_remove x keys, Prefs.remove, LinkedMap.get_remove]
    by_cases hx : x = key
    · simp [hx]
    · simp [hx]

theorem mem_getKeys {p : Prefs} {x : String} : x ∈ getKeys p ↔ ∃ v, p.cache.get x = some v := by
  unfold getKeys
  rw [List.mem_map]
  constructor
  · rintro ⟨⟨x, v⟩, he, rfl⟩
    exact ⟨v, LinkedMap.mem_entries_iff.mp he⟩
  · rintro ⟨v, hv⟩
    exact ⟨(x, v), LinkedMap.mem_entries_iff.mpr hv, rfl⟩

/-- After `clearAllUnlockStatuses` a key is as before, unless it is one of a flag. -/
theorem get_clearAllUnlockStatuses (x : String) (s : State) :
    (clearAllUnlockStatuses s).prefs.cache.get x =
      if startsWith x unlockedPrefix = true then none else s.prefs.cache.get x := by
  have hmem : x ∈ (getKeys s.prefs).filter (fun key => startsWith key unlockedPrefix) ↔
      (∃ v, s.prefs.cache.get x = some v) ∧ startsWith x unlockedPrefix = true := by
    rw [List.mem_filter, mem_getKeys]
  unfold clearAllUnlockStatuses
  rw [get_foldl_remove]
  by_cases hx : startsWith x unlockedPrefix = true
  · rw [if_pos hx]
    cases h : s.prefs.cache.get x with
    | none => exact ite_self none
    | some v => exact if_pos (hmem.mpr ⟨⟨v, h⟩, hx⟩)
  · rw [if_neg hx]
    exact if_neg fun hm => hx (hmem.mp hm).2

/-- A successful payment writes the flag of the pending wallpaper only. -/
theorem get_paymentSuccess (stored : Bool) (s : State) (w : String) :
    (paymentSuccess stored s).prefs.cache.get (unlockedKey w) =
      if s.prefs.getString pendingKey = some w then some (.bool true)
      else s.prefs.cache.get (unlockedKey w) := by
  unfold paymentSuccess handlePaymentSuccess finishPaymentSuccess
  cases hp : s.prefs.getString pendingKey with
  | none => simp
  | some id =>
    have hset : (s.prefs.setBool (unlockedKey id) true).cache.get (unlockedKey w) =
        if some id = some w then some (.bool true) else s.prefs.cache.get (unlockedKey w) := by
      rw [Prefs.setBool, LinkedMap.get_set]
      simp only [unlockedKey_inj, Option.some.injEq]
      exact if_congr eq_comm rfl rfl
    cases stored with
    | false => exact hset
    | true =>
      have hne : unlockedKey w ≠ pendingKey := unlockedKey_ne_pending w
      show ((s.prefs.setBool (unlockedKey id) true).remove pendingKey).cache.get _ = _
      rw [Prefs.remove, LinkedMap.get_remove_of_ne hne]
      exact hset

/-- **What an operation does with a flag** is what its change says. -/
theorem get_apply (op : Op) (s : State) (w : String) :
    (op.apply s).prefs.cache.get (unlockedKey w) =
      match (op.change s).affects w with
      | some true => some (.bool true)
      | some false => none
      | none => s.prefs.cache.get (unlockedKey w) := by
  cases op with
  | manuallyUnlockWallpaper id =>
    simp only [Op.apply, Op.change, manuallyUnlockWallpaper, Change.affects, Prefs.setBool,
      LinkedMap.get_set, unlockedKey_inj]
    by_cases h : id = w
    · simp [h]
    · simp [h, Ne.symm h]
  | paymentSuccess stored =>
    simp only [Op.apply, Op.change, get_paymentSuccess]
    cases s.prefs.getString pendingKey with
    | none => simp [Change.affects]
    | some id =>
      by_cases h : id = w
      · simp [Change.affects, h]
      · simp [Change.affects, h]
  | clearUnlockStatus id =>
    simp only [Op.apply, Op.change, clearUnlockStatus, Change.affects, Prefs.remove,
      LinkedMap.get_remove, unlockedKey_inj]
    by_cases h : id = w
    · simp [h]
    · simp [h, Ne.symm h]
  | clearAllUnlockStatuses =>
    simp only [Op.apply, Op.change, Change.affects]
    rw [get_clearAllUnlockStatuses, if_pos (startsWith_unlockedKey w)]
  | setString key value => exact LinkedMap.get_set_of_ne (unlockedKey_ne_other w key)
  | remove key => exact LinkedMap.get_remove_of_ne (unlockedKey_ne_other w key)

end Flags

/-! ### The refinement -/

section Refinement

variable {s : State}

theorem mem_unlockedSet {w : String} : w ∈ unlockedSet s ↔ isWallpaperUnlocked s w = true := Iff.rfl

/-- **One operation** changes the set as it is meant to. -/
theorem unlockedSet_apply (op : Op) (s : State) :
    unlockedSet (op.apply s) = (op.change s).apply (unlockedSet s) := by
  ext w
  rw [mem_apply, mem_unlockedSet, mem_unlockedSet, isWallpaperUnlocked_iff, isWallpaperUnlocked_iff,
    get_apply]
  cases (op.change s).affects w with
  | none => simp
  | some b => cases b <;> simp

/-- **A sequence of operations** changes the set by its changes. -/
theorem unlockedSet_applyOps : ∀ (ops : List Op) (s : State),
    unlockedSet (applyOps ops s) = applyAll (changes ops s) (unlockedSet s)
  | [], _ => rfl
  | op :: ops, s => by
    have hops : applyOps (op :: ops) s = applyOps ops (op.apply s) := rfl
    rw [hops, unlockedSet_applyOps ops, unlockedSet_apply]
    rfl

theorem flagsBoolean_apply (h : FlagsBoolean s.prefs) (op : Op) :
    FlagsBoolean (op.apply s).prefs := by
  intro key v hkey hget
  obtain ⟨w, rfl⟩ := startsWith_iff.mp hkey
  rw [get_apply] at hget
  cases ha : (op.change s).affects w with
  | none =>
    rw [ha] at hget
    exact h _ v hkey hget
  | some b =>
    rw [ha] at hget
    cases b with
    | true => exact ⟨true, (Option.some.inj hget).symm⟩
    | false => cases hget

theorem flagsBoolean_applyOps : ∀ {ops : List Op} {s : State}, FlagsBoolean s.prefs →
    FlagsBoolean (applyOps ops s).prefs
  | [], _, h => h
  | op :: ops, _, h => by
    show FlagsBoolean (applyOps ops (op.apply _)).prefs
    exact flagsBoolean_applyOps (flagsBoolean_apply h op)

/-! ### The list of the unlocked wallpapers -/

theorem mem_getUnlockedWallpapers {w : String} :
    w ∈ getUnlockedWallpapers s ↔ isWallpaperUnlocked s w = true := by
  unfold getUnlockedWallpapers
  simp only [List.mem_map, List.mem_filter, beq_iff_eq]
  constructor
  · rintro ⟨key, ⟨⟨-, hkey⟩, hbool⟩, rfl⟩
    obtain ⟨w, rfl⟩ := startsWith_iff.mp hkey
    rw [replaceFirst_unlockedKey, isWallpaperUnlocked, hbool]
    rfl
  · intro h
    have hget := isWallpaperUnlocked_iff.mp h
    refine ⟨unlockedKey w, ⟨⟨mem_getKeys.mpr ⟨_, hget⟩, startsWith_unlockedKey w⟩, ?_⟩,
      replaceFirst_unlockedKey w⟩
    simp only [Prefs.getBool, hget]

theorem nodup_getUnlockedWallpapers (s : State) : (getUnlockedWallpapers s).Nodup := by
  unfold getUnlockedWallpapers
  refine List.Nodup.map_on ?_ ((s.prefs.cache.nodup.filter _).filter _)
  intro x hx y hy hxy
  obtain ⟨v, rfl⟩ := startsWith_iff.mp (List.mem_filter.mp (List.mem_filter.mp hx).1).2
  obtain ⟨w, rfl⟩ := startsWith_iff.mp (List.mem_filter.mp (List.mem_filter.mp hy).1).2
  rw [replaceFirst_unlockedKey, replaceFirst_unlockedKey] at hxy
  rw [hxy]

/-- **The unlock store is a set of ids**: over any preferences whose flags are booleans and after
any operations, no read of a flag throws; a wallpaper is unlocked exactly when it is in the list,
and exactly when the last operation that affected it unlocked it (or none did and it was unlocked at
the start); the list has no duplicates; and clearing all of them leaves the other keys alone. -/
theorem unlock_store_is_set (s : State) (h : FlagsBoolean s.prefs) (ops : List Op) :
    FlagsBoolean (applyOps ops s).prefs ∧
    (∀ w, (isWallpaperUnlocked (applyOps ops s) w = true ↔
        w ∈ getUnlockedWallpapers (applyOps ops s)) ∧
      (isWallpaperUnlocked (applyOps ops s) w = true ↔
        lastChange w (changes ops s) = some true ∨
          (lastChange w (changes ops s) = none ∧ isWallpaperUnlocked s w = true))) ∧
    (getUnlockedWallpapers (applyOps ops s)).Nodup ∧
    ∀ key, startsWith key unlockedPrefix = false →
      (clearAllUnlockStatuses (applyOps ops s)).prefs.cache.get key =
        (applyOps ops s).prefs.cache.get key := by
  refine ⟨flagsBoolean_applyOps h, fun w => ⟨mem_getUnlockedWallpapers.symm, ?_⟩,
    nodup_getUnlockedWallpapers _, fun key hkey => ?_⟩
  · rw [← mem_unlockedSet, unlockedSet_applyOps, mem_applyAll, mem_unlockedSet]
  · rw [get_clearAllUnlockStatuses, hkey, if_neg Bool.false_ne_true]

end Refinement

/-- Preferences with an unlocked wallpaper and the id of the install. -/
def samplePrefs : Prefs where
  cache := (LinkedMap.empty.set "install_tracked_id" (.str "u1")).set "unlocked_b" (.bool true)
  sent := []

theorem flagsBoolean_samplePrefs : FlagsBoolean samplePrefs := by
  intro key v hkey hget
  unfold samplePrefs at hget
  rw [LinkedMap.get_set, LinkedMap.get_set] at hget
  split_ifs at hget with hb hinstall
  · exact ⟨true, (Option.some.inj hget).symm⟩
  · subst hinstall
    exact absurd hkey (by decide)
  · cases hget

/-- An id that contains the prefix is unlocked, next to another one. -/
theorem unlock_store_of_prefixed_id :
    isWallpaperUnlocked (applyOps [.manuallyUnlockWallpaper "unlocked_a"] ⟨samplePrefs, []⟩)
      "unlocked_a" = true ∧
    "unlocked_a" ∈ getUnlockedWallpapers
      (applyOps [.manuallyUnlockWallpaper "unlocked_a"] ⟨samplePrefs, []⟩) ∧
    "b" ∈ getUnlockedWallpapers
      (applyOps [.manuallyUnlockWallpaper "unlocked_a"] ⟨samplePrefs, []⟩) := by
  obtain ⟨-, hlist, -, -⟩ := unlock_store_is_set ⟨samplePrefs, []⟩ flagsBoolean_samplePrefs
    [.manuallyUnlockWallpaper "unlocked_a"]
  have ha : isWallpaperUnlocked (applyOps [.manuallyUnlockWallpaper "unlocked_a"]
      ⟨samplePrefs, []⟩) "unlocked_a" = true := by decide
  have hb : isWallpaperUnlocked (applyOps [.manuallyUnlockWallpaper "unlocked_a"]
      ⟨samplePrefs, []⟩) "b" = true := by decide
  exact ⟨ha, (hlist "unlocked_a").1.mp ha, (hlist "b").1.mp hb⟩

end PixsBliss.Services.UnlockStore
