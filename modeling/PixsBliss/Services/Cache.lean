import PixsBliss.Lib.Store
import PixsBliss.Lib.Utf16
import PixsBliss.Models.RoundTrip

/-! # The cache service

`cache_service.dart` keeps four Hive boxes of texts. A copy of a list is written as a clear, one
`put` a record under the record's id and, for wallpapers, a last `put` of the time under the
reserved key `last_update`; it is read back by going through `box.keys`.

The four families of functions are one definition each, with the kind of record as a parameter
(`CopyKind`): `writeOps`, `writeCopy`, `readCopy`, `isStale`, `clearCopy`; the functions of the
source are these at the box they use. A write is kept as the list of its Hive operations, so that
the programs that interleave writes can run them one by one. -/

namespace PixsBliss.Services.Cache

open PixsBliss.Lib.Store PixsBliss.Lib.Utf16 PixsBliss.Models PixsBliss.Models.Json

/-- A `Box<String>`; Hive enumerates string keys by Dart's `compareTo`, so by code units. -/
abbrev Box := SortedStore Key String

/-- `_lastUpdateKey`. -/
def lastUpdateKey : Key := ⟨"last_update"⟩

/-- What the cache does with a kind of record: its key, its text, and whether the copy is stamped
with the time it was written. -/
structure CopyKind (α : Type) where
  key : α → String
  encode : Codec → α → String
  decode : Codec → String → Result α
  stamped : Bool

def wallpaperKind : CopyKind Wallpaper := ⟨Wallpaper.id, encodeWallpaper, decodeWallpaper, true⟩

def categoryKind : CopyKind Category := ⟨Category.id, encodeCategory, decodeCategory, false⟩

/-! ### Hive operations -/

/-- An awaited operation of a write; `putNow` stores `DateTime.now().toIso8601String()`. -/
inductive BoxOp
  | clear
  | put (key : Key) (text : String)
  | putNow (key : Key)
deriving DecidableEq

/-- The operation, when it succeeds at the time `now`. -/
def BoxOp.apply (c : Codec) (now : DateTime) : BoxOp → Box → Box
  | .clear, _ => SortedStore.empty
  | .put key text, b => b.put key text
  | .putNow key, b => b.put key (c.toIso8601String now)

/-- The operations, one after the other. -/
def applyAll (c : Codec) (now : DateTime) (ops : List BoxOp) (b : Box) : Box :=
  ops.foldl (fun b op => op.apply c now b) b

section Generic

variable {α : Type} (kind : CopyKind α) (c : Codec) (now : DateTime)

/-- The entries a list of records is stored as. -/
def recordEntries (l : List α) : List (Key × String) :=
  l.map fun a => (⟨kind.key a⟩, kind.encode c a)

/-- The operations of a write. -/
def writeOps (l : List α) : List BoxOp :=
  .clear :: ((recordEntries kind c l).map fun e => BoxOp.put e.1 e.2) ++
    if kind.stamped then [.putNow lastUpdateKey] else []

/-- A write that completes without a storage error and without another write in between. -/
def writeCopy (l : List α) : Option Box → Option Box
  | none => none
  | some b => some (applyAll c now (writeOps kind c l) b)

/-- The loop over `box.keys`; a stamped copy skips the reserved key. -/
def readKeys (b : Box) : List Key → Result (List α)
  | [] => .ok []
  | key :: keys =>
    if kind.stamped ∧ key = lastUpdateKey then readKeys b keys
    else
      match b.get key with
      | none => readKeys b keys
      | some text => do
        let a ← kind.decode c text
        return a :: (← readKeys b keys)

/-- The copy that is read: empty if the box is not open or a text cannot be decoded. -/
def readCopy : Option Box → List α
  | none => []
  | some b =>
    match readKeys kind c b b.keys with
    | .ok l => l
    | .error _ => []

end Generic

/-- `Duration.inHours`: whole hours, truncated. -/
def inHours (microseconds : ℤ) : ℤ := microseconds.tdiv 3600000000

/-- Whether a copy is older than an hour, or has no readable stamp. -/
def isStale (c : Codec) (now : DateTime) : Option Box → Bool
  | none => true
  | some b =>
    match b.get lastUpdateKey with
    | none => true
    | some lastUpdate =>
      match c.parseDateTime lastUpdate with
      | .error _ => true
      | .ok t => 1 ≤ inHours (now.microsecondsSinceEpoch - t.microsecondsSinceEpoch)

/-- A clear that succeeds. -/
def clearCopy : Option Box → Option Box := Option.map fun _ => SortedStore.empty

/-- Whether there is more than the stamp. -/
def hasCopy : Option Box → Bool
  | none => false
  | some b => 1 < b.entries.length

/-! ### The functions of the source -/

/-- The four boxes; `none` before `init`. -/
structure CacheService where
  wallpapersBox : Option Box
  categoriesBox : Option Box
  pexelsWallpapersBox : Option Box
  pexelsTrendingWallpapersBox : Option Box

namespace CacheService

variable (c : Codec) (now : DateTime) (s : CacheService)

/-- The service after `init`, over what the boxes hold. -/
def opened (wallpapers categories pexels pexelsTrending : Box) : CacheService :=
  ⟨some wallpapers, some categories, some pexels, some pexelsTrending⟩

def cacheWallpapers (ws : List Wallpaper) : CacheService :=
  { s with wallpapersBox := writeCopy wallpaperKind c now ws s.wallpapersBox }

def getCachedWallpapers : List Wallpaper := readCopy wallpaperKind c s.wallpapersBox

def cacheCategories (cats : List Category) : CacheService :=
  { s with categoriesBox := writeCopy categoryKind c now cats s.categoriesBox }

def getCachedCategories : List Category := readCopy categoryKind c s.categoriesBox

def isCacheStale : Bool := isStale c now s.wallpapersBox

def clearCache : CacheService :=
  { s with
    wallpapersBox := clearCopy s.wallpapersBox
    categoriesBox := clearCopy s.categoriesBox }

def hasCachedData : Bool := hasCopy s.wallpapersBox

def cachePexelsWallpapers (ws : List Wallpaper) : CacheService :=
  { s with pexelsWallpapersBox := writeCopy wallpaperKind c now ws s.pexelsWallpapersBox }

def getCachedPexelsWallpapers : List Wallpaper := readCopy wallpaperKind c s.pexelsWallpapersBox

def isPexelsCacheStale : Bool := isStale c now s.pexelsWallpapersBox

def clearPexelsCache : CacheService :=
  { s with pexelsWallpapersBox := clearCopy s.pexelsWallpapersBox }

def hasCachedPexelsData : Bool := hasCopy s.pexelsWallpapersBox

def cachePexelsTrendingWallpapers (ws : List Wallpaper) : CacheService :=
  { s with
    pexelsTrendingWallpapersBox := writeCopy wallpaperKind c now ws s.pexelsTrendingWallpapersBox }

def getCachedPexelsTrendingWallpapers : List Wallpaper :=
  readCopy wallpaperKind c s.pexelsTrendingWallpapersBox

def isPexelsTrendingCacheStale : Bool := isStale c now s.pexelsTrendingWallpapersBox

def clearPexelsTrendingCache : CacheService :=
  { s with pexelsTrendingWallpapersBox := clearCopy s.pexelsTrendingWallpapersBox }

def hasCachedPexelsTrendingData : Bool := hasCopy s.pexelsTrendingWallpapersBox

end CacheService

/-- The copies of wallpapers: the functions above come once for each. -/
inductive WallpaperCopy
  | wallpapers
  | pexelsWallpapers
  | pexelsTrendingWallpapers
deriving DecidableEq

namespace WallpaperCopy

open CacheService

/-- The box of a copy. -/
def box : WallpaperCopy → CacheService → Option Box
  | wallpapers, s => s.wallpapersBox
  | pexelsWallpapers, s => s.pexelsWallpapersBox
  | pexelsTrendingWallpapers, s => s.pexelsTrendingWallpapersBox

/-- The service with another content of the box. -/
def withBox : WallpaperCopy → Option Box → CacheService → CacheService
  | wallpapers, b, s => { s with wallpapersBox := b }
  | pexelsWallpapers, b, s => { s with pexelsWallpapersBox := b }
  | pexelsTrendingWallpapers, b, s => { s with pexelsTrendingWallpapersBox := b }

def cacheList : WallpaperCopy → Codec → DateTime → List Wallpaper → CacheService → CacheService
  | wallpapers, c, now, ws, s => s.cacheWallpapers c now ws
  | pexelsWallpapers, c, now, ws, s => s.cachePexelsWallpapers c now ws
  | pexelsTrendingWallpapers, c, now, ws, s => s.cachePexelsTrendingWallpapers c now ws

def getCached : WallpaperCopy → Codec → CacheService → List Wallpaper
  | wallpapers, c, s => s.getCachedWallpapers c
  | pexelsWallpapers, c, s => s.getCachedPexelsWallpapers c
  | pexelsTrendingWallpapers, c, s => s.getCachedPexelsTrendingWallpapers c

def isStale : WallpaperCopy → Codec → DateTime → CacheService → Bool
  | wallpapers, c, now, s => s.isCacheStale c now
  | pexelsWallpapers, c, now, s => s.isPexelsCacheStale c now
  | pexelsTrendingWallpapers, c, now, s => s.isPexelsTrendingCacheStale c now

variable (k : WallpaperCopy) (c : Codec) (now : DateTime) (s : CacheService)

@[simp] theorem box_withBox (b : Option Box) : k.box (k.withBox b s) = b := by cases k <;> rfl

theorem cacheList_eq (ws : List Wallpaper) :
    k.cacheList c now ws s = k.withBox (writeCopy wallpaperKind c now ws (k.box s)) s := by
  cases k <;> rfl

theorem getCached_eq : k.getCached c s = readCopy wallpaperKind c (k.box s) := by cases k <;> rfl

theorem isStale_eq : k.isStale c now s = Cache.isStale c now (k.box s) := by cases k <;> rfl

end WallpaperCopy

/-! ### A completed write -/

section Write

variable {α : Type} {kind : CopyKind α} {c : Codec} {now : DateTime} {l : List α} {b : Box}

theorem applyAll_append (ops ops' : List BoxOp) :
    applyAll c now (ops ++ ops') b = applyAll c now ops' (applyAll c now ops b) :=
  List.foldl_append

theorem applyAll_puts : ∀ (es : List (Key × String)) (b : Box),
    applyAll c now (es.map fun e => BoxOp.put e.1 e.2) b = b.putAll es
  | [], _ => rfl
  | e :: es, b => applyAll_puts es (b.put e.1 e.2)

/-- The box after a write: the records, and the stamp over them. -/
theorem applyAll_writeOps : applyAll c now (writeOps kind c l) b =
    (SortedStore.empty.putAll (recordEntries kind c l)).putAll
      (if kind.stamped then [(lastUpdateKey, c.toIso8601String now)] else []) := by
  have h : applyAll c now (writeOps kind c l) b =
      applyAll c now (if kind.stamped then [.putNow lastUpdateKey] else [])
        (applyAll c now ((recordEntries kind c l).map fun e => BoxOp.put e.1 e.2)
          SortedStore.empty) := by
    rw [← applyAll_append]; rfl
  rw [h, applyAll_puts]
  cases kind.stamped <;> rfl

theorem map_fst_recordEntries :
    (recordEntries kind c l).map Prod.fst = l.map fun a => (⟨kind.key a⟩ : Key) := by
  simp [recordEntries, Function.comp_def]

/-- The keys of the box: the ids of the records, and the reserved key. -/
theorem mem_keys_write {x : Key} : x ∈ (applyAll c now (writeOps kind c l) b).keys ↔
    x.str ∈ l.map kind.key ∨ (kind.stamped = true ∧ x = lastUpdateKey) := by
  have hx : x ∈ l.map (fun a => (⟨kind.key a⟩ : Key)) ↔ x.str ∈ l.map kind.key := by
    obtain ⟨x⟩ := x
    simp
  rw [applyAll_writeOps, SortedStore.mem_keys_putAll, SortedStore.mem_keys_putAll,
    map_fst_recordEntries, hx]
  cases kind.stamped <;> simp [or_comm]

/-- A record that does not have the reserved key is found under its id. -/
theorem get_write (hd : (l.map kind.key).Nodup) {a : α} (ha : a ∈ l)
    (hk : kind.stamped = true → kind.key a ≠ lastUpdateKey.str) :
    (applyAll c now (writeOps kind c l) b).get ⟨kind.key a⟩ = some (kind.encode c a) := by
  have hd' : ((recordEntries kind c l).map Prod.fst).Nodup := by
    have h : (l.map fun a => (⟨kind.key a⟩ : Key)) = (l.map kind.key).map Key.mk := by simp
    rw [map_fst_recordEntries, h]
    exact hd.map fun x y h => by cases h; rfl
  have hm : ((⟨kind.key a⟩ : Key), kind.encode c a) ∈ recordEntries kind c l :=
    List.mem_map.mpr ⟨a, ha, rfl⟩
  rw [applyAll_writeOps]
  by_cases hs : kind.stamped = true
  · have hne : (⟨kind.key a⟩ : Key) ≠ lastUpdateKey := fun h => hk hs (congrArg Key.str h)
    rw [if_pos hs, SortedStore.putAll_cons, SortedStore.putAll_nil, SortedStore.get_put_of_ne hne]
    exact SortedStore.get_putAll_of_mem hd' hm
  · rw [if_neg hs, SortedStore.putAll_nil]
    exact SortedStore.get_putAll_of_mem hd' hm

end Write

/-! ### The loop over the keys -/

section Read

variable {α : Type} {kind : CopyKind α} {c : Codec} {b : Box}

/-- The keys the loop does not skip. -/
def recordKeys (kind : CopyKind α) (keys : List Key) : List Key :=
  keys.filter fun key => ¬ (kind.stamped = true ∧ key = lastUpdateKey)

theorem recordKeys_cons_skip {key : Key} {keys : List Key}
    (h : kind.stamped = true ∧ key = lastUpdateKey) :
    recordKeys kind (key :: keys) = recordKeys kind keys := by
  unfold recordKeys
  rw [List.filter_cons_of_neg (by simpa using h)]

theorem recordKeys_cons {key : Key} {keys : List Key}
    (h : ¬ (kind.stamped = true ∧ key = lastUpdateKey)) :
    recordKeys kind (key :: keys) = key :: recordKeys kind keys := by
  unfold recordKeys
  rw [List.filter_cons, if_pos (decide_eq_true h)]

theorem mem_recordKeys {x : Key} {keys : List Key} : x ∈ recordKeys kind keys ↔
    x ∈ keys ∧ ¬ (kind.stamped = true ∧ x = lastUpdateKey) := by
  unfold recordKeys
  rw [List.mem_filter, decide_eq_true_iff]

theorem ascending_recordKeys : (recordKeys kind b.keys).Pairwise (· < ·) :=
  List.Pairwise.sublist List.filter_sublist b.sorted

/-- When the text at every key can be decoded, to a record with that key, the loop gives one record
a key, in the order of the keys. -/
theorem readKeys_ok {P : α → Prop} : ∀ {keys : List Key},
    (∀ key ∈ recordKeys kind keys, ∃ text a, b.get key = some text ∧
      kind.decode c text = .ok a ∧ kind.key a = key.str ∧ P a) →
    ∃ r, readKeys kind c b keys = .ok r ∧
      r.map kind.key = (recordKeys kind keys).map Key.str ∧ ∀ a ∈ r, P a
  | [], _ => ⟨[], rfl, rfl, by simp⟩
  | key :: keys, h => by
    unfold readKeys
    by_cases hk : kind.stamped = true ∧ key = lastUpdateKey
    · rw [if_pos hk, recordKeys_cons_skip hk]
      exact readKeys_ok (recordKeys_cons_skip hk ▸ h)
    · rw [recordKeys_cons hk] at h ⊢
      obtain ⟨text, a, hget, hdec, hkey, ha⟩ := h key (by simp)
      obtain ⟨r, hr, hids, hP⟩ := readKeys_ok fun key hkey => h key (List.mem_cons_of_mem _ hkey)
      refine ⟨a :: r, ?_, by simp [hkey, hids], by simpa using ⟨ha, hP⟩⟩
      rw [if_neg hk, hget]
      simp only [hdec, ok_bind, hr]
      rfl

/-- What is read from a box all of whose texts can be decoded. -/
theorem readCopy_ok {P : α → Prop} (h : ∀ key ∈ recordKeys kind b.keys, ∃ text a,
    b.get key = some text ∧ kind.decode c text = .ok a ∧ kind.key a = key.str ∧ P a) :
    (readCopy kind c (some b)).map kind.key = (recordKeys kind b.keys).map Key.str ∧
      ∀ a ∈ readCopy kind c (some b), P a := by
  obtain ⟨r, hr, hids, hP⟩ := readKeys_ok h
  simp only [readCopy, hr]
  exact ⟨hids, hP⟩

end Read

end PixsBliss.Services.Cache
