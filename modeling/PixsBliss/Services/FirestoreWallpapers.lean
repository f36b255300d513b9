import PixsBliss.Models.FromFirestore
import PixsBliss.Services.FirestoreService

/-! # The wallpaper lists of the Firestore service

The five list functions with the decoder of `wallpaper.dart`. The documents of a snapshot are
decoded in one `try`, so the list is the decoded snapshot or, as after a failed query, empty.

* `all_or_nothing`: the list is what the whole snapshot is decoded to if every document can be read,
  and empty otherwise.
* `keeps_readable_iff`: so the readable documents are all in the list iff none of the others is in
  the snapshot, or nothing else is. -/

namespace PixsBliss.Services.FirestoreWallpapers

open PixsBliss.Models PixsBliss.Models.Json PixsBliss.Services.FirestoreService

/-! ### Decoding a list -/

section Decoding

variable {α β : Type} {f : α → Result β} {l : List α}

/-- The values of the elements that have one. -/
def values (f : α → Result β) (l : List α) : List β := l.filterMap fun a => (f a).toOption

theorem values_cons_ok {a : α} {b : β} (h : f a = .ok b) : values f (a :: l) = b :: values f l := by
  simp [values, h, Except.toOption]

theorem mapM_of_forall_ok (h : ∀ a ∈ l, ∃ b, f a = .ok b) : l.mapM f = .ok (values f l) := by
  induction l with
  | nil => rfl
  | cons a l ih =>
    obtain ⟨b, hb⟩ := h a List.mem_cons_self
    rw [List.mapM_cons, hb, ih fun a' ha' => h a' (List.mem_cons_of_mem a ha'), values_cons_ok hb]
    rfl

theorem mapM_of_exists_error (h : ∃ a ∈ l, ∃ e, f a = .error e) : ∃ e, l.mapM f = .error e := by
  induction l with
  | nil =>
    obtain ⟨a, ha, -⟩ := h
    cases ha
  | cons a l ih =>
    cases ha : f a with
    | error e => exact ⟨e, by rw [List.mapM_cons, ha]; rfl⟩
    | ok b =>
      -- the error is further on
      obtain ⟨a', ha', e, he⟩ := h
      rcases List.mem_cons.mp ha' with rfl | hmem
      · rw [ha] at he
        cases he
      · obtain ⟨e', he'⟩ := ih ⟨a', hmem, e, he⟩
        exact ⟨e', by rw [List.mapM_cons, ha, he']; rfl⟩

end Decoding

/-! ### The list functions -/

/-- What answers the queries: a snapshot, or an exception. -/
abbrev Backend := Query → Result Snapshot

section Lists

variable (d : Device) (backend : Backend)

/-- The five functions differ in their query. -/
def wallpapersOf (query : Query) : Result (List Wallpaper) :=
  getList (Wallpaper.fromFirestore d) (backend query)

def getWallpapers : Result (List Wallpaper) := wallpapersOf d backend FirestoreService.getWallpapers

def getWallpapersByCategory (category : String) (limit : ℕ) : Result (List Wallpaper) :=
  wallpapersOf d backend (FirestoreService.getWallpapersByCategory category limit)

def searchWallpapers (query : String) : Result (List Wallpaper) :=
  wallpapersOf d backend (FirestoreService.searchWallpapers d.codec query)

def getFeaturedWallpapers : Result (List Wallpaper) :=
  wallpapersOf d backend FirestoreService.getFeaturedWallpapers

def getTrendingWallpapers : Result (List Wallpaper) :=
  wallpapersOf d backend FirestoreService.getTrendingWallpapers

end Lists

/-! ### Readable documents -/

section Readable

variable (d : Device) (snapshot : Snapshot)

/-- `fromFirestore` on a document of a snapshot. -/
def readDocument (doc : String × DynMap) : Result Wallpaper :=
  Wallpaper.fromFirestore d (dataWithId doc)

/-- `fromFirestore` does not throw on the document. -/
def Readable (doc : String × DynMap) : Prop := ∃ w, readDocument d doc = .ok w

/-- The wallpapers of the readable documents, in the order of the snapshot. -/
def readable : List Wallpaper := values (readDocument d) snapshot

variable {d snapshot}

theorem not_readable_iff {doc : String × DynMap} :
    ¬Readable d doc ↔ ∃ e, readDocument d doc = .error e := by
  unfold Readable
  cases readDocument d doc with
  | error e => simp
  | ok w => simp

theorem getList_of_readable (h : ∀ doc ∈ snapshot, Readable d doc) :
    getList (Wallpaper.fromFirestore d) (.ok snapshot) = .ok (readable d snapshot) := by
  have hread : readList (Wallpaper.fromFirestore d) (.ok snapshot) = .ok (readable d snapshot) :=
    mapM_of_forall_ok h
  rw [getList, hread]

theorem getList_of_not_readable (h : ∃ doc ∈ snapshot, ¬Readable d doc) :
    getList (Wallpaper.fromFirestore d) (.ok snapshot) = .ok [] := by
  simp only [not_readable_iff] at h
  obtain ⟨e, he⟩ := mapM_of_exists_error (f := readDocument d) h
  have hread : readList (Wallpaper.fromFirestore d) (.ok snapshot) = .error e := he
  exact getList_error (Wallpaper.fromFirestore d) hread

theorem readable_eq_nil_iff : readable d snapshot = [] ↔ ∀ doc ∈ snapshot, ¬Readable d doc := by
  unfold readable values
  rw [List.filterMap_eq_nil_iff]
  refine forall₂_congr fun doc _ => ?_
  rw [not_readable_iff]
  cases readDocument d doc with
  | error e => simp [Except.toOption]
  | ok w => simp [Except.toOption]

/-- **Exactly the snapshots whose readable documents are all listed.** -/
theorem keeps_readable_iff :
    (∃ l, getList (Wallpaper.fromFirestore d) (.ok snapshot) = .ok l ∧
      (readable d snapshot).Sublist l) ↔
    (∀ doc ∈ snapshot, Readable d doc) ∨ ∀ doc ∈ snapshot, ¬Readable d doc := by
  by_cases hall : ∀ doc ∈ snapshot, Readable d doc
  · rw [getList_of_readable hall]
    exact iff_of_true ⟨_, rfl, List.Sublist.refl _⟩ (Or.inl hall)
  · have hnot : ∃ doc ∈ snapshot, ¬Readable d doc := by simpa using hall
    rw [getList_of_not_readable hnot, or_iff_right hall, ← readable_eq_nil_iff]
    constructor
    · rintro ⟨l, hl, hsub⟩
      obtain rfl := Except.ok.inj hl
      exact List.sublist_nil.mp hsub
    · intro hnil
      exact ⟨[], rfl, by rw [hnil]⟩

end Readable

/-- What a list function makes of a snapshot. -/
structure AllOrNothing (d : Device) (snapshot : Snapshot) (list : Result (List Wallpaper)) :
    Prop where
  all : (∀ doc ∈ snapshot, Readable d doc) → list = .ok (readable d snapshot)
  nothing : (∃ doc ∈ snapshot, ¬Readable d doc) → list = .ok []

/-- **All or nothing**: whatever snapshots the queries are answered with, a list function returns
the wallpapers of all documents, in their order, if each is readable, and none if one is not. -/
theorem all_or_nothing (d : Device) (snapshots : Query → Snapshot) (category query : String)
    (limit : ℕ) :
    let backend : Backend := fun q => .ok (snapshots q)
    AllOrNothing d (snapshots FirestoreService.getWallpapers) (getWallpapers d backend) ∧
    AllOrNothing d (snapshots (FirestoreService.getWallpapersByCategory category limit))
      (getWallpapersByCategory d backend category limit) ∧
    AllOrNothing d (snapshots (FirestoreService.searchWallpapers d.codec query))
      (searchWallpapers d backend query) ∧
    AllOrNothing d (snapshots FirestoreService.getFeaturedWallpapers)
      (getFeaturedWallpapers d backend) ∧
    AllOrNothing d (snapshots FirestoreService.getTrendingWallpapers)
      (getTrendingWallpapers d backend) := by
  intro backend
  have h : ∀ q, AllOrNothing d (snapshots q) (wallpapersOf d backend q) := fun q =>
    ⟨getList_of_readable, getList_of_not_readable⟩
  exact ⟨h _, h _, h _, h _, h _⟩

/-- A snapshot with a title that is a number. -/
def mixedSnapshot : Snapshot :=
  [("1", [("url", .str "https://example.com/a.jpg")]), ("2", [("title", .int 7)])]

/-- **A hidden wallpaper**: the first document is read, and the list is empty. -/
theorem wallpaper_hidden :
    readable sampleDevice mixedSnapshot =
      [imageWallpaper sampleDevice "1" "https://example.com/a.jpg"] ∧
    getWallpapers sampleDevice (fun _ => .ok mixedSnapshot) = .ok [] ∧
    ¬∃ l, getWallpapers sampleDevice (fun _ => .ok mixedSnapshot) = .ok l ∧
      (readable sampleDevice mixedSnapshot).Sublist l := by
  have hfirst : readDocument sampleDevice ("1", [("url", .str "https://example.com/a.jpg")]) =
      .ok (imageWallpaper sampleDevice "1" "https://example.com/a.jpg") :=
    fromFirestore_imageDocument sampleDevice "1" (by decide)
  have hsecond : readDocument sampleDevice ("2", [("title", .int 7)]) = .error .typeError := rfl
  have hbad : ∃ doc ∈ mixedSnapshot, ¬Readable sampleDevice doc :=
    ⟨_, List.mem_cons_of_mem _ List.mem_cons_self, not_readable_iff.mpr ⟨_, hsecond⟩⟩
  have hreadable : readable sampleDevice mixedSnapshot =
      [imageWallpaper sampleDevice "1" "https://example.com/a.jpg"] := by
    rw [readable, mixedSnapshot, values_cons_ok hfirst]
    simp [values, hsecond, Except.toOption]
  have hlist : getWallpapers sampleDevice (fun _ => .ok mixedSnapshot) = .ok [] :=
    getList_of_not_readable hbad
  refine ⟨hreadable, hlist, ?_⟩
  rintro ⟨l, hl, hsub⟩
  obtain rfl := Except.ok.inj (hlist.symm.trans hl)
  rw [hreadable] at hsub
  cases hsub

end PixsBliss.Services.FirestoreWallpapers
