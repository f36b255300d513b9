import PixsBliss.Lib.Linked
import PixsBliss.Models.Json

/-! # The list queries of the Firestore service

Every list function of `firestore_service.dart` awaits a query, puts the id of each document into
its data and decodes it, and catches whatever is thrown on the way: it then returns the empty list
(`getList`). A function of the service is the query it sends; the answer, a snapshot or an
exception, is given by the environment. The decoder `fromFirestore` is a parameter. -/

namespace PixsBliss.Services.FirestoreService

open PixsBliss.Lib.Linked PixsBliss.Models.Json

/-! ### Queries -/

/-- A condition on the documents of a query. -/
inductive Condition
  | arrayContains (field value : String)
  | isEqualTo (field : String) (value : Bool)
deriving DecidableEq

/-- A query of a collection; `orderBy` is a field and whether the order is descending. -/
structure Query where
  collection : String
  condition : Option Condition := none
  orderBy : Option (String × Bool) := none
  limit : Option ℕ := none
deriving DecidableEq

def getWallpapers : Query := { collection := "wallpapers", orderBy := some ("createdAt", true) }

/-- The limit is set if it is positive. -/
def getWallpapersByCategory (category : String) (limit : ℕ) : Query where
  collection := "wallpapers"
  condition := some (.arrayContains "categories" category)
  limit := if 0 < limit then some limit else none

def getCategories : Query := { collection := "categories", orderBy := some ("order", false) }

def searchWallpapers (c : Codec) (query : String) : Query where
  collection := "wallpapers"
  condition := some (.arrayContains "tags" (c.toLowerCase query))
  orderBy := some ("createdAt", true)

def getFeaturedWallpapers : Query where
  collection := "wallpapers"
  condition := some (.isEqualTo "featured" true)
  limit := some 10

def getTrendingWallpapers : Query where
  collection := "wallpapers"
  condition := some (.isEqualTo "trending" true)
  limit := some 20

/-! ### Answers -/

/-- The documents of a query: ids and data. -/
abbrev Snapshot := List (String × DynMap)

section Lists

variable {α : Type} (fromFirestore : DynMap → Result α)

/-- `data['_id'] = doc.id`. -/
def dataWithId (doc : String × DynMap) : DynMap := setEntry "_id" (.str doc.1) doc.2

/-- The body of the `try`: the query and the decoding of its documents. -/
def readList (answer : Result Snapshot) : Result (List α) := do
  (← answer).mapM fun doc => fromFirestore (dataWithId doc)

/-- What a list function makes of the answer to its query: an exception becomes the empty list. -/
def getList (answer : Result Snapshot) : Result (List α) :=
  match readList fromFirestore answer with
  | .ok l => .ok l
  | .error _ => .ok []

theorem getList_error {answer : Result Snapshot} {e : DartError}
    (h : readList fromFirestore answer = .error e) : getList fromFirestore answer = .ok [] := by
  rw [getList, h]

/-- A list function never throws. -/
theorem getList_ok (answer : Result Snapshot) : ∃ l, getList fromFirestore answer = .ok l := by
  unfold getList
  split
  · exact ⟨_, rfl⟩
  · exact ⟨[], rfl⟩

end Lists

end PixsBliss.Services.FirestoreService
