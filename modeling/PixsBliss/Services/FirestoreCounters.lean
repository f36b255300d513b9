import PixsBliss.Lib.Async
import PixsBliss.Lib.Linked
import PixsBliss.Models.Json

/-! # Counting downloads and views

`firestore_service.dart` counts the downloads and the views of a wallpaper in two fields of its
document. `incrementDownloadCount` and `incrementViewCount` update a document on the server;
`initializeDownloadsField` and `initializeViewsField`, which every start of the app runs, read the
whole collection and then commit a batch that sets the field to 0 wherever it was missing or null.

The program is the collection with the operations of any number of clients in flight. Between the
read and the commit of a migration an increment of another client can land; the commit sets it back
to 0. Counts and sums are integers without a bound, so what is said is of counts that stay within 64
bits (beyond them a sum in Dart wraps around, and a field of Firestore stays at the greatest value).

* `balance_step`: what a step does to the sum of a field, less the completed increments: nothing,
  unless a commit finds a count.
* `total_kept_iff`: so no increment is lost in a run exactly when every commit finds no count in the
  documents of its batch; `increment_lost` is a run that loses one. -/

namespace PixsBliss.Services.FirestoreCounters

open PixsBliss.Lib.Async PixsBliss.Lib.Entries PixsBliss.Lib.Linked PixsBliss.Models.Json

/-- The documents of a collection, by their ids. -/
abbrev Collection := LinkedMap String DynMap

/-! ### Fields -/

/-- The two counts of a document. -/
inductive Counter
  | downloads
  | views
deriving DecidableEq

/-- The field of a count. -/
def Counter.key : Counter → String
  | .downloads => "downloads"
  | .views => "views"

/-- The field of the time of the last increment. -/
def Counter.stampKey : Counter → String
  | .downloads => "lastDownloadedAt"
  | .views => "lastViewedAt"

/-- What the server makes of a field for `FieldValue.increment(1)`; a field that is not a number is
replaced. -/
def incremented : Dyn → Dyn
  | .int n => .int (n + 1)
  | .double x => .double (x + 1)
  | _ => .int 1

/-- A document after an update of a count and its time. -/
def updateCount (k : Counter) (count stamp : Dyn) (doc : DynMap) : DynMap :=
  setEntry k.stampKey stamp (setEntry k.key count doc)

/-- `(data[key] as int?) ?? 0`, added up over the documents. -/
def sumLoop (k : Counter) (total : ℤ) : List (String × DynMap) → Result ℤ
  | [] => .ok total
  | e :: es => do
    let count ← orNull asInt (field k.key e.2)
    sumLoop k (total + count.getD 0) es

/-- The total of a count over a snapshot; 0 if something throws. -/
def getTotal (k : Counter) (snapshot : Result Collection) : ℤ :=
  match snapshot with
  | .error _ => 0
  | .ok docs =>
    match sumLoop k 0 docs.entries with
    | .ok total => total
    | .error _ => 0

def getTotalDownloads (snapshot : Result Collection) : ℤ := getTotal .downloads snapshot

/-- The documents of a snapshot whose count is missing or null. -/
def missing (k : Counter) (docs : Collection) : List String :=
  (docs.entries.filter fun e => isNull (field k.key e.2)).map Prod.fst

/-- A batch that initializes a count, as the server applies it. -/
def commitBatch (k : Counter) (ids : List String) (docs : Collection) : Collection :=
  ids.foldl (fun docs id =>
    match docs.get id with
    | none => docs
    | some doc => docs.set id (updateCount k (.int 0) .null doc)) docs

/-! ### The program -/

/-- The collection; the increments that completed are a ghost. -/
structure State where
  docs : Collection
  completed : List (Counter × String)

/-- A call of some client. -/
inductive Call
  | incrementDownloadCount (wallpaperId : String)
  | incrementViewCount (wallpaperId : String)
  | initializeDownloadsField
  | initializeViewsField

/-- What a client awaits: an update, a query for the whole collection, the commit of a batch. -/
inductive Task
  | updating (k : Counter) (id : String)
  | reading (k : Counter)
  | committing (k : Counter) (ids : List String)

/-- The server answers at some time, or the operation throws; a failed increment is rethrown, a
failed migration only logged. -/
inductive Outcome
  | done (serverTime : ℤ)
  | failed (e : DartError)

def incrementCount (k : Counter) (wallpaperId : String) : List Task := [.updating k wallpaperId]

def initializeField (k : Counter) : List Task := [.reading k]

/-- **The clients and the server.** An update of a document that does not exist fails, and so does a
batch with such an update. -/
def program : Program State Task Call Outcome where
  call c s :=
    (s, match c with
      | .incrementDownloadCount id => incrementCount .downloads id
      | .incrementViewCount id => incrementCount .views id
      | .initializeDownloadsField => initializeField .downloads
      | .initializeViewsField => initializeField .views)
  resume
    | .updating k id, .done t, s =>
      match s.docs.get id with
      | none => none
      | some doc =>
        some ({ s with
          docs := s.docs.set id (updateCount k (incremented (field k.key doc)) (.timestamp t) doc)
          completed := s.completed ++ [(k, id)] }, [])
    | .reading k, .done _, s =>
      some (s, if missing k s.docs = [] then [] else [.committing k (missing k s.docs)])
    | .committing k ids, .done _, s =>
      if ∀ id ∈ ids, (s.docs.get id).isSome = true then
        some ({ s with docs := commitBatch k ids s.docs }, [])
      else none
    | _, .failed _, s => some (s, [])

/-! ### Counts -/

/-- A count as it is added up. -/
def countOf (k : Counter) (doc : DynMap) : ℤ :=
  match field k.key doc with
  | .int n => n
  | _ => 0

/-- The field of a count holds an integer, or is null or missing. -/
def IsCount (k : Counter) (doc : DynMap) : Prop :=
  field k.key doc = .null ∨ ∃ n, field k.key doc = .int n

/-- The sum of a count. -/
def total (k : Counter) (docs : Collection) : ℤ := (docs.entries.map fun e => countOf k e.2).sum

section Fields

variable {k k' : Counter} {count stamp : Dyn} {doc : DynMap}

theorem field_setEntry {key x : String} {v : Dyn} : ∀ (m : DynMap),
    field x (setEntry key v m) = if x = key then v else field x m
  | [] => by simp [setEntry, field]
  | (k', v') :: m => by
    unfold setEntry
    by_cases hk : key = k'
    · subst hk
      rw [if_pos rfl, field, field]
      split_ifs <;> rfl
    · rw [if_neg hk, field, field, field_setEntry m]
      split_ifs with h1 h2
      · exact absurd (h2.symm.trans h1) hk
      all_goals rfl

theorem key_ne_stampKey (k k' : Counter) : k.key ≠ k'.stampKey := by
  cases k <;> cases k' <;> decide

theorem field_updateCount_self : field k.key (updateCount k count stamp doc) = count := by
  rw [updateCount, field_setEntry, if_neg (key_ne_stampKey k k), field_setEntry, if_pos rfl]

theorem field_updateCount_ne (h : k ≠ k') :
    field k.key (updateCount k' count stamp doc) = field k.key doc := by
  have hk : k.key ≠ k'.key := by
    cases k <;> cases k' <;> first | exact absurd rfl h | decide
  rw [updateCount, field_setEntry, if_neg (key_ne_stampKey k k'), field_setEntry, if_neg hk]

theorem countOf_eq {n : ℤ} (h : field k.key doc = .int n) : countOf k doc = n := by
  rw [countOf, h]

theorem countOf_null (h : field k.key doc = .null) : countOf k doc = 0 := by
  rw [countOf, h]

/-- An increment adds one to a count. -/
theorem increment_spec (h : IsCount k doc) (stamp : Dyn) :
    IsCount k (updateCount k (incremented (field k.key doc)) stamp doc) ∧
      countOf k (updateCount k (incremented (field k.key doc)) stamp doc) = countOf k doc + 1 := by
  rcases h with h | ⟨n, h⟩
  · have hf : field k.key (updateCount k (incremented (field k.key doc)) stamp doc) = .int 1 := by
      rw [field_updateCount_self, h]
      rfl
    exact ⟨Or.inr ⟨1, hf⟩, by rw [countOf_eq hf, countOf_null h, zero_add]⟩
  · have hf : field k.key (updateCount k (incremented (field k.key doc)) stamp doc) =
        .int (n + 1) := by
      rw [field_updateCount_self, h]
      rfl
    exact ⟨Or.inr ⟨n + 1, hf⟩, by rw [countOf_eq hf, countOf_eq h]⟩

/-- The initialization sets a count to 0. -/
theorem initialize_spec (stamp : Dyn) (doc : DynMap) :
    IsCount k (updateCount k (.int 0) stamp doc) ∧
      countOf k (updateCount k (.int 0) stamp doc) = 0 :=
  ⟨Or.inr ⟨0, field_updateCount_self⟩, countOf_eq field_updateCount_self⟩

/-- An update of one count leaves the other alone. -/
theorem update_other (h : k ≠ k') (count stamp : Dyn) (doc : DynMap) :
    (IsCount k (updateCount k' count stamp doc) ↔ IsCount k doc) ∧
      countOf k (updateCount k' count stamp doc) = countOf k doc := by
  rw [IsCount, IsCount, countOf, countOf, field_updateCount_ne h]
  exact ⟨Iff.rfl, rfl⟩

end Fields

/-- Where all counts are integers, `getTotal` is their sum. -/
theorem sumLoop_eq {k : Counter} : ∀ {es : List (String × DynMap)} (n : ℤ),
    (∀ e ∈ es, IsCount k e.2) →
      sumLoop k n es = .ok (n + (es.map fun e => countOf k e.2).sum)
  | [], n, _ => by simp [sumLoop]
  | e :: es, n, h => by
    have hc : orNull asInt (field k.key e.2) = .ok none ∧ countOf k e.2 = 0 ∨
        orNull asInt (field k.key e.2) = .ok (some (countOf k e.2)) := by
      rcases h e (by simp) with he | ⟨m, he⟩
      · exact Or.inl ⟨by rw [he]; rfl, countOf_null he⟩
      · exact Or.inr (by rw [countOf_eq he, he]; rfl)
    have ih (m : ℤ) := sumLoop_eq m fun e he => h e (List.mem_cons_of_mem _ he)
    rcases hc with ⟨hc, h0⟩ | hc
    · simp only [sumLoop, hc, ok_bind, ih, Option.getD_none, List.map_cons, List.sum_cons, h0]
      congr 1
      omega
    · simp only [sumLoop, hc, ok_bind, ih, Option.getD_some, List.map_cons, List.sum_cons]
      congr 1
      omega

theorem getTotal_eq {k : Counter} {docs : Collection} (h : ∀ e ∈ docs.entries, IsCount k e.2) :
    getTotal k (.ok docs) = total k docs := by
  rw [getTotal, sumLoop_eq 0 h, zero_add, total]

/-! ### Changes of the collection -/

/-- Counts stay counts, and those that are not negative stay so. -/
def Evolves (k : Counter) (docs docs' : Collection) : Prop :=
  ∀ x d', docs'.get x = some d' → ∃ d, docs.get x = some d ∧
    (IsCount k d → IsCount k d' ∧ (0 ≤ countOf k d → 0 ≤ countOf k d'))

section Changes

variable {k k' : Counter} {docs docs' docs'' : Collection} {id : String} {doc doc' : DynMap}

theorem Evolves.refl (k : Counter) (docs : Collection) : Evolves k docs docs := fun _ d' h =>
  ⟨d', h, fun hc => ⟨hc, fun hn => hn⟩⟩

theorem Evolves.trans (h : Evolves k docs docs') (h' : Evolves k docs' docs'') :
    Evolves k docs docs'' := by
  intro x d'' hx
  obtain ⟨d', hd', hc'⟩ := h' x d'' hx
  obtain ⟨d, hd, hc⟩ := h x d' hd'
  exact ⟨d, hd, fun hi => ⟨(hc' (hc hi).1).1, fun hn => (hc' (hc hi).1).2 ((hc hi).2 hn)⟩⟩

theorem evolves_set (hdoc : docs.get id = some doc)
    (h : IsCount k doc → IsCount k doc' ∧ (0 ≤ countOf k doc → 0 ≤ countOf k doc')) :
    Evolves k docs (docs.set id doc') := by
  intro x d' hx
  rw [LinkedMap.get_set] at hx
  split_ifs at hx with hid
  · cases hx
    subst hid
    exact ⟨doc, hdoc, h⟩
  · exact Evolves.refl k docs x d' hx

theorem total_set (hdoc : docs.get id = some doc) :
    total k (docs.set id doc') + countOf k doc = total k docs + countOf k doc' :=
  LinkedMap.sum_set hdoc

theorem commitBatch_cons_none {ids : List String} (h : docs.get id = none) :
    commitBatch k (id :: ids) docs = commitBatch k ids docs := by
  unfold commitBatch
  rw [List.foldl_cons, h]

theorem commitBatch_cons_some {ids : List String} (h : docs.get id = some doc) :
    commitBatch k (id :: ids) docs =
      commitBatch k ids (docs.set id (updateCount k (.int 0) .null doc)) := by
  unfold commitBatch
  rw [List.foldl_cons, h]

/-- A batch for one count leaves the other alone. -/
theorem commitBatch_other (h : k ≠ k') : ∀ (ids : List String) (docs : Collection),
    Evolves k docs (commitBatch k' ids docs) ∧ total k (commitBatch k' ids docs) = total k docs
  | [], docs => ⟨Evolves.refl k docs, rfl⟩
  | id :: ids, docs => by
    cases hd : docs.get id with
    | none =>
      rw [commitBatch_cons_none hd]
      exact commitBatch_other h ids docs
    | some doc =>
      rw [commitBatch_cons_some hd]
      obtain ⟨hc, hn⟩ := update_other h (.int 0) .null doc
      obtain ⟨he, ht⟩ := commitBatch_other h ids (docs.set id (updateCount k' (.int 0) .null doc))
      have hset : Evolves k docs (docs.set id (updateCount k' (.int 0) .null doc)) :=
        evolves_set hd fun hi => ⟨hc.mpr hi, by rw [hn]; exact fun hn => hn⟩
      have htot : total k (docs.set id (updateCount k' (.int 0) .null doc)) + countOf k doc =
          total k docs + countOf k (updateCount k' (.int 0) .null doc) := total_set hd
      refine ⟨hset.trans he, ht.trans ?_⟩
      omega

/-- **A batch loses the counts it finds.** -/
theorem commitBatch_spec : ∀ (ids : List String) (docs : Collection),
    (∀ id ∈ ids, ∀ doc, docs.get id = some doc → 0 ≤ countOf k doc) →
      Evolves k docs (commitBatch k ids docs) ∧
      total k (commitBatch k ids docs) ≤ total k docs ∧
      (total k (commitBatch k ids docs) = total k docs ↔
        ∀ id ∈ ids, ∀ doc, docs.get id = some doc → countOf k doc = 0)
  | [], docs, _ => ⟨Evolves.refl k docs, le_rfl, by simp [commitBatch]⟩
  | id :: ids, docs, hnn => by
    cases hd : docs.get id with
    | none =>
      rw [commitBatch_cons_none hd]
      obtain ⟨he, hle, hiff⟩ := commitBatch_spec ids docs
        fun x hx => hnn x (List.mem_cons_of_mem _ hx)
      refine ⟨he, hle, hiff.trans ?_⟩
      rw [List.forall_mem_cons, hd]
      simp
    | some doc =>
      rw [commitBatch_cons_some hd]
      obtain ⟨hc, h0⟩ := initialize_spec (k := k) .null doc
      have hset : Evolves k docs (docs.set id (updateCount k (.int 0) .null doc)) :=
        evolves_set hd fun _ => ⟨hc, fun _ => h0.ge⟩
      have htot : total k (docs.set id (updateCount k (.int 0) .null doc)) + countOf k doc =
          total k docs + countOf k (updateCount k (.int 0) .null doc) := total_set hd
      have hdoc : 0 ≤ countOf k doc := hnn id (by simp) doc hd
      -- a document of the batch is as it was, or has just been initialized
      have hget : ∀ x d, (docs.set id (updateCount k (.int 0) .null doc)).get x = some d →
          countOf k d = 0 ∨ docs.get x = some d := fun x d hx => by
        rw [LinkedMap.get_set] at hx
        split_ifs at hx
        · cases hx; exact Or.inl h0
        · exact Or.inr hx
      have hget' : ∀ x d, docs.get x = some d → (x = id ∧ d = doc) ∨
          (docs.set id (updateCount k (.int 0) .null doc)).get x = some d := fun x d hx => by
        by_cases hxi : x = id
        · subst hxi
          exact Or.inl ⟨rfl, Option.some.inj (hx.symm.trans hd)⟩
        · exact Or.inr (by rw [LinkedMap.get_set_of_ne hxi]; exact hx)
      obtain ⟨he, hle, hiff⟩ := commitBatch_spec ids
        (docs.set id (updateCount k (.int 0) .null doc)) fun x hx d hxd => by
          rcases hget x d hxd with h | h
          · exact h.ge
          · exact hnn x (List.mem_cons_of_mem _ hx) d h
      refine ⟨hset.trans he, by omega, ?_⟩
      constructor
      · intro heq
        have hdoc0 : countOf k doc = 0 := by omega
        have hrest := hiff.mp (by omega)
        intro x hx d hxd
        rcases hget' x d hxd with ⟨-, rfl⟩ | hxd'
        · exact hdoc0
        · rcases List.mem_cons.mp hx with rfl | hx
          · rw [hd] at hxd
            cases hxd
            exact hdoc0
          · exact hrest x hx d hxd'
      · intro hall
        have hdoc0 : countOf k doc = 0 := hall id (by simp) doc hd
        have hrest := hiff.mpr fun x hx d hxd => by
          rcases hget x d hxd with h | h
          · exact h
          · exact hall x (List.mem_cons_of_mem _ hx) d h
        omega

end Changes

/-! ### Runs -/

/-- How many increments of a count completed. -/
def completedOf (k : Counter) (s : State) : ℕ := (s.completed.filter fun e => e.1 = k).length

/-- The sum of a count, less the increments that completed. -/
def balance (k : Counter) (w : World State Task) : ℤ :=
  total k w.shared.docs - completedOf k w.shared

/-- **A commit finds no count** in the documents of its batch: they are as missing, null or 0 as
they were read. -/
def CommitFindsNone (k : Counter) (w : World State Task) : Event Call Outcome → Prop
  | .resume i (.done _) => ∀ ids, w.tasks[i]? = some (.committing k ids) →
      ∀ id ∈ ids, ∀ doc, w.shared.docs.get id = some doc → countOf k doc = 0
  | _ => True

/-- All counts are integers, and those in the batches in flight are not negative. -/
structure Inv (k : Counter) (w : World State Task) : Prop where
  counts : ∀ id doc, w.shared.docs.get id = some doc → IsCount k doc
  batches : ∀ ids, Task.committing k ids ∈ w.tasks →
    ∀ id ∈ ids, ∀ doc, w.shared.docs.get id = some doc → 0 ≤ countOf k doc

section Runs

variable {k : Counter} {w w' : World State Task} {e : Event Call Outcome}

theorem inv_of_evolves (h : Inv k w) {s : State} {tasks : List Task}
    (he : Evolves k w.shared.docs s.docs)
    (ht : ∀ ids, Task.committing k ids ∈ tasks → Task.committing k ids ∈ w.tasks ∨
      ∀ id ∈ ids, ∀ doc, s.docs.get id = some doc → 0 ≤ countOf k doc) : Inv k ⟨s, tasks⟩ where
  counts id doc hd := by
    obtain ⟨d, hd', hc⟩ := he id doc hd
    exact (hc (h.counts id d hd')).1
  batches ids hm id hid doc hd := by
    rcases ht ids hm with hold | hnew
    · obtain ⟨d, hd', hc⟩ := he id doc hd
      exact (hc (h.counts id d hd')).2 (h.batches ids hold id hid d hd')
    · exact hnew id hid doc hd

/-- A document whose count is missing or null has no count. -/
theorem countOf_missing {docs : Collection} {id : String} (h : id ∈ missing k docs) {doc : DynMap}
    (hd : docs.get id = some doc) : countOf k doc = 0 := by
  simp only [missing, List.mem_map, List.mem_filter] at h
  obtain ⟨⟨id', doc'⟩, ⟨hm, hn⟩, rfl⟩ := h
  obtain rfl : doc' = doc := Option.some.inj ((LinkedMap.mem_entries_iff.mp hm).symm.trans hd)
  refine countOf_null ?_
  cases hf : field k.key doc' <;> simp [hf, isNull] at hn ⊢

theorem completedOf_concat (k' : Counter) (id : String) (s : State) (docs : Collection) :
    completedOf k ⟨docs, s.completed ++ [(k', id)]⟩ =
      completedOf k s + if k' = k then 1 else 0 := by
  unfold completedOf
  rw [List.filter_append, List.length_append]
  congr 1
  by_cases h : k' = k <;> simp [h]

/-- An update that lands. -/
theorem balance_update (h : Inv k w) {k' : Counter} {id : String} {doc : DynMap} (stamp : Dyn)
    (hd : w.shared.docs.get id = some doc) {tasks : List Task}
    (ht : ∀ ids, Task.committing k ids ∈ tasks → Task.committing k ids ∈ w.tasks) :
    Inv k ⟨⟨w.shared.docs.set id (updateCount k' (incremented (field k'.key doc)) stamp doc),
        w.shared.completed ++ [(k', id)]⟩, tasks⟩ ∧
      balance k ⟨⟨w.shared.docs.set id (updateCount k' (incremented (field k'.key doc)) stamp doc),
        w.shared.completed ++ [(k', id)]⟩, tasks⟩ = balance k w := by
  have htot : total k (w.shared.docs.set id
      (updateCount k' (incremented (field k'.key doc)) stamp doc)) + countOf k doc =
      total k w.shared.docs +
        countOf k (updateCount k' (incremented (field k'.key doc)) stamp doc) :=
    total_set hd
  have hcomp := completedOf_concat (k := k) k' id w.shared
    (w.shared.docs.set id (updateCount k' (incremented (field k'.key doc)) stamp doc))
  unfold balance
  by_cases hk : k' = k
  · subst hk
    obtain ⟨hc, hn⟩ := increment_spec (h.counts id doc hd) stamp
    refine ⟨inv_of_evolves h (evolves_set hd fun _ => ⟨hc, fun h0 => ?_⟩) fun ids hm =>
      Or.inl (ht ids hm), ?_⟩
    · omega
    · rw [if_pos rfl] at hcomp
      simp only [hcomp]
      omega
  · obtain ⟨hc, hn⟩ := update_other (fun he : k = k' => hk he.symm)
      (incremented (field k'.key doc)) stamp doc
    refine ⟨inv_of_evolves h (evolves_set hd fun hi => ⟨hc.mpr hi, fun h0 => ?_⟩) fun ids hm =>
      Or.inl (ht ids hm), ?_⟩
    · omega
    · rw [if_neg hk] at hcomp
      simp only [hcomp]
      omega

/-- A batch that lands. -/
theorem balance_commit (h : Inv k w) {k' : Counter} {ids : List String}
    (hm : Task.committing k' ids ∈ w.tasks) {tasks : List Task}
    (ht : ∀ ids, Task.committing k ids ∈ tasks → Task.committing k ids ∈ w.tasks) :
    Inv k ⟨{ w.shared with docs := commitBatch k' ids w.shared.docs }, tasks⟩ ∧
      balance k ⟨{ w.shared with docs := commitBatch k' ids w.shared.docs }, tasks⟩ ≤ balance k w ∧
      (balance k ⟨{ w.shared with docs := commitBatch k' ids w.shared.docs }, tasks⟩ = balance k w ↔
        (k' = k → ∀ id ∈ ids, ∀ doc, w.shared.docs.get id = some doc → countOf k doc = 0)) := by
  unfold balance completedOf
  by_cases hk : k' = k
  · subst hk
    obtain ⟨he, hle, hiff⟩ := commitBatch_spec ids w.shared.docs (h.batches ids hm)
    refine ⟨inv_of_evolves h he fun ids hm => Or.inl (ht ids hm), by simpa using hle, ?_⟩
    simpa using hiff
  · obtain ⟨he, heq⟩ := commitBatch_other (fun he : k = k' => hk he.symm) ids w.shared.docs
    refine ⟨inv_of_evolves h he fun ids hm => Or.inl (ht ids hm), by simp [heq], ?_⟩
    simp [heq, hk]

/-- **What a step does to a count**: nothing is lost, unless a commit finds a count. -/
theorem balance_step (h : Inv k w) (hs : program.step w e = some w') :
    Inv k w' ∧ balance k w' ≤ balance k w ∧
      (balance k w' = balance k w ↔ CommitFindsNone k w e) := by
  rcases Program.step_cases hs with ⟨c, rfl, rfl⟩ | ⟨l, t, r, o, s, ts, rfl, ht, hr, rfl⟩
  · refine ⟨inv_of_evolves h (Evolves.refl k _) fun ids hm => ?_, le_rfl, ?_⟩
    · rcases List.mem_append.mp hm with hm | hm
      · exact Or.inl hm
      · cases c <;> simp [program, incrementCount, initializeField] at hm
    · exact iff_of_true rfl trivial
  · have hi := Program.getElem?_of_eq ht
    have hold : ∀ ids, Task.committing k ids ∈ l ++ [] ++ r → Task.committing k ids ∈ w.tasks :=
      fun ids hm => by
        rw [List.append_nil] at hm
        rw [ht]
        exact List.mem_append.mpr ((List.mem_append.mp hm).imp_right (List.mem_cons_of_mem _))
    have hfind : ∀ time, CommitFindsNone k w (.resume l.length (.done time)) ↔
        ∀ ids, t = .committing k ids →
          ∀ id ∈ ids, ∀ doc, w.shared.docs.get id = some doc → countOf k doc = 0 := fun time => by
      simp only [CommitFindsNone, hi, Option.some.injEq]
    cases o with
    | failed err =>
      have hr' : s = w.shared ∧ ts = [] := by
        cases t <;> exact ⟨(Prod.mk.inj (Option.some.inj hr)).1.symm,
          (Prod.mk.inj (Option.some.inj hr)).2.symm⟩
      obtain ⟨rfl, rfl⟩ := hr'
      exact ⟨inv_of_evolves h (Evolves.refl k _) fun ids hm => Or.inl (hold ids hm), le_rfl,
        iff_of_true rfl trivial⟩
    | done time =>
      cases t with
      | updating k' id =>
        cases hd : w.shared.docs.get id with
        | none => simp [program, hd] at hr
        | some doc =>
          simp only [program, hd, Option.some.injEq, Prod.mk.injEq] at hr
          obtain ⟨rfl, rfl⟩ := hr
          obtain ⟨hinv, hbal⟩ := balance_update h (.timestamp time) hd hold
          exact ⟨hinv, hbal.le, iff_of_true hbal ((hfind time).mpr fun ids he => by cases he)⟩
      | reading k' =>
        simp only [program, Option.some.injEq, Prod.mk.injEq] at hr
        obtain ⟨rfl, rfl⟩ := hr
        refine ⟨inv_of_evolves h (Evolves.refl k _) fun ids hm => ?_, le_rfl,
          iff_of_true rfl ((hfind time).mpr fun ids he => by cases he)⟩
        split_ifs at hm
        · exact Or.inl (hold ids hm)
        · simp only [List.mem_append, List.mem_singleton, Task.committing.injEq] at hm
          rcases hm with (hm | ⟨rfl, rfl⟩) | hm
          · exact Or.inl (hold ids (by simp [hm]))
          · exact Or.inr fun id hid doc hd => (countOf_missing hid hd).ge
          · exact Or.inl (hold ids (by simp [hm]))
      | committing k' ids =>
        simp only [program] at hr
        split_ifs at hr
        simp only [Option.some.injEq, Prod.mk.injEq] at hr
        obtain ⟨rfl, rfl⟩ := hr
        obtain ⟨hinv, hle, hiff⟩ := balance_commit h (List.mem_of_getElem? hi) hold
        refine ⟨hinv, hle, hiff.trans ?_⟩
        rw [hfind time]
        constructor
        · intro hall ids' he
          obtain ⟨rfl, rfl⟩ := Task.committing.inj he
          exact hall rfl
        · rintro hall rfl
          exact hall ids rfl

/-- **Exactly the runs that lose no increment**: over a collection whose counts are integers, null
or missing, the total at the end is the initial one and the completed increments iff every commit of
a batch finds no count in the documents of the batch. -/
theorem total_kept_iff (k : Counter) (docs : Collection) (hdocs : ∀ e ∈ docs.entries, IsCount k e.2)
    (es : List (Event Call Outcome)) (w : World State Task)
    (hr : program.run ⟨⟨docs, []⟩, []⟩ es = some w) :
    getTotal k (.ok w.shared.docs) = getTotal k (.ok docs) + completedOf k w.shared ↔
      program.Each (fun w e _ => CommitFindsNone k w e) ⟨⟨docs, []⟩, []⟩ es := by
  have hstart : Inv k ⟨⟨docs, []⟩, []⟩ :=
    ⟨fun id doc hd => hdocs (id, doc) (LinkedMap.mem_entries_iff.mpr hd), by simp⟩
  have hend : Inv k w := Program.run_inv (fun _ _ _ h hs => (balance_step h hs).1) hstart hr
  have hkept := (Program.kept_iff_each (I := Inv k) (φ := balance k)
    (Q := fun w e _ => CommitFindsNone k w e) (fun _ _ _ h hs => balance_step h hs) hstart hr).2
  rw [← hkept, getTotal_eq hdocs,
    getTotal_eq fun e he => hend.counts e.1 e.2 (LinkedMap.mem_entries_iff.mp he)]
  simp only [balance, completedOf, List.filter_nil, List.length_nil]
  omega

/-- A wallpaper nobody has downloaded yet. -/
def newDocs : Collection := ⟨[("w1", [("title", .str "Dunes")])], by simp⟩

/-- A client starts, and the wallpaper is downloaded after the migration. -/
theorem total_after_migration : ∃ w, program.run ⟨⟨newDocs, []⟩, []⟩
      [.call .initializeDownloadsField, .resume 0 (.done 1), .resume 0 (.done 2),
        .call (.incrementDownloadCount "w1"), .resume 0 (.done 3)] = some w ∧
    (getTotal .downloads (.ok w.shared.docs) =
        getTotal .downloads (.ok newDocs) + completedOf .downloads w.shared ↔
      program.Each (fun w e _ => CommitFindsNone .downloads w e) ⟨⟨newDocs, []⟩, []⟩
        [.call .initializeDownloadsField, .resume 0 (.done 1), .resume 0 (.done 2),
          .call (.incrementDownloadCount "w1"), .resume 0 (.done 3)]) := by
  refine ⟨_, rfl, ?_⟩
  refine total_kept_iff .downloads newDocs ?_ _ _ rfl
  simp only [newDocs, List.mem_singleton]
  rintro e rfl
  exact Or.inl rfl

/-- **A download between the read and the commit of a migration is lost**: it completes, and the
total stays 0. -/
theorem increment_lost : ∃ w, program.run ⟨⟨newDocs, []⟩, []⟩
      [.call .initializeDownloadsField, .resume 0 (.done 1),
        .call (.incrementDownloadCount "w1"), .resume 1 (.done 2), .resume 0 (.done 3)] = some w ∧
    w.tasks = [] ∧ completedOf .downloads w.shared = 1 ∧
    getTotalDownloads (.ok newDocs) = 0 ∧ getTotalDownloads (.ok w.shared.docs) = 0 ∧
    getTotalDownloads (.ok w.shared.docs) ≠
      getTotalDownloads (.ok newDocs) + completedOf .downloads w.shared :=
  ⟨_, rfl, rfl, rfl, rfl, rfl, by decide⟩

end Runs

end PixsBliss.Services.FirestoreCounters
