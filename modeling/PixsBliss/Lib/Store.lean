import PixsBliss.Lib.Entries
import Mathlib.Data.List.Sort

/-! # Key-value stores that enumerate their keys in ascending order

A store is a list of entries with strictly ascending keys; the order is part of the type, so a store
that enumerates its keys otherwise cannot be built. `put` inserts or overwrites, `empty` is the
store after a clear.

* `get_put`, `mem_keys_put`: the two rewrite rules of `put`; `get_putAll`: the last put of a key
  wins.
* `mem_entries_iff`: the entries are the graph of `get`.
* `eq_of_ascending`: an ascending list is determined by its members, so the enumeration of the keys
  is the only ascending one. -/

namespace PixsBliss.Lib.Store

open PixsBliss.Lib.Entries

variable {K V : Type} [LinearOrder K]

/-! ### Ordered insertion -/

/-- Insert or overwrite, keeping the order. -/
def insertEntry (k : K) (v : V) : List (K × V) → List (K × V)
  | [] => [(k, v)]
  | (k', v') :: es =>
    if k < k' then (k, v) :: (k', v') :: es
    else if k = k' then (k, v) :: es
    else (k', v') :: insertEntry k v es

theorem mem_map_insertEntry {k x : K} {v : V} : ∀ {es : List (K × V)},
    x ∈ (insertEntry k v es).map Prod.fst ↔ x = k ∨ x ∈ es.map Prod.fst
  | [] => by simp [insertEntry]
  | (k', v') :: es => by
    unfold insertEntry
    split_ifs with h1 h2
    · simp
    · subst h2; simp
    · rw [List.map_cons, List.mem_cons, mem_map_insertEntry, List.map_cons, List.mem_cons]
      exact or_left_comm

theorem sorted_insertEntry {k : K} {v : V} : ∀ {es : List (K × V)},
    (es.map Prod.fst).Pairwise (· < ·) → ((insertEntry k v es).map Prod.fst).Pairwise (· < ·)
  | [], _ => by simp [insertEntry]
  | (k', v') :: es, h => by
    obtain ⟨h1, h2⟩ := List.pairwise_cons.mp h
    unfold insertEntry
    split_ifs with hlt heq
    · refine List.pairwise_cons.mpr ⟨fun x hx => ?_, h⟩
      rcases List.mem_cons.mp hx with rfl | hx
      · exact hlt
      · exact hlt.trans (h1 x hx)
    · subst heq; exact h
    · refine List.pairwise_cons.mpr ⟨fun x hx => ?_, sorted_insertEntry h2⟩
      rcases mem_map_insertEntry.mp hx with rfl | hx
      · exact lt_of_le_of_ne (not_lt.mp hlt) (Ne.symm heq)
      · exact h1 x hx

theorem lookup_insertEntry {k x : K} {v : V} : ∀ (es : List (K × V)),
    lookup x (insertEntry k v es) = if x = k then some v else lookup x es
  | [] => by simp [insertEntry, lookup]
  | (k', v') :: es => by
    unfold insertEntry
    split_ifs with h1 h2 h3 h3
    all_goals simp only [lookup, lookup_insertEntry es]
    all_goals split_ifs <;> simp_all

/-- An ascending list is determined by its members. -/
theorem eq_of_ascending {l l' : List K} (hl : l.Pairwise (· < ·)) (hl' : l'.Pairwise (· < ·))
    (h : ∀ x, x ∈ l ↔ x ∈ l') : l = l' := by
  have hp : l.Perm l' :=
    (List.perm_ext_iff_of_nodup (hl.imp fun h => h.ne) (hl'.imp fun h => h.ne)).mpr h
  exact hp.eq_of_pairwise (fun a b _ _ hab hba => absurd hba (lt_asymm hab)) hl hl'

/-! ### Stores -/

/-- A store: entries with strictly ascending keys. -/
structure SortedStore (K V : Type) [LinearOrder K] where
  entries : List (K × V)
  sorted : (entries.map Prod.fst).Pairwise (· < ·)

namespace SortedStore

/-- The store after a clear. -/
def empty : SortedStore K V := ⟨[], by simp⟩

/-- Insert or overwrite. -/
def put (m : SortedStore K V) (k : K) (v : V) : SortedStore K V :=
  ⟨insertEntry k v m.entries, sorted_insertEntry m.sorted⟩

/-- The value at a key. -/
def get (m : SortedStore K V) (k : K) : Option V := lookup k m.entries

/-- The keys, in ascending order. -/
def keys (m : SortedStore K V) : List K := m.entries.map Prod.fst

/-- The puts of a list of entries, in order. -/
def putAll (m : SortedStore K V) (l : List (K × V)) : SortedStore K V :=
  l.foldl (fun m e => m.put e.1 e.2) m

variable {m m' : SortedStore K V} {k x : K} {v : V}

@[simp] theorem get_empty : (empty : SortedStore K V).get k = none := rfl

@[simp] theorem keys_empty : (empty : SortedStore K V).keys = [] := rfl

@[simp] theorem entries_empty : (empty : SortedStore K V).entries = [] := rfl

@[simp] theorem putAll_nil : m.putAll [] = m := rfl

@[simp] theorem putAll_cons (e : K × V) (l : List (K × V)) :
    m.putAll (e :: l) = (m.put e.1 e.2).putAll l := rfl

theorem nodup_keys (m : SortedStore K V) : m.keys.Nodup := m.sorted.imp fun h => h.ne

theorem get_put : (m.put k v).get x = if x = k then some v else m.get x :=
  lookup_insertEntry m.entries

@[simp] theorem get_put_self : (m.put k v).get k = some v := by rw [get_put, if_pos rfl]

theorem get_put_of_ne (h : x ≠ k) : (m.put k v).get x = m.get x := by rw [get_put, if_neg h]

theorem mem_keys_put : x ∈ (m.put k v).keys ↔ x = k ∨ x ∈ m.keys := mem_map_insertEntry

theorem mem_entries_iff : (x, v) ∈ m.entries ↔ m.get x = some v :=
  ⟨lookup_of_mem m.nodup_keys, mem_of_lookup⟩

theorem get_eq_none : m.get x = none ↔ x ∉ m.keys := lookup_eq_none

theorem mem_keys_iff : x ∈ m.keys ↔ ∃ v, m.get x = some v := by
  rw [← not_iff_not, ← get_eq_none, Option.eq_none_iff_forall_ne_some]
  simp

/-- **Last put wins.** -/
theorem get_putAll : ∀ (l : List (K × V)) (m : SortedStore K V),
    (m.putAll l).get x = (lookup x l.reverse).or (m.get x)
  | [], m => by simp
  | (k, v) :: l, m => by
    rw [putAll_cons, get_putAll l, List.reverse_cons, lookup_append, Option.or_assoc]
    congr 1
    simp only [get_put, lookup]
    split_ifs <;> simp

theorem mem_keys_putAll : ∀ (l : List (K × V)) (m : SortedStore K V),
    x ∈ (m.putAll l).keys ↔ x ∈ l.map Prod.fst ∨ x ∈ m.keys
  | [], m => by simp
  | e :: l, m => by
    rw [putAll_cons, mem_keys_putAll l, mem_keys_put, List.map_cons, List.mem_cons]
    exact or_left_comm.trans or_assoc.symm

/-- Puts of distinct keys into the empty store give back every entry. -/
theorem get_putAll_of_mem {l : List (K × V)} (hl : (l.map Prod.fst).Nodup) (h : (x, v) ∈ l) :
    (m.putAll l).get x = some v := by
  have hr : lookup x l.reverse = some v :=
    lookup_of_mem (by rw [List.map_reverse]; exact List.nodup_reverse.mpr hl)
      (List.mem_reverse.mpr h)
  rw [get_putAll, hr]
  rfl

end SortedStore
end PixsBliss.Lib.Store
