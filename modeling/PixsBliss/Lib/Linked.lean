import PixsBliss.Lib.Entries

/-! # Maps that enumerate their keys in the order of insertion

The default map of Dart: `set` overwrites in place or appends, `remove` deletes, and no key occurs
twice, which the type says. -/

namespace PixsBliss.Lib.Linked

open PixsBliss.Lib.Entries

variable {K V : Type} [DecidableEq K]

/-- Overwrite in place, or append. -/
def setEntry (k : K) (v : V) : List (K × V) → List (K × V)
  | [] => [(k, v)]
  | (k', v') :: es => if k = k' then (k, v) :: es else (k', v') :: setEntry k v es

theorem mem_map_setEntry {k x : K} {v : V} : ∀ {es : List (K × V)},
    x ∈ (setEntry k v es).map Prod.fst ↔ x = k ∨ x ∈ es.map Prod.fst
  | [] => by simp [setEntry]
  | (k', v') :: es => by
    unfold setEntry
    split_ifs with h
    · subst h; simp
    · rw [List.map_cons, List.mem_cons, mem_map_setEntry, List.map_cons, List.mem_cons]
      exact or_left_comm

theorem nodup_setEntry {k : K} {v : V} : ∀ {es : List (K × V)},
    (es.map Prod.fst).Nodup → ((setEntry k v es).map Prod.fst).Nodup
  | [], _ => by simp [setEntry]
  | (k', v') :: es, h => by
    obtain ⟨h1, h2⟩ := List.nodup_cons.mp h
    unfold setEntry
    split_ifs with hk
    · subst hk; exact h
    · refine List.nodup_cons.mpr ⟨fun hm => ?_, nodup_setEntry h2⟩
      rcases mem_map_setEntry.mp hm with he | hm
      · exact hk he.symm
      · exact h1 hm

theorem mem_setEntry {k : K} {v : V} {e : K × V} : ∀ {es : List (K × V)},
    e ∈ setEntry k v es → e = (k, v) ∨ e ∈ es
  | [], h => Or.inl (List.mem_singleton.mp h)
  | (k', v') :: es, h => by
    unfold setEntry at h
    split_ifs at h
    · exact (List.mem_cons.mp h).imp_right (List.mem_cons_of_mem _)
    · rcases List.mem_cons.mp h with rfl | h
      · exact Or.inr List.mem_cons_self
      · exact (mem_setEntry h).imp_right (List.mem_cons_of_mem _)

theorem lookup_setEntry {k x : K} {v : V} : ∀ (es : List (K × V)),
    lookup x (setEntry k v es) = if x = k then some v else lookup x es
  | [] => by simp [setEntry, lookup]
  | (k', v') :: es => by
    unfold setEntry
    split_ifs with h1 h2 h2
    all_goals simp only [lookup, lookup_setEntry es]
    all_goals split_ifs <;> simp_all

/-- A new key comes last. -/
theorem setEntry_of_notMem {k : K} {v : V} : ∀ {es : List (K × V)}, k ∉ es.map Prod.fst →
    setEntry k v es = es ++ [(k, v)]
  | [], _ => rfl
  | (k', v') :: es, h => by
    rw [List.map_cons, List.mem_cons, not_or] at h
    rw [setEntry, if_neg h.1, setEntry_of_notMem h.2]
    rfl

/-- Overwriting changes a sum over the values by the new value less the old one. -/
theorem sum_setEntry {f : V → ℤ} {k : K} {v v₀ : V} : ∀ {es : List (K × V)},
    lookup k es = some v₀ →
      ((setEntry k v es).map fun e => f e.2).sum + f v₀ = (es.map fun e => f e.2).sum + f v
  | [], h => by simp at h
  | (k', v') :: es, h => by
    unfold lookup at h
    unfold setEntry
    split_ifs at h with hk
    · cases h
      simp only [if_pos hk, List.map_cons, List.sum_cons]
      omega
    · have ih := sum_setEntry (f := f) (v := v) h
      simp only [if_neg hk, List.map_cons, List.sum_cons]
      omega

theorem lookup_filter_ne {k x : K} : ∀ (es : List (K × V)),
    lookup x (es.filter fun e => e.1 ≠ k) = if x = k then none else lookup x es
  | [] => by simp
  | (k', v') :: es => by
    by_cases hk : k' = k
    · subst hk
      rw [List.filter_cons_of_neg (by simp), lookup_filter_ne es, lookup]
      split_ifs <;> rfl
    · rw [List.filter_cons_of_pos (by simpa using hk), lookup, lookup_filter_ne es, lookup]
      split_ifs with h1 h2
      · exact absurd (h1.symm.trans h2) hk
      all_goals rfl

/-- A map. -/
structure LinkedMap (K V : Type) where
  entries : List (K × V)
  nodup : (entries.map Prod.fst).Nodup

namespace LinkedMap

def empty : LinkedMap K V := ⟨[], by simp⟩

def get (m : LinkedMap K V) (k : K) : Option V := lookup k m.entries

def set (m : LinkedMap K V) (k : K) (v : V) : LinkedMap K V :=
  ⟨setEntry k v m.entries, nodup_setEntry m.nodup⟩

def remove (m : LinkedMap K V) (k : K) : LinkedMap K V :=
  ⟨m.entries.filter fun e => e.1 ≠ k, m.nodup.sublist (List.filter_sublist.map _)⟩

variable {m : LinkedMap K V} {k x : K} {v : V}

theorem get_set : (m.set k v).get x = if x = k then some v else m.get x :=
  lookup_setEntry m.entries

@[simp] theorem get_set_self : (m.set k v).get k = some v := by rw [get_set, if_pos rfl]

theorem get_set_of_ne (h : x ≠ k) : (m.set k v).get x = m.get x := by rw [get_set, if_neg h]

theorem mem_entries_iff : (x, v) ∈ m.entries ↔ m.get x = some v :=
  ⟨lookup_of_mem m.nodup, mem_of_lookup⟩

theorem sum_set {f : V → ℤ} {v₀ : V} (h : m.get k = some v₀) :
    ((m.set k v).entries.map fun e => f e.2).sum + f v₀ =
      (m.entries.map fun e => f e.2).sum + f v :=
  sum_setEntry h

theorem get_remove : (m.remove k).get x = if x = k then none else m.get x :=
  lookup_filter_ne m.entries

@[simp] theorem get_remove_self : (m.remove k).get k = none := by rw [get_remove, if_pos rfl]

theorem get_remove_of_ne (h : x ≠ k) : (m.remove k).get x = m.get x := by
  rw [get_remove, if_neg h]

end LinkedMap
end PixsBliss.Lib.Linked
