import Mathlib.Data.List.Basic
import Mathlib.Tactic

/-! # Lists of entries

A list of key-value pairs read as a map: `lookup` gives the value of the first entry with a key. On
lists whose keys are distinct the entries are the graph of `lookup` (`lookup_of_mem`,
`mem_of_lookup`). -/

namespace PixsBliss.Lib.Entries

variable {K V : Type} [DecidableEq K]

/-- The value of the first entry with a key. -/
def lookup (k : K) : List (K × V) → Option V
  | [] => none
  | (k', v') :: es => if k = k' then some v' else lookup k es

@[simp] theorem lookup_nil (k : K) : lookup k ([] : List (K × V)) = none := rfl

theorem lookup_append {x : K} : ∀ (l l' : List (K × V)),
    lookup x (l ++ l') = (lookup x l).or (lookup x l')
  | [], l' => by simp [lookup]
  | (k', v') :: l, l' => by
    rw [List.cons_append, lookup, lookup, lookup_append l l']
    split_ifs <;> simp

theorem mem_of_lookup {x : K} {v : V} : ∀ {l : List (K × V)}, lookup x l = some v → (x, v) ∈ l
  | [], h => by simp [lookup] at h
  | (k', v') :: l, h => by
    unfold lookup at h
    split_ifs at h with hx
    · cases h; subst hx; simp
    · exact List.mem_cons_of_mem _ (mem_of_lookup h)

theorem lookup_of_mem {x : K} {v : V} : ∀ {l : List (K × V)}, (l.map Prod.fst).Nodup →
    (x, v) ∈ l → lookup x l = some v
  | [], _, h => by simp at h
  | (k', v') :: l, hl, h => by
    obtain ⟨h1, h2⟩ := List.nodup_cons.mp hl
    unfold lookup
    rcases List.mem_cons.mp h with he | ht
    · cases he; simp
    · have hx : x ≠ k' := fun he => h1 (List.mem_map.mpr ⟨_, ht, he⟩)
      rw [if_neg hx]
      exact lookup_of_mem h2 ht

theorem lookup_eq_none {x : K} : ∀ {l : List (K × V)}, lookup x l = none ↔ x ∉ l.map Prod.fst
  | [] => by simp [lookup]
  | (k', v') :: l => by
    rw [lookup, List.map_cons, List.mem_cons, not_or]
    split_ifs with h
    · simp [h]
    · rw [lookup_eq_none]
      exact ⟨fun h' => ⟨h, h'⟩, fun h' => h'.2⟩

/-! ### Lists with distinct keys -/

/-- A list with the keys of another and members of it only is a rearrangement of it. -/
theorem perm_of_map_perm {α β : Type} {f : α → β} {l l' : List α} (hd : (l'.map f).Nodup)
    (hp : (l.map f).Perm (l'.map f)) (hs : ∀ a ∈ l, a ∈ l') : l.Perm l' := by
  have hn : l.Nodup := (hp.nodup_iff.mpr hd).of_map _
  have hlen : l'.length ≤ l.length := by
    rw [← List.length_map f, ← hp.length_eq, List.length_map]
  exact (List.subperm_of_subset hn hs).perm_of_length_le hlen

end PixsBliss.Lib.Entries
