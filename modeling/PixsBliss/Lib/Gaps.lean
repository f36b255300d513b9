import Mathlib.Data.List.Basic
import Mathlib.Tactic

/-! # Lists with gaps

`gapped k i l` is a list whose elements have the positions `i, i + 1, …`, with a gap after every
element at the end of a block of `k`, but not after the last one.

* `filterMap_gapped`: without its gaps it is the list.
* `length_gapped`: how many gaps there are.
* `isChain_gapped`, `head_gapped`, `getLast_gapped`: every gap is between two elements. -/

namespace PixsBliss.Lib.Gaps

variable {α : Type} {k i : ℕ} {a b : α} {l : List α}

/-- The elements, and `none` for a gap. -/
def gapped (k i : ℕ) : List α → List (Option α)
  | [] => []
  | [a] => [some a]
  | a :: b :: l =>
    if (i + 1) % k = 0 then some a :: none :: gapped k (i + 1) (b :: l)
    else some a :: gapped k (i + 1) (b :: l)

theorem gapped_cons_cons_gap (h : (i + 1) % k = 0) :
    gapped k i (a :: b :: l) = some a :: none :: gapped k (i + 1) (b :: l) := by
  rw [gapped, if_pos h]

theorem gapped_cons_cons (h : ¬(i + 1) % k = 0) :
    gapped k i (a :: b :: l) = some a :: gapped k (i + 1) (b :: l) := by
  rw [gapped, if_neg h]

theorem filterMap_gapped : (gapped k i l).filterMap id = l := by
  induction l generalizing i with
  | nil => rfl
  | cons a l ih =>
    cases l with
    | nil => rfl
    | cons b l =>
      by_cases h : (i + 1) % k = 0
      · rw [gapped_cons_cons_gap h]
        exact congrArg (a :: ·) ih
      · rw [gapped_cons_cons h]
        exact congrArg (a :: ·) ih

/-- The gaps are the multiples of `k` between the positions. -/
theorem length_gapped :
    (gapped k i (a :: l)).length + i / k = l.length + 1 + (i + l.length) / k := by
  induction l generalizing i a with
  | nil =>
    simp only [gapped, List.length_cons, List.length_nil, Nat.add_zero]
  | cons b l ih =>
    have hrest := ih (i := i + 1) (a := b)
    have hpos : i + 1 + l.length = i + (b :: l).length := by
      rw [List.length_cons]
      omega
    have hdiv := Nat.succ_div (a := i) (b := k)
    rw [hpos] at hrest
    by_cases h : (i + 1) % k = 0
    · rw [if_pos (Nat.dvd_of_mod_eq_zero h)] at hdiv
      rw [gapped_cons_cons_gap h, List.length_cons, List.length_cons, List.length_cons]
      rw [List.length_cons] at hrest
      omega
    · rw [if_neg fun hdvd => h (Nat.mod_eq_zero_of_dvd hdvd)] at hdiv
      rw [gapped_cons_cons h, List.length_cons, List.length_cons]
      rw [List.length_cons] at hrest
      omega

theorem head_gapped : (gapped k i (a :: l)).head? = some (some a) := by
  cases l with
  | nil => rfl
  | cons b l =>
    by_cases h : (i + 1) % k = 0
    · rw [gapped_cons_cons_gap h, List.head?_cons]
    · rw [gapped_cons_cons h, List.head?_cons]

theorem getLast_gapped : (gapped k i l).getLast? = l.getLast?.map some := by
  induction l generalizing i with
  | nil => rfl
  | cons a l ih =>
    cases l with
    | nil => rfl
    | cons b l =>
      have hne : gapped k (i + 1) (b :: l) ≠ [] := by
        intro h
        have hhead := head_gapped (k := k) (i := i + 1) (a := b) (l := l)
        rw [h] at hhead
        cases hhead
      by_cases h : (i + 1) % k = 0
      · rw [gapped_cons_cons_gap h, List.getLast?_cons_of_ne_nil (List.cons_ne_nil _ _),
          List.getLast?_cons_of_ne_nil hne, ih, List.getLast?_cons_cons]
      · rw [gapped_cons_cons h, List.getLast?_cons_of_ne_nil hne, ih, List.getLast?_cons_cons]

/-- **Gaps are apart.** -/
theorem isChain_gapped :
    (gapped k i l).IsChain fun x y => ¬(x.isNone = true ∧ y.isNone = true) := by
  induction l generalizing i with
  | nil => exact List.isChain_nil
  | cons a l ih =>
    cases l with
    | nil => exact List.isChain_singleton _
    | cons b l =>
      have hhead := head_gapped (k := k) (i := i + 1) (a := b) (l := l)
      by_cases h : (i + 1) % k = 0
      · rw [gapped_cons_cons_gap h]
        refine List.isChain_cons_cons.mpr ⟨by simp, List.isChain_cons.mpr ⟨?_, ih⟩⟩
        intro y hy
        obtain rfl := Option.some.inj (hhead.symm.trans hy)
        simp
      · rw [gapped_cons_cons h]
        refine List.isChain_cons.mpr ⟨fun y _ => by simp, ih⟩

end PixsBliss.Lib.Gaps
