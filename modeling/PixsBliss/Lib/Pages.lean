import Mathlib.Data.List.Basic
import Mathlib.Tactic

/-! # The pages of a paged list

`pages api n` is the concatenation of the pages `1, …, n` of a list that is delivered in pages. It
depends on these pages only (`pages_congr`), and the next page extends it (`pages_succ`,
`pages_pred_append`). The pages of a list that stays the same (`chunk`) give its beginning
(`pages_chunk`), and all of it after a page that is not full (`take_of_not_full`). -/

namespace PixsBliss.Lib.Pages

variable {α : Type} {api api' : ℕ → List α}

/-- The pages `1, …, n`, in order. -/
def pages (api : ℕ → List α) (n : ℕ) : List α := (List.range n).flatMap fun i => api (i + 1)

@[simp] theorem pages_zero : pages api 0 = [] := rfl

theorem pages_succ (n : ℕ) : pages api (n + 1) = pages api n ++ api (n + 1) := by
  simp [pages, List.range_succ, List.flatMap_append]

@[simp] theorem pages_one : pages api 1 = api 1 := by
  rw [show 1 = 0 + 1 from rfl, pages_succ, pages_zero, List.nil_append]

theorem mem_pages {n : ℕ} {a : α} : a ∈ pages api n ↔ ∃ i, 1 ≤ i ∧ i ≤ n ∧ a ∈ api i := by
  simp only [pages, List.mem_flatMap, List.mem_range]
  constructor
  · rintro ⟨i, hi, ha⟩
    exact ⟨i + 1, by omega, by omega, ha⟩
  · rintro ⟨i, h1, hn, ha⟩
    refine ⟨i - 1, by omega, ?_⟩
    rwa [Nat.sub_add_cancel h1]

/-- The pages before `page`, and this page. -/
theorem pages_pred_append {page : ℕ} (h : 1 ≤ page) :
    pages api (page - 1) ++ api page = pages api page := by
  obtain ⟨n, rfl⟩ := Nat.exists_eq_add_of_le' h
  rw [Nat.add_sub_cancel, pages_succ]

theorem pages_congr {n : ℕ} (h : ∀ i, 1 ≤ i → i ≤ n → api i = api' i) :
    pages api n = pages api' n := by
  induction n with
  | zero => rfl
  | succ n ih =>
    have hlast : api (n + 1) = api' (n + 1) := h (n + 1) (by omega) le_rfl
    rw [pages_succ, pages_succ, hlast, ih fun i h1 h2 => h i h1 (by omega)]

theorem pages_map {β : Type} (f : α → β) (n : ℕ) :
    pages (fun i => (api i).map f) n = (pages api n).map f := by
  simp only [pages, List.map_flatMap]

/-! ### A list that stays the same -/

/-- The page `p`, from 1, of a list in pages of `k`. -/
def chunk (k : ℕ) (l : List α) (p : ℕ) : List α := (l.drop (k * (p - 1))).take k

section Chunks

variable {k p n : ℕ} {l : List α} {a : α}

/-- The pages up to one are the beginning of the list. -/
theorem pages_chunk (k : ℕ) (l : List α) (n : ℕ) : pages (chunk k l) n = l.take (k * n) := by
  induction n with
  | zero => rw [Nat.mul_zero, List.take_zero, pages_zero]
  | succ n ih =>
    have hlast : chunk k l (n + 1) = (l.drop (k * n)).take k := by rw [chunk, Nat.add_sub_cancel]
    rw [pages_succ, ih, hlast, Nat.mul_succ, List.take_add]

/-- A page is full iff the list goes that far. -/
theorem full_chunk_iff (hp : 1 ≤ p) (hk : 0 < k) :
    k ≤ (chunk k l p).length ↔ k * p ≤ l.length := by
  obtain ⟨n, rfl⟩ := Nat.exists_eq_add_of_le' hp
  rw [chunk, List.length_take, List.length_drop, Nat.add_sub_cancel, Nat.mul_succ]
  omega

/-- A page that is not full is the last one. -/
theorem take_of_not_full (h : ¬k * n ≤ l.length) : l.take (k * n) = l :=
  List.take_of_length_le (by omega)

/-- The items of a page are those at its places. -/
theorem mem_chunk (hp : 1 ≤ p) (hk : 0 < k) :
    a ∈ chunk k l p ↔ ∃ j, j / k + 1 = p ∧ l[j]? = some a := by
  obtain ⟨n, rfl⟩ := Nat.exists_eq_add_of_le' hp
  rw [chunk, Nat.add_sub_cancel, List.mem_iff_getElem?]
  constructor
  · rintro ⟨i, hi⟩
    rw [List.getElem?_take] at hi
    split_ifs at hi with hlt
    rw [List.getElem?_drop] at hi
    refine ⟨k * n + i, ?_, hi⟩
    rw [Nat.mul_add_div hk, Nat.div_eq_of_lt hlt, Nat.add_zero]
  · rintro ⟨j, hj, ha⟩
    obtain rfl : j / k = n := Nat.succ.inj hj
    refine ⟨j % k, ?_⟩
    rw [List.getElem?_take, if_pos (Nat.mod_lt j hk), List.getElem?_drop, Nat.div_add_mod, ha]

end Chunks

end PixsBliss.Lib.Pages
