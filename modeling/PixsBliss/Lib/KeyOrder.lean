import Mathlib.Order.RelClasses
import Mathlib.Logic.Relation
import Mathlib.Tactic

/-! # Orders by a key

A relation that says that the key of one element is below the key of another, in a linear order of
the keys, is a strict weak order: elements are only incomparable if they have the same key, and no
chain comes back to where it began. -/

namespace PixsBliss.Lib.KeyOrder

variable {α β : Type} [LinearOrder β] {key : α → β} {r : α → α → Prop}

/-- `r` compares keys. -/
def Compares (key : α → β) (r : α → α → Prop) : Prop := ∀ a b, r a b ↔ key a < key b

namespace Compares

variable (h : Compares key r)

include h

theorem irrefl (a : α) : ¬r a a := by
  rw [h a a]
  exact lt_irrefl _

theorem asymm {a b : α} (hab : r a b) : ¬r b a := by
  rw [h b a]
  exact lt_asymm ((h a b).mp hab)

theorem trans {a b c : α} (hab : r a b) (hbc : r b c) : r a c :=
  (h a c).mpr (((h a b).mp hab).trans ((h b c).mp hbc))

theorem incomparable_iff {a b : α} : (¬r a b ∧ ¬r b a) ↔ key a = key b := by
  rw [h a b, h b a, not_lt, not_lt, and_comm]
  exact le_antisymm_iff.symm

theorem isStrictWeakOrder : IsStrictWeakOrder α r where
  irrefl := h.irrefl
  trans _ _ _ := h.trans
  incomp_trans a b c hab hbc := by
    rw [h.incomparable_iff] at hab hbc ⊢
    exact hab.trans hbc

theorem equivalence : Equivalence fun a b => ¬r a b ∧ ¬r b a where
  refl a := ⟨h.irrefl a, h.irrefl a⟩
  symm hab := hab.symm
  trans hab hbc := by
    rw [h.incomparable_iff] at hab hbc ⊢
    exact hab.trans hbc

/-- **No chain comes back.** -/
theorem acyclic (a : α) : ¬Relation.TransGen r a a := by
  have : IsTrans α r := ⟨fun _ _ _ => h.trans⟩
  rw [Relation.transGen_eq_self]
  exact h.irrefl a

end Compares
end PixsBliss.Lib.KeyOrder
