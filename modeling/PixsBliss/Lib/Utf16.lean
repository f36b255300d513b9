import Mathlib.Data.List.Lex
import Mathlib.Tactic

/-! # Strings compared by their UTF-16 code units

`codeUnits s` is the UTF-16 encoding of `s`: one unit below `0x10000`, a surrogate pair from there
on. The encoding is injective (`codeUnits_injective`), so the lexicographic order of the code units
is a linear order; `Key` is the type of strings with this order. It differs from the order by code
points where a surrogate pair meets a unit from `0xE000` on. -/

namespace PixsBliss.Lib.Utf16

/-- The code units of one character. -/
def charUnits (c : Char) : List ℕ :=
  if c.toNat < 0x10000 then [c.toNat]
  else [0xD800 + (c.toNat - 0x10000) / 0x400, 0xDC00 + (c.toNat - 0x10000) % 0x400]

/-- The code units of a string. -/
def codeUnits (s : String) : List ℕ := s.toList.flatMap charUnits

/-- A character is not a surrogate. -/
theorem toNat_valid (c : Char) : c.toNat < 0xD800 ∨ (0xDFFF < c.toNat ∧ c.toNat < 0x110000) := by
  have h := c.valid
  simp only [UInt32.isValidChar, Nat.isValidChar] at h
  exact h

/-- The first character is determined by the code units that begin with it. -/
theorem charUnits_append_inj {c d : Char} {l l' : List ℕ}
    (h : charUnits c ++ l = charUnits d ++ l') : c = d ∧ l = l' := by
  have hc := toNat_valid c
  have hd := toNat_valid d
  unfold charUnits at h
  split_ifs at h with h1 h2 h2
  · simp only [List.cons_append, List.nil_append, List.cons.injEq] at h
    exact ⟨Char.toNat_inj.mp h.1, h.2⟩
  · simp only [List.cons_append, List.nil_append, List.cons.injEq] at h
    omega
  · simp only [List.cons_append, List.nil_append, List.cons.injEq] at h
    omega
  · simp only [List.cons_append, List.nil_append, List.cons.injEq] at h
    exact ⟨Char.toNat_inj.mp (by omega), h.2.2⟩

theorem charUnits_ne_nil (c : Char) : charUnits c ≠ [] := by
  unfold charUnits; split_ifs <;> simp

theorem flatMap_charUnits_inj : ∀ {l l' : List Char},
    l.flatMap charUnits = l'.flatMap charUnits → l = l'
  | [], [], _ => rfl
  | [], d :: l', h => by simp [charUnits_ne_nil] at h
  | c :: l, [], h => by simp [charUnits_ne_nil] at h
  | c :: l, d :: l', h => by
    rw [List.flatMap_cons, List.flatMap_cons] at h
    obtain ⟨rfl, ht⟩ := charUnits_append_inj h
    rw [flatMap_charUnits_inj ht]

theorem codeUnits_injective : Function.Injective codeUnits := fun _ _ h =>
  String.toList_injective (flatMap_charUnits_inj h)

/-- **A string, ordered by its code units.** -/
structure Key where
  str : String
deriving DecidableEq

theorem Key.units_injective : Function.Injective fun k : Key => codeUnits k.str := by
  rintro ⟨s⟩ ⟨t⟩ h
  exact congrArg Key.mk (codeUnits_injective h)

instance : LinearOrder Key := LinearOrder.lift' (fun k : Key => codeUnits k.str) Key.units_injective

example : (⟨"10"⟩ : Key) < ⟨"9"⟩ := by decide

end PixsBliss.Lib.Utf16
