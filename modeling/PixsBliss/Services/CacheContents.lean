import PixsBliss.Services.Cache

/-! # What a box can hold

A write only puts the text of a record under the key of the record. So, however the operations of
several writes follow each other, a box holds texts of records that were written (`holds_apply`),
and what is read are such records, as the decoder gives them back (`readCopy_returns`). Whether
there are any can be seen from the number of keys, but for one box (`hasCopy_iff`). -/

namespace PixsBliss.Services.CacheContents

open PixsBliss.Lib.Store PixsBliss.Lib.Utf16 PixsBliss.Models PixsBliss.Models.Json
open PixsBliss.Services.Cache

section Contents

variable {α : Type} {kind : CopyKind α} {c : Codec} {S : α → Prop} {b : Box} {op : BoxOp}
  {l : List α}

/-- **A box of records with `S`**, each under its key. -/
def Holds (kind : CopyKind α) (c : Codec) (S : α → Prop) (b : Box) : Prop :=
  ∀ key ∈ recordKeys kind b.keys,
    ∃ a, S a ∧ kind.key a = key.str ∧ b.get key = some (kind.encode c a)

/-- An operation of a write of such records. -/
inductive Writes (kind : CopyKind α) (c : Codec) (S : α → Prop) : BoxOp → Prop
  | clear : Writes kind c S .clear
  | put {a : α} (h : S a) : Writes kind c S (.put ⟨kind.key a⟩ (kind.encode c a))
  | putNow (h : kind.stamped = true) : Writes kind c S (.putNow lastUpdateKey)

theorem holds_empty : Holds kind c S .empty := by
  intro key hkey
  cases (mem_recordKeys.mp hkey).1

theorem writes_writeOps (hl : ∀ a ∈ l, S a) : ∀ op ∈ writeOps kind c l, Writes kind c S op := by
  intro op hop
  rcases List.mem_cons.mp hop with rfl | hop
  · exact .clear
  rcases List.mem_append.mp hop with hop | hop
  · obtain ⟨e, he, rfl⟩ := List.mem_map.mp hop
    obtain ⟨a, ha, rfl⟩ := List.mem_map.mp he
    exact .put (hl a ha)
  · split_ifs at hop with hs
    · exact List.mem_singleton.mp hop ▸ .putNow hs
    · cases hop

/-- **One operation**, whichever write it is of. -/
theorem holds_apply (now : DateTime) (hop : Writes kind c S op) (h : Holds kind c S b) :
    Holds kind c S (op.apply c now b) := by
  cases hop with
  | clear => exact holds_empty
  | @put a ha =>
    intro key hkey
    obtain ⟨hmem, hnot⟩ := mem_recordKeys.mp hkey
    by_cases hk : key = ⟨kind.key a⟩
    · subst hk
      exact ⟨a, ha, rfl, SortedStore.get_put_self⟩
    · have hold : key ∈ b.keys := (SortedStore.mem_keys_put.mp hmem).resolve_left hk
      obtain ⟨a', ha', hkey', hget⟩ := h key (mem_recordKeys.mpr ⟨hold, hnot⟩)
      exact ⟨a', ha', hkey', (SortedStore.get_put_of_ne hk).trans hget⟩
  | putNow hs =>
    intro key hkey
    obtain ⟨hmem, hnot⟩ := mem_recordKeys.mp hkey
    have hk : key ≠ lastUpdateKey := fun he => hnot ⟨hs, he⟩
    have hold : key ∈ b.keys := (SortedStore.mem_keys_put.mp hmem).resolve_left hk
    obtain ⟨a', ha', hkey', hget⟩ := h key (mem_recordKeys.mpr ⟨hold, hnot⟩)
    exact ⟨a', ha', hkey', (SortedStore.get_put_of_ne hk).trans hget⟩

/-- A record with `S` is read back as one with `T`, under the same key. -/
def Returns (kind : CopyKind α) (c : Codec) (S T : α → Prop) : Prop :=
  ∀ a, S a → ∃ a', kind.decode c (kind.encode c a) = .ok a' ∧ kind.key a' = kind.key a ∧ T a'

theorem readCopy_returns {T : α → Prop} (hret : Returns kind c S T) {box : Option Box}
    (h : ∀ b, box = some b → Holds kind c S b) : ∀ a ∈ readCopy kind c box, T a := by
  cases box with
  | none => nofun
  | some b =>
    refine (readCopy_ok fun key hkey => ?_).2
    obtain ⟨a, ha, hak, hget⟩ := h b rfl key hkey
    obtain ⟨a', hdec, hkey', hT⟩ := hret a ha
    exact ⟨_, a', hget, hdec, hkey'.trans hak, hT⟩

/-- There is something to read iff there is a record. -/
theorem readCopy_eq_nil_iff {T : α → Prop} (hret : Returns kind c S T) (h : Holds kind c S b) :
    readCopy kind c (some b) = [] ↔ recordKeys kind b.keys = [] := by
  have hkeys : (readCopy kind c (some b)).map kind.key = (recordKeys kind b.keys).map Key.str := by
    refine (readCopy_ok (P := T) fun key hkey => ?_).1
    obtain ⟨a, ha, hak, hget⟩ := h key hkey
    obtain ⟨a', hdec, hkey', hT⟩ := hret a ha
    exact ⟨_, a', hget, hdec, hkey'.trans hak, hT⟩
  rw [← List.map_eq_nil_iff (f := kind.key), hkeys, List.map_eq_nil_iff]

theorem length_recordKeys (hs : kind.stamped = true) : b.keys.length =
    (recordKeys kind b.keys).length + if lastUpdateKey ∈ b.keys then 1 else 0 := by
  have hfilter : recordKeys kind b.keys = b.keys.filter (· ≠ lastUpdateKey) :=
    List.filter_congr fun key _ => by simp [hs]
  have hcount : b.keys.count lastUpdateKey = if lastUpdateKey ∈ b.keys then 1 else 0 := by
    split_ifs with hmem
    · exact List.count_eq_one_of_mem b.nodup_keys hmem
    · exact List.count_eq_zero_of_not_mem hmem
  have hparts := List.length_eq_length_filter_add (l := b.keys) (· ≠ lastUpdateKey)
  rw [← hcount, hfilter, hparts, List.count_eq_length_filter]
  simp [Bool.beq_eq_decide_eq]

/-- **A box has more than its stamp** iff there is something to read, but for a box with a single
record and no stamp. -/
theorem hasCopy_iff {T : α → Prop} (hret : Returns kind c S T) (hs : kind.stamped = true)
    (h : Holds kind c S b) :
    (hasCopy (some b) = true ↔ readCopy kind c (some b) ≠ []) ↔
      lastUpdateKey ∈ b.keys ∨ b.keys.length ≠ 1 := by
  have hlen := length_recordKeys (b := b) hs
  have hhas : hasCopy (some b) = true ↔ 1 < b.keys.length := by
    simp [hasCopy, SortedStore.keys]
  rw [hhas, Ne, readCopy_eq_nil_iff hret h, ← List.length_eq_zero_iff]
  split_ifs at hlen with hmem
  · exact iff_of_true (by omega) (Or.inl hmem)
  · rw [or_iff_right hmem]
    omega

end Contents

end PixsBliss.Services.CacheContents
