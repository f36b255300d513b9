import PixsBliss.Lib.Async
import PixsBliss.Services.Cache

/-! # Overlapping writes of one copy

Several calls of `cacheWallpapers` (or of `cachePexelsWallpapers`, `cachePexelsTrendingWallpapers`)
on the same box interleave at their awaits: each is a clear, a put a wallpaper and a stamp, and
between two of them the operations of the other calls land. A failing operation ends its call, which
swallows the error.

The log of landed operations determines the box. A completed call has landed all its operations
or failed (`Inv`), so if after the last clear only its own writer put wallpapers, the copy is the
list of that writer (`overlapping_writes_of_lastClear`); `overlapping_writes_mixed` is a run that
leaves the wallpapers of two lists under a fresh stamp. -/

namespace PixsBliss.Services.CacheWriters

open PixsBliss.Lib.Async PixsBliss.Lib.Entries PixsBliss.Lib.Store PixsBliss.Lib.Utf16
open PixsBliss.Models PixsBliss.Models.Json PixsBliss.Services.Cache

/-! ### The program -/

/-- An operation that landed: the number of its call, and the time. -/
structure Landed where
  writer : ℕ
  op : BoxOp
  now : DateTime
deriving DecidableEq

/-- The cache; the calls so far, the operations that landed and the calls that failed are ghosts. -/
structure State where
  cache : CacheService
  calls : List (List Wallpaper)
  landed : List Landed
  failed : List ℕ

/-- A call that awaits the first of its remaining operations. -/
structure Task where
  writer : ℕ
  rest : List BoxOp
deriving DecidableEq

inductive Outcome
  | done (now : DateTime)
  | failed
deriving DecidableEq

/-- The call goes on with its remaining operations, if there are any. -/
def suspend (i : ℕ) : List BoxOp → List Task
  | [] => []
  | rest => [⟨i, rest⟩]

/-- The first remaining operation lands. -/
def land (copy : WallpaperCopy) (c : Codec) (i : ℕ) (op : BoxOp) (now : DateTime) (s : State) :
    State :=
  { s with
    cache := copy.withBox ((copy.box s.cache).map (op.apply c now)) s.cache
    landed := s.landed ++ [⟨i, op, now⟩] }

/-- **Calls of the write of one copy**, with the list they cache. -/
def program (copy : WallpaperCopy) (c : Codec) : Program State Task (List Wallpaper) Outcome where
  call ws s :=
    ({ s with calls := s.calls ++ [ws] },
      match copy.box s.cache with
      | none => []
      | some _ => suspend s.calls.length (writeOps wallpaperKind c ws))
  resume
    | ⟨i, op :: rest⟩, .done now, s => some (land copy c i op now s, suspend i rest)
    | ⟨i, _ :: _⟩, .failed, s => some ({ s with failed := s.failed ++ [i] }, [])
    | ⟨_, []⟩, _, _ => none

/-- No call yet. -/
def start (cache : CacheService) : World State Task := ⟨⟨cache, [], [], []⟩, []⟩

/-! ### The log -/

/-- The operations that landed, on a box. -/
def landedBox (c : Codec) (b : Box) (log : List Landed) : Box :=
  log.foldl (fun b e => e.op.apply c e.now b) b

/-- The operations of one call that landed. -/
def landedBy (i : ℕ) (log : List Landed) : List BoxOp :=
  (log.filter fun e => e.writer = i).map Landed.op

section Log

variable {c : Codec} {b b' : Box} {log : List Landed} {e : Landed} {i : ℕ}

theorem landedBox_append (log log' : List Landed) :
    landedBox c b (log ++ log') = landedBox c (landedBox c b log) log' := List.foldl_append

theorem landedBy_append (log log' : List Landed) :
    landedBy i (log ++ log') = landedBy i log ++ landedBy i log' := by
  simp [landedBy]

theorem landedBy_cons_self (h : e.writer = i) : landedBy i (e :: log) = e.op :: landedBy i log := by
  simp [landedBy, h]

theorem landedBy_cons_ne (h : e.writer ≠ i) : landedBy i (e :: log) = landedBy i log := by
  simp [landedBy, h]

theorem landedBy_eq_nil (h : ∀ e ∈ log, e.writer ≠ i) : landedBy i log = [] := by
  unfold landedBy
  rw [List.map_eq_nil_iff, List.filter_eq_nil_iff]
  intro e he
  simpa using h e he

theorem mem_landedBy {op : BoxOp} :
    op ∈ landedBy i log ↔ ∃ e ∈ log, e.writer = i ∧ e.op = op := by
  simp [landedBy, and_assoc]

end Log

/-! ### The invariant -/

/-- The log is the history of the box; a task holds what its call has not landed yet; a call without
a task has landed everything or failed. -/
structure Inv (copy : WallpaperCopy) (c : Codec) (b₀ : Box) (w : World State Task) : Prop where
  box : copy.box w.shared.cache = some (landedBox c b₀ w.shared.landed)
  known : ∀ e ∈ w.shared.landed, e.writer < w.shared.calls.length
  distinct : (w.tasks.map Task.writer).Nodup
  pending : ∀ t ∈ w.tasks, ∃ ws, w.shared.calls[t.writer]? = some ws ∧
    landedBy t.writer w.shared.landed ++ t.rest = writeOps wallpaperKind c ws
  ended : ∀ i ws, w.shared.calls[i]? = some ws → i ∉ w.tasks.map Task.writer →
    landedBy i w.shared.landed <+: writeOps wallpaperKind c ws ∧
      (landedBy i w.shared.landed = writeOps wallpaperKind c ws ∨ i ∈ w.shared.failed)

section Invariant

variable {copy : WallpaperCopy} {c : Codec} {b₀ : Box} {w w' : World State Task}

theorem inv_start {cache : CacheService} (h : copy.box cache = some b₀) :
    Inv copy c b₀ (start cache) :=
  ⟨h, by simp [start], by simp [start], by simp [start], by simp [start]⟩

theorem suspend_writeOps (i : ℕ) (ws : List Wallpaper) :
    suspend i (writeOps wallpaperKind c ws) = [⟨i, writeOps wallpaperKind c ws⟩] := rfl

theorem writers_suspend_sublist (i : ℕ) (rest : List BoxOp) :
    List.Sublist ((suspend i rest).map Task.writer) [i] := by
  cases rest with
  | nil => exact List.nil_sublist _
  | cons op rest => exact List.Sublist.refl _

theorem mem_suspend {i : ℕ} {rest : List BoxOp} {t : Task} (h : t ∈ suspend i rest) :
    t = ⟨i, rest⟩ := by
  cases rest with
  | nil => simp [suspend] at h
  | cons op rest => simpa [suspend] using h

/-- A call gets a new number, which no task and no landed operation has. -/
theorem inv_call (h : Inv copy c b₀ w) (ws : List Wallpaper) :
    Inv copy c b₀ ⟨((program copy c).call ws w.shared).1,
      w.tasks ++ ((program copy c).call ws w.shared).2⟩ := by
  have hnew : landedBy w.shared.calls.length w.shared.landed = [] :=
    landedBy_eq_nil fun e he => (h.known e he).ne
  have hold : ∀ t ∈ w.tasks, t.writer < w.shared.calls.length := fun t ht => by
    obtain ⟨ws', hws, -⟩ := h.pending t ht
    exact (List.getElem?_eq_some_iff.mp hws).1
  simp only [program, h.box, suspend_writeOps]
  refine ⟨h.box, ?_, ?_, ?_, ?_⟩
  · intro e he
    have := h.known e he
    simp only [List.length_append, List.length_singleton]
    omega
  · rw [List.map_append, List.nodup_append]
    refine ⟨h.distinct, by simp, fun i hi j hj => ?_⟩
    obtain ⟨t, ht, rfl⟩ := List.mem_map.mp hi
    have hj : j = w.shared.calls.length := by simpa using hj
    have := hold t ht
    omega
  · intro t ht
    rcases List.mem_append.mp ht with ht | ht
    · obtain ⟨ws', hws, he⟩ := h.pending t ht
      exact ⟨ws', by rw [List.getElem?_append_left (hold t ht)]; exact hws, he⟩
    · obtain rfl : t = ⟨w.shared.calls.length, writeOps wallpaperKind c ws⟩ := by simpa using ht
      exact ⟨ws, by simp, by simp [hnew]⟩
  · intro i ws' hi hn
    simp only [List.map_append, List.mem_append, not_or] at hn
    have hne : i ≠ w.shared.calls.length := fun he => hn.2 (by simp [he])
    have hlt : i < w.shared.calls.length := by
      have := (List.getElem?_eq_some_iff.mp hi).1
      simp only [List.length_append, List.length_singleton] at this
      omega
    exact h.ended i ws' (by rw [List.getElem?_append_left hlt] at hi; exact hi) hn.1

theorem writer_ne {l r : List Task} {t t' : Task} (h : ((l ++ t :: r).map Task.writer).Nodup)
    (ht' : t' ∈ l ∨ t' ∈ r) : t'.writer ≠ t.writer := by
  rw [List.map_append, List.map_cons, List.nodup_middle, List.nodup_cons, ← List.map_append] at h
  exact fun he => h.1 (he ▸ List.mem_map_of_mem (List.mem_append.mpr ht'))

/-- The next operation of a call lands. -/
theorem inv_land (h : Inv copy c b₀ w) {l r : List Task} {i : ℕ} {op : BoxOp} {rest : List BoxOp}
    (ht : w.tasks = l ++ ⟨i, op :: rest⟩ :: r) (now : DateTime) :
    Inv copy c b₀ ⟨land copy c i op now w.shared, l ++ suspend i rest ++ r⟩ := by
  have hd := h.distinct
  rw [ht] at hd
  obtain ⟨ws, hws, hrest⟩ := h.pending ⟨i, op :: rest⟩ (by simp [ht])
  have hself : landedBy i (land copy c i op now w.shared).landed =
      landedBy i w.shared.landed ++ [op] := by
    have hone : landedBy i [⟨i, op, now⟩] = [op] := landedBy_cons_self rfl
    rw [land, landedBy_append, hone]
  have hother : ∀ j, j ≠ i → landedBy j (land copy c i op now w.shared).landed =
      landedBy j w.shared.landed := fun j hj => by
    rw [land, landedBy_append, landedBy_cons_ne (Ne.symm hj)]
    exact List.append_nil _
  refine ⟨?_, ?_, ?_, ?_, ?_⟩
  · simp only [land, WallpaperCopy.box_withBox, h.box, landedBox_append]
    rfl
  · intro e he
    rcases List.mem_append.mp he with he | he
    · exact h.known e he
    · obtain rfl : e = ⟨i, op, now⟩ := by simpa using he
      exact (List.getElem?_eq_some_iff.mp hws).1
  · rw [List.map_append, List.map_cons, ← List.singleton_append, ← List.append_assoc] at hd
    rw [List.map_append, List.map_append]
    exact hd.sublist
      (((List.Sublist.refl _).append (writers_suspend_sublist i rest)).append (List.Sublist.refl _))
  · intro t ht'
    simp only [List.mem_append] at ht'
    rcases ht' with (ht' | ht') | ht'
    · rw [hother _ (writer_ne hd (Or.inl ht'))]
      exact h.pending t (by simp [ht, ht'])
    · obtain rfl := mem_suspend ht'
      exact ⟨ws, hws, by rw [hself, ← hrest]; simp⟩
    · rw [hother _ (writer_ne hd (Or.inr ht'))]
      exact h.pending t (by simp [ht, ht'])
  · intro j ws' hj hn
    by_cases hji : j = i
    · subst hji
      obtain rfl : ws' = ws := Option.some.inj (hj.symm.trans hws)
      cases rest with
      | nil => rw [hself]; exact ⟨⟨[], by simpa using hrest⟩, Or.inl hrest⟩
      | cons op' rest => simp [suspend] at hn
    · rw [hother j hji]
      refine h.ended j ws' hj fun hm => hn ?_
      simp only [ht, List.map_append, List.map_cons, List.mem_append, List.mem_cons, hji,
        false_or] at hm ⊢
      exact hm.imp_left Or.inl

/-- An operation of a call fails. -/
theorem inv_fail (h : Inv copy c b₀ w) {l r : List Task} {t : Task} (ht : w.tasks = l ++ t :: r) :
    Inv copy c b₀ ⟨{ w.shared with failed := w.shared.failed ++ [t.writer] }, l ++ [] ++ r⟩ := by
  have hd := h.distinct
  rw [ht] at hd
  refine ⟨h.box, h.known, ?_, ?_, ?_⟩
  · rw [List.append_nil]
    have hsub : List.Sublist (l ++ r) (l ++ t :: r) :=
      (List.Sublist.refl l).append (List.sublist_cons_self t r)
    exact hd.sublist (hsub.map _)
  · intro t' ht'
    rw [List.append_nil, List.mem_append] at ht'
    exact h.pending t' (by rw [ht]; simp only [List.mem_append, List.mem_cons]; tauto)
  · intro j ws hj hn
    by_cases hji : j = t.writer
    · subst hji
      obtain ⟨ws', hws', he⟩ := h.pending t (by simp [ht])
      obtain rfl : ws = ws' := Option.some.inj (hj.symm.trans hws')
      exact ⟨⟨t.rest, he⟩, Or.inr (by simp)⟩
    · have hold := h.ended j ws hj fun hm => hn ?_
      · exact ⟨hold.1, hold.2.imp_right fun hf => List.mem_append_left _ hf⟩
      · simp only [ht, List.map_append, List.map_cons, List.mem_append, List.mem_cons, hji,
          false_or] at hm
        rw [List.append_nil, List.map_append, List.mem_append]
        exact hm

theorem inv_step {e : Event (List Wallpaper) Outcome} (h : Inv copy c b₀ w)
    (hs : (program copy c).step w e = some w') : Inv copy c b₀ w' := by
  rcases Program.step_cases hs with ⟨ws, rfl, rfl⟩ | ⟨l, t, r, o, s, ts, rfl, ht, hr, rfl⟩
  · exact inv_call h ws
  · obtain ⟨i, rest⟩ := t
    cases rest with
    | nil => cases o <;> simp [program] at hr
    | cons op rest =>
      cases o with
      | done now =>
        simp only [program, Option.some.injEq, Prod.mk.injEq] at hr
        obtain ⟨rfl, rfl⟩ := hr
        exact inv_land h ht now
      | failed =>
        simp only [program, Option.some.injEq, Prod.mk.injEq] at hr
        obtain ⟨rfl, rfl⟩ := hr
        exact inv_fail h ht

theorem inv_run {cache : CacheService} {es : List (Event (List Wallpaper) Outcome)}
    (hb : copy.box cache = some b₀) (hr : (program copy c).run (start cache) es = some w) :
    Inv copy c b₀ w :=
  Program.run_inv (fun _ _ _ h hs => inv_step h hs) (inv_start hb) hr

/-- On a closed box every call returns at once. -/
theorem closed_run {cache : CacheService} {es : List (Event (List Wallpaper) Outcome)}
    (hb : copy.box cache = none) (hr : (program copy c).run (start cache) es = some w) :
    copy.box w.shared.cache = none := by
  have hstep : ∀ w e w', copy.box w.shared.cache = none ∧ w.tasks = [] →
      (program copy c).step w e = some w' → copy.box w'.shared.cache = none ∧ w'.tasks = [] := by
    rintro w e w' ⟨hbox, htasks⟩ hs
    rcases Program.step_cases hs with ⟨ws, rfl, rfl⟩ | ⟨l, t, r, o, s, ts, rfl, ht, -, -⟩
    · refine ⟨hbox, ?_⟩
      simp only [program, hbox, htasks, List.append_nil]
    · rw [htasks] at ht
      simp at ht
  exact (Program.run_inv hstep ⟨hb, rfl⟩ hr).1

end Invariant

/-! ### After the last clear -/

/-- The operations of a write after its clear. -/
def puts (c : Codec) (ws : List Wallpaper) : List BoxOp :=
  (recordEntries wallpaperKind c ws).map fun e => .put e.1 e.2

theorem writeOps_eq (c : Codec) (ws : List Wallpaper) :
    writeOps wallpaperKind c ws = .clear :: (puts c ws ++ [.putNow lastUpdateKey]) := rfl

theorem mem_puts {c : Codec} {ws : List Wallpaper} {op : BoxOp} (h : op ∈ puts c ws) :
    ∃ w ∈ ws, op = .put ⟨w.id⟩ (encodeWallpaper c w) := by
  simp only [puts, recordEntries, List.map_map, List.mem_map, Function.comp_apply] at h
  obtain ⟨w, hw, rfl⟩ := h
  exact ⟨w, hw, rfl⟩

/-- **Only the call that cleared last has put wallpapers since**, and it did not fail or nobody else
has put a stamp since. -/
def WrittenByLastClear (s : State) : Prop :=
  ∃ i pre now post, s.landed = pre ++ ⟨i, .clear, now⟩ :: post ∧
    (∀ e ∈ post, e.op ≠ .clear) ∧
    (∀ e ∈ post, ∀ key text, e.op = .put key text → e.writer = i) ∧
    (i ∉ s.failed ∨ ∀ e ∈ post, ∀ key, e.op = .putNow key → e.writer = i)

section LastClear

variable {c : Codec} {ws : List Wallpaper} {i : ℕ} {pre post : List Landed} {now : DateTime}

/-- A call lands one clear, as its first operation. -/
theorem landedBy_post
    (h : landedBy i (pre ++ ⟨i, .clear, now⟩ :: post) <+: writeOps wallpaperKind c ws) :
    landedBy i (pre ++ ⟨i, .clear, now⟩ :: post) = .clear :: landedBy i post := by
  have hclear : landedBy i (⟨i, .clear, now⟩ :: post) = .clear :: landedBy i post :=
    landedBy_cons_self rfl
  rw [landedBy_append, hclear] at h ⊢
  cases hp : landedBy i pre with
  | nil => rfl
  | cons op ops =>
    rw [hp, writeOps_eq, List.cons_append, List.cons_prefix_cons] at h
    have hm : BoxOp.clear ∈ puts c ws ++ [.putNow lastUpdateKey] :=
      h.2.subset (by simp)
    rcases List.mem_append.mp hm with hm | hm
    · obtain ⟨w, -, hw⟩ := mem_puts hm
      cases hw
    · simp at hm

/-- Two boxes agree on all keys but the reserved one. -/
def Agree (b b' : Box) : Prop := ∀ x, x ≠ lastUpdateKey → b.get x = b'.get x

theorem agree_apply {b b' : Box} (h : Agree b b') (op : BoxOp) (now now' : DateTime)
    (hop : ∀ key, op = .putNow key → key = lastUpdateKey) :
    Agree (op.apply c now b) (op.apply c now' b') := by
  intro x hx
  cases op with
  | clear => rfl
  | put key text =>
    show (b.put key text).get x = (b'.put key text).get x
    rw [SortedStore.get_put, SortedStore.get_put, h x hx]
  | putNow key =>
    obtain rfl := hop key rfl
    simp only [BoxOp.apply, SortedStore.get_put_of_ne hx, h x hx]

/-- Without clears and foreign puts the other calls only change the reserved key. -/
theorem agree_landedBox (hc : ∀ e ∈ post, e.op ≠ .clear)
    (hp : ∀ e ∈ post, ∀ key text, e.op = .put key text → e.writer = i)
    (hn : ∀ e ∈ post, ∀ key, e.op = .putNow key → key = lastUpdateKey) :
    ∀ b b' : Box, Agree b b' →
      Agree (landedBox c b post) (applyAll c now (landedBy i post) b') := by
  induction post with
  | nil => exact fun _ _ h => h
  | cons e post ih =>
    intro b b' h
    have ih' := ih (fun e he => hc e (List.mem_cons_of_mem _ he))
      (fun e he => hp e (List.mem_cons_of_mem _ he)) (fun e he => hn e (List.mem_cons_of_mem _ he))
    by_cases hi : e.writer = i
    · rw [landedBy_cons_self hi]
      exact ih' _ _ (agree_apply h e.op e.now now (hn e (by simp)))
    · rw [landedBy_cons_ne hi]
      refine ih' _ _ fun x hx => ?_
      rw [← h x hx]
      cases hop : e.op with
      | clear => exact absurd hop (hc e (by simp))
      | put key text => exact absurd (hp e (by simp) key text hop) hi
      | putNow key =>
        obtain rfl := hn e (by simp) key hop
        show (e.op.apply c e.now b).get x = b.get x
        rw [hop]
        exact SortedStore.get_put_of_ne hx

/-- What only the stamp or a put can have written. -/
theorem key_of_mem_landedBox (hc : ∀ e ∈ post, e.op ≠ .clear) : ∀ {b : Box} {x : Key},
    x ∈ (landedBox c b post).keys → x ∈ b.keys ∨
      ∃ e ∈ post, (∃ text, e.op = .put x text) ∨ e.op = .putNow x := by
  induction post with
  | nil => exact fun h => Or.inl h
  | cons e post ih =>
    intro b x h
    rcases ih (fun e he => hc e (List.mem_cons_of_mem _ he)) h with h | ⟨e', he', h⟩
    · have hx : x ∈ (e.op.apply c e.now b).keys := h
      cases hop : e.op with
      | clear => exact absurd hop (hc e (by simp))
      | put key text =>
        rw [hop] at hx
        rcases SortedStore.mem_keys_put.mp hx with rfl | hx
        · exact Or.inr ⟨e, by simp, Or.inl ⟨text, hop⟩⟩
        · exact Or.inl hx
      | putNow key =>
        rw [hop] at hx
        rcases SortedStore.mem_keys_put.mp hx with rfl | hx
        · exact Or.inr ⟨e, by simp, Or.inr hop⟩
        · exact Or.inl hx
    · exact Or.inr ⟨e', List.mem_cons_of_mem _ he', h⟩

end LastClear

/-! ### What is read -/

/-- A list the cache can hold: distinct ids other than the reserved key, and texts that are read
back. -/
structure Cacheable (c : Codec) (ws : List Wallpaper) : Prop where
  distinct : (ws.map Wallpaper.id).Nodup
  unreserved : lastUpdateKey.str ∉ ws.map Wallpaper.id
  readsBack : ∀ w ∈ ws, ReadsBack c w

/-- A wallpaper as it comes out of the cache. -/
def fromCache (w : Wallpaper) : Wallpaper := { w with source := "pexels" }

/-- A box that agrees with a completed write of `ws` gives back the wallpapers of `ws`. -/
theorem readCopy_perm_of_agree {c : Codec} {ws : List Wallpaper} (hws : Cacheable c ws)
    (now : DateTime) {b : Box} (b₀ : Box)
    (h : Agree b (applyAll c now (writeOps wallpaperKind c ws) b₀)) :
    (readCopy wallpaperKind c (some b)).Perm (ws.map fromCache) := by
  have hkeys : ∀ x, x ∈ recordKeys wallpaperKind b.keys ↔ x.str ∈ ws.map Wallpaper.id := fun x => by
    rw [mem_recordKeys, SortedStore.mem_keys_iff]
    constructor
    · rintro ⟨hx, hn⟩
      have hx' : x ≠ lastUpdateKey := fun he => hn ⟨rfl, he⟩
      rw [h x hx', ← SortedStore.mem_keys_iff, mem_keys_write] at hx
      exact hx.resolve_right hn
    · intro hx
      have hx' : x ≠ lastUpdateKey := fun he => hws.unreserved (he ▸ hx)
      refine ⟨?_, fun hn => hx' hn.2⟩
      rw [h x hx', ← SortedStore.mem_keys_iff, mem_keys_write]
      exact Or.inl hx
  have hread : ∀ x ∈ recordKeys wallpaperKind b.keys, ∃ text a, b.get x = some text ∧
      wallpaperKind.decode c text = .ok a ∧ wallpaperKind.key a = x.str ∧
        a ∈ ws.map fromCache := by
    intro x hx
    obtain ⟨w, hw, hid⟩ := List.mem_map.mp ((hkeys x).mp hx)
    obtain rfl : x = ⟨w.id⟩ := congrArg Key.mk hid.symm
    have hne : w.id ≠ lastUpdateKey.str := fun he =>
      hws.unreserved (he ▸ List.mem_map_of_mem hw)
    refine ⟨encodeWallpaper c w, fromCache w, ?_,
      decodeWallpaper_encodeWallpaper (hws.readsBack w hw), rfl, List.mem_map_of_mem hw⟩
    rw [h _ fun he => hne (congrArg Key.str he)]
    exact get_write hws.distinct hw fun _ => hne
  obtain ⟨hids, hmem⟩ := readCopy_ok hread
  have hback : (ws.map fromCache).map Wallpaper.id = ws.map Wallpaper.id := by
    rw [List.map_map]
    rfl
  refine perm_of_map_perm (f := Wallpaper.id) (hback ▸ hws.distinct) ?_ hmem
  have hinj : Function.Injective Key.str := fun _ _ he => congrArg Key.mk he
  rw [hback]
  refine (List.Perm.of_eq hids).trans ?_
  have hnodup : ((recordKeys wallpaperKind b.keys).map Key.str).Nodup :=
    (b.nodup_keys.filter _).map hinj
  refine (List.perm_ext_iff_of_nodup hnodup hws.distinct).mpr fun id => ?_
  rw [← hkeys ⟨id⟩]
  exact (List.mem_map_of_injective hinj : Key.str ⟨id⟩ ∈ _ ↔ _)

/-! ### Completed calls -/

section Completed

variable {copy : WallpaperCopy} {c : Codec} {b₀ : Box} {w : World State Task}

/-- Every landed operation is one of its call. -/
theorem landed_mem_writeOps (h : Inv copy c b₀ w) (hdone : w.tasks = []) {e : Landed}
    (he : e ∈ w.shared.landed) : ∃ ws ∈ w.shared.calls, e.op ∈ writeOps wallpaperKind c ws := by
  have hget := List.getElem?_eq_getElem (h.known e he)
  have hpre := (h.ended e.writer _ hget (by simp [hdone])).1
  exact ⟨_, List.getElem_mem _, hpre.subset (mem_landedBy.mpr ⟨e, he, rfl, rfl⟩)⟩

/-- The only key `putNow` is called with. -/
theorem putNow_key (h : Inv copy c b₀ w) (hdone : w.tasks = []) {e : Landed}
    (he : e ∈ w.shared.landed) {key : Key} (hop : e.op = .putNow key) : key = lastUpdateKey := by
  obtain ⟨ws, -, hm⟩ := landed_mem_writeOps h hdone he
  rw [hop, writeOps_eq, List.mem_cons, List.mem_append, List.mem_singleton] at hm
  rcases hm with hm | hm | hm
  · cases hm
  · obtain ⟨_, -, hm⟩ := mem_puts hm
    cases hm
  · exact BoxOp.putNow.inj hm

/-- No wallpaper is put under the reserved key. -/
theorem put_key_ne (h : Inv copy c b₀ w) (hdone : w.tasks = [])
    (hws : ∀ ws ∈ w.shared.calls, Cacheable c ws) {e : Landed} (he : e ∈ w.shared.landed)
    {text : String} : e.op ≠ .put lastUpdateKey text := by
  intro hop
  obtain ⟨ws, hmem, hm⟩ := landed_mem_writeOps h hdone he
  rw [hop, writeOps_eq, List.mem_cons, List.mem_append, List.mem_singleton] at hm
  rcases hm with hm | hm | hm
  · cases hm
  · obtain ⟨v, hv, hm⟩ := mem_puts hm
    have hid : v.id = lastUpdateKey.str := (congrArg Key.str (BoxOp.put.inj hm).1).symm
    exact (hws ws hmem).unreserved (hid ▸ List.mem_map_of_mem hv)
  · cases hm

theorem stamp_of_fresh {b : Box} {now : DateTime} (h : Cache.isStale c now (some b) = false) :
    lastUpdateKey ∈ b.keys := by
  unfold Cache.isStale at h
  cases hg : b.get lastUpdateKey with
  | none => simp [hg] at h
  | some text => exact SortedStore.mem_keys_iff.mpr ⟨text, hg⟩

/-- The call that cleared last has landed all its operations. -/
theorem landedBy_last (h : Inv copy c b₀ w) (hdone : w.tasks = [])
    (hws : ∀ ws ∈ w.shared.calls, Cacheable c ws) {now : DateTime}
    (hfresh : copy.isStale c now w.shared.cache = false) {i : ℕ} {pre post : List Landed}
    {t : DateTime} (hl : w.shared.landed = pre ++ ⟨i, .clear, t⟩ :: post)
    (hc : ∀ e ∈ post, e.op ≠ .clear)
    (hf : i ∉ w.shared.failed ∨ ∀ e ∈ post, ∀ key, e.op = .putNow key → e.writer = i) :
    ∃ ws ∈ w.shared.calls, .clear :: landedBy i post = writeOps wallpaperKind c ws := by
  have hi : i < w.shared.calls.length := h.known ⟨i, .clear, t⟩ (by simp [hl])
  obtain ⟨ws, hget⟩ : ∃ ws, w.shared.calls[i]? = some ws := ⟨_, List.getElem?_eq_getElem hi⟩
  obtain ⟨hpre, hend⟩ := h.ended i ws hget (by simp [hdone])
  rw [hl] at hpre hend
  rw [landedBy_post hpre] at hend
  refine ⟨ws, List.mem_of_getElem? hget, ?_⟩
  rcases hend with he | hfail
  · exact he
  · -- the call failed, so the fresh stamp is its own, and a stamp is the last of its operations
    have hstamp := hf.resolve_left fun hn => hn hfail
    rw [copy.isStale_eq, h.box, hl, landedBox_append] at hfresh
    have hpost : ∀ e ∈ post, e ∈ w.shared.landed := fun e he => by simp [hl, he]
    rcases key_of_mem_landedBox hc (stamp_of_fresh hfresh) with hk | ⟨e, he, ⟨text, hop⟩ | hop⟩
    · exact absurd hk (by simp [BoxOp.apply])
    · exact absurd hop (put_key_ne h hdone hws (hpost e he))
    · have hm : BoxOp.putNow lastUpdateKey ∈ landedBy i post :=
        mem_landedBy.mpr ⟨e, he, hstamp e he _ hop, hop⟩
      rw [landedBy_post hpre, writeOps_eq, List.cons_prefix_cons, List.prefix_concat_iff] at hpre
      rcases hpre.2 with hall | hputs
      · rw [writeOps_eq, hall]
      · obtain ⟨v, -, hv⟩ := mem_puts (hputs.subset hm)
        cases hv

/-- **The copy is one list**: once all calls of a run are over and the copy is not stale, it holds
the wallpapers of a single call, if only the call that cleared last put wallpapers after that. -/
theorem overlapping_writes_of_lastClear (copy : WallpaperCopy) (c : Codec) (cache : CacheService)
    (es : List (Event (List Wallpaper) Outcome)) (w : World State Task)
    (hr : (program copy c).run (start cache) es = some w) (hdone : w.tasks = [])
    (hws : ∀ ws ∈ w.shared.calls, Cacheable c ws) (now : DateTime)
    (hfresh : copy.isStale c now w.shared.cache = false) (hlast : WrittenByLastClear w.shared) :
    ∃ ws ∈ w.shared.calls, (copy.getCached c w.shared.cache).Perm (ws.map fromCache) := by
  obtain ⟨b₀, hb⟩ : ∃ b₀, copy.box cache = some b₀ := by
    by_contra hnone
    have hb : copy.box cache = none := Option.eq_none_iff_forall_ne_some.mpr fun b hb =>
      hnone ⟨b, hb⟩
    rw [copy.isStale_eq, closed_run hb hr] at hfresh
    cases hfresh
  have h := inv_run hb hr
  obtain ⟨i, pre, t, post, hl, hc, hp, hf⟩ := hlast
  obtain ⟨ws, hmem, hops⟩ := landedBy_last h hdone hws hfresh hl hc hf
  refine ⟨ws, hmem, ?_⟩
  rw [copy.getCached_eq, h.box, hl, landedBox_append]
  refine readCopy_perm_of_agree (hws ws hmem) now b₀ ?_
  rw [← hops]
  have hn : ∀ e ∈ post, ∀ key, e.op = .putNow key → key = lastUpdateKey := fun e he key hop =>
    putNow_key h hdone (by simp [hl, he]) hop
  exact agree_landedBox hc hp hn _ _ fun _ _ => rfl

end Completed

/-! ### Two calls -/

/-- Calls that cache a wallpaper each. -/
def twoCalls : List (Event (List Wallpaper) Outcome) :=
  [.call [sampleWallpaper "a" "pexels"], .call [sampleWallpaper "b" "pexels"]]

/-- The service with empty boxes. -/
def emptyCache : CacheService := .opened .empty .empty .empty .empty

theorem cacheable_sample {id : String} (hid : id ∈ ["a", "b"]) :
    Cacheable (sampleCodec ["a", "b"]) [sampleWallpaper id "pexels"] where
  distinct := by simp
  unreserved := by
    simp only [List.mem_cons, List.not_mem_nil, or_false] at hid
    rcases hid with rfl | rfl <;> decide
  readsBack w hw := by
    obtain rfl : w = sampleWallpaper id "pexels" := by simpa using hw
    exact sample_readsBack hid "pexels"

theorem cacheable_calls : ∀ ws ∈ [[sampleWallpaper "a" "pexels"], [sampleWallpaper "b" "pexels"]],
    Cacheable (sampleCodec ["a", "b"]) ws := by
  simp only [List.mem_cons, List.not_mem_nil, or_false]
  rintro ws (rfl | rfl) <;> exact cacheable_sample (by simp)

/-- The second call clears last and puts its wallpaper; the first one fails. -/
theorem second_call_alone : ∃ w, (program .wallpapers (sampleCodec ["a", "b"])).run
    (start emptyCache) (twoCalls ++ [.resume 0 (.done ⟨0, true⟩), .resume 1 (.done ⟨0, true⟩),
      .resume 1 (.done ⟨0, true⟩), .resume 0 .failed, .resume 0 (.done ⟨0, true⟩)]) = some w ∧
    ∃ ws ∈ w.shared.calls,
      (WallpaperCopy.wallpapers.getCached (sampleCodec ["a", "b"]) w.shared.cache).Perm
        (ws.map fromCache) := by
  refine ⟨_, rfl, ?_⟩
  refine overlapping_writes_of_lastClear .wallpapers (sampleCodec ["a", "b"]) emptyCache
    (twoCalls ++ [.resume 0 (.done ⟨0, true⟩), .resume 1 (.done ⟨0, true⟩),
      .resume 1 (.done ⟨0, true⟩), .resume 0 .failed, .resume 0 (.done ⟨0, true⟩)]) _ rfl rfl ?_
    ⟨0, true⟩ ?_ ?_
  · exact cacheable_calls
  · decide
  · refine ⟨1, [⟨0, .clear, ⟨0, true⟩⟩], ⟨0, true⟩,
      [⟨1, .put ⟨"b"⟩ (sampleText "b"), ⟨0, true⟩⟩, ⟨1, .putNow lastUpdateKey, ⟨0, true⟩⟩],
      rfl, ?_, ?_, Or.inr ?_⟩
    · simp
    · simp
    · simp

/-- The box after both calls cleared before either put its wallpaper. -/
def mixedBox : Box :=
  (((SortedStore.empty.put ⟨"a"⟩ (sampleText "a")).put ⟨"b"⟩ (sampleText "b")).put lastUpdateKey
    "1970-01-01T00:00:00.000Z").put lastUpdateKey "1970-01-01T00:00:00.000Z"

theorem ids_mixedBox : (readCopy wallpaperKind (sampleCodec ["a", "b"]) (some mixedBox)).map
    Wallpaper.id = ["a", "b"] := by
  have hkeys : recordKeys wallpaperKind mixedBox.keys = [⟨"a"⟩, ⟨"b"⟩] := by decide
  have hread : ∀ x ∈ recordKeys wallpaperKind mixedBox.keys, ∃ text a, mixedBox.get x = some text ∧
      wallpaperKind.decode (sampleCodec ["a", "b"]) text = .ok a ∧
      wallpaperKind.key a = x.str ∧ True := by
    intro x hx
    have hx' : x.str ∈ ["a", "b"] := by
      rw [hkeys] at hx
      simp only [List.mem_cons, List.not_mem_nil, or_false] at hx ⊢
      exact hx.imp (congrArg Key.str) (congrArg Key.str)
    have hget : mixedBox.get x = some (sampleText x.str) := by
      rw [hkeys] at hx
      simp only [List.mem_cons, List.not_mem_nil, or_false] at hx
      rcases hx with rfl | rfl <;> rfl
    have hdec := decodeWallpaper_encodeWallpaper (sample_readsBack hx' "pexels")
    exact ⟨_, _, hget, hdec, rfl, trivial⟩
  exact (readCopy_ok hread).1.trans (by rw [hkeys]; rfl)

/-- **Both calls clear, then both put their wallpaper and the stamp**: the copy is fresh and holds
the wallpapers of both. -/
theorem overlapping_writes_mixed : ∃ w, (program .wallpapers (sampleCodec ["a", "b"])).run
    (start emptyCache) (twoCalls ++ [.resume 0 (.done ⟨0, true⟩), .resume 1 (.done ⟨0, true⟩),
      .resume 0 (.done ⟨0, true⟩), .resume 1 (.done ⟨0, true⟩),
      .resume 0 (.done ⟨0, true⟩), .resume 0 (.done ⟨0, true⟩)]) = some w ∧
    w.tasks = [] ∧ (∀ ws ∈ w.shared.calls, Cacheable (sampleCodec ["a", "b"]) ws) ∧
    WallpaperCopy.wallpapers.isStale (sampleCodec ["a", "b"]) ⟨0, true⟩ w.shared.cache = false ∧
    (WallpaperCopy.wallpapers.getCached (sampleCodec ["a", "b"]) w.shared.cache).map
      Wallpaper.id = ["a", "b"] ∧
    ¬ ∃ ws ∈ w.shared.calls,
      ((WallpaperCopy.wallpapers.getCached (sampleCodec ["a", "b"]) w.shared.cache).map
        Wallpaper.id).Perm (ws.map Wallpaper.id) := by
  refine ⟨_, rfl, rfl, cacheable_calls, by decide, ids_mixedBox, ?_⟩
  rintro ⟨ws, hws, hp⟩
  have hws : ws ∈ [[sampleWallpaper "a" "pexels"], [sampleWallpaper "b" "pexels"]] := hws
  have hlen : 2 = (ws.map Wallpaper.id).length :=
    ((List.Perm.of_eq ids_mixedBox.symm).trans hp).length_eq
  simp only [List.mem_cons, List.not_mem_nil, or_false] at hws
  rcases hws with rfl | rfl <;> simp at hlen

end PixsBliss.Services.CacheWriters
