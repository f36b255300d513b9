import PixsBliss.Services.CacheWriters

/-! # The stamp as a commit marker

A write of a copy clears the box, puts the records and puts the stamp last. Cut off anywhere, by the
end of the process or by an operation that throws, it has landed a prefix of these operations
(`run_cut`), and the stamp is in the box after the first or after the last of them only: the clear
removed the old one.

* `fresh_box_complete`: so a copy that is not stale is the old one, or all of the new one. -/

namespace PixsBliss.Services.CacheCommit

open PixsBliss.Lib.Async PixsBliss.Lib.Store PixsBliss.Lib.Utf16 PixsBliss.Models
open PixsBliss.Models.Json
open PixsBliss.Services.Cache PixsBliss.Services.CacheWriters

variable {copy : WallpaperCopy} {c : Codec} {ws : List Wallpaper} {log : List Landed} {b : Box}

/-! ### What a call that is cut off has landed -/

/-- **A call alone lands a prefix of its operations**, whenever it is cut off. -/
theorem run_cut : ∀ {es : List (Event (List Wallpaper) Outcome)} {s : State} {i : ℕ}
    {rest : List BoxOp} {w : World State Task}, Program.Resumptions es →
    (program copy c).run ⟨s, suspend i rest⟩ es = some w →
      ∃ log, log.map Landed.op <+: rest ∧
        copy.box w.shared.cache = (copy.box s.cache).map fun b => landedBox c b log
  | [], s, i, rest, w, _, hr => by
    obtain rfl := Option.some.inj hr
    exact ⟨[], List.nil_prefix, (Option.map_id' (x := copy.box s.cache)).symm⟩
  | e :: es, s, i, [], w, hes, hr => by
    obtain ⟨he, -⟩ := Program.run_alone_nil hes hr
    cases he
  | .call ws :: es, _, _, _ :: _, _, hes, _ => absurd List.mem_cons_self (hes ws)
  | .resume j o :: es, s, i, op :: rest, w, hes, hr => by
    obtain ⟨w₁, hs, hr⟩ := Program.run_cons_some.mp hr
    obtain ⟨-, s', ts, hres, rfl⟩ := Program.step_alone hs
    cases o with
    | done now =>
      obtain ⟨rfl, rfl⟩ := Prod.mk.inj (Option.some.inj hres)
      obtain ⟨log, hpre, hbox⟩ := run_cut hes.tail hr
      refine ⟨⟨i, op, now⟩ :: log, List.cons_prefix_cons.mpr ⟨rfl, hpre⟩, ?_⟩
      rw [hbox, land, WallpaperCopy.box_withBox, Option.map_map]
      rfl
    | failed =>
      obtain ⟨rfl, rfl⟩ := Prod.mk.inj (Option.some.inj hres)
      obtain ⟨-, rfl⟩ := Program.run_alone_nil hes.tail hr
      exact ⟨[], List.nil_prefix, (Option.map_id' (x := copy.box s.cache)).symm⟩

/-! ### The stamp -/

theorem stamp_notMem_of_puts (hws : ∀ a ∈ ws, a.id ≠ lastUpdateKey.str)
    (h : log.map Landed.op <+: puts c ws) : lastUpdateKey ∉ (landedBox c .empty log).keys := by
  have hput : ∀ e ∈ log, ∃ a ∈ ws, e.op = .put ⟨a.id⟩ (encodeWallpaper c a) := fun e he =>
    mem_puts (h.subset (List.mem_map_of_mem he))
  have hclear : ∀ e ∈ log, e.op ≠ .clear := fun e he hop => by
    obtain ⟨a, -, ha⟩ := hput e he
    rw [hop] at ha
    cases ha
  intro hk
  rcases key_of_mem_landedBox hclear hk with hk | ⟨e, he, ⟨text, hop⟩ | hop⟩
  · simp at hk
  · obtain ⟨a, ha, hop'⟩ := hput e he
    rw [hop] at hop'
    exact hws a ha (congrArg Key.str (BoxOp.put.inj hop').1).symm
  · obtain ⟨a, -, hop'⟩ := hput e he
    rw [hop] at hop'
    cases hop'

theorem landedBox_puts : ∀ {es : List (Key × String)} {log : List Landed} {b : Box},
    log.map Landed.op = es.map (fun e => BoxOp.put e.1 e.2) → landedBox c b log = b.putAll es
  | [], [], b, _ => rfl
  | e :: es, l :: log, b, h => by
    obtain ⟨hop, hlog⟩ := List.cons.inj h
    have hb : landedBox c b (l :: log) = landedBox c (l.op.apply c l.now b) log := rfl
    rw [hb, hop, landedBox_puts hlog]
    rfl

theorem landedBox_writeOps (h : log.map Landed.op = writeOps wallpaperKind c ws) :
    ∃ t, landedBox c b log = (SortedStore.empty.putAll (recordEntries wallpaperKind c ws)).put
      lastUpdateKey (c.toIso8601String t) := by
  rw [writeOps_eq] at h
  obtain ⟨e, log, rfl, he, hlog⟩ := List.map_eq_cons_iff.mp h
  obtain ⟨log, stamp, rfl, hputs, hstamp⟩ := List.map_eq_append_iff.mp hlog
  obtain ⟨e', stamp, rfl, he', hnil⟩ := List.map_eq_cons_iff.mp hstamp
  obtain rfl := List.map_eq_nil_iff.mp hnil
  refine ⟨e'.now, ?_⟩
  have hb : landedBox c b (e :: (log ++ [e'])) =
      e'.op.apply c e'.now (landedBox c (e.op.apply c e.now b) log) := by
    show landedBox c _ (log ++ [e']) = _
    rw [landedBox_append]
    rfl
  rw [hb, he', he, landedBox_puts hputs]
  rfl

/-- **A box with a stamp is untouched or complete.** -/
theorem landedBox_of_stamp (hws : ∀ a ∈ ws, a.id ≠ lastUpdateKey.str)
    (h : log.map Landed.op <+: writeOps wallpaperKind c ws)
    (hstamp : lastUpdateKey ∈ (landedBox c b log).keys) :
    landedBox c b log = b ∨ ∃ t, landedBox c b log =
      (SortedStore.empty.putAll (recordEntries wallpaperKind c ws)).put lastUpdateKey
        (c.toIso8601String t) := by
  cases log with
  | nil => exact Or.inl rfl
  | cons e log =>
    rw [writeOps_eq, List.map_cons, List.cons_prefix_cons, List.prefix_concat_iff] at h
    obtain ⟨hop, hall | hputs⟩ := h
    · refine Or.inr (landedBox_writeOps ?_)
      rw [writeOps_eq, List.map_cons, hop, hall]
    · have hb : landedBox c b (e :: log) = landedBox c .empty log := by
        show landedBox c (e.op.apply c e.now b) log = _
        rw [hop]
        rfl
      rw [hb] at hstamp
      exact absurd hstamp (stamp_notMem_of_puts hws hputs)

/-! ### A single call -/

/-- **A fresh copy is complete**: after a call of the write of any list, cut off anywhere, a copy
that is not stale is the one before the call, or holds exactly the records of the new list and their
stamp. -/
theorem fresh_box_complete (copy : WallpaperCopy) (c : Codec) (cache : CacheService)
    (ws : List Wallpaper) (hws : ∀ a ∈ ws, a.id ≠ lastUpdateKey.str)
    (es : List (Event (List Wallpaper) Outcome)) (hes : Program.Resumptions es)
    (w : World State Task) (hr : (program copy c).run (start cache) (.call ws :: es) = some w)
    (now : DateTime) (hfresh : copy.isStale c now w.shared.cache = false) :
    copy.box w.shared.cache = copy.box cache ∨ ∃ t, copy.box w.shared.cache =
      some ((SortedStore.empty.putAll (recordEntries wallpaperKind c ws)).put lastUpdateKey
        (c.toIso8601String t)) := by
  rw [copy.isStale_eq] at hfresh
  cases hb : copy.box cache with
  | none =>
    rw [closed_run hb hr] at hfresh
    cases hfresh
  | some b =>
    obtain ⟨w₁, hs, hr⟩ := Program.run_cons_some.mp hr
    rw [Program.step_call] at hs
    obtain rfl := Option.some.inj hs
    simp only [program, start, hb, List.nil_append] at hr
    obtain ⟨log, hpre, hbox⟩ := run_cut hes hr
    have hbox : copy.box w.shared.cache = some (landedBox c b log) := by
      rw [hbox, hb]
      rfl
    rw [hbox] at hfresh ⊢
    rcases landedBox_of_stamp hws hpre (stamp_of_fresh hfresh) with h | ⟨t, h⟩
    · exact Or.inl (congrArg some h)
    · exact Or.inr ⟨t, congrArg some h⟩

def copyOfA : CacheService :=
  emptyCache.cacheWallpapers (sampleCodec ["a", "b"]) ⟨0, true⟩ [sampleWallpaper "a" "pexels"]

set_option maxRecDepth 20000 in
/-- A complete write of `b` over the copy of `a`. -/
theorem fresh_box_of_b : ∃ w, (program .wallpapers (sampleCodec ["a", "b"])).run (start copyOfA)
      [.call [sampleWallpaper "b" "pexels"], .resume 0 (.done ⟨0, true⟩),
        .resume 0 (.done ⟨0, true⟩), .resume 0 (.done ⟨0, true⟩)] = some w ∧
    (WallpaperCopy.wallpapers.box w.shared.cache = WallpaperCopy.wallpapers.box copyOfA ∨
      ∃ t, WallpaperCopy.wallpapers.box w.shared.cache =
        some ((SortedStore.empty.putAll (recordEntries wallpaperKind (sampleCodec ["a", "b"])
          [sampleWallpaper "b" "pexels"])).put lastUpdateKey
            ((sampleCodec ["a", "b"]).toIso8601String t))) := by
  refine ⟨_, rfl, fresh_box_complete .wallpapers (sampleCodec ["a", "b"]) copyOfA
    [sampleWallpaper "b" "pexels"] ?_ [.resume 0 (.done ⟨0, true⟩), .resume 0 (.done ⟨0, true⟩),
      .resume 0 (.done ⟨0, true⟩)] ?_ _ rfl ⟨0, true⟩ ?_⟩
  · intro a ha
    obtain rfl : a = sampleWallpaper "b" "pexels" := by simpa using ha
    decide
  · simp [Program.Resumptions]
  · decide

end PixsBliss.Services.CacheCommit
