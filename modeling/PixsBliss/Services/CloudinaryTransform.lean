import PixsBliss.Services.CloudinaryUrls

/-! # URLs with custom transformations

`transformImageUrl` puts the transformations that it is given, joined by commas, before an id. With
the parameters of the other functions it gives their URLs.

* `transform_read_back_iff`: the id is read back from its URL exactly if no transformation is given
  and it is read back from the URL of the original. -/

namespace PixsBliss.Services.CloudinaryTransform

open PixsBliss.Lib.Uri PixsBliss.Services.CloudinaryService PixsBliss.Services.CloudinaryUrls

/-- The optional parameters. -/
structure Parameters where
  width : Option ℤ := none
  height : Option ℤ := none
  format : Option String := none
  quality : Option String := none
  crop : Option String := none
  gravity : Option String := none
  effect : Option String := none
deriving DecidableEq

/-- A width and a height are one transformation. -/
def sizeTransformation : Option ℤ → Option ℤ → List String
  | some width, some height => ["w_" ++ toString width ++ ",h_" ++ toString height]
  | some width, none => ["w_" ++ toString width]
  | none, some height => ["h_" ++ toString height]
  | none, none => []

/-- A transformation with a text. -/
def textTransformation (key : String) : Option String → List String
  | some text => [key ++ text]
  | none => []

namespace Parameters

def transformations (o : Parameters) : List String :=
  sizeTransformation o.width o.height ++ textTransformation "f_" o.format ++
    textTransformation "q_" o.quality ++ textTransformation "c_" o.crop ++
    textTransformation "g_" o.gravity ++ textTransformation "e_" o.effect

/-- The texts have no delimiter of a path. -/
def Plain (o : Parameters) : Prop :=
  ∀ text ∈ [o.format, o.quality, o.crop, o.gravity, o.effect],
    ∀ s ∈ text, ∀ c ∈ s.toList, isIdChar c = true

end Parameters

def transformImageUrl (publicId : String) (o : Parameters) : String :=
  (if o.transformations = [] then deliveryUrl
    else deliveryUrl ++ (",".intercalate o.transformations ++ "/")) ++ publicId

/-- The other functions are its special cases. -/
theorem transform_special_cases (publicId : String) (width height : ℤ) (format quality : String) :
    transformImageUrl publicId {} = getOriginalImageUrl publicId ∧
    transformImageUrl publicId
        { width := width, height := height, format := format, quality := quality } =
      getOptimizedImageUrl publicId width height format quality ∧
    transformImageUrl publicId
        { width := width, height := height, format := format, quality := quality,
          crop := "fill" } =
      getThumbnailUrl publicId width height format quality := by
  refine ⟨rfl, ?_, ?_⟩ <;> apply String.toList_inj.mp <;>
    simp [transformImageUrl, Parameters.transformations, sizeTransformation, textTransformation,
      getOptimizedImageUrl, getThumbnailUrl, transformation, String.intercalate_cons_cons]

/-! ### The segment -/

section Segment

variable {o : Parameters} {t : String} {ts : List String}

/-- What a transformation looks like: a letter that is no `v`, an underscore, and no delimiter. -/
structure IsPart (t : String) : Prop where
  chars : ∀ c ∈ t.toList, isIdChar c = true
  begins : ∃ letter rest, t.toList = letter :: '_' :: rest ∧ letter ≠ 'v'

theorem isPart_of (letter : Char) {rest : List Char} (ht : t.toList = letter :: '_' :: rest)
    (hv : letter ≠ 'v') (hletter : isIdChar letter = true)
    (hrest : ∀ c ∈ rest, isIdChar c = true) : IsPart t where
  chars := by
    rw [ht]
    exact List.forall_mem_cons.mpr ⟨hletter, List.forall_mem_cons.mpr ⟨by decide, hrest⟩⟩
  begins := ⟨letter, rest, ht, hv⟩

theorem isPart_text {letter : Char} (hletter : letter ≠ 'v' ∧ isIdChar letter = true)
    {text : Option String} (htext : ∀ s ∈ text, ∀ c ∈ s.toList, isIdChar c = true) :
    ∀ t ∈ textTransformation (String.ofList [letter, '_']) text, IsPart t := by
  cases text with
  | none => exact List.forall_mem_nil _
  | some s =>
    exact List.forall_mem_singleton.mpr
      (isPart_of letter (by simp) hletter.1 hletter.2 (htext s rfl))

theorem isPart_size (width height : Option ℤ) :
    ∀ t ∈ sizeTransformation width height, IsPart t := by
  have hnumber : ∀ n : ℤ, ∀ c ∈ (toString n).toList, isIdChar c = true := fun n c hc =>
    isIdChar_of_mem_toString hc
  cases width with
  | none =>
    cases height with
    | none => exact List.forall_mem_nil _
    | some height =>
      exact List.forall_mem_singleton.mpr
        (isPart_of 'h' (by simp) (by decide) (by decide) (hnumber height))
  | some width =>
    cases height with
    | none =>
      exact List.forall_mem_singleton.mpr
        (isPart_of 'w' (by simp) (by decide) (by decide) (hnumber width))
    | some height =>
      have hrest : ∀ c ∈ (toString width).toList ++ ",h_".toList ++ (toString height).toList,
          isIdChar c = true :=
        List.forall_mem_append.mpr ⟨List.forall_mem_append.mpr
          ⟨hnumber width, List.all_eq_true.mp (by decide)⟩, hnumber height⟩
      exact List.forall_mem_singleton.mpr (isPart_of 'w' (by simp) (by decide) (by decide) hrest)

theorem isPart_transformations (ho : o.Plain) : ∀ t ∈ o.transformations, IsPart t := by
  have htext : ∀ letter : Char, letter ≠ 'v' ∧ isIdChar letter = true → ∀ text ∈
      [o.format, o.quality, o.crop, o.gravity, o.effect],
      ∀ t ∈ textTransformation (String.ofList [letter, '_']) text, IsPart t := by
    intro letter hletter text htext
    exact isPart_text hletter (ho text htext)
  unfold Parameters.transformations
  simp only [List.forall_mem_append]
  exact ⟨⟨⟨⟨⟨isPart_size _ _, htext 'f' (by decide) _ (by simp)⟩,
    htext 'q' (by decide) _ (by simp)⟩, htext 'c' (by decide) _ (by simp)⟩,
    htext 'g' (by decide) _ (by simp)⟩, htext 'e' (by decide) _ (by simp)⟩

theorem isIdChar_join (h : ∀ t ∈ ts, IsPart t) :
    ∀ c ∈ (",".intercalate ts).toList, isIdChar c = true := by
  induction ts with
  | nil => exact List.forall_mem_nil _
  | cons t ts ih =>
    obtain ⟨ht, hts⟩ := List.forall_mem_cons.mp h
    cases ts with
    | nil => simpa using ht.chars
    | cons t' ts =>
      rw [String.intercalate_cons_cons, String.toList_append, String.toList_append]
      exact List.forall_mem_append.mpr ⟨List.forall_mem_append.mpr
        ⟨ht.chars, List.forall_mem_singleton.mpr (by decide)⟩, ih hts⟩

/-- **The segment of the transformations.** -/
theorem isTransformation_join (hne : ts ≠ []) (h : ∀ t ∈ ts, IsPart t) :
    IsTransformation (",".intercalate ts).toList := by
  obtain ⟨t, ts, rfl⟩ := List.exists_cons_of_ne_nil hne
  obtain ⟨letter, rest, ht, hv⟩ := (h t List.mem_cons_self).begins
  have hbegins : ∃ rest', (",".intercalate (t :: ts)).toList = letter :: '_' :: rest' := by
    cases ts with
    | nil => exact ⟨rest, by simpa using ht⟩
    | cons t' ts =>
      rw [String.intercalate_cons_cons, String.toList_append, String.toList_append, ht]
      exact ⟨_, rfl⟩
  obtain ⟨rest', hbegins⟩ := hbegins
  refine ⟨isIdChar_join h, ?_, ?_, ?_⟩ <;> simp [hbegins, hv]

end Segment

/-! ### Reading the URL back -/

/-- **When an id is read back**, whatever the id is. -/
theorem transform_read_back_iff (rules : Rules) (publicId : String) (o : Parameters)
    (ho : o.Plain) :
    extractPublicIdFromUrl rules (transformImageUrl publicId o) = some publicId ↔
      o.transformations = [] ∧
        extractPublicIdFromUrl rules (getOriginalImageUrl publicId) = some publicId := by
  by_cases hnone : o.transformations = []
  · rw [transformImageUrl, if_pos hnone]
    exact (and_iff_right hnone).symm
  · have hurl : transformImageUrl publicId o =
        build (",".intercalate o.transformations).toList publicId := by
      apply String.toList_inj.mp
      simp [transformImageUrl, hnone, build]
    rw [hurl]
    refine iff_of_false ?_ fun h => hnone h.1
    exact extract_transformed_ne rules (isTransformation_join hnone (isPart_transformations ho)) _

theorem width_not_read_back :
    extractPublicIdFromUrl strictRules (transformImageUrl "beach" { width := some 300 }) ≠
      some "beach" := by
  intro h
  have hplain : ({ width := some 300 } : Parameters).Plain := by simp [Parameters.Plain]
  have hnone := ((transform_read_back_iff strictRules "beach" _ hplain).mp h).1
  revert hnone
  decide

end PixsBliss.Services.CloudinaryTransform
