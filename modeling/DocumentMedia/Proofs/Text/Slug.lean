import DocumentMedia.Proofs.Text.Blank
import DocumentMedia.Text.Slug

/-! # Slugs as words

The words of a slug are the runs of its characters. They are found again when they are joined, and
those of two texts with a separator between them are the words of either. So a slug is words between
single hyphens, the slug of a slug is the slug itself, and slugs are made piece by piece. -/
namespace DocumentMedia.Text

/-! ## Runs -/

section

variable {p : Char → Bool} {s w : List Char} {c sep : Char}

/-- A run of characters that satisfy `p`. -/
def IsRun (p : Char → Bool) (w : List Char) : Prop := w ≠ [] ∧ ∀ c ∈ w, p c = true

theorem isRun_of_mem_runsWhere (h : w ∈ runsWhere p s) : IsRun p w := by
  obtain ⟨hw, hne⟩ := List.mem_filter.mp h
  constructor
  · simpa using hne
  · intro c hc
    simpa using splitWhere_pieces (!p ·) s w hw c hc

theorem IsRun.runsWhere (h : IsRun p w) : runsWhere p w = [w] := by
  have hpiece : splitWhere (!p ·) w = [w] := by
    apply splitWhere_of_none
    intro c hc
    rw [h.2 c hc]
    rfl
  rw [Text.runsWhere, hpiece]
  simp [h.1]

/-- A character that does not satisfy `p` separates runs. -/
theorem runsWhere_append (hc : p c = false) (s t : List Char) :
    runsWhere p (s ++ c :: t) = runsWhere p s ++ runsWhere p t := by
  rw [runsWhere, splitWhere_append _ _ _ _ (by simp [hc]), List.filter_append, runsWhere, runsWhere]

theorem runsWhere_joinWith (hsep : p sep = false) {ws : List (List Char)}
    (h : ∀ w ∈ ws, IsRun p w) : runsWhere p (joinWith [sep] ws) = ws := by
  induction ws with
  | nil => rfl
  | cons w ws ih =>
    rw [List.forall_mem_cons] at h
    cases ws with
    | nil => exact h.1.runsWhere
    | cons v vs =>
      rw [joinWith_cons (List.cons_ne_nil v vs), List.singleton_append, runsWhere_append hsep,
        h.1.runsWhere, ih h.2, List.singleton_append]

end

/-! ## Joined words -/

section

variable {ws vs : List (List Char)}

theorem joinWith_eq_intercalate (sep : List Char) (ws : List (List Char)) :
    joinWith sep ws = sep.intercalate ws := by
  induction ws with
  | nil => rfl
  | cons w ws ih =>
    cases ws with
    | nil => simp [joinWith]
    | cons v vs =>
      rw [joinWith_cons (List.cons_ne_nil v vs), ih, List.intercalate_cons_cons, List.append_assoc]

theorem joinWith_eq_nil_iff (sep : List Char) (h : [] ∉ ws) : joinWith sep ws = [] ↔ ws = [] := by
  constructor
  · intro hjoin
    cases ws with
    | nil => rfl
    | cons w ws =>
      have hw : w ≠ [] := fun he => h (by simp [he])
      cases ws with
      | nil => exact absurd hjoin hw
      | cons v vs =>
        rw [joinWith_cons (List.cons_ne_nil v vs)] at hjoin
        exact absurd (List.append_eq_nil_iff.mp hjoin).1 hw
  · rintro rfl
    rfl

theorem joinWith_append (sep : List Char) (hws : ws ≠ []) (hvs : vs ≠ []) :
    joinWith sep (ws ++ vs) = joinWith sep ws ++ (sep ++ joinWith sep vs) := by
  induction ws with
  | nil => exact absurd rfl hws
  | cons w ws ih =>
    cases ws with
    | nil => exact joinWith_cons hvs sep w
    | cons u us =>
      rw [List.cons_append, joinWith_cons (by simp), ih (List.cons_ne_nil u us),
        joinWith_cons (List.cons_ne_nil u us)]
      simp only [List.append_assoc]

/-- Words of two lists are joined by joining those of each list first, unless it has none. -/
theorem joinWith_append_filter (sep : List Char) (hws : [] ∉ ws) (hvs : [] ∉ vs) :
    joinWith sep (ws ++ vs) =
      joinWith sep ([joinWith sep ws, joinWith sep vs].filter (!·.isEmpty)) := by
  by_cases hw : ws = []
  · by_cases hv : vs = []
    · rw [hw, hv]
      rfl
    · have hne : joinWith sep vs ≠ [] := by rwa [Ne, joinWith_eq_nil_iff sep hvs]
      simp [hw, hne, joinWith]
  · have hne : joinWith sep ws ≠ [] := by rwa [Ne, joinWith_eq_nil_iff sep hws]
    by_cases hv : vs = []
    · simp [hv, hne, joinWith]
    · have hne' : joinWith sep vs ≠ [] := by rwa [Ne, joinWith_eq_nil_iff sep hvs]
      rw [joinWith_append sep hw hv]
      simp [hne, hne', joinWith]

end

/-! ## Characters of slugs -/

section

variable {c : Char}

theorem toNat_of_isSlugChar (h : isSlugChar c = true) :
    (48 ≤ c.toNat ∧ c.toNat ≤ 57) ∨ (97 ≤ c.toNat ∧ c.toNat ≤ 122) := by
  simp only [isSlugChar, Char.isDigit, Bool.or_eq_true, Bool.and_eq_true, decide_eq_true_eq] at h
  rcases h with ⟨hlo, hhi⟩ | ⟨hlo, hhi⟩
  · exact Or.inl ⟨hlo, hhi⟩
  · exact Or.inr ⟨hlo, hhi⟩

theorem ascii_of_isSlugChar (h : isSlugChar c = true) : c.val < 128 := by
  have hrange := toNat_of_isSlugChar h
  have hlt : c.toNat < 128 := by omega
  exact hlt

theorem toLower_of_isSlugChar (h : isSlugChar c = true) : c.toLower = c := by
  have hrange := toNat_of_isSlugChar h
  have hupper : ¬(c.val ≥ 'A'.val ∧ c.val ≤ 'Z'.val) := by
    rintro ⟨hlo, hhi⟩
    have hlo : 65 ≤ c.toNat := hlo
    have hhi : c.toNat ≤ 90 := hhi
    omega
  exact dif_neg hupper

end

/-! ## Slugs -/

section

variable {text w : List Char}

theorem isRun_of_mem_slugWords (h : w ∈ slugWords text) : IsRun isSlugChar w :=
  isRun_of_mem_runsWhere h

theorem nil_notMem_slugWords (text : List Char) : [] ∉ slugWords text := by
  intro h
  exact (isRun_of_mem_slugWords h).1 rfl

/-- A slug is not changed by folding, nor by lower case. -/
theorem slugWords_slug (text : List Char) : slugWords (slug text) = slugWords text := by
  have hchars : ∀ c ∈ slug text, c = '-' ∨ isSlugChar c = true := by
    intro c hc
    rcases mem_joinWith hc with hsep | ⟨w, hw, hcw⟩
    · exact Or.inl (List.mem_singleton.mp hsep)
    · exact Or.inr ((isRun_of_mem_slugWords hw).2 c hcw)
  have hascii : ∀ c ∈ slug text, c.val < 128 := by
    intro c hc
    rcases hchars c hc with rfl | hslug
    · decide
    · exact ascii_of_isSlugChar hslug
  have hlower : (slug text).map Char.toLower = slug text := by
    rw [List.map_congr_left (g := id), List.map_id]
    intro c hc
    rcases hchars c hc with rfl | hslug
    · rfl
    · exact toLower_of_isSlugChar hslug
  rw [slugWords, fold_of_ascii _ hascii, hlower, slug]
  exact runsWhere_joinWith (by decide) fun w hw => isRun_of_mem_slugWords hw

theorem slugWords_append (s t : List Char) :
    slugWords (s ++ '-' :: t) = slugWords s ++ slugWords t := by
  have hfold : fold (s ++ '-' :: t) = fold s ++ '-' :: fold t := by
    rw [fold_append]
    rfl
  rw [slugWords, hfold, List.map_append, List.map_cons]
  exact runsWhere_append (by decide) _ _

theorem slug_append (s t : List Char) :
    slug (s ++ '-' :: t) = joinWith ['-'] ([slug s, slug t].filter (!·.isEmpty)) := by
  rw [slug, slugWords_append]
  exact joinWith_append_filter _ (nil_notMem_slugWords s) (nil_notMem_slugWords t)

theorem slugify_eq (text : String) : slugify text "" = String.ofList (slug text.toList) := by
  unfold slugify
  dsimp only
  split
  · next h => rw [List.isEmpty_iff.mp h]
  · rfl

theorem ofList_joinWith (ws : List (List Char)) :
    String.ofList (joinWith ['-'] ws) = "-".intercalate (ws.map String.ofList) := by
  apply String.toList_injective
  rw [String.toList_ofList, joinWith_eq_intercalate, String.toList_intercalate, List.map_map]
  simp [Function.comp_def]

theorem filter_map_ofList (ws : List (List Char)) :
    (ws.map String.ofList).filter (· ≠ "") = (ws.filter (!·.isEmpty)).map String.ofList := by
  rw [List.filter_map]
  congr 2
  funext w
  cases w <;> simp

/-- A slug is empty or made of words with single hyphens between them. Slugs are not changed by
making slugs of them, and the slug of two texts with a hyphen between them is made of theirs. -/
theorem slugify_is_words :
    (∀ text, ∃ words : List String, (∀ w ∈ words, IsRun isSlugChar w.toList) ∧
      slugify text "" = "-".intercalate words) ∧
    (∀ text, slugify (slugify text "") "" = slugify text "") ∧
    ∀ s t, slugify (s ++ "-" ++ t) "" =
      "-".intercalate ([slugify s "", slugify t ""].filter (· ≠ "")) := by
  refine ⟨?_, ?_, ?_⟩
  · intro text
    refine ⟨(slugWords text.toList).map String.ofList, ?_, ?_⟩
    · intro w hw
      obtain ⟨w, hmem, rfl⟩ := List.mem_map.mp hw
      rw [String.toList_ofList]
      exact isRun_of_mem_slugWords hmem
    · rw [slugify_eq, slug, ofList_joinWith]
  · intro text
    rw [slugify_eq, slugify_eq, String.toList_ofList, slug, slugWords_slug, ← slug]
  · intro s t
    have htext : (s ++ "-" ++ t).toList = s.toList ++ '-' :: t.toList := by simp
    have hslugs : [slugify s "", slugify t ""] =
        [slug s.toList, slug t.toList].map String.ofList := by
      rw [slugify_eq, slugify_eq]
      rfl
    rw [slugify_eq, htext, slug_append, ofList_joinWith, hslugs, filter_map_ofList]

end

end DocumentMedia.Text
