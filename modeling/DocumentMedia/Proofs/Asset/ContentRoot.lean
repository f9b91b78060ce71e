import DocumentMedia.Proofs.Asset.Title

/-! # Content roots in the paths of documents

What a path tells below a content root, for every content root and every path: the pieces behind the
last place of the root, at the beginning of the path as well as further on, else the name. The
identifier is that text without the extension of a document, but for two kinds of paths. -/
namespace DocumentMedia.Asset

open DocumentMedia.Files
open DocumentMedia.Files.Path (piecesOf piecesOf_inj intercalate_piecesOf)
open DocumentMedia.Text

/-! ## Extensions at the end of a text -/

/-- A text, and what is left of it without the extension of a document at its end. -/
inductive WithoutExt : List Char → List Char → Prop where
  | dropped {stem ext} (he : IsDocumentExt ext) : WithoutExt (stem ++ ext) stem
  | kept {s} (hs : ∀ stem ext, IsDocumentExt ext → s ≠ stem ++ ext) : WithoutExt s s

/-- The extension of a document stands before one line feed at the end. -/
def ExtBeforeBreak (s : List Char) : Prop :=
  ∃ stem ext, IsDocumentExt ext ∧ s = stem ++ ext ++ ['\n']

section

variable {s t : List Char}

theorem exists_withoutExt (s : List Char) : ∃ t, WithoutExt s t := by
  by_cases hs : ∃ stem ext, IsDocumentExt ext ∧ s = stem ++ ext
  · obtain ⟨stem, ext, he, rfl⟩ := hs
    exact ⟨stem, .dropped he⟩
  · exact ⟨s, .kept fun stem ext he h => hs ⟨stem, ext, he, h⟩⟩

theorem dropLastBreak_cases (s : List Char) :
    dropLastBreak s = s ∨ s = dropLastBreak s ++ ['\n'] := by
  unfold dropLastBreak
  split
  · next r hr =>
    right
    rw [← List.reverse_cons, ← hr, List.reverse_reverse]
  · exact Or.inl rfl

theorem withoutDocumentExt_break {stem ext : List Char} (he : IsDocumentExt ext) :
    withoutDocumentExt (stem ++ ext ++ ['\n']) = stem ++ ['\n'] := by
  have hbreak : dropLastBreak (stem ++ ext ++ ['\n']) = stem ++ ext := by simp [dropLastBreak]
  rw [withoutDocumentExt_eq, hbreak, findSome?_beforeWord? stem he]
  simp

theorem withoutDocumentExt_kept (hs : ∀ stem ext, IsDocumentExt ext → s ≠ stem ++ ext)
    (hb : ¬ ExtBeforeBreak s) : withoutDocumentExt s = s := by
  rw [withoutDocumentExt_eq]
  cases hcut : documentWords.findSome? fun w => beforeWord? w.toList (dropLastBreak s) with
  | none => rfl
  | some front =>
    obtain ⟨w, hw, hfront⟩ := List.exists_of_findSome?_eq_some hcut
    obtain ⟨r, hcore, hr⟩ := beforeWord?_eq_some.mp hfront
    have he : IsDocumentExt ('.' :: r) := ⟨w, hw, r, rfl, hr⟩
    rcases dropLastBreak_cases s with h | h
    · exact absurd (h ▸ hcore) (hs front _ he)
    · exact absurd ⟨front, _, he, by rw [← hcore, ← h]⟩ hb

theorem IsDocumentExt.ne_nil {ext : List Char} (he : IsDocumentExt ext) : ext ≠ [] := by
  obtain ⟨w, -, r, rfl, -⟩ := he
  exact List.cons_ne_nil _ _

/-- The extension is dropped as it should be, except in front of a line feed. -/
theorem withoutDocumentExt_iff (h : WithoutExt s t) :
    withoutDocumentExt s = t ↔ ¬ ExtBeforeBreak s := by
  cases h with
  | @dropped _ ext he =>
    refine iff_of_true (withoutDocumentExt_append _ he) ?_
    rintro ⟨stem', ext', -, hs⟩
    have hlast := congrArg List.getLast? hs
    rw [List.getLast?_append_of_ne_nil _ he.ne_nil, List.getLast?_concat] at hlast
    exact he.notMem (by decide) (List.mem_of_getLast? hlast)
  | kept hs =>
    constructor
    · rintro hkept ⟨stem, ext, he, rfl⟩
      rw [withoutDocumentExt_break he] at hkept
      have hlength := congrArg List.length hkept
      have hpos := List.length_pos_iff.mpr he.ne_nil
      simp only [List.length_append, List.length_singleton] at hlength
      omega
    · exact withoutDocumentExt_kept hs

theorem WithoutExt.mem_iff (h : WithoutExt s t) {c : Char} (hc : c ∈ ['/', '\\', '\n']) :
    c ∈ t ↔ c ∈ s := by
  cases h with
  | dropped he => simp [he.notMem hc]
  | kept => rfl

theorem slash_notMem_withoutDocumentExt (h : '/' ∉ s) : '/' ∉ withoutDocumentExt s := by
  obtain ⟨t, ht⟩ := exists_withoutExt s
  by_cases hb : ExtBeforeBreak s
  · obtain ⟨stem, ext, he, rfl⟩ := hb
    rw [withoutDocumentExt_break he]
    simp only [List.mem_append, not_or] at h ⊢
    exact ⟨h.1.1, h.2⟩
  · rw [(withoutDocumentExt_iff ht).mpr hb, ht.mem_iff (by decide)]
    exact h

end

/-! ## What a path tells -/

/-- What a path of these pieces tells below a content root: what follows the last place of the root
in front of something, else the name. -/
inductive Told (root : List (List Char)) : List (List Char) → List (List Char) → Prop where
  /-- No place of the root begins behind this one. -/
  | below {before folders name} (hlast : ¬ root <:+: (root ++ folders).tail) :
      Told root (before ++ (root ++ (folders ++ [name]))) (folders ++ [name])
  | outside {folders name} (hout : ¬ root <:+: folders) : Told root (folders ++ [name]) [name]

/-- The root stands at the very beginning of the folders, and nowhere else among them. -/
def OnlyFirst (root ps : List (List Char)) : Prop :=
  root <+: ps.dropLast ∧ ¬ root <:+: ps.dropLast.tail

instance (root ps : List (List Char)) : Decidable (OnlyFirst root ps) :=
  inferInstanceAs (Decidable (_ ∧ _))

section

variable {root ps folders : List (List Char)} {name : List Char}

theorem exists_last_place (hroot : root ≠ []) (h : root <:+: folders) :
    ∃ before inner, folders = before ++ (root ++ inner) ∧ ¬ root <:+: (root ++ inner).tail := by
  induction folders with
  | nil => exact absurd (List.infix_nil.mp h) hroot
  | cons f fs ih =>
    by_cases hlater : root <:+: fs
    · obtain ⟨before, inner, rfl, hlast⟩ := ih hlater
      exact ⟨f :: before, inner, rfl, hlast⟩
    · obtain ⟨inner, hinner⟩ := (List.infix_cons_iff.mp h).resolve_right hlater
      exact ⟨[], inner, hinner.symm, by rwa [hinner]⟩

theorem exists_told (hroot : root ≠ []) (hps : ps ≠ []) : ∃ told, Told root ps told := by
  rw [← List.dropLast_concat_getLast hps]
  generalize ps.dropLast = folders, ps.getLast hps = name
  by_cases hin : root <:+: folders
  · obtain ⟨before, inner, rfl, hlast⟩ := exists_last_place hroot hin
    rw [List.append_assoc, List.append_assoc]
    exact ⟨_, .below hlast⟩
  · exact ⟨[name], .outside hin⟩

theorem eq_nil_of_onlyFirst {before : List (List Char)}
    (h : OnlyFirst root (before ++ (root ++ (folders ++ [name])))) : before = [] := by
  obtain ⟨-, hnot⟩ := h
  cases before with
  | nil => rfl
  | cons f before =>
    refine absurd ⟨before, folders, ?_⟩ hnot
    rw [← List.append_assoc root, ← List.append_assoc, List.dropLast_concat, List.cons_append,
      List.tail_cons, List.append_assoc]

end

section

variable {root : String} {s : List Char} {told : List (List Char)}

theorem exists_told_path (root : String) (s : List Char) :
    ∃ told, Told (rootPieces root) (piecesOf s) told :=
  exists_told (Path.piecesOf_ne_nil _) (Path.piecesOf_ne_nil _)

/-- The part below the root is what the path tells, but for a root at the beginning. -/
theorem partBelow_of_told (h : Told (rootPieces root) (piecesOf s) told)
    (hfirst : ¬ OnlyFirst (rootPieces root) (piecesOf s)) :
    piecesOf (partBelow root s) = told := by
  generalize hs : piecesOf s = ps at h hfirst
  cases h with
  | @below before folders name hlast =>
    refine partBelow_below ?_ hlast hs
    rintro rfl
    refine hfirst ⟨?_, ?_⟩ <;> rw [List.nil_append, ← List.append_assoc, List.dropLast_concat]
    · exact List.prefix_append _ _
    · exact hlast
  | outside hout =>
    exact partBelow_outside (fun h => hout (h.trans (List.tail_suffix _).isInfix)) hs

/-- Below a root at the beginning only the name is left. -/
theorem partBelow_of_onlyFirst (h : Told (rootPieces root) (piecesOf s) told)
    (hfirst : OnlyFirst (rootPieces root) (piecesOf s)) :
    ∃ folders name, told = folders ++ [name] ∧ piecesOf (partBelow root s) = [name] := by
  generalize hs : piecesOf s = ps at h hfirst
  cases h with
  | @below before folders name hlast =>
    obtain rfl := eq_nil_of_onlyFirst hfirst
    rw [List.nil_append, ← List.append_assoc] at hs hfirst
    rw [OnlyFirst, List.dropLast_concat] at hfirst
    exact ⟨folders, name, rfl, partBelow_outside hfirst.2 hs⟩
  | @outside folders name hout =>
    rw [OnlyFirst, List.dropLast_concat] at hfirst
    exact absurd hfirst.1.isInfix hout

/-- The identifier of a document is what its path tells, without the extension of a document, unless
a content root stands at the very beginning of the path only and more than a name follows, or a line
feed follows the extension. -/
theorem postId_tells {path root : String} {told : List (List Char)} {id : List Char}
    (htold : Told (rootPieces root) (piecesOf (slashed path.toList)) told)
    (hid : WithoutExt (['/'].intercalate told) id) :
    postId path root = String.ofList id ↔
      ¬ (OnlyFirst (rootPieces root) (piecesOf (slashed path.toList)) ∧ 1 < told.length) ∧
        ¬ ExtBeforeBreak (['/'].intercalate told) := by
  have htext : postId path root = String.ofList id ↔
      withoutDocumentExt (partBelow root (slashed path.toList)) = id := by
    rw [postId_eq, String.ofList_inj]
  rw [htext]
  by_cases hfirst : OnlyFirst (rootPieces root) (piecesOf (slashed path.toList))
  · obtain ⟨folders, name, rfl, hpart⟩ := partBelow_of_onlyFirst htold hfirst
    have hname : partBelow root (slashed path.toList) = name := by
      rw [← intercalate_piecesOf (partBelow root _), hpart, List.intercalate_singleton]
    rw [hname]
    cases folders with
    | nil =>
      rw [List.nil_append, List.intercalate_singleton] at hid ⊢
      simpa using withoutDocumentExt_iff hid
    | cons f fs =>
      -- The identifier is the name alone and has no slash.
      have hslash : '/' ∈ id := by
        rw [hid.mem_iff (by decide), List.cons_append, List.intercalate_cons_of_ne_nil (by simp)]
        simp
      have hplain : '/' ∉ withoutDocumentExt name := slash_notMem_withoutDocumentExt
        (Path.notMem_of_mem_piecesOf (s := partBelow root (slashed path.toList)) (by rw [hpart]; simp))
      refine iff_of_false (fun h => hplain (h ▸ hslash)) fun h => h.1 ⟨hfirst, ?_⟩
      simp
  · have hpart : partBelow root (slashed path.toList) = ['/'].intercalate told := by
      rw [← partBelow_of_told htold hfirst, intercalate_piecesOf]
    rw [hpart, withoutDocumentExt_iff hid]
    exact ⟨fun h => ⟨fun hno => hfirst hno.1, h⟩, fun h => h.2⟩

theorem postId_tells_sample :
    Told (rootPieces "src/content") (piecesOf (slashed "/x/src/content/src\\content/b/a.MDX".toList))
        ["b".toList, "a.MDX".toList] ∧
      postId "/x/src/content/src\\content/b/a.MDX" "src/content" = "b/a" := by
  have hpieces : piecesOf (slashed "/x/src/content/src\\content/b/a.MDX".toList) =
      [[], "x".toList, "src".toList, "content".toList] ++ (rootPieces "src/content" ++
        (["b".toList] ++ ["a.MDX".toList])) := by
    decide +kernel
  have htold : Told (rootPieces "src/content")
      (piecesOf (slashed "/x/src/content/src\\content/b/a.MDX".toList))
      ["b".toList, "a.MDX".toList] := by
    rw [hpieces]
    exact .below (by decide +kernel)
  have htext : ['/'].intercalate ["b".toList, "a.MDX".toList] = "b/a".toList ++ ".MDX".toList := by
    decide
  have hid : WithoutExt (['/'].intercalate ["b".toList, "a.MDX".toList]) "b/a".toList := by
    rw [htext]
    exact .dropped (by decide)
  refine ⟨htold, (postId_tells htold hid).mpr ⟨?_, ?_⟩⟩
  · decide +kernel
  · rintro ⟨stem, ext, -, h⟩
    have hlast := congrArg List.getLast? h
    rw [List.getLast?_concat] at hlast
    exact absurd hlast (by decide)

/-- A content root at the beginning of a path is missed. -/
theorem first_root_is_missed :
    Told (rootPieces "src/content") (piecesOf (slashed "src/content/blog/a.md".toList))
        ["blog".toList, "a.md".toList] ∧
      WithoutExt (['/'].intercalate ["blog".toList, "a.md".toList]) "blog/a".toList ∧
      postId "src/content/blog/a.md" "src/content" = "a" := by
  have hpieces : piecesOf (slashed "src/content/blog/a.md".toList) =
      [] ++ (rootPieces "src/content" ++ (["blog".toList] ++ ["a.md".toList])) := by
    decide +kernel
  have htext : ['/'].intercalate ["blog".toList, "a.md".toList] =
      "blog/a".toList ++ ".md".toList := by
    decide
  refine ⟨?_, ?_, by decide +kernel⟩
  · rw [hpieces]
    exact .below (by decide +kernel)
  · rw [htext]
    exact .dropped (by decide)

end

end DocumentMedia.Asset
