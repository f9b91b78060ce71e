import DocumentMedia.Proofs.Asset.Identifier

/-! # Titles of documents

The identifier of a document as the pieces of its path tell it: below the last content root that
stands in the path or, where there is none, the name alone; in either case without the extension.
The pieces of the identifier are those of the title, so identifiers are as different as titles are.
-/
namespace DocumentMedia.Asset

open DocumentMedia.Files
open DocumentMedia.Files.Path (piecesOf piecesOf_append piecesOf_inj)
open DocumentMedia.Text

/-! ## The last place of a marker -/

section

variable {m s r : List Char}

theorem suffix_of_afterLast? (h : afterLast? m s = some r) : m ++ r <:+ s := by
  induction s with
  | nil =>
    rw [afterLast?] at h
    split at h
    · next hm =>
      cases h
      rw [List.isEmpty_iff.mp hm, List.nil_append]
    · cases h
  | cons c s ih =>
    rw [afterLast?] at h
    split at h
    · next r' hr =>
      cases h
      exact (ih hr).trans (List.suffix_cons c s)
    · rw [dropHead?_eq_some.mp h]

theorem afterLast?_of_suffix (h : m ++ r <:+ s) :
    ∃ r', afterLast? m s = some r' ∧ r'.length ≤ r.length := by
  induction s with
  | nil =>
    obtain ⟨rfl, rfl⟩ := List.append_eq_nil_iff.mp (List.suffix_nil.mp h)
    exact ⟨[], rfl, le_rfl⟩
  | cons c s ih =>
    rcases List.suffix_cons_iff.mp h with hall | htail
    · rw [afterLast?]
      cases hlast : afterLast? m s with
      | none => exact ⟨r, dropHead?_eq_some.mpr hall.symm, le_rfl⟩
      | some r' =>
        have hle := (suffix_of_afterLast? hlast).length_le
        have hlength := congrArg List.length hall
        rw [List.length_append] at hle hlength
        rw [List.length_cons] at hlength
        exact ⟨r', rfl, by omega⟩
    · obtain ⟨r', hr, hle⟩ := ih htail
      exact ⟨r', by rw [afterLast?, hr], hle⟩

theorem afterLast?_eq_none : afterLast? m s = none ↔ ∀ r, ¬ m ++ r <:+ s := by
  constructor
  · intro h r hr
    obtain ⟨r', hr', -⟩ := afterLast?_of_suffix hr
    rw [h] at hr'
    cases hr'
  · intro h
    cases hlast : afterLast? m s with
    | none => rfl
    | some r => exact absurd (suffix_of_afterLast? hlast) (h r)

/-- The last place of a marker is the one after whose first character there is none. -/
theorem afterLast?_eq_some (hm : m ≠ []) : afterLast? m s = some r ↔
    m ++ r <:+ s ∧ ∀ r', ¬ m ++ r' <:+ (m ++ r).tail := by
  have hpos := List.length_pos_iff.mpr hm
  constructor
  · intro h
    have hplace := suffix_of_afterLast? h
    refine ⟨hplace, fun r' hr' => ?_⟩
    have hlength := hr'.length_le
    obtain ⟨r'', hr'', hle⟩ := afterLast?_of_suffix ((hr'.trans (List.tail_suffix _)).trans hplace)
    rw [h] at hr''
    cases hr''
    rw [List.length_tail, List.length_append, List.length_append] at hlength
    omega
  · rintro ⟨hplace, hlater⟩
    obtain ⟨r', hr', hle⟩ := afterLast?_of_suffix hplace
    have hplace' := suffix_of_afterLast? hr'
    rcases Nat.lt_or_eq_of_le hle with hlt | hlength
    · refine absurd (List.suffix_of_suffix_length_le hplace' ((List.tail_suffix _).trans hplace) ?_)
        (hlater r')
      rw [List.length_tail, List.length_append, List.length_append]
      omega
    · have hends := List.suffix_of_suffix_length_le hplace' hplace (by simp [hlength])
      rw [hr', List.append_cancel_left (hends.eq_of_length (by simp [hlength]))]

end

/-! ## Content roots in paths -/

def rootPieces (root : String) : List (List Char) := piecesOf (trimSlashes root.toList)

/-- A content root with the slashes around it. -/
def marker (root : String) : List Char := '/' :: trimSlashes root.toList ++ ['/']

section

variable {root : String} {s r name : List Char} {before folders : List (List Char)}

theorem marker_ne_nil (root : String) : marker root ≠ [] := List.cons_ne_nil _ _

theorem marker_append (root : String) (r : List Char) :
    marker root ++ r = '/' :: (trimSlashes root.toList ++ '/' :: r) := by
  simp [marker]

theorem piecesOf_root_append (root : String) (r : List Char) :
    piecesOf (trimSlashes root.toList ++ '/' :: r) = rootPieces root ++ piecesOf r :=
  piecesOf_append _ _

/-- The marker stands in a text where the pieces of the root stand among its pieces, though not at
their beginning. -/
theorem marker_suffix_iff : marker root ++ r <:+ s ↔
    ∃ before, before ≠ [] ∧ piecesOf s = before ++ (rootPieces root ++ piecesOf r) := by
  rw [marker_append]
  constructor
  · rintro ⟨u, rfl⟩
    exact ⟨piecesOf u, Path.piecesOf_ne_nil u, by rw [piecesOf_append, piecesOf_root_append]⟩
  · rintro ⟨before, hb, hs⟩
    obtain ⟨u, v, rfl, -, hv⟩ := Path.exists_of_piecesOf_append hs hb
      (List.append_ne_nil_of_right_ne_nil _ (Path.piecesOf_ne_nil r))
    rw [← piecesOf_root_append, piecesOf_inj] at hv
    exact ⟨u, by rw [hv]⟩

theorem stands_iff (hs : piecesOf s = folders ++ [name]) :
    (∃ r, marker root ++ r <:+ s) ↔ rootPieces root <:+: folders.tail := by
  -- The marker begins with a slash, so the first piece is never a part of it.
  constructor
  · rintro ⟨r, hr⟩
    obtain ⟨before, hb, hsplit⟩ := marker_suffix_iff.mp hr
    obtain ⟨inner, last, hinner⟩ := Path.exists_piecesOf_concat r
    rw [hs, hinner, ← List.append_assoc, ← List.append_assoc, List.append_singleton_inj,
      List.append_assoc] at hsplit
    rw [hsplit.1, List.tail_append_of_ne_nil hb]
    exact ⟨before.tail, inner, List.append_assoc _ _ _⟩
  · rintro ⟨x, y, hxy⟩
    cases folders with
    | nil =>
      rw [List.tail_nil, List.append_eq_nil_iff, List.append_eq_nil_iff] at hxy
      exact absurd hxy.1.2 (Path.piecesOf_ne_nil _)
    | cons f fs =>
      rw [List.tail_cons] at hxy
      have hsplit : piecesOf s = (f :: x ++ rootPieces root) ++ (y ++ [name]) := by
        rw [hs, ← hxy]
        simp
      obtain ⟨r, hr⟩ := Path.exists_piecesOf_end hsplit (by simp)
      refine ⟨r, marker_suffix_iff.mpr ⟨f :: x, List.cons_ne_nil f x, ?_⟩⟩
      rw [hsplit, hr, List.append_assoc]

/-- Behind a content root there is another where the pieces say so. -/
theorem again_iff (hr : piecesOf r = folders ++ [name]) :
    (∃ r', marker root ++ r' <:+ (marker root ++ r).tail) ↔
      rootPieces root <:+: (rootPieces root ++ folders).tail := by
  have hpieces : piecesOf (marker root ++ r).tail = (rootPieces root ++ folders) ++ [name] := by
    rw [marker_append, List.tail_cons, piecesOf_root_append, hr, List.append_assoc]
  exact stands_iff hpieces

/-- What is left below a content root after which there is none. -/
theorem partBelow_below (hb : before ≠ [])
    (hlast : ¬ rootPieces root <:+: (rootPieces root ++ folders).tail)
    (hs : piecesOf s = before ++ (rootPieces root ++ (folders ++ [name]))) :
    piecesOf (partBelow root s) = folders ++ [name] := by
  have hsplit : piecesOf s = (before ++ rootPieces root) ++ (folders ++ [name]) := by
    rw [hs, List.append_assoc]
  obtain ⟨r, hr⟩ := Path.exists_piecesOf_end hsplit (by simp)
  have hplace : marker root ++ r <:+ s := marker_suffix_iff.mpr ⟨before, hb, by rw [hs, hr]⟩
  have hlater : ∀ r', ¬ marker root ++ r' <:+ (marker root ++ r).tail :=
    fun r' hr' => hlast ((again_iff hr).mp ⟨r', hr'⟩)
  unfold partBelow
  rw [← marker, (afterLast?_eq_some (marker_ne_nil root)).mpr ⟨hplace, hlater⟩, Option.getD_some,
    hr]

/-- What is left outside of content roots. -/
theorem partBelow_outside (hout : ¬ rootPieces root <:+: folders.tail)
    (hs : piecesOf s = folders ++ [name]) : piecesOf (partBelow root s) = [name] := by
  have hname : '/' ∉ name := Path.notMem_of_mem_piecesOf (s := s) (by rw [hs]; simp)
  have hnone : afterLast? (marker root) s = none :=
    afterLast?_eq_none.mpr fun r hr => hout ((stands_iff hs).mp ⟨r, hr⟩)
  unfold partBelow
  rw [← marker, hnone, Option.getD_none, Path.takeWhile_reverse_piece hs, Path.piecesOf_plain hname]

end

/-! ## Titles -/

/-- The title of a document with these pieces in its path. -/
inductive Title (root : List (List Char)) : List (List Char) → List (List Char) → Prop where
  /-- Below the last content root. -/
  | below {before folders stem ext} (hb : before ≠ [])
      (hlast : ¬ root <:+: (root ++ folders).tail) (he : IsDocumentExt ext) :
      Title root (before ++ (root ++ (folders ++ [stem ++ ext]))) (folders ++ [stem])
  /-- Outside of content roots. -/
  | outside {folders stem ext} (hout : ¬ root <:+: folders) (he : IsDocumentExt ext) :
      Title root (folders ++ [stem ++ ext]) [stem]

theorem piecesOf_withoutDocumentExt {s stem ext : List Char} {folders : List (List Char)}
    (he : IsDocumentExt ext) (hs : piecesOf s = folders ++ [stem ++ ext]) :
    piecesOf (withoutDocumentExt s) = folders ++ [stem] := by
  have hplain : ∀ w ∈ folders ++ [stem ++ ext], '/' ∉ w := by
    rw [← hs]
    exact fun w => Path.notMem_of_mem_piecesOf
  have hshort : ∀ w ∈ folders ++ [stem], '/' ∉ w := by
    rw [List.forall_mem_append, List.forall_mem_singleton] at hplain ⊢
    exact ⟨hplain.1, fun hc => hplain.2 (List.mem_append_left _ hc)⟩
  obtain ⟨x, hx⟩ := Path.exists_piecesOf (by simp) hshort
  have hsplit : s = x ++ ext := by
    rw [← piecesOf_inj, hs, Path.piecesOf_append_plain hx (he.notMem (by decide))]
  rw [hsplit, withoutDocumentExt_append _ he, hx]

/-- A path has the title as its identifier. -/
theorem Title.piecesOf_postId {path root : String} {title : List (List Char)}
    (h : Title (rootPieces root) (piecesOf (slashed path.toList)) title) :
    piecesOf (postId path root).toList = title := by
  rw [postId_eq, String.toList_ofList]
  generalize hs : piecesOf (slashed path.toList) = ps at h
  cases h with
  | below hb hlast he => exact piecesOf_withoutDocumentExt he (partBelow_below hb hlast hs)
  | @outside folders stem ext hout he =>
    have houter := fun h => hout (List.IsInfix.trans h (List.tail_suffix _).isInfix)
    have hname : piecesOf (partBelow root (slashed path.toList)) = [] ++ [stem ++ ext] :=
      partBelow_outside houter hs
    exact piecesOf_withoutDocumentExt he hname

/-- What ends in an extension of documents has a title, unless a content root stands at the very
beginning and nowhere else. -/
theorem exists_title {root : String} {s stem ext : List Char} {folders : List (List Char)}
    (hs : piecesOf s = folders ++ [stem ++ ext]) (he : IsDocumentExt ext)
    (hfirst : rootPieces root <+: folders → rootPieces root <:+: folders.tail) :
    ∃ title, Title (rootPieces root) (piecesOf s) title := by
  cases h : afterLast? (marker root) s with
  | none =>
    have hinner : ¬ rootPieces root <:+: folders.tail := by
      intro hin
      obtain ⟨r, hr⟩ := (stands_iff hs).mpr hin
      exact afterLast?_eq_none.mp h r hr
    have hout : ¬ rootPieces root <:+: folders := by
      rintro ⟨x, y, hxy⟩
      cases x with
      | nil =>
        -- Only a root at the very beginning escapes the search for the marker.
        exact hinner (hfirst ⟨y, hxy⟩)
      | cons f x => exact hinner ⟨x, y, by rw [← hxy]; rfl⟩
    rw [hs]
    exact ⟨_, .outside hout he⟩
  | some r =>
    obtain ⟨hplace, hlater⟩ := (afterLast?_eq_some (marker_ne_nil root)).mp h
    obtain ⟨before, hb, hsplit⟩ := marker_suffix_iff.mp hplace
    obtain ⟨inner, last, hinner⟩ := Path.exists_piecesOf_concat r
    have hlast : ¬ rootPieces root <:+: (rootPieces root ++ inner).tail := by
      intro hin
      obtain ⟨r', hr'⟩ := (again_iff hinner).mpr hin
      exact hlater r' hr'
    have hname : last = stem ++ ext := by
      rw [hs, hinner, ← List.append_assoc, ← List.append_assoc, List.append_singleton_inj] at hsplit
      exact hsplit.2.symm
    rw [hsplit, hinner, hname]
    exact ⟨_, .below hb hlast he⟩

end DocumentMedia.Asset
