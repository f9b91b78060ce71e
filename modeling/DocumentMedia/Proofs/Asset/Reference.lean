import DocumentMedia.Asset.Reference
import DocumentMedia.Proofs.Text.Percent
import Mathlib.Data.List.Basic

/-! # What a reference may name

A local path is rooted or remote only when it is found inside its reference, behind a blank, a quote
or a bracket. Its percent codes make a rooted or remote path of it only when one of them is that of
a slash, or when one stands before a double slash. -/
namespace DocumentMedia.Asset

open DocumentMedia.Text

/-! ## Words in any case -/

theorem dropWord?_append {w s r : List Char} (h : dropWord? w s = some r) (t : List Char) :
    dropWord? w (s ++ t) = some (r ++ t) := by
  induction w generalizing s with
  | nil => cases h; rfl
  | cons p ps ih =>
    cases s with
    | nil => cases h
    | cons c cs =>
      rw [dropWord?] at h
      rw [List.cons_append, dropWord?]
      split at h
      · next hm =>
        rw [if_pos hm]
        exact ih h
      · cases h

theorem dropWord?_split {w s r : List Char} (h : dropWord? w s = some r) :
    ∃ x, s = x ++ r ∧ dropWord? w x = some [] ∧ x.length = w.length := by
  induction w generalizing s with
  | nil => cases h; exact ⟨[], rfl, rfl, rfl⟩
  | cons p ps ih =>
    cases s with
    | nil => cases h
    | cons c cs =>
      rw [dropWord?] at h
      split at h
      · next hm =>
        obtain ⟨x, rfl, hx, hlen⟩ := ih h
        exact ⟨c :: x, rfl, by rw [dropWord?, if_pos hm, hx], congrArg Nat.succ hlen⟩
      · cases h

theorem notMem_of_dropWord? {w x : List Char} {c : Char} (h : dropWord? w x = some [])
    (hc : ∀ p ∈ w, matchesLetter p c = false) : c ∉ x := by
  induction w generalizing x with
  | nil => cases h; exact List.not_mem_nil
  | cons p ps ih =>
    rw [List.forall_mem_cons] at hc
    cases x with
    | nil => exact List.not_mem_nil
    | cons d x =>
      rw [dropWord?] at h
      split at h
      · next hm =>
        rw [List.mem_cons, not_or]
        refine ⟨?_, ih h hc.2⟩
        rintro rfl
        rw [hc.1] at hm
        cases hm
      · cases h

/-! ## Words behind a point -/

/-- What stands before a point and a word at the end of a text. -/
def beforeWord? (w s : List Char) : Option (List Char) :=
  match s.drop (s.length - (w.length + 1)) with
  | '.' :: r =>
    if dropWord? w r = some [] then some (s.take (s.length - (w.length + 1))) else none
  | _ => none

theorem beforeWord?_eq_some {w s front : List Char} : beforeWord? w s = some front ↔
    ∃ r, s = front ++ '.' :: r ∧ dropWord? w r = some [] := by
  constructor
  · intro h
    unfold beforeWord? at h
    split at h
    · next r hr =>
      split at h
      · next hword =>
        cases h
        exact ⟨r, by rw [← hr, List.take_append_drop], hword⟩
      · cases h
    · cases h
  · rintro ⟨r, rfl, hr⟩
    obtain ⟨x, hx, -, hlength⟩ := dropWord?_split hr
    rw [List.append_nil] at hx
    have hcount : (front ++ '.' :: r).length - (w.length + 1) = front.length := by
      rw [List.length_append, List.length_cons, hx]
      omega
    simp only [beforeWord?, hcount, List.drop_left, List.take_left, hr, if_true]

def afterPoint (s : List Char) : List Char := (s.reverse.takeWhile (· ≠ '.')).reverse

theorem afterPoint_append (s : List Char) {r : List Char} (h : '.' ∉ r) :
    afterPoint (s ++ '.' :: r) = r := by
  have hreverse : (s ++ '.' :: r).reverse = r.reverse ++ '.' :: s.reverse := by simp
  rw [afterPoint, hreverse, takeWhile_run (ne_of_notMem (mt List.mem_reverse.mp h)) (by decide),
    List.reverse_reverse]

theorem length_afterPoint (s : List Char) {r : List Char} (h : '.' ∉ r) :
    r.length ≤ (afterPoint (s ++ r)).length := by
  rw [afterPoint, List.reverse_append,
    List.takeWhile_append_of_pos (ne_of_notMem (mt List.mem_reverse.mp h))]
  simp

theorem eq_of_points {s s' r r' : List Char} (h : s ++ '.' :: r = s' ++ '.' :: r') (hr : '.' ∉ r)
    (hr' : '.' ∉ r') : s = s' ∧ r = r' := by
  have hafter := congrArg afterPoint h
  rw [afterPoint_append _ hr, afterPoint_append _ hr'] at hafter
  subst hafter
  exact ⟨List.append_cancel_right h, rfl⟩

/-! ## Rooted and remote paths -/

/-- The start of a remote path up to the colon, in any case. -/
def IsScheme (s : List Char) : Prop :=
  dropWord? "http".toList s = some [] ∨
    ∃ c, matchesLetter 's' c = true ∧ dropWord? "http".toList s = some [c]

theorem IsScheme.slash {s : List Char} (h : IsScheme s) : '/' ∉ s := by
  have hhttp : ∀ p ∈ "http".toList, matchesLetter p '/' = false := forall_mem_of_all (by decide)
  rcases h with h | ⟨c, hc, h⟩
  · exact notMem_of_dropWord? h hhttp
  · obtain ⟨x, rfl, hx, -⟩ := dropWord?_split h
    have hne : c ≠ '/' := by
      rintro rfl
      exact absurd hc (by decide)
    simpa [hne.symm] using notMem_of_dropWord? hx hhttp

theorem isExternalText_iff {s : List Char} : isExternalText s = true ↔
    (∃ r, s = '/' :: r) ∨ ∃ scheme r, IsScheme scheme ∧ s = scheme ++ ':' :: '/' :: '/' :: r := by
  constructor
  · intro h
    unfold isExternalText at h
    split at h
    · next r => exact Or.inl ⟨r, rfl⟩
    · split at h
      · next r hr =>
        obtain ⟨x, rfl, hx, -⟩ := dropWord?_split hr
        right
        cases r with
        | nil => cases h
        | cons c r =>
          simp only at h
          split at h
          · next hc =>
            obtain ⟨r, rfl⟩ := List.isPrefixOf_iff_prefix.mp h
            refine ⟨x ++ [c], r, Or.inr ⟨c, hc, dropWord?_append hx [c]⟩, ?_⟩
            rw [List.append_assoc]
            rfl
          · obtain ⟨r', hr⟩ := List.isPrefixOf_iff_prefix.mp h
            exact ⟨x, r', Or.inl hx, by rw [← hr]; rfl⟩
      · cases h
  · rintro (⟨r, rfl⟩ | ⟨scheme, r, hscheme, rfl⟩)
    · rfl
    · unfold isExternalText
      split
      · rfl
      · rcases hscheme with h | ⟨c, hc, h⟩
        · rw [dropWord?_append h]
          rfl
        · rw [dropWord?_append h]
          simp only [List.cons_append, List.nil_append, if_pos hc]
          rfl

theorem isExternalText_of_start {s t : List Char} (h : s <+: t) (hs : isExternalText s = true) :
    isExternalText t = true := by
  obtain ⟨u, rfl⟩ := h
  rw [isExternalText_iff] at hs ⊢
  rcases hs with ⟨r, rfl⟩ | ⟨scheme, r, hscheme, rfl⟩
  · exact Or.inl ⟨r ++ u, rfl⟩
  · exact Or.inr ⟨scheme, r ++ u, hscheme, by simp⟩

theorem isExternalText_of_prefix {s t : List Char} (h : s <+: t) (ht : isExternalText t = false) :
    isExternalText s = false := by
  rw [Bool.eq_false_iff] at ht ⊢
  exact mt (isExternalText_of_start h) ht

/-! ## Names inside a reference -/

/-- A word that ends the names of media, in any case. -/
def IsMediaWord (x : List Char) : Prop := ∃ w ∈ mediaWords, dropWord? w x = some []

theorem extension?_spec {s e : List Char} (h : extension? s = some e) :
    e <+: s ∧ ∃ x, e = '.' :: x ∧ IsMediaWord x := by
  unfold extension? at h
  split at h
  · next s =>
    obtain ⟨w, hw, he⟩ := List.exists_of_findSome?_eq_some h
    obtain ⟨r, hr, rfl⟩ := Option.map_eq_some_iff.mp he
    obtain ⟨x, rfl, hx, hlen⟩ := dropWord?_split hr
    rw [← hlen, List.take_left]
    exact ⟨⟨r, rfl⟩, x, rfl, w, hw, hx⟩
  · cases h

theorem nameIn?_spec {before s n : List Char} (h : nameIn? before s = some n) :
    n <+: before.reverse ++ s ∧ ∃ stem x, n = stem ++ '.' :: x ∧ IsMediaWord x := by
  induction s generalizing before with
  | nil => cases before <;> cases h
  | cons c cs ih =>
    have next {before : List Char} (h : nameIn? (c :: before) cs = some n) :
        n <+: before.reverse ++ c :: cs ∧ ∃ stem x, n = stem ++ '.' :: x ∧ IsMediaWord x := by
      have hspec := ih h
      rwa [List.reverse_cons, List.append_assoc] at hspec
    cases before with
    | nil => exact next h
    | cons b before =>
      rw [nameIn?.eq_3 _ _ _ (List.cons_ne_nil _ _)] at h
      split at h
      · next e he =>
        cases h
        obtain ⟨hpre, x, rfl, hx⟩ := extension?_spec he
        exact ⟨(List.prefix_append_right_inj _).mpr hpre, _, x, rfl, hx⟩
      · exact next h

/-- The part of a reference in which a name is found; blanks, quotes and brackets part it. -/
def namedPart? (raw : String) : Option (List Char) :=
  (splitWhere isNameEnd (bare raw.toList)).find? fun w => (nameIn? [] w).isSome

theorem embeddedName?_spec {raw : String} {n : List Char}
    (h : embeddedName? (bare raw.toList) = some n) :
    (∃ stem x, n = stem ++ '.' :: x ∧ IsMediaWord x) ∧
      ∃ w, namedPart? raw = some w ∧ n <+: w := by
  obtain ⟨before, w, after, hsplit, hn, hbefore⟩ := List.findSome?_eq_some_iff.mp h
  obtain ⟨hpre, hext⟩ := nameIn?_spec hn
  refine ⟨hext, w, ?_, hpre⟩
  rw [namedPart?, List.find?_eq_some_iff_append]
  exact ⟨by rw [hn]; rfl, before, after, hsplit, fun v hv => by rw [hbefore v hv]; rfl⟩

/-! ## Local paths -/

/-- The ways in which a reference names a local path: as a whole, or in one of its parts. -/
inductive Names (raw : String) : String → Prop where
  | whole (h : isExternalText (bare raw.toList) = false)
      (hm : isMediaExt
        (lowerString (Files.Path.ofString (String.ofList (bare raw.toList))).suffix)) :
      Names raw (String.ofList (bare raw.toList))
  | part (n) (h : isExternalText (bare raw.toList) = false)
      (hn : embeddedName? (bare raw.toList) = some n) : Names raw (String.ofList n)

theorem names_of_localPath? {raw s : String} (h : localPath? raw = some s) : Names raw s := by
  unfold localPath? at h
  simp only at h
  split at h
  · cases h
  · next hout =>
    rw [Bool.not_eq_true, Bool.or_eq_false_iff] at hout
    split at h
    · next hm =>
      cases h
      rw [Bool.and_eq_true] at hm
      exact .whole hout.2 hm.1
    · obtain ⟨n, hn, rfl⟩ := Option.map_eq_some_iff.mp h
      exact .part n hout.2 hn

/-- A local path is neither rooted nor remote when the part that names it is not. -/
theorem isExternal_localPath? {raw s : String} (h : localPath? raw = some s)
    (hpart : ∀ w ∈ namedPart? raw, isExternalText w = false) : isExternal s = false := by
  unfold isExternal
  cases names_of_localPath? h with
  | whole hout => rw [String.toList_ofList]; exact hout
  | part n _ hn =>
    obtain ⟨-, w, hw, hpre⟩ := embeddedName?_spec hn
    rw [String.toList_ofList]
    exact isExternalText_of_prefix hpre (hpart w hw)

/-! ## Percent codes -/

/-- A slash of what a text is decoded to is one of the text, when none is written as a code. -/
theorem slash_of_decoded {s a b : List Char} (hc : NoSlashCode s) (ha : '/' ∉ a)
    (h : Utf8.decodeLossy (percentBytes s) = a ++ '/' :: b) :
    ∃ s' r, s = s' ++ '/' :: r ∧ '/' ∉ s' ∧
      Utf8.decodeLossy (percentBytes s') = a ∧ Utf8.decodeLossy (percentBytes r) = b := by
  have hs : '/' ∈ s := by
    by_contra hs
    refine Utf8.slash_notMem_decodeLossy (slash_notMem_percentBytes hs hc) ?_
    rw [h]
    simp
  obtain ⟨s', r, rfl, hs'⟩ := List.eq_append_cons_of_mem hs
  refine ⟨s', r, rfl, hs', ?_⟩
  have hdecoded := slash_notMem_percentBytes hs' (hc.mono (List.prefix_append _ _).isInfix)
  rw [decodeLossy_percentBytes_append (by decide) (by decide)] at h
  -- Neither start holds a slash, so the two slashes are the same.
  have hstart := congrArg (List.takeWhile (· ≠ '/')) h
  have hrest := congrArg (List.dropWhile (· ≠ '/')) h
  have hne := ne_of_notMem (Utf8.slash_notMem_decodeLossy hdecoded)
  have hne' := ne_of_notMem ha
  rw [takeWhile_run hne (by decide), takeWhile_run hne' (by decide)] at hstart
  rw [dropWhile_run hne (by decide), dropWhile_run hne' (by decide)] at hrest
  exact ⟨hstart, (List.cons.inj hrest).2⟩

theorem eq_nil_of_decoded {s : List Char} (h : Utf8.decodeLossy (percentBytes s) = []) : s = [] :=
  percentBytes_eq_nil.mp (Utf8.decodeLossy_eq_nil.mp h)

/-- Decoding makes no rooted or remote path of another one, unless it reads the code of a slash or
a code before a double slash. -/
theorem isExternal_unpercent {s : String} (h : isExternal s = false) (hslash : NoSlashCode s.toList)
    (hdouble : ¬ "//".toList <:+: s.toList.dropWhile (· ≠ '%')) :
    isExternal (unpercent s) = false := by
  unfold isExternal at h ⊢
  rw [Bool.eq_false_iff] at h ⊢
  refine mt ?_ h
  rw [isExternalText_iff, isExternalText_iff, toList_unpercent]
  rintro (⟨r, hr⟩ | ⟨scheme, r, hscheme, hr⟩)
  · obtain ⟨s', r', hs, -, hstart, -⟩ := slash_of_decoded (a := []) hslash List.not_mem_nil hr
    rw [hs, eq_nil_of_decoded hstart]
    exact Or.inl ⟨r', rfl⟩
  · have hcolon : '/' ∉ scheme ++ [':'] := by simpa using hscheme.slash
    rw [List.append_cons] at hr
    obtain ⟨s', r', hs, -, hstart, hrest⟩ := slash_of_decoded hslash hcolon hr
    have hr' : NoSlashCode r' := by
      refine hslash.mono ⟨s' ++ ['/'], [], ?_⟩
      rw [hs]
      simp
    obtain ⟨s'', r'', rfl, -, hmiddle, -⟩ := slash_of_decoded (a := []) hr' List.not_mem_nil hrest
    obtain rfl := eq_nil_of_decoded hmiddle
    -- What stands before the double slash has no codes, so it is the scheme itself.
    have hplain : '%' ∉ s' := by
      intro hmem
      refine hdouble (List.IsInfix.trans ⟨[], r'', rfl⟩ ?_)
      rw [hs, List.dropWhile_append, if_neg]
      · exact (List.suffix_append _ _).isInfix
      · rw [List.isEmpty_iff, List.dropWhile_eq_nil_iff]
        intro hall
        simpa using hall '%' hmem
    rw [decodeLossy_percentBytes (hasCode_of_notMem hplain)] at hstart
    refine Or.inr ⟨scheme, r'', hscheme, ?_⟩
    rw [hs, hstart, List.append_assoc]
    rfl

end DocumentMedia.Asset
