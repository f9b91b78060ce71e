import DocumentMedia.Proofs.Asset.Find
import DocumentMedia.Proofs.Asset.Reference

/-! # Extensions of published files

Whatever a reference spells, as it stands or with its percent codes read, ends in a word for media
in any case. So there are few extensions under which files are published, all of them plain: those
of the words, those of words with a letter like i, and none for a name that is all extension. -/
namespace DocumentMedia.Asset

open DocumentMedia.Files
open DocumentMedia.Text

/-! ## Words for media -/

/-- The letters of the words for media. -/
def mediaLetters : List Char := mediaWords.flatten

theorem mem_mediaLetters {w : List Char} {p : Char} (hw : w ∈ mediaWords) (hp : p ∈ w) :
    p ∈ mediaLetters :=
  List.mem_flatten_of_mem hw hp

theorem mediaLetters_ascii : ∀ p ∈ mediaLetters, p.toNat < 128 ∧ p ≠ '\x00' :=
  forall_mem_of_all (by decide)

theorem mediaLetters_plain : ∀ p ∈ mediaLetters, p ≠ 's' ∧ p ≠ 'k' :=
  forall_mem_of_all (by decide)

theorem mediaLetters_marks :
    ∀ p ∈ mediaLetters, ∀ c ∈ ['/', '.', '%', '>'], matchesLetter p c = false :=
  forall_mem_of_all₂ (by decide)

theorem isMediaExt_iff {ext : String} :
    isMediaExt ext = true ↔ ∃ w ∈ mediaWords, ext = String.ofList ('.' :: w) := by
  have hexts : imageExts ++ videoExts = mediaWords.map fun w => String.ofList ('.' :: w) := by
    decide
  have hmem : isMediaExt ext = true ↔ ext ∈ imageExts ++ videoExts := by
    simp [isMediaExt]
  rw [hmem, hexts, List.mem_map]
  exact ⟨fun ⟨w, hw, he⟩ => ⟨w, hw, he.symm⟩, fun ⟨w, hw, he⟩ => ⟨w, hw, he.symm⟩⟩

theorem IsMediaWord.notMem {x : List Char} (h : IsMediaWord x) {c : Char}
    (hc : c ∈ ['/', '.', '%', '>']) : c ∉ x := by
  obtain ⟨w, hw, hx⟩ := h
  exact notMem_of_dropWord? hx fun p hp => mediaLetters_marks p (mem_mediaLetters hw hp) c hc

theorem IsMediaWord.ne_nil {x : List Char} (h : IsMediaWord x) : x ≠ [] := by
  obtain ⟨w, hw, hx⟩ := h
  rintro rfl
  cases w with
  | nil => exact absurd hw (by decide)
  | cons p w => cases hx

theorem toLower_eq_point :
    ∀ n : Fin 128, (Char.ofNat n).toLower = '.' → Char.ofNat n = '.' := by
  decide

theorem eq_point_of_matchesLetter {c : Char} (h : matchesLetter '.' c = true) : c = '.' := by
  have hlower : c.toLower = '.' := by simpa [matchesLetter] using h
  have hc : c.toNat < 128 := ascii_of_toLower (by rw [hlower]; decide)
  have htable := toLower_eq_point ⟨c.toNat, hc⟩
  simp only [Char.ofNat_toNat] at htable
  exact htable hlower

/-- What is a point and a word in lower case is a point and the word in some case. -/
theorem exists_word_of_lower {w s : List Char} (hw : ∀ p ∈ w, p.toNat < 128 ∧ p ≠ '\x00')
    (h : lower s = '.' :: w) : ∃ x, s = '.' :: x ∧ dropWord? w x = some [] := by
  have hword : dropWord? ('.' :: w) s = some [] := by
    rw [← h]
    apply dropWord?_of_lower
    rw [← lower, h, List.forall_mem_cons]
    exact ⟨by decide, hw⟩
  cases s with
  | nil => cases hword
  | cons c x =>
    rw [dropWord?] at hword
    split at hword
    · next hc => exact ⟨x, by rw [eq_point_of_matchesLetter hc], hword⟩
    · cases hword

theorem isMediaWord_of_suffix {s : List Char} (h : isMediaExt (String.ofList (lower s)) = true) :
    ∃ x, s = '.' :: x ∧ IsMediaWord x := by
  obtain ⟨w, hw, hs⟩ := isMediaExt_iff.mp h
  rw [String.ofList_inj] at hs
  obtain ⟨x, hx, hword⟩ :=
    exists_word_of_lower (fun p hp => mediaLetters_ascii p (mem_mediaLetters hw hp)) hs
  exact ⟨x, hx, w, hw, hword⟩

/-! ## Their lower case -/

/-- The lower case of what equals a letter when case does not count. -/
def letterForms (p : Char) : List (List Char) :=
  if p = 'i' then [['i'], ['ı'], ['i', Char.ofNat 0x307]] else [[p]]

def lowerForms : List Char → List (List Char)
  | [] => [[]]
  | p :: w => (letterForms p).flatMap fun form => (lowerForms w).map (form ++ ·)

theorem lower_mem_letterForms {p c : Char} (hp : p ∈ mediaLetters) (h : matchesLetter p c = true)
    (before s : List Char) : ∃ form ∈ letterForms p,
      lowerAfter before (c :: s) = form ++ lowerAfter (c :: before) s := by
  by_cases hc : c.toLower = p
  · have hascii : c.toNat < 128 := ascii_of_toLower (hc ▸ (mediaLetters_ascii p hp).1)
    refine ⟨[p], ?_, by rw [lowerAfter_ascii hascii, hc]; rfl⟩
    unfold letterForms
    split
    · next hi => simp [hi]
    · exact List.mem_singleton_self _
  · obtain ⟨hs, hk⟩ := mediaLetters_plain p hp
    have hi : p = 'i' ∧ (c = 'ı' ∨ c = 'İ') := by simpa [matchesLetter, hc, hs, hk] using h
    obtain ⟨rfl, rfl | rfl⟩ := hi
    · have hdotless : lowerChar 'ı' = 'ı' := by decide +kernel
      refine ⟨['ı'], by decide, ?_⟩
      rw [lowerAfter, if_neg (by decide), if_neg (by decide), hdotless]
    · exact ⟨['i', Char.ofNat 0x307], by decide, by rw [lowerAfter, if_neg (by decide), if_pos rfl]⟩

theorem lower_mem_lowerForms {w x : List Char} (hw : ∀ p ∈ w, p ∈ mediaLetters)
    (h : dropWord? w x = some []) (before : List Char) : lowerAfter before x ∈ lowerForms w := by
  induction w generalizing x before with
  | nil =>
    cases h
    exact List.mem_singleton_self _
  | cons p w ih =>
    rw [List.forall_mem_cons] at hw
    cases x with
    | nil => cases h
    | cons c x =>
      rw [dropWord?] at h
      split at h
      · next hc =>
        obtain ⟨form, hform, he⟩ := lower_mem_letterForms hw.1 hc before x
        rw [he]
        exact List.mem_flatMap.mpr ⟨form, hform, List.mem_map_of_mem (ih hw.2 h _)⟩
      · cases h

/-- The extensions under which files are published. -/
def publishedExts : List (List Char) :=
  [] :: mediaWords.flatMap fun w => (lowerForms w).map ('.' :: ·)

theorem lower_mem_publishedExts {x : List Char} (h : IsMediaWord x) :
    lower ('.' :: x) ∈ publishedExts := by
  obtain ⟨w, hw, hx⟩ := h
  have hforms := lower_mem_lowerForms (fun p hp => mem_mediaLetters hw hp) hx ['.']
  refine List.mem_cons_of_mem _ (List.mem_flatMap.mpr ⟨w, hw, ?_⟩)
  rw [lower, lowerAfter_ascii (by decide)]
  exact List.mem_map_of_mem hforms

/-! ## Files that are found -/

/-- A text whose path has a word as its extension, or has a name that is that extension. -/
def EndsIn (x s : List Char) : Prop := ∃ front t, s = front ++ '.' :: x ++ t ∧ Path.IsTail t

theorem endsIn_of_suffix {s : List Char}
    (h : isMediaExt (lowerString (Path.ofString (String.ofList s)).suffix) = true) :
    ∃ x, IsMediaWord x ∧ EndsIn x s := by
  rw [lowerString, Path.suffix, String.toList_ofList] at h
  obtain ⟨x, hsuffix, hx⟩ := isMediaWord_of_suffix h
  refine ⟨x, hx, ?_⟩
  rw [Path.name, Path.parts_ofString, String.toList_ofList, List.getLast?_map] at hsuffix
  cases hlast : (Path.partsOf s).getLast? with
  | none =>
    rw [hlast] at hsuffix
    cases hsuffix
  | some n =>
    rw [hlast, Option.map_some, Option.getD_some, String.toList_ofList] at hsuffix
    obtain ⟨front, t, hsplit, ht⟩ := Path.exists_of_getLast?_partsOf hlast
    obtain ⟨stem, hstem⟩ := Path.suffixOf_suffix n
    rw [hsuffix] at hstem
    exact ⟨front ++ stem, t, by rw [hsplit, ← hstem]; simp, ht⟩

theorem endsIn_of_localPath? {raw reference : String} (h : localPath? raw = some reference) :
    ∃ x, IsMediaWord x ∧ EndsIn x reference.toList := by
  cases names_of_localPath? h with
  | whole _ hm =>
    rw [String.toList_ofList]
    exact endsIn_of_suffix hm
  | part n _ hn =>
    obtain ⟨⟨stem, x, rfl, hx⟩, -⟩ := embeddedName?_spec hn
    exact ⟨x, hx, stem, [], by rw [String.toList_ofList, List.append_nil], .nil⟩

/-- Percent codes do not reach into the extension. -/
theorem EndsIn.unpercent {x : List Char} {s : String} (hx : '%' ∉ x) (h : EndsIn x s.toList) :
    EndsIn x (unpercent s).toList := by
  obtain ⟨front, t, hs, ht⟩ := h
  have hrest : '%' ∉ x ++ t := by
    rw [List.mem_append, not_or]
    exact ⟨hx, ht.notMem (by decide) (by decide)⟩
  refine ⟨Utf8.decodeLossy (percentBytes front), t, ?_, ht⟩
  rw [toList_unpercent, hs, List.append_assoc, List.cons_append,
    decodeLossy_percentBytes_append (by decide) (by decide),
    decodeLossy_percentBytes (hasCode_of_notMem hrest), List.append_assoc]
  rfl

theorem EndsIn.suffix {x : List Char} {s : String} (hx : IsMediaWord x) (h : EndsIn x s.toList)
    (folder : Path) : (folder.join (Path.ofString s)).suffix = "" ∨
      (folder.join (Path.ofString s)).suffix = String.ofList ('.' :: x) := by
  obtain ⟨front, t, hs, ht⟩ := h
  have hslash : '/' ∉ '.' :: x := by simpa using hx.notMem (c := '/') (by decide)
  have hlength : 1 < ('.' :: x).length := by
    simpa using List.length_pos_iff.mpr hx.ne_nil
  obtain ⟨stem, hstem⟩ := Path.getLast?_partsOf_append front hslash hlength
  have hname : (folder.join (Path.ofString s)).name = String.ofList (stem ++ '.' :: x) := by
    refine Path.name_join ?_
    rw [Path.parts_ofString, List.getLast?_map, hs, ht.partsOf, hstem]
    rfl
  rw [Path.suffix, hname, String.toList_ofList]
  by_cases hempty : stem = []
  · rw [hempty, List.nil_append, Path.suffixOf_hidden (hx.notMem (by decide))]
    exact Or.inl rfl
  · rw [Path.suffixOf_append hempty hx.ne_nil (hx.notMem (by decide))]
    exact Or.inr rfl

theorem ext_of_find {p : Publisher} {t : Tree} {document : Path} {raw : String} {f : Find}
    (h : p.find t document raw = .ok (some f)) :
    (lowerString f.source.suffix).toList ∈ publishedExts := by
  obtain ⟨reference, bytes, hr, hfirst, -, -⟩ := Publisher.find_spec h
  obtain ⟨s, hs, hsource, -⟩ := Publisher.firstFile_mem hfirst
  obtain ⟨x, hx, hends⟩ := endsIn_of_localPath? hr
  have hspelled : EndsIn x s.toList := by
    rw [Publisher.spellings, List.mem_eraseDups, List.mem_pair] at hs
    rcases hs with rfl | rfl
    · exact hends
    · exact hends.unpercent (hx.notMem (by decide))
  rw [hsource]
  rcases hspelled.suffix hx document.parent with hsuffix | hsuffix
  · rw [hsuffix]
    exact List.mem_cons_self
  · rw [hsuffix, lowerString, String.toList_ofList, String.toList_ofList]
    exact lower_mem_publishedExts hx

end DocumentMedia.Asset
