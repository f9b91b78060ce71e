import DocumentMedia.Proofs.Document.Row
import DocumentMedia.Proofs.Site.Routes

/-! # Images among words

In a document ending in `.mdx` an image with a block becomes a directive before the text is read.
Main statement: in one paragraph every image is read as its directive, in order, if none of them
stands right behind a letter or a digit. -/
namespace DocumentMedia.Site

open DocumentMedia.Text DocumentMedia.Files DocumentMedia.Attribute DocumentMedia.Document
open DocumentMedia.Markdown

/-! ## Images -/

/-- An image in one line with a block that means the same in a directive. -/
structure BlockImage where
  alt : List Char
  url : List Char
  block : Layout
  label : ']' ∉ alt
  reference : IsReference url
  portable : block.Portable
  line : IsPlainLine (alt ++ url ++ block.text)

namespace BlockImage

def text (i : BlockImage) : List Char := imageText i.alt i.url i.block

def standIn (i : BlockImage) : Mark where
  text := standInText i.alt i.url i.block
  reading := ⟨"img".toList, some i.alt,
    some (AttrBlock.writeAttr "src".toList i.url ++ ' ' :: i.block.text)⟩

/-- The node is the directive of the image. -/
def ShownBy (i : BlockImage) (n : Node) : Prop :=
  ∃ attributes, n = .leaf "textDirective" []
      (.directive "img" (some (String.ofList i.alt)) attributes) ∧
    Assoc.find? attributes "src" = some (.str (String.ofList i.url))

variable (i : BlockImage)

theorem text_standIn : i.standIn.text = ":img[".toList ++ i.alt ++ "]\x7bsrc=\"".toList ++ i.url ++
    "\" ".toList ++ i.block.text ++ ['}'] := by
  simp [standIn, standInText, braced, AttrBlock.writeAttr]

theorem reads_standIn : i.standIn.Reads where
  read := by
    have hlabel : ∀ c ∈ i.alt, c ≠ ']' ∧ c ≠ '\n' := by
      intro c hc
      refine ⟨fun he => i.label (he ▸ hc), (i.line c ?_).1⟩
      exact List.mem_append_left _ (List.mem_append_left _ hc)
    exact text?_standInText hlabel i.reference i.portable.toIsLine
  carries := rfl
  last := by
    intro c hc
    rw [text_standIn, List.getLast?_concat] at hc
    exact Or.inr (Option.some.inj hc).symm

theorem isPlainLine_standIn : IsPlainLine i.standIn.text := by
  have hopen : IsPlainLine ":img[".toList := by decide
  have hsource : IsPlainLine "]\x7bsrc=\"".toList := by decide
  have hclose : IsPlainLine "\" ".toList := by decide
  have hlast : IsPlainLine ['}'] := by decide
  have hline := i.line
  rw [text_standIn]
  simp only [IsPlainLine, List.forall_mem_append] at hopen hsource hclose hlast hline ⊢
  exact ⟨⟨⟨⟨⟨⟨hopen, hline.1.1⟩, hsource⟩, hline.1.2⟩, hclose⟩, hline.2⟩, hlast⟩

theorem shownBy_standIn : i.ShownBy (markNode i.standIn) := by
  refine ⟨Assoc.ofPairs (directiveEntries i.url i.block), ?_,
    source_directiveEntries i.url i.portable⟩
  have hattributes := attributes_directive i.portable.toWellFormed i.reference
  rw [← hattributes]
  rfl

end BlockImage

/-! ## Bodies -/

/-- Words, and images with the words behind each of them. -/
def bodyText (words : List Char) (images : List (BlockImage × List Char)) : List Char :=
  words ++ images.flatMap fun p => p.1.text ++ p.2

/-- The directives of a body with the words behind each of them. -/
def standIns (images : List (BlockImage × List Char)) : List (Mark × List Char) :=
  images.map fun p => (p.1.standIn, p.2)

/-- Words of prose, and images that do not stand right behind a letter or a digit. -/
structure IsProseBody (words : List Char) (images : List (BlockImage × List Char)) : Prop where
  prose : ∀ w ∈ words :: images.map (·.2), ∀ c ∈ w, isProseChar c = true
  apart : ∀ w ∈ (words :: images.map (·.2)).dropLast, ∀ c ∈ w.getLast?, isAlnum c = false

instance (words : List Char) (images : List (BlockImage × List Char)) :
    Decidable (IsProseBody words images) :=
  decidable_of_iff ((words :: images.map (·.2)).all (·.all isProseChar) = true ∧
      (words :: images.map (·.2)).dropLast.all (·.getLast?.all (!isAlnum ·)) = true)
    (by
      simp only [List.all_eq_true, Option.all_eq_true, Bool.not_eq_true', ← Option.mem_def]
      exact ⟨fun h => ⟨h.1, h.2⟩, fun h => ⟨h.prose, h.apart⟩⟩)

/-- Text in one line that is neither blank nor indented as code, and that starts no list. -/
def OneParagraph (dialect : Dialect) (text : List Char) : Prop :=
  ∃ indent c cs, text = List.replicate indent ' ' ++ c :: cs ∧ c ≠ ' ' ∧
    (dialect.constructs = true → indent < 4 ∧ ¬ StartsItem (c :: cs))

section

variable {words behind : List Char} {images : List (BlockImage × List Char)}

theorem standIns_words (images : List (BlockImage × List Char)) :
    (standIns images).map (·.2) = images.map (·.2) := by
  simp [standIns]

theorem IsProseBody.isProseRow (h : IsProseBody words images) :
    IsProseRow words (standIns images) where
  reads := by
    intro p hp
    obtain ⟨q, -, rfl⟩ := List.mem_map.mp hp
    exact q.1.reads_standIn
  lines := by
    intro p hp
    obtain ⟨q, -, rfl⟩ := List.mem_map.mp hp
    exact q.1.isPlainLine_standIn
  prose := by rw [standIns_words]; exact h.prose
  apart := by rw [standIns_words]; exact h.apart

theorem bodyText_cons (words : List Char) (i : BlockImage) (w : List Char)
    (images : List (BlockImage × List Char)) :
    bodyText words ((i, w) :: images) = words ++ (i.text ++ bodyText w images) := by
  simp [bodyText]

/-- Only the images of a body are replaced. -/
theorem replaceFrom_bodyText (h : ∀ w ∈ words :: images.map (·.2), '!' ∉ w) (hb : '!' ∉ behind) :
    replaceFrom 0 (bodyText words images ++ behind) =
      rowText words (standIns images) ++ behind := by
  induction images generalizing words with
  | nil =>
    have hplain := replaceFrom_plain (s := words ++ behind)
      (by simpa [hb] using (List.forall_mem_cons.mp h).1) []
    simpa [bodyText, rowText, standIns, replaceFrom] using hplain
  | cons p images ih =>
    obtain ⟨i, w⟩ := p
    obtain ⟨hwords, hrest⟩ := List.forall_mem_cons.mp h
    have himage := replaceFrom_imageText i.label i.reference i.portable.toWellFormed
      (bodyText w images ++ behind)
    rw [bodyText_cons, List.append_assoc, List.append_assoc, replaceFrom_plain hwords,
      BlockImage.text, himage, ih hrest]
    simp [standIns, rowText, BlockImage.standIn]

/-- What follows the first words: nothing, or an image in the body and its directive in the row. -/
theorem bodyText_eq (words : List Char) (images : List (BlockImage × List Char)) : ∃ s t,
    bodyText words images = words ++ s ∧ rowText words (standIns images) = words ++ t ∧
      (s = [] ∧ t = [] ∨ s.head? = some '!' ∧ ∃ cs, t = ':' :: 'i' :: cs) := by
  refine ⟨_, _, rfl, rfl, ?_⟩
  cases images with
  | nil => exact Or.inl ⟨rfl, rfl⟩
  | cons p images =>
    refine Or.inr ⟨rfl, ?_⟩
    simp [standIns, BlockImage.standIn, standInText]

/-- A body of one paragraph becomes a row of prose behind spaces. -/
theorem OneParagraph.isProse {dialect : Dialect} (h : OneParagraph dialect (bodyText words images))
    (hwords : ∀ c ∈ words, isProseChar c = true) : ∃ indent c cs,
    rowText words (standIns images) = List.replicate indent ' ' ++ c :: cs ∧
      IsProse dialect indent c cs := by
  obtain ⟨indent, c, cs, hbody, hc, hblock⟩ := h
  obtain ⟨s, t, hs, ht, hst⟩ := bodyText_eq words images
  rw [hs] at hbody
  -- The spaces end within the words, since an image does not begin with one.
  have hfront : ∃ w, words = List.replicate indent ' ' ++ w ∧ c :: cs = w ++ s := by
    rcases List.append_eq_append_iff.mp hbody with ⟨w, hw, hsw⟩ | ⟨w, hw, hcw⟩
    · cases w with
      | nil => exact ⟨[], by simpa using hw.symm, by simpa using hsw.symm⟩
      | cons d w =>
        have hd : d = ' ' := List.eq_of_mem_replicate (by rw [hw]; simp)
        rcases hst with ⟨rfl, -⟩ | ⟨hhead, -⟩
        · cases hsw
        · rw [hsw, hd] at hhead
          exact absurd (Option.some.inj hhead) (by decide)
    · exact ⟨w, hw, hcw⟩
  obtain ⟨w, rfl, hw⟩ := hfront
  cases w with
  | nil =>
    rcases hst with ⟨rfl, -⟩ | ⟨-, rest, rfl⟩
    · cases hw
    refine ⟨indent, ':', 'i' :: rest, by rw [ht, List.append_nil], by decide, by decide, by simp,
      fun hd => (hblock hd).1, fun _ hitem => absurd hitem.head (by decide)⟩
  | cons d w =>
    obtain ⟨rfl, rfl⟩ := List.cons.inj hw
    have hprose := hwords c (by simp)
    refine ⟨indent, c, w ++ t, by rw [ht, List.append_assoc, List.cons_append], ?_, ?_, ?_,
      fun hd => (hblock hd).1, fun hd hitem => (hblock hd).2 ?_⟩
    · have htab := ne_of_isProseChar hprose (by decide : isProseChar '\t' = false)
      simp [isSpace, hc, htab]
    · have hmarks : ∀ m ∈ ['~', '`', '>', '*', '-', '_', '+', '[', '<', '#'],
          isProseChar m = false := forall_mem_of_all (by decide +kernel)
      exact fun hmem => ne_of_isProseChar hprose (hmarks c hmem) rfl
    · exact fun hcolon => absurd hcolon (ne_of_isProseChar hprose (by decide))
    · have hhead : ∀ d ∈ t.head?, d.isDigit = false ∧ d ∉ ['.', ')'] ∧ isSpace d = false := by
        intro d hd
        rcases hst with ⟨-, rfl⟩ | ⟨-, rest, rfl⟩
        · cases hd
        · cases hd
          decide
      have hnil : t = [] → s = [] := by
        rintro rfl
        rcases hst with ⟨rfl, -⟩ | ⟨-, rest, hrest⟩
        · rfl
        · cases hrest
      rw [← List.cons_append] at hitem
      exact hitem.withTail hhead hnil

theorem maxNesting_of_ofName? {name : String} {dialect : Dialect}
    (h : Dialect.ofName? name = some dialect) : 2 ≤ dialect.maxNesting := by
  unfold Dialect.ofName? at h
  split at h <;> cases h <;> decide

/-- Every image of a paragraph is read as its directive, and there is no other directive. -/
theorem images_are_directives {reading : Reading} {dialect : Dialect}
    (hd : Dialect.ofName? reading.dialect = some dialect) (he : reading.ending = ".mdx")
    (folder : Path) {name : String} (hn : name ≠ "") (hbody : IsProseBody words images)
    (hone : OneParagraph dialect (bodyText words images)) (hbehind : IsLineEnd behind) :
    ∃ page, readPage reading (folder.child (name ++ ".mdx"))
        (String.ofList (bodyText words images ++ behind)) = .ok page ∧
      List.Forall₂ BlockImage.ShownBy (images.map (·.1))
        (iterNodes Node.isDirective page.tree) := by
  have hwords := (List.forall_mem_cons.mp hbody.prose).1
  have hplain : ∀ w ∈ words :: images.map (·.2), '!' ∉ w := fun w hw hc =>
    ne_of_isProseChar (hbody.prose w hw '!' hc) (by decide) rfl
  have hend : '!' ∉ behind := by
    rcases hbehind with rfl | rfl <;> decide
  have hsource := replaceInSource_mdx folder name
    (String.ofList (bodyText words images ++ behind)) he
  rw [replaceImages, String.toList_ofList, replaceFrom_bodyText hplain hend] at hsource
  obtain ⟨indent, c, cs, hrow, hprose⟩ := hone.isProse hwords
  have hhead : (rowText words (standIns images) ++ behind).head? ≠ some '-' := by
    rw [hrow]
    cases indent with
    | zero =>
      intro hc
      have hdash : c = '-' := Option.some.inj hc
      exact hprose.mark (by simp [hdash])
    | succ n => simp [List.replicate_succ]
  obtain ⟨words', marks, htree, hmarks⟩ := exists_bodyTree_row
    (decide (lowerString ".mdx" = ".mdx")) (maxNesting_of_ofName? hd)
    hbody.isProseRow hrow hprose hbehind
  refine ⟨_, readPage_of_head hd hsource hhead, ?_⟩
  rw [suffix_mdx hn]
  dsimp only
  rw [htree, iterNodes_row]
  have hnodes : (marks.map fun p => markNode p.1) =
      (images.map (·.1)).map fun i => markNode i.standIn := by
    have hnodes := congrArg (List.map markNode) hmarks
    simpa [standIns, Function.comp_def] using hnodes
  rw [hnodes, List.forall₂_map_right_iff, List.forall₂_same]
  exact fun i _ => i.shownBy_standIn

end

def sampleImage : BlockImage where
  alt := ['a']
  url := "b.png".toList
  block := ⟨[([], .name ['c'])], []⟩
  label := by decide
  reference := by decide
  portable := by decide
  line := by decide

theorem sample_images_are_directives :
    ∃ page, readPage {} ((Path.ofString "docs").child ("a" ++ ".mdx"))
        (String.ofList (bodyText "See ".toList
          [(sampleImage, []), (sampleImage, ", or not.".toList)] ++ ['\n'])) = .ok page ∧
      List.Forall₂ BlockImage.ShownBy [sampleImage, sampleImage]
        (iterNodes Node.isDirective page.tree) := by
  have hbody : IsProseBody "See ".toList
      [(sampleImage, []), (sampleImage, ", or not.".toList)] := by decide +kernel
  have hone : OneParagraph .gfm (bodyText "See ".toList
      [(sampleImage, []), (sampleImage, ", or not.".toList)]) :=
    ⟨0, 'S', _, rfl, by decide, fun _ => ⟨by decide, fun h => absurd h.head (by decide)⟩⟩
  exact images_are_directives rfl rfl _ (by decide) hbody hone (Or.inr rfl)

/-- An image right behind a word is replaced all the same, and then no directive is read. -/
theorem image_becomes_text :
    bodyText "word".toList [(sampleImage, [])] = "word![a](b.png)\x7b.c\x7d".toList ∧
    replaceInSource "word![a](b.png)\x7b.c\x7d" ((Path.ofString "docs").child "a.mdx").text ".mdx" =
      "word:img[a]\x7bsrc=\"b.png\" .c\x7d" ∧
    ((readPage {} ((Path.ofString "docs").child "a.mdx")
      "word![a](b.png)\x7b.c\x7d").toOption.map fun page =>
        (iterNodes Node.isDirective page.tree).length) = some 0 := by
  refine ⟨?_, ?_, ?_⟩ <;> decide +kernel

end DocumentMedia.Site
