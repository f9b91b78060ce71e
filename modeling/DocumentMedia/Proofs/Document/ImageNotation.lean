import DocumentMedia.Document.Expand
import DocumentMedia.Proofs.Document.StandIn

/-! # Images with attributes as directives

An image with a block becomes a directive for the same image: its label is the alternative text, and
its attributes are the source and the entries of the block. -/
namespace DocumentMedia.Document

open DocumentMedia.Text DocumentMedia.Attribute
open DocumentMedia.Directive (untilBrace)

/-! ## Entries up to the closing brace -/

theorem passesBrace_item {i : BlockItem} (h : i.WellFormed) : PassesBrace i.text := by
  have point (c : Char) (hq : isQuote c = false) (hb : c ≠ '}') (hl : c ≠ '\n') :
      PassesBrace [c] :=
    passesBrace_plain (by simpa using hq) (by simpa using hb.symm) (by simpa using hl.symm)
  cases i with
  | name n => exact (point '.' (by decide) (by decide) (by decide)).append (passesBrace_name h)
  | mark n => exact (point '#' (by decide) (by decide) (by decide)).append (passesBrace_name h.1)
  | pair key value => exact passesBrace_pair h.1 (quote_notMem h.2.quote) h.2.line

theorem brace_notMem_blanks {s : List Char} (h : ∀ c ∈ s, isBlank c) : '}' ∉ s := fun hb =>
  absurd (h _ hb) (by decide)

theorem passesBrace_blanks {s : List Char} (h : ∀ c ∈ s, isBlank c) (hl : '\n' ∉ s) :
    PassesBrace s :=
  passesBrace_plain (fun c hc => not_quote_of_blank (h c hc)) (brace_notMem_blanks h) hl

/-- A layout in one line. -/
structure IsLine (l : Layout) : Prop extends l.WellFormed where
  gaps : ∀ p ∈ l.items, '\n' ∉ p.1
  ending : '\n' ∉ l.tail

instance (l : Layout) : Decidable (IsLine l) :=
  decidable_of_iff (l.WellFormed ∧ (∀ p ∈ l.items, '\n' ∉ p.1) ∧ '\n' ∉ l.tail)
    ⟨fun ⟨hwell, hgaps, hending⟩ => ⟨hwell, hgaps, hending⟩,
      fun h => ⟨h.toWellFormed, h.gaps, h.ending⟩⟩

theorem passesBrace_text {l : Layout} (h : IsLine l) : PassesBrace l.text := by
  have hitems : ∀ ps : List (List Char × BlockItem), (∀ p ∈ ps, p ∈ l.items) →
      PassesBrace ((ps.map fun p => (p.1, p.2.text)).flatMap fun p => p.1 ++ p.2) := by
    intro ps hps
    induction ps with
    | nil => exact passesBrace_nil
    | cons p ps ih =>
      rw [List.forall_mem_cons] at hps
      have hgap := passesBrace_blanks (h.spaced.blank p hps.1) (h.gaps p hps.1)
      exact (hgap.append (passesBrace_item (h.items p hps.1))).append (ih hps.2)
  exact (hitems l.items fun _ hp => hp).append (passesBrace_blanks h.spaced.tail h.ending)

theorem brace_notMem_item {i : BlockItem} (h : i.WellFormed) : '}' ∉ i.text := by
  cases i with
  | name n => simpa [BlockItem.text] using h.brace
  | mark n => simpa [BlockItem.text] using h.1.brace
  | pair key value => simp [BlockItem.text, AttrBlock.writeAttr, h.1.brace, h.2.brace]

theorem brace_notMem_text {l : Layout} (h : l.WellFormed) : '}' ∉ l.text := by
  simp only [Layout.text, spread, List.mem_append, List.mem_flatMap, List.mem_map, not_or,
    not_exists, not_and]
  refine ⟨?_, brace_notMem_blanks h.spaced.tail⟩
  rintro _ ⟨p, hp, rfl⟩
  exact ⟨brace_notMem_blanks (h.spaced.blank p hp), brace_notMem_item (h.items p hp)⟩

/-- A block behind an image is recognised as one. -/
theorem trailingBlock?_braced {s : List Char} (h : '}' ∉ s) :
    trailingBlock? (braced s) = some (braced s) := by
  have htake : (s ++ ['}']).takeWhile (· ≠ '}') = s :=
    takeWhile_run (ne_of_notMem h) (by decide) []
  have hdrop : (s ++ ['}']).dropWhile (· ≠ '}') = ['}'] :=
    dropWhile_run (ne_of_notMem h) (by decide) []
  have hstart : stripStart (braced s) = braced s :=
    stripStart_of_head fun c hc => by cases hc; decide
  simp only [ne_eq, decide_not] at htake hdrop
  unfold trailingBlock?
  rw [hstart]
  simp [braced, htake, hdrop, isAllBlank]

/-! ## Notations -/

/-- The text of a reference: not empty, without blanks, brackets, double quotes, typographic quotes,
backslashes and percent signs. -/
structure IsReference (u : List Char) : Prop where
  nonempty : u ≠ []
  chars : ∀ c ∈ u, isBlank c = false ∧ c ∉ [')', '<', '"', '“', '”', '‘', '’', '\\', '%']

instance (u : List Char) : Decidable (IsReference u) :=
  decidable_of_iff (u ≠ [] ∧ u.all (fun c => decide (isBlank c = false ∧
      c ∉ [')', '<', '"', '“', '”', '‘', '’', '\\', '%'])) = true)
    ⟨fun h => ⟨h.1, by simpa only [List.all_eq_true, decide_eq_true_eq] using h.2⟩,
      fun h => ⟨h.nonempty, by simpa only [List.all_eq_true, decide_eq_true_eq] using h.chars⟩⟩

theorem IsReference.trimmed {u : List Char} (h : IsReference u) : Trimmed u :=
  ⟨fun c hc => (h.chars c (List.mem_of_mem_head? hc)).1,
    fun c hc => (h.chars c (List.mem_of_mem_getLast? hc)).1⟩

/-- The text of a label. -/
structure IsLabel (s : List Char) : Prop extends Trimmed s where
  bracket : ']' ∉ s
  line : '\n' ∉ s

instance (s : List Char) : Decidable (IsLabel s) :=
  decidable_of_iff (Trimmed s ∧ ']' ∉ s ∧ '\n' ∉ s)
    ⟨fun ⟨htrimmed, hbracket, hline⟩ => ⟨htrimmed, hbracket, hline⟩,
      fun h => ⟨h.toTrimmed, h.bracket, h.line⟩⟩

theorem IsLabel.chars {s : List Char} (h : IsLabel s) : ∀ c ∈ s, c ≠ ']' ∧ c ≠ '\n' :=
  fun _ hc => ⟨fun he => h.bracket (he ▸ hc), fun he => h.line (he ▸ hc)⟩

/-- An image with a block right behind it. -/
def imageText (alt url : List Char) (l : Layout) : List Char :=
  '!' :: '[' :: (alt ++ ']' :: '(' :: (url ++ ')' :: braced l.text))

/-- The directive that stands in for the image. -/
def standInText (alt url : List Char) (l : Layout) : List Char :=
  ":img[".toList ++
    (alt ++ ']' :: braced (AttrBlock.writeAttr "src".toList url ++ ' ' :: l.text))

theorem imageNotation?_imageText {alt url : List Char} {l : Layout} (ha : ']' ∉ alt)
    (hu : IsReference url) (hl : l.WellFormed) (rest : List Char) :
    imageNotation? (imageText alt url l ++ rest) =
      some ⟨alt, url, l.text, (imageText alt url l).length⟩ := by
  have hchars : ∀ c ∈ url, isBlank c = false ∧ c ≠ ')' := by
    intro c hc
    obtain ⟨hblank, hchar⟩ := hu.chars c hc
    exact ⟨hblank, fun he => hchar (he ▸ List.mem_cons_self)⟩
  have hgap : Blanks [] := List.forall_mem_nil _
  exact imageNotation?_imageBlock ha hu.nonempty hchars hgap (brace_notMem_text hl) rest

/-- Text without exclamation marks holds no notation. -/
theorem replaceFrom_plain {s : List Char} (h : '!' ∉ s) (rest : List Char) :
    replaceFrom 0 (s ++ rest) = s ++ replaceFrom 0 rest := by
  induction s with
  | nil => rfl
  | cons c s ih =>
    rw [List.mem_cons, not_or] at h
    have hnone : imageNotation? (c :: (s ++ rest)) = none := by
      unfold imageNotation?
      split
      · next hs => exact absurd (List.cons.inj hs).1.symm h.1
      · rfl
    rw [List.cons_append, replaceFrom, hnone]
    exact congrArg _ (ih h.2)

theorem directive_eq (alt url : List Char) (l : Layout) (length : Nat) :
    (ImageNotation.mk alt url l.text length).directive = standInText alt url l :=
  (ImageNotation.directive_eq _).trans (by simp [standInText, labelText, sourced])

theorem replaceFrom_imageText {alt url : List Char} {l : Layout} (ha : ']' ∉ alt)
    (hu : IsReference url) (hl : l.WellFormed) (rest : List Char) :
    replaceFrom 0 (imageText alt url l ++ rest) =
      standInText alt url l ++ replaceFrom 0 rest := by
  rw [replaceFrom_append (imageNotation?_imageText ha hu hl rest) rfl (by simp [imageText]),
    directive_eq]

theorem replaceImages_imageText {alt url : List Char} {l : Layout} (ha : IsLabel alt)
    (hu : IsReference url) (hl : l.WellFormed) :
    replaceImages (String.ofList (imageText alt url l)) =
      String.ofList (standInText alt url l) := by
  have hreplaced := replaceFrom_imageText ha.bracket hu hl []
  rw [List.append_nil, replaceFrom, List.append_nil] at hreplaced
  rw [replaceImages, String.toList_ofList, hreplaced]

theorem text?_standInText {alt url : List Char} {l : Layout} (ha : ∀ c ∈ alt, c ≠ ']' ∧ c ≠ '\n')
    (hu : IsReference url) (hl : IsLine l) (rest : List Char) :
    Directive.text? (standInText alt url l ++ rest) =
      some (⟨"img".toList, some alt,
        some (AttrBlock.writeAttr "src".toList url ++ ' ' :: l.text)⟩, rest) := by
  have hlabel : ']' ∉ alt ∧ '\n' ∉ alt := ⟨fun h => (ha _ h).1 rfl, fun h => (ha _ h).2 rfl⟩
  have hquote : '"' ∉ url := fun h => absurd (hu.chars _ h).2 (by decide)
  have hline : '\n' ∉ url := fun h => absurd (hu.chars _ h).1 (by decide)
  rw [← directive_eq alt url l 0]
  exact text?_directive hlabel hquote hline (passesBrace_text hl) rest

end DocumentMedia.Document
