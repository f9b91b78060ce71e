import DocumentMedia.Document.ImageNotation
import DocumentMedia.Proofs.Attribute.Loose
import DocumentMedia.Proofs.Document.Directive

/-! # Directives that stand in for images

An image with attribute text in braces behind it becomes a directive for that image, whatever the
text says: the directive takes the whole text, and its attributes are the source of the image,
overridden by what the text sets. -/
namespace DocumentMedia.Document

open DocumentMedia.Text DocumentMedia.Attribute
open DocumentMedia.Directive (untilBrace)

/-! ## Quotes from left to right -/

/-- The quote that is open behind a character; nothing is escaped. -/
def quoteBehind (open? : Option Char) (c : Char) : Option Char :=
  match open? with
  | none => if isQuote c then some c else none
  | some q => if c = q then none else some q

/-- From left to right each quote is closed by the next one of its kind. -/
def QuotesClosed (s : List Char) : Prop := s.foldl quoteBehind none = none

instance (s : List Char) : Decidable (QuotesClosed s) := inferInstanceAs (Decidable (_ = _))

theorem untilBrace_append {s : List Char} (hb : '}' ∉ s) (hl : '\n' ∉ s) (open? : Option Char)
    (rest : List Char) : untilBrace open? (s ++ rest) =
      (untilBrace (s.foldl quoteBehind open?) rest).map fun (inside, r) => (s ++ inside, r) := by
  induction s generalizing open? with
  | nil => simp
  | cons c s ih =>
    simp only [List.mem_cons, not_or] at hb hl
    have hstep : untilBrace open? (c :: (s ++ rest)) =
        (untilBrace (quoteBehind open? c) (s ++ rest)).map fun (inside, r) => (c :: inside, r) := by
      cases open? with
      | none =>
        rw [untilBrace, if_neg (Ne.symm hb.1), if_neg (Ne.symm hl.1)]
        simp [quoteBehind, isQuote]
      | some q =>
        rw [untilBrace, if_neg (Ne.symm hl.1)]
        rfl
    rw [List.cons_append, hstep, ih hb.2 hl.2, Option.map_map]
    simp [Function.comp_def]

theorem QuotesClosed.passesBrace {s : List Char} (h : QuotesClosed s) (hb : '}' ∉ s)
    (hl : '\n' ∉ s) : PassesBrace s := by
  intro rest
  rw [untilBrace_append hb hl, h]

/-! ## Notations -/

def imageBlock (alt url gap attrs : List Char) : List Char :=
  '!' :: '[' :: (alt ++ ']' :: '(' :: (url ++ ')' :: (gap ++ braced attrs)))

theorem until?_of_notMem {stop : Char} {s : List Char} (h : stop ∉ s) (rest : List Char) :
    until? stop (s ++ stop :: rest) = some (s, rest) := by
  unfold until?
  rw [dropWhile_run (ne_of_notMem h) (by simp), takeWhile_run (ne_of_notMem h) (by simp)]

theorem imageNotation?_imageBlock {alt url gap attrs : List Char} (ha : ']' ∉ alt) (hne : url ≠ [])
    (hu : ∀ c ∈ url, isBlank c = false ∧ c ≠ ')') (hg : Blanks gap) (hb : '}' ∉ attrs)
    (rest : List Char) : imageNotation? (imageBlock alt url gap attrs ++ rest) =
      some ⟨alt, url, attrs, (imageBlock alt url gap attrs).length⟩ := by
  have hpass : ∀ c ∈ url, (decide (c ≠ ')') && !isBlank c) = true := by
    intro c hc
    obtain ⟨hblank, hparen⟩ := hu c hc
    simp [hblank, hparen]
  have hparts : imageBlock alt url gap attrs ++ rest =
      '!' :: '[' :: (alt ++ ']' :: '(' :: (url ++ ')' :: (gap ++ '{' :: (attrs ++ '}' :: rest)))) := by
    simp [imageBlock, braced]
  have hend : (decide (')' ≠ ')') && !isBlank ')') = false := by decide
  have htake := takeWhile_run hpass hend (gap ++ '{' :: (attrs ++ '}' :: rest))
  have hdrop := dropWhile_run hpass hend (gap ++ '{' :: (attrs ++ '}' :: rest))
  have hstart : stripStart (gap ++ '{' :: (attrs ++ '}' :: rest)) = '{' :: (attrs ++ '}' :: rest) :=
    stripStart_solid hg (by decide)
  obtain ⟨u, us, hurl⟩ := List.exists_cons_of_ne_nil hne
  have halt := until?_of_notMem ha ('(' :: (url ++ ')' :: (gap ++ '{' :: (attrs ++ '}' :: rest))))
  have hblock := until?_of_notMem hb rest
  have hlength : (imageBlock alt url gap attrs ++ rest).length - rest.length =
      (imageBlock alt url gap attrs).length := by
    rw [List.length_append, Nat.add_sub_cancel]
  rw [← hlength, hparts]
  unfold imageNotation?
  simp only [halt, htake.trans hurl, hdrop, hstart, hblock]
  rw [← hurl]

theorem replaceFrom_skip (skip : Nat) (s : List Char) :
    replaceFrom skip s = replaceFrom 0 (s.drop skip) := by
  induction skip generalizing s with
  | zero => rfl
  | succ n ih =>
    cases s with
    | nil => rfl
    | cons c s => rw [replaceFrom, ih, List.drop_succ_cons]

/-- A notation is replaced, and then what stands behind it is looked at. -/
theorem replaceFrom_append {s rest : List Char} {n : ImageNotation}
    (h : imageNotation? (s ++ rest) = some n) (hlength : n.length = s.length) (hs : s ≠ []) :
    replaceFrom 0 (s ++ rest) = n.directive ++ replaceFrom 0 rest := by
  obtain ⟨c, cs, rfl⟩ := List.exists_cons_of_ne_nil hs
  rw [List.cons_append] at h ⊢
  rw [replaceFrom, h]
  dsimp only
  rw [hlength, List.length_cons, Nat.add_sub_cancel, replaceFrom_skip, List.drop_left' rfl]

/-! ## Stand-ins -/

/-- The attribute text of the directive: the source, and behind it the text of the image. -/
def sourced (url attrs : List Char) : List Char :=
  AttrBlock.writeAttr "src".toList url ++ ' ' :: attrs

theorem ImageNotation.directive_eq (n : ImageNotation) :
    n.directive = ':' :: ("img".toList ++
      (labelText (some n.alt) ++ braced (sourced n.url n.attrs))) := by
  have hsource : "]\x7bsrc=\"".toList = ']' :: '{' :: ("src".toList ++ ['=', '"']) := by decide
  have hclose : "\" ".toList = ['"', ' '] := by decide
  have hname : ":img[".toList = ':' :: ("img".toList ++ ['[']) := by decide
  unfold ImageNotation.directive labelText braced sourced AttrBlock.writeAttr
  rw [hsource, hclose, hname]
  simp only [List.append_assoc, List.cons_append, List.nil_append]

theorem text?_directive {n : ImageNotation} (ha : ']' ∉ n.alt ∧ '\n' ∉ n.alt) (hquote : '"' ∉ n.url)
    (hline : '\n' ∉ n.url) (hattrs : PassesBrace n.attrs) (rest : List Char) :
    Directive.text? (n.directive ++ rest) =
      some (⟨"img".toList, some n.alt, some (sourced n.url n.attrs)⟩, rest) := by
  have hspace : PassesBrace [' '] := passesBrace_char (by decide) (by decide) (by decide)
  have hpasses : PassesBrace (sourced n.url n.attrs) :=
    (passesBrace_pair (by decide) hquote hline).append (hspace.append hattrs)
  rw [n.directive_eq, List.cons_append, Directive.text?, List.append_assoc, List.append_assoc]
  exact body?_written (by decide) (fun l hl => Option.some.inj hl ▸ ha) hpasses rest

/-- The source of an image in front of attribute text: not empty, without blanks, closing brackets,
double quotes and typographic quotes, and with no backslash at its end. -/
structure IsSource (u : List Char) : Prop extends Enclosed '"' u where
  nonempty : u ≠ []
  chars : ∀ c ∈ u, isBlank c = false ∧ c ≠ ')'
  straight : ∀ c ∈ u, IsStraight c

instance (u : List Char) : Decidable (IsSource u) :=
  decidable_of_iff (Enclosed '"' u ∧ u ≠ [] ∧ (∀ c ∈ u, isBlank c = false ∧ c ≠ ')') ∧
      ∀ c ∈ u, IsStraight c)
    ⟨fun ⟨henclosed, hne, hchars, hall⟩ => ⟨henclosed, hne, hchars, hall⟩,
      fun h => ⟨h.toEnclosed, h.nonempty, h.chars, h.straight⟩⟩

theorem IsSource.line {u : List Char} (h : IsSource u) : '\n' ∉ u := fun hl =>
  absurd (h.chars _ hl).1 (by decide)

/-- The attribute text of an image overrides its source, and nothing else is changed. -/
theorem find?_sourced {url : List Char} (hu : IsSource url) (attrs : List Char) (key : String) :
    Assoc.find? (parseDirective (sourced url attrs)) key =
      (Assoc.find? (parseDirective attrs) key).or
        (Assoc.find? [("src", String.ofList url)] key) := by
  have hname : IsName "src".toList := by decide
  have htokens : splitTokens (sourced url attrs) =
      [AttrBlock.writeAttr "src".toList url] ++ splitTokens attrs :=
    splitTokens_pair hname hu.toEnclosed hu.straight attrs
  refine find?_parseDirective_behind htokens ?_ key
  rw [List.foldl_cons, List.foldl_nil, addDirectiveToken_pair hname (by decide) hu.inside]
  rfl

/-- An image with attribute text becomes one directive: it is named `img`, its label is the
alternative text, and its attributes are the source of the image, overridden by those of the
text. -/
theorem image_stands_in {alt url gap attrs : List Char} (ha : ']' ∉ alt ∧ '\n' ∉ alt)
    (hu : IsSource url) (hg : Blanks gap) (hb : '}' ∉ attrs ∧ '\n' ∉ attrs)
    (hq : QuotesClosed attrs) :
    ∃ r : Directive.Reading,
      Directive.text? (replaceImages (String.ofList (imageBlock alt url gap attrs))).toList =
        some (r, []) ∧
      r.name = "img".toList ∧ r.label = some alt ∧
      ∀ key, Assoc.find? r.attributes key =
        (Assoc.find? (parseDirective attrs) key).or
          (Assoc.find? [("src", String.ofList url)] key) := by
  have hnotation := imageNotation?_imageBlock ha.1 hu.nonempty hu.chars hg hb.1 []
  have hreplaced := replaceFrom_append hnotation rfl (by simp [imageBlock])
  rw [List.append_nil, replaceFrom] at hreplaced
  refine ⟨⟨"img".toList, some alt, some (sourced url attrs)⟩, ?_, rfl, rfl, find?_sourced hu attrs⟩
  rw [replaceImages, String.toList_ofList, String.toList_ofList, hreplaced]
  exact text?_directive ha hu.inside hu.line (hq.passesBrace hb.1 hb.2) []

/-- Attribute text with quotes of either kind inside of others, an escape, a second source and
classes in both notations. -/
def sampleAttrs : List Char :=
  " .wide alt='say \"it\\' src=\"b c.png\" #top class=\"a b\" “x".toList

theorem image_stands_in_sample :
    ∃ r : Directive.Reading,
      Directive.text? (replaceImages (String.ofList (imageBlock "A [cat".toList "x\x7dy'(z.png".toList
        "\n\t ".toList sampleAttrs))).toList = some (r, []) ∧
      r.name = "img".toList ∧ r.label = some "A [cat".toList ∧
      ["src", "class", "id", "alt", "href"].map (Assoc.find? r.attributes) =
        [some "b c.png", some "wide a b", some "top", some "say \"it\\", none] := by
  obtain ⟨r, hread, hname, hlabel, hattributes⟩ :=
    @image_stands_in "A [cat".toList "x\x7dy'(z.png".toList "\n\t ".toList sampleAttrs (by decide)
      (by decide +kernel) (by decide) (by decide) (by decide)
  refine ⟨r, hread, hname, hlabel, ?_⟩
  simp only [List.map_cons, List.map_nil, hattributes]
  decide +kernel

/-- An image without a source is left as it is, and begins no directive. -/
theorem image_without_source_stays :
    QuotesClosed ".c".toList ∧
      replaceImages (String.ofList (imageBlock "a".toList [] [] ".c".toList)) = "![a]()\x7b.c\x7d" ∧
      Directive.text? (replaceImages
        (String.ofList (imageBlock "a".toList [] [] ".c".toList))).toList = none := by
  decide +kernel

end DocumentMedia.Document
