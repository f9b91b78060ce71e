import DocumentMedia.Markdown.Parse
import DocumentMedia.Proofs.Markdown.Inline

/-! # Documents of one paragraph

A document of one line is a paragraph when the line does not begin like another block. Main
statement: its tokens are those of a paragraph around the tokens of the line without the blanks at
its ends. -/
namespace DocumentMedia.Markdown

open DocumentMedia.Text

/-! ## One line -/

/-- What may end the only line of a document. -/
def IsLineEnd (s : List Char) : Prop := s = [] ∨ s = ['\n']

theorem scanLines_spaces (indent : Nat) (s : List Char) (place start shift width : Nat) :
    scanLines (List.replicate indent ' ' ++ s) place start shift width false =
      scanLines s (place + indent) start (shift + indent) (width + indent) false := by
  induction indent generalizing place shift width with
  | zero => rfl
  | succ n ih =>
    have hspace : isSpace ' ' = true := by decide
    rw [List.replicate_succ, List.cons_append, scanLines, hspace, Bool.not_false, Bool.true_and,
      if_pos rfl, ih, widen, if_neg (by decide)]
    congr 1 <;> omega

theorem scanLines_found {s behind : List Char} (hs : '\n' ∉ s) (hbehind : IsLineEnd behind)
    {place start : Nat} (h : start < place) (shift width : Nat) :
    scanLines (s ++ behind) place start shift width true =
      [⟨start, place + s.length, shift, width, 0⟩] := by
  induction s generalizing place with
  | nil =>
    rcases hbehind with rfl | rfl
    · simp [scanLines, h]
    · simp [scanLines]
  | cons c s ih =>
    rw [List.mem_cons, not_or] at hs
    rw [List.cons_append, scanLines, if_neg (by simp), if_neg (Ne.symm hs.1), ih hs.2 (by omega),
      List.length_cons]
    congr 2
    omega

/-- A line that begins with a character other than a space, behind some spaces. -/
theorem scanLines_line {c : Char} {cs behind : List Char} (hc : isSpace c = false)
    (hs : '\n' ∉ c :: cs) (hbehind : IsLineEnd behind) (indent : Nat) :
    scanLines (List.replicate indent ' ' ++ (c :: cs ++ behind)) 0 0 0 0 false =
      [⟨0, indent + (c :: cs).length, indent, indent, 0⟩] := by
  rw [List.mem_cons, not_or] at hs
  rw [scanLines_spaces, List.cons_append, scanLines, hc, if_neg (by simp), if_neg (Ne.symm hs.1),
    scanLines_found hs.2 hbehind (by omega), List.length_cons]
  congr 2 <;> omega

/-- Blocks to be read from a document with one line, `content` behind spaces. -/
structure Blocks.Single (b : Blocks) (indent : Nat) (content : List Char) : Prop where
  line : b.line? 0 = ⟨0, indent + content.length, indent, indent, 0⟩
  src : (b.src.extract 0 (indent + content.length)).toList =
    List.replicate indent ' ' ++ content
  limit : b.limit = 1
  outer : b.indent = 0

theorem Blocks.single_start (dialect : Dialect) {c : Char} {cs behind : List Char}
    (hc : isSpace c = false) (hs : '\n' ∉ c :: cs) (hbehind : IsLineEnd behind) (indent : Nat) :
    (Blocks.start dialect (List.replicate indent ' ' ++ (c :: cs ++ behind))).Single indent
      (c :: cs) where
  line := by simp only [Blocks.line?, Blocks.start, scanLines_line hc hs hbehind]; rfl
  src := by
    rw [Blocks.start, ← List.append_assoc, Array.toList_extract, List.extract_eq_take_drop,
      Nat.sub_zero, List.drop_zero]
    exact List.take_left' (by rw [List.length_append, List.length_replicate])
  limit := by simp only [Blocks.start, scanLines_line hc hs hbehind]; rfl
  outer := rfl

/-- An item of a numbered list: at most nine digits, a mark, and a blank or nothing behind it. -/
def StartsItem (s : List Char) : Prop :=
  ∃ digits mark rest, s = digits ++ mark :: rest ∧ digits ≠ [] ∧ digits.length ≤ 9 ∧
    (∀ d ∈ digits, d.isDigit = true) ∧ mark ∈ ['.', ')'] ∧ ∀ c ∈ rest.head?, isSpace c = true

theorem StartsItem.head {c : Char} {cs : List Char} (h : StartsItem (c :: cs)) :
    c.isDigit = true := by
  obtain ⟨digits, mark, rest, hparts, hne, -, hdigits, -⟩ := h
  obtain ⟨d, ds, rfl⟩ := List.exists_cons_of_ne_nil hne
  rw [(List.cons.inj hparts).1]
  exact hdigits d List.mem_cons_self

/-- Whether a line starts an item is settled before the first character that no item begins with. -/
theorem StartsItem.withTail {s t : List Char} (h : StartsItem (s ++ t))
    (ht : ∀ c ∈ t.head?, c.isDigit = false ∧ c ∉ ['.', ')'] ∧ isSpace c = false) {u : List Char}
    (hu : t = [] → u = []) : StartsItem (s ++ u) := by
  obtain ⟨digits, mark, rest, hparts, hne, hlength, hdigits, hmark, hrest⟩ := h
  -- The mark stands within `s`, since `t` begins with neither a digit nor a mark.
  have hinside : ∃ r, s = digits ++ mark :: r ∧ rest = r ++ t := by
    have hcut : s ++ t = (digits ++ [mark]) ++ rest := by simp [hparts]
    rcases List.append_eq_append_iff.mp hcut with ⟨a, ha, hta⟩ | ⟨r, hr, hrt⟩
    · cases a with
      | nil => exact ⟨[], by simpa using ha.symm, by simpa using hta.symm⟩
      | cons d a =>
        obtain ⟨hdigit, hpoint, -⟩ := ht d (by rw [hta]; rfl)
        have hd : d ∈ digits ++ [mark] := by simp [ha]
        rcases List.mem_append.mp hd with hd | hd
        · rw [hdigits d hd] at hdigit
          cases hdigit
        · rw [List.mem_singleton.mp hd] at hpoint
          exact absurd hmark hpoint
    · exact ⟨r, by simpa using hr, hrt⟩
  obtain ⟨r, rfl, rfl⟩ := hinside
  refine ⟨digits, mark, r ++ u, by simp, hne, hlength, hdigits, hmark, ?_⟩
  cases r with
  | cons d r => exact hrest
  | nil =>
    cases t with
    | nil => simp [hu rfl]
    | cons d t =>
      have hspace := hrest d rfl
      rw [(ht d rfl).2.2] at hspace
      cases hspace

/-- What a line may begin with that is neither blank nor the start of another block. -/
structure IsProse (dialect : Dialect) (indent : Nat) (c : Char) (cs : List Char) : Prop where
  solid : isSpace c = false
  mark : c ∉ ['~', '`', '>', '*', '-', '_', '+', '[', '<', '#']
  leaf : c = ':' → cs.head? ≠ some ':'
  code : dialect.constructs = true → indent < 4
  item : dialect.constructs = true → ¬ StartsItem (c :: cs)

namespace Blocks.Single

variable {b : Blocks} {indent : Nat} {c : Char} {cs : List Char}

theorem first (h : b.Single indent (c :: cs)) : b.first 0 = indent := by
  rw [Blocks.first, h.line]
  exact Nat.zero_add indent

theorem text (h : b.Single indent (c :: cs)) : b.text 0 = c :: cs := by
  have hsrc := congrArg (List.drop indent) h.src
  rw [List.drop_left' List.length_replicate, Array.toList_extract,
    List.extract_eq_take_drop] at hsrc
  rw [Blocks.text, h.first, h.line, Array.toList_extract, List.extract_eq_take_drop, ← hsrc]
  simp [List.drop_take]

theorem isEmpty (h : b.Single indent (c :: cs)) : b.isEmpty 0 = false := by
  simp [Blocks.isEmpty, h.first, h.line]

theorem isOutdented (h : b.Single indent (c :: cs)) : b.isOutdented 0 = false := by
  simp [Blocks.isOutdented, h.line, h.outer]

theorem isCode (h : b.Single indent (c :: cs)) (hp : IsProse b.dialect indent c cs) :
    b.isCode 0 = false := by
  cases hd : b.dialect.constructs with
  | false => simp [Blocks.isCode, hd]
  | true =>
    have hindent := hp.code hd
    simp [Blocks.isCode, Blocks.inner, h.line, h.outer]
    omega

end Blocks.Single

/-! ## Rules -/

/-- The rule leaves the only line to the rules behind it. -/
def Refuses (rule : BlockRule) (b : Blocks) : Prop := (rule 0 1).run b = (false, b)

theorem firstRule_refuses {rules : List BlockRule} {b : Blocks} (h : ∀ r ∈ rules, Refuses r b)
    (rest : List BlockRule) :
    (firstRule 0 1 (rules ++ rest)).run b = (firstRule 0 1 rest).run b := by
  induction rules with
  | nil => rfl
  | cons r rules ih =>
    rw [List.forall_mem_cons] at h
    rw [List.cons_append, firstRule, run_bind_of h.1, if_neg (by decide), ih h.2]

section

variable {b : Blocks} {indent : Nat} {c : Char} {cs : List Char}

theorem number?_none (h : b.Single indent (c :: cs)) (hi : ¬ StartsItem (c :: cs)) :
    b.number? 0 = none := by
  unfold Blocks.number?
  rw [h.text]
  simp only
  split
  · next d ds mark rest hdigits hbehind =>
    split
    · next hform =>
      simp only [Bool.and_eq_true, decide_eq_true_eq, Bool.or_eq_true] at hform
      obtain ⟨⟨hlength, hmark⟩, hblank⟩ := hform
      refine absurd ⟨d :: ds, mark, rest, ?_, List.cons_ne_nil d ds, hlength, ?_, ?_, ?_⟩ hi
      · rw [← hdigits, ← hbehind, List.takeWhile_append_dropWhile]
      · rw [← hdigits]
        exact fun e he => List.mem_takeWhile_imp he
      · rcases hmark with rfl | rfl <;> simp
      · intro e he
        cases rest with
        | nil => cases he
        | cons f rest =>
          cases he
          exact hblank
    · rfl
  · rfl

theorem listMark?_none (h : b.Single indent (c :: cs)) (hp : IsProse b.dialect indent c cs) :
    b.listMark? false 0 = none := by
  have hmark := hp.mark
  simp only [List.mem_cons, not_or] at hmark
  have hbullet : b.bullet? 0 = none := by simp [Blocks.bullet?, h.text, hmark]
  unfold Blocks.listMark?
  cases hd : b.dialect.constructs with
  | false => rfl
  | true => simp [number?_none h (hp.item hd), hbullet]

theorem heading?_none (h : b.Single indent (c :: cs)) (hp : IsProse b.dialect indent c cs) :
    b.heading? 0 = none := by
  have hmark := hp.mark
  simp only [List.mem_cons, not_or] at hmark
  have hlevel : ((c :: cs).takeWhile (· = '#')).length = 0 := by simp [hmark]
  simp [Blocks.heading?, h.text, hlevel]

theorem directive?_none (h : b.Single indent (c :: cs)) (hp : IsProse b.dialect indent c cs) :
    b.directive? 0 = none := by
  have hleaf : Directive.leaf? (c :: cs) = none := by
    unfold Directive.leaf?
    split
    · next s hs =>
      obtain ⟨rfl, rfl⟩ := List.cons.inj hs
      exact absurd rfl (hp.leaf rfl)
    · rfl
  simp [Blocks.directive?, h.text, hleaf]

/-- All rules but the one for paragraphs refuse prose. -/
theorem rules_refuse (h : b.Single indent (c :: cs)) (hp : IsProse b.dialect indent c cs)
    (readQuote readItem : Reader) :
    ∀ r ∈ [tableBlock, codeBlock, fenceBlock, quoteBlock readQuote, ruleBlock, listBlock readItem,
      definitionBlock, markupBlock, headingBlock, underlinedBlock, directiveBlock],
      Refuses r b := by
  have hmark := hp.mark
  simp only [List.mem_cons, not_or] at hmark
  have htable : b.table? 0 1 = none := by simp [Blocks.table?]
  have hcode := h.isCode hp
  have hfence : b.fence? 0 = none := by simp [Blocks.fence?, h.text, hmark]
  have hquote : b.isQuote 0 = false := by simp [Blocks.isQuote, h.text, hmark]
  have hrule : b.isRule 0 = false := by simp [Blocks.isRule, h.text, hmark]
  have hmarkup : b.markup? 0 = none := by
    have hline : markupBlock? (c :: cs) = none := by
      unfold markupBlock?
      split
      · next hs => exact absurd (List.cons.inj hs).1 hmark.2.2.2.2.2.2.2.2.1
      · rfl
    simp [Blocks.markup?, h.text, hline]
  have hunderline : findUnderline b 1 1 1 = none := by simp [findUnderline]
  simp only [List.forall_mem_cons, List.not_mem_nil, false_implies, implies_true, and_true]
  unfold Refuses
  refine ⟨?_, ?_, ?_, ?_, ?_, ?_, ?_, ?_, ?_, ?_, ?_⟩
  · rw [tableBlock, run_get_bind, htable]
    rfl
  · rw [codeBlock, run_get_bind, hcode]
    rfl
  · rw [fenceBlock, run_get_bind, hfence]
    rfl
  · rw [quoteBlock, run_get_bind, hquote]
    rfl
  · rw [ruleBlock, run_get_bind, hrule]
    rfl
  · rw [listBlock, run_get_bind, listMark?_none h hp]
    rfl
  · rw [definitionBlock, run_get_bind, h.text]
    split
    · rfl
    · split
      · next hs => exact absurd (List.cons.inj hs).1 hmark.2.2.2.2.2.2.2.1
      · rfl
  · rw [markupBlock, run_get_bind, hmarkup]
    rfl
  · rw [headingBlock, run_get_bind, heading?_none h hp]
    rfl
  · rw [underlinedBlock, run_get_bind, hunderline]
    split <;> rfl
  · rw [directiveBlock, run_get_bind, directive?_none h hp]
    rfl

def paragraphTokens (content : List Char) : List BlockToken :=
  [{ type := "paragraph_open", nesting := .opens, tag := "p" },
    { type := "inline", content := String.ofList content },
    { type := "paragraph_close", nesting := .closes, tag := "p" }]

theorem dropIndent_zero (offset marks : Nat) (s : List Char) :
    Blocks.dropIndent offset 0 marks 0 s = s := by
  unfold Blocks.dropIndent
  simp

theorem paragraphBlock_run (h : b.Single indent (c :: cs)) :
    (paragraphBlock 0 1).run b = (true, { b with
      tokens := b.tokens ++
        (paragraphTokens (trim (List.replicate indent ' ' ++ c :: cs))).toArray
      line := 1 }) := by
  have hlast : paragraphEnd b (b.limit + 1 - 0) (0 + 1) = 1 := by
    rw [h.limit]
    simp [paragraphEnd, h.limit]
  have hcontent : b.content 0 false 0 = List.replicate indent ' ' ++ c :: cs := by
    simp only [Blocks.content, h.line]
    exact (dropIndent_zero _ _ _).trans h.src
  have hcontents : b.contents 0 1 b.indent false = List.replicate indent ' ' ++ c :: cs := by
    rw [h.outer, ← hcontent]
    simp [Blocks.contents]
  unfold paragraphBlock
  rw [run_get_bind]
  simp only [hlast, hcontents]
  have hfinish (act : Blocks → Blocks) :
      (finishAt 1 act).run b = (true, { act b with line := 1 }) := rfl
  have hpush (x y z : BlockToken) :
      ((b.tokens.push x).push y).push z = b.tokens ++ [x, y, z].toArray := by
    apply Array.ext'
    simp
  rw [hfinish]
  simp only [Blocks.opening, Blocks.inline, Blocks.closing, Blocks.push, hpush]
  rfl

theorem firstRule_run (h : b.Single indent (c :: cs)) (hp : IsProse b.dialect indent c cs)
    (readQuote readItem : Reader) :
    (firstRule 0 1 (blockRules readQuote readItem)).run b = (true, { b with
      tokens := b.tokens ++
        (paragraphTokens (trim (List.replicate indent ' ' ++ c :: cs))).toArray
      line := 1 }) := by
  have hrules : blockRules readQuote readItem = [tableBlock, codeBlock, fenceBlock,
      quoteBlock readQuote, ruleBlock, listBlock readItem, definitionBlock, markupBlock,
      headingBlock, underlinedBlock, directiveBlock] ++ [paragraphBlock] := rfl
  rw [hrules, firstRule_refuses (rules_refuse h hp readQuote readItem), firstRule,
    run_bind_of (paragraphBlock_run h)]
  rfl

theorem blockLoop_run (h : b.Single indent (c :: cs)) (hp : IsProse b.dialect indent c cs)
    (readQuote readItem : Reader) :
    ((blockLoop (blockRules readQuote readItem) 1 2 0 false).run b).2 = { b with
      tokens := b.tokens ++
        (paragraphTokens (trim (List.replicate indent ' ' ++ c :: cs))).toArray
      line := 1
      tight := true } := by
  have hskip : b.skipEmpty (b.limit + 1 - 0) 0 = 0 := by
    rw [h.limit]
    simp [Blocks.skipEmpty, h.isEmpty]
  have hat : Blocks.Single { b with line := 0 } indent (c :: cs) :=
    ⟨h.line, h.src, h.limit, h.outer⟩
  have hrule := firstRule_run hat hp readQuote readItem
  have hloop (fuel : Nat) (loose : Bool) (b : Blocks) :
      ((blockLoop (blockRules readQuote readItem) 1 fuel 1 loose).run b) = ((), b) := by
    cases fuel <;> rfl
  unfold blockLoop
  rw [if_neg (by decide), run_get_bind, hskip]
  dsimp only
  rw [run_set_bind, h.isOutdented, if_neg (by decide), run_bind_of hrule, run_modify_bind,
    run_get_bind, if_neg (by simp), hloop]
  rfl

end

/-! ## Documents -/

/-- Text in one line, in which no character is replaced before it is read. -/
def IsPlainLine (s : List Char) : Prop := ∀ c ∈ s, c ≠ '\n' ∧ c ≠ '\r' ∧ c.toNat ≠ 0

instance (s : List Char) : Decidable (IsPlainLine s) :=
  decidable_of_iff (s.all (fun c => decide (c ≠ '\n' ∧ c ≠ '\r' ∧ c.toNat ≠ 0)) = true)
    (by simp only [List.all_eq_true, decide_eq_true_eq, IsPlainLine])

theorem normalized_plain {s : List Char} (h : ∀ c ∈ s, c ≠ '\r' ∧ c.toNat ≠ 0) :
    normalized s = s := by
  induction s with
  | nil => rfl
  | cons c s ih =>
    obtain ⟨hc, hs⟩ := List.forall_mem_cons.mp h
    rw [normalized, if_neg hc.1, if_neg hc.2, ih hs]
    exact fun _ he => absurd he hc.1

theorem IsPlainLine.normalized {s behind : List Char} (h : IsPlainLine s)
    (hbehind : IsLineEnd behind) (indent : Nat) :
    normalized (List.replicate indent ' ' ++ (s ++ behind)) =
      List.replicate indent ' ' ++ (s ++ behind) := by
  apply normalized_plain
  intro c hc
  rcases List.mem_append.mp hc with hc | hc
  · rw [List.eq_of_mem_replicate hc]
    decide
  rcases List.mem_append.mp hc with hc | hc
  · exact (h c hc).2
  rcases hbehind with rfl | rfl
  · cases hc
  · rw [List.mem_singleton.mp hc]
    decide

/-- The tokens of a paragraph with the tokens of its text. -/
def readParagraph (dialect : Dialect) (content : List Char) : List BlockToken :=
  [{ type := "paragraph_open", nesting := .opens, tag := "p" },
    { type := "inline", content := String.ofList content
      inlines := inlineTokens ⟨dialect, []⟩ content },
    { type := "paragraph_close", nesting := .closes, tag := "p" }]

/-- The tokens of a document of one line of prose. -/
theorem tokens_prose {dialect : Dialect} (hdepth : 2 ≤ dialect.maxNesting) {indent : Nat} {c : Char}
    {cs behind : List Char} (hp : IsProse dialect indent c cs) (hline : IsPlainLine (c :: cs))
    (hbehind : IsLineEnd behind) :
    tokens dialect (String.ofList (List.replicate indent ' ' ++ (c :: cs ++ behind))) =
      readParagraph dialect (trim (List.replicate indent ' ' ++ c :: cs)) := by
  obtain ⟨depth, hdepth⟩ := Nat.exists_eq_add_of_le' hdepth
  have hbreak : '\n' ∉ c :: cs := fun hc => (hline '\n' hc).1 rfl
  have hsingle := Blocks.single_start dialect hp.solid hbreak hbehind indent
  have hread : readDocument dialect (List.replicate indent ' ' ++ (c :: cs ++ behind)) =
      ((blockLoop (blockRules (readBlocks (depth + 1)) (readBlocks depth)) 1 2 0 false).run
        (Blocks.start dialect (List.replicate indent ' ' ++ (c :: cs ++ behind)))).2 := by
    rw [readDocument, hsingle.limit, hdepth, readBlocks]
  rw [blockLoop_run hsingle hp] at hread
  have hopen : ("paragraph_open" = "inline") = False := by decide
  have hclose : ("paragraph_close" = "inline") = False := by decide
  rw [tokens, String.toList_ofList, hline.normalized hbehind, hread]
  simp only [Blocks.start, paragraphTokens, readParagraph, Array.empty_append, List.map_cons,
    List.map_nil, hopen, hclose, if_false, if_true, String.toList_ofList]

end DocumentMedia.Markdown
