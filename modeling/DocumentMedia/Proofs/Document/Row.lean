import DocumentMedia.Document.Body
import DocumentMedia.Proofs.Asset.Relink
import DocumentMedia.Proofs.Component.Lines
import DocumentMedia.Proofs.Document.Routes
import DocumentMedia.Proofs.Markdown.Paragraph

/-! # Rows of words and directives

A document of one line of words and directives is a paragraph of texts and directives. Main
statement: every directive that was written is a node of its tree, in order, and there is no other
one. -/
namespace DocumentMedia.Document

open DocumentMedia.Text DocumentMedia.Markdown

/-! ## Nodes -/

def wordNodes (words : List Char) : List Node :=
  if words.isEmpty then [] else [Node.text (String.ofList words)]

/-- The node of a directive that was read. -/
def markNode (m : Mark) : Node :=
  directiveNode "textDirective" (directiveToken m.text m.reading).directive

def rowNodes (words : List Char) (marks : List (Mark × List Char)) : List Node :=
  wordNodes words ++ marks.flatMap fun p => markNode p.1 :: wordNodes p.2

/-- A node stays apart from the one before it unless both are texts. -/
theorem append_of_apart {p : OpenNode} {n : Node}
    (h : n.isText = false ∨ ∀ m ∈ p.children.head?, m.isText = false) :
    p.append n = { p with children := n :: p.children } := by
  unfold OpenNode.append appendNode
  split
  · next hc =>
    rcases h with h | h
    · cases h
    · rw [hc] at h
      cases h _ rfl
  · rfl

/-- The nodes of a row are added behind a node that is no text as they are. -/
theorem foldl_append_rowNodes {p : OpenNode} (h : ∀ n ∈ p.children.head?, n.isText = false)
    (words : List Char) (marks : List (Mark × List Char)) :
    (rowNodes words marks).foldl OpenNode.append p =
      { p with children := (rowNodes words marks).reverse ++ p.children } := by
  have hwords (words : List Char) {p : OpenNode} (h : ∀ n ∈ p.children.head?, n.isText = false) :
      (wordNodes words).foldl OpenNode.append p =
        { p with children := (wordNodes words).reverse ++ p.children } := by
    unfold wordNodes
    split
    · rfl
    · exact append_of_apart (Or.inr h)
  induction marks generalizing words p with
  | nil => simpa [rowNodes] using hwords words h
  | cons q marks ih =>
    obtain ⟨m, w⟩ := q
    have hparts : rowNodes words ((m, w) :: marks) =
        wordNodes words ++ markNode m :: rowNodes w marks := by simp [rowNodes]
    rw [hparts, List.foldl_append, hwords words h, List.foldl_cons,
      append_of_apart (Or.inl rfl), ih]
    · simp
    · intro n hn
      cases hn
      rfl

theorem inlineNodes_words (components : Bool) (words : List Char) :
    (wordTokens words).flatMap (inlineNodes components) = wordNodes words := by
  unfold wordTokens wordNodes
  split
  · rfl
  · rfl

theorem inlineNodes_rowTokens (components : Bool) (words : List Char)
    (marks : List (Mark × List Char)) :
    (rowTokens words marks).flatMap (inlineNodes components) = rowNodes words marks := by
  have hmark (m : Mark) :
      inlineNodes components (directiveToken m.text m.reading) = [markNode m] := rfl
  simp only [rowTokens, rowNodes, List.flatMap_append, inlineNodes_words, List.flatMap_assoc,
    List.flatMap_cons, hmark, List.singleton_append]

theorem foldl_inlineStep (components : Bool) {ts : List Token}
    (h : ∀ t ∈ ts, t.nesting = .stands) (top : OpenNode) (below : List OpenNode) :
    ts.foldl (inlineStep components) (top, below) =
      ((ts.flatMap (inlineNodes components)).foldl OpenNode.append top, below) := by
  induction ts generalizing top with
  | nil => rfl
  | cons t ts ih =>
    rw [List.forall_mem_cons] at h
    have hstep : inlineStep components (top, below) t =
        ((inlineNodes components t).foldl OpenNode.append top, below) := by
      simp only [inlineStep, h.1]
    rw [List.foldl_cons, hstep, ih h.2, List.flatMap_cons, List.foldl_append]

theorem rowTokens_stand (words : List Char) (marks : List (Mark × List Char)) :
    ∀ t ∈ rowTokens words marks, t.nesting = .stands := by
  have hwords (words : List Char) : ∀ t ∈ wordTokens words, t.nesting = .stands := by
    unfold wordTokens
    split
    · exact List.forall_mem_nil _
    · exact List.forall_mem_singleton.mpr rfl
  intro t ht
  rcases List.mem_append.mp ht with ht | ht
  · exact hwords words t ht
  · obtain ⟨p, -, ht⟩ := List.mem_flatMap.mp ht
    rcases List.mem_cons.mp ht with rfl | ht
    · rfl
    · exact hwords p.2 t ht

theorem inlineContent_rowTokens (components : Bool) (words : List Char)
    (marks : List (Mark × List Char)) :
    inlineContent components (rowTokens words marks) = rowNodes words marks := by
  unfold inlineContent
  rw [foldl_inlineStep components (rowTokens_stand words marks), inlineNodes_rowTokens,
    foldl_append_rowNodes (by simp)]
  simp [closeAll]

theorem nodes?_of_head (flow : Bool) {s : List Char}
    (h : ∀ c ∈ s.head?, isBlank c = false ∧ c ≠ '<') : Component.nodes? flow s = none := by
  cases s with
  | nil => rfl
  | cons c cs =>
    obtain ⟨hblank, hne⟩ := h c rfl
    have helement (cs : List Char) : Component.element? flow (c :: cs) = none := by
      rw [Option.eq_none_iff_forall_ne_some]
      intro e he
      obtain ⟨lead, t, rest, hlead, -, hs⟩ := Component.exists_startTag he
      cases lead with
      | nil => exact hne (List.cons.inj hs).1
      | cons b lead =>
        have hb := hlead b List.mem_cons_self
        rw [← (List.cons.inj hs).1, hblank] at hb
        cases hb
    have hbreak : isLineBreak c = false :=
      Bool.eq_false_iff.mpr fun hb => by simp [Component.isBlank_of_isLineBreak hb] at hblank
    have hlines : ∃ l ls, lines (c :: cs) = (c :: l) :: ls := by
      rw [Component.lines_cons hbreak]
      cases lines cs with
      | nil => exact ⟨[], [], rfl⟩
      | cons l ls => exact ⟨l, ls, rfl⟩
    obtain ⟨l, ls, hlines⟩ := hlines
    have hsolid : isAllBlank (c :: l) = false := by simp [isAllBlank, hblank]
    unfold Component.nodes?
    rw [helement, hlines, List.filter_cons_of_pos (by simp [hsolid])]
    simp [List.mapM_cons, helement]

/-- The token of the text of a paragraph. -/
def rowToken (words : List Char) (marks : List (Mark × List Char)) : BlockToken :=
  { type := "inline", content := String.ofList (rowText words marks)
    inlines := rowTokens words marks }

/-- The text of a paragraph becomes its children if it begins with no tag. -/
theorem textStep_row (components : Bool) {words : List Char} {marks : List (Mark × List Char)}
    (hhead : ∀ c ∈ (rowText words marks).head?, isBlank c = false ∧ c ≠ '<')
    (below : List OpenNode) :
    textStep components (⟨"paragraph", .paragraph false, [], false⟩ :: below)
      (rowToken words marks) =
      .ok (⟨"paragraph", .paragraph false, (rowNodes words marks).reverse, false⟩ :: below) := by
  have hflow (top : OpenNode) : flowOf components top (rowToken words marks) = none := by
    unfold flowOf rowToken
    split
    · simp only [String.toList_ofList, nodes?_of_head true hhead, ite_self]
    · rfl
  have hcontent : inlineContent components (rowToken words marks).inlines = rowNodes words marks :=
    inlineContent_rowTokens components words marks
  simp only [textStep, hflow, hcontent]
  rw [foldl_append_rowNodes (by simp), List.append_nil]

theorem treeOfTokens_row (components : Bool) {dialect : Dialect}
    (hdepth : dialect.maxNesting ≠ 0) {words : List Char} {marks : List (Mark × List Char)}
    (h : IsRow words marks)
    (hhead : ∀ c ∈ (rowText words marks).head?, isBlank c = false ∧ c ≠ '<') :
    treeOfTokens components (readParagraph dialect (rowText words marks)) =
      .ok (paragraphTree (rowNodes words marks)) := by
  have hinlines : inlineTokens ⟨dialect, []⟩ (rowText words marks) = rowTokens words marks :=
    inlineTokens_row hdepth h
  have hopen : blockStep components (none, [⟨"root", .root, [], false⟩])
      { type := "paragraph_open", nesting := .opens, tag := "p" } =
      .ok (none, [⟨"paragraph", .paragraph false, [], false⟩, ⟨"root", .root, [], false⟩]) := rfl
  have hinline : blockStep components
      (none, [⟨"paragraph", .paragraph false, [], false⟩, ⟨"root", .root, [], false⟩])
      (rowToken words marks) =
      .ok (none, [⟨"paragraph", .paragraph false, (rowNodes words marks).reverse, false⟩,
        ⟨"root", .root, [], false⟩]) :=
    congrArg (Except.map fun stack => (none, stack)) (textStep_row components hhead _)
  have hclose : blockStep components
      (none, [⟨"paragraph", .paragraph false, (rowNodes words marks).reverse, false⟩,
        ⟨"root", .root, [], false⟩])
      { type := "paragraph_close", nesting := .closes, tag := "p" } =
      .ok (none, [⟨"root", .root, [.parent "paragraph" [] (.paragraph false)
        (rowNodes words marks).reverse.reverse], false⟩]) := rfl
  have hbind {α β : Type} (a : α) (f : α → Except TreeError β) : (Except.ok a >>= f) = f a := rfl
  rw [readParagraph, hinlines, treeOfTokens, ← rowToken]
  simp only [List.foldlM_cons, List.foldlM_nil]
  rw [hopen, hbind, hinline, hbind, hclose, List.reverse_reverse]
  rfl

/-! ## Prose -/

/-- Letters, digits, spaces, commas and full stops. -/
def isProseChar (c : Char) : Bool := isAlnum c || c = ' ' || c = ',' || c = '.'

theorem ne_of_isProseChar {c d : Char} (h : isProseChar c = true) (hd : isProseChar d = false) :
    c ≠ d := by
  rintro rfl
  rw [hd] at h
  cases h

theorem endsRun_of_prose {c : Char} (h : isProseChar c = true) : endsRun c = false := by
  have hall : ∀ d ∈ "\n!#$%&*+-:<=>@[\\]^_`\x7b\x7d~".toList, isProseChar d = false :=
    forall_mem_of_all (by decide +kernel)
  rw [Bool.eq_false_iff]
  intro hc
  exact ne_of_isProseChar h (hall c (List.contains_iff_mem.mp hc)) rfl

theorem eq_space_of_blank {c : Char} (h : isProseChar c = true) (hblank : isBlank c = true) :
    c = ' ' := by
  have hword := isWord_of_blank hblank
  simp only [isWord, Bool.or_eq_false_iff] at hword
  simp only [isProseChar, hword.1, Bool.false_or, Bool.or_eq_true, decide_eq_true_eq] at h
  rcases h with (rfl | rfl) | rfl
  · rfl
  · exact absurd hblank (by decide)
  · exact absurd hblank (by decide)

theorem not_blank_of_not_edge {c : Char} (h : isProseChar c = true)
    (hedge : isEdgeBlank c = false) : isBlank c = false := by
  rw [Bool.eq_false_iff]
  intro hblank
  obtain rfl := eq_space_of_blank h hblank
  exact absurd hedge (by decide)

/-- Words of prose, and directives in one line that do not stand right behind a letter or a
digit. -/
structure IsProseRow (words : List Char) (marks : List (Mark × List Char)) : Prop where
  reads : ∀ p ∈ marks, p.1.Reads
  lines : ∀ p ∈ marks, IsPlainLine p.1.text
  prose : ∀ w ∈ words :: marks.map (·.2), ∀ c ∈ w, isProseChar c = true
  apart : ∀ w ∈ (words :: marks.map (·.2)).dropLast, ∀ c ∈ w.getLast?, isAlnum c = false

section

variable {words w : List Char} {m : Mark} {marks : List (Mark × List Char)}

theorem IsProseRow.isRow (h : IsProseRow words marks) : IsRow words marks where
  reads := h.reads
  words := fun w hw c hc => endsRun_of_prose (h.prose w hw c hc)
  apart := h.apart

theorem IsProseRow.tail (h : IsProseRow words ((m, w) :: marks)) : IsProseRow w marks where
  reads := (List.forall_mem_cons.mp h.reads).2
  lines := (List.forall_mem_cons.mp h.lines).2
  prose := (List.forall_mem_cons.mp h.prose).2
  apart := (List.forall_mem_cons.mp h.apart).2

/-- Other words in front of a row, which end like those before. -/
theorem IsProseRow.withWords (h : IsProseRow words marks) {words' : List Char}
    (hsub : ∀ c ∈ words', c ∈ words) (hlast : ∀ c ∈ words'.getLast?, c ∈ words.getLast?) :
    IsProseRow words' marks where
  reads := h.reads
  lines := h.lines
  prose := by
    obtain ⟨hwords, hmarks⟩ := List.forall_mem_cons.mp h.prose
    exact List.forall_mem_cons.mpr ⟨fun c hc => hwords c (hsub c hc), hmarks⟩
  apart := by
    cases marks with
    | nil => exact List.forall_mem_nil _
    | cons p marks =>
      obtain ⟨hwords, hmarks⟩ := List.forall_mem_cons.mp h.apart
      exact List.forall_mem_cons.mpr ⟨fun c hc => hwords c (hlast c hc), hmarks⟩

theorem isPlainLine_of_prose {s : List Char} (h : ∀ c ∈ s, isProseChar c = true) :
    IsPlainLine s := by
  intro c hc
  have hzero : c ≠ Char.ofNat 0 := ne_of_isProseChar (h c hc) (by decide)
  refine ⟨ne_of_isProseChar (h c hc) (by decide), ne_of_isProseChar (h c hc) (by decide),
    fun h0 => hzero ?_⟩
  rw [← h0, Char.ofNat_toNat]

theorem IsProseRow.isPlainLine (h : IsProseRow words marks) :
    IsPlainLine (rowText words marks) := by
  intro c hc
  rcases List.mem_append.mp hc with hc | hc
  · exact isPlainLine_of_prose (h.prose words List.mem_cons_self) c hc
  · obtain ⟨p, hp, hc⟩ := List.mem_flatMap.mp hc
    rcases List.mem_append.mp hc with hc | hc
    · exact h.lines p hp c hc
    · exact isPlainLine_of_prose
        (h.prose p.2 (List.mem_cons_of_mem _ (List.mem_map_of_mem hp))) c hc

/-! ## Blanks at the ends -/

theorem dropWhile_rowText (h : IsProseRow words marks) :
    (rowText words marks).dropWhile isEdgeBlank = rowText (words.dropWhile isEdgeBlank) marks := by
  have hmarks : ((marks.flatMap fun p => p.1.text ++ p.2).dropWhile isEdgeBlank) =
      marks.flatMap fun p => p.1.text ++ p.2 := by
    cases marks with
    | nil => rfl
    | cons p marks =>
      obtain ⟨text, htext⟩ := (List.forall_mem_cons.mp h.reads).1.colon
      have hcolon : isEdgeBlank ':' = false := by decide
      rw [List.flatMap_cons, htext]
      simp [hcolon]
  unfold rowText
  rw [List.dropWhile_append, hmarks]
  split
  · next hall => rw [List.isEmpty_iff.mp hall, List.nil_append]
  · rfl

theorem isProseRow_words (h : ∀ c ∈ words, isProseChar c = true) : IsProseRow words [] :=
  ⟨List.forall_mem_nil _, List.forall_mem_nil _, List.forall_mem_singleton.mpr h,
    List.forall_mem_nil _⟩

theorem IsProseRow.withTail (h : IsProseRow words ((m, w) :: marks)) {w' : List Char}
    {marks' : List (Mark × List Char)} (ht : IsProseRow w' marks') :
    IsProseRow words ((m, w') :: marks') where
  reads := List.forall_mem_cons.mpr ⟨(List.forall_mem_cons.mp h.reads).1, ht.reads⟩
  lines := List.forall_mem_cons.mpr ⟨(List.forall_mem_cons.mp h.lines).1, ht.lines⟩
  prose := List.forall_mem_cons.mpr ⟨(List.forall_mem_cons.mp h.prose).1, ht.prose⟩
  apart := List.forall_mem_cons.mpr ⟨(List.forall_mem_cons.mp h.apart).1, ht.apart⟩

/-- Only the last words of a row lose the blanks at its end. -/
theorem exists_rdropWhile_rowText (h : IsProseRow words marks) : ∃ words' marks',
    (rowText words marks).rdropWhile isEdgeBlank = rowText words' marks' ∧
      marks'.map (·.1) = marks.map (·.1) ∧ IsProseRow words' marks' := by
  induction marks generalizing words with
  | nil =>
    have hprose := List.forall_mem_singleton.mp h.prose
    have hsub := (List.rdropWhile_prefix isEdgeBlank words).subset
    refine ⟨words.rdropWhile isEdgeBlank, [], by simp [rowText], rfl, ?_⟩
    exact isProseRow_words fun c hc => hprose c (hsub hc)
  | cons p marks ih =>
    obtain ⟨m, w⟩ := p
    obtain ⟨w', marks', hdrop, hmarks, hrow⟩ := ih h.tail
    have hm : m.Reads := (List.forall_mem_cons.mp h.reads).1
    obtain ⟨text, htext⟩ := hm.colon
    -- The last character of a directive is no blank, so nothing before it is dropped.
    obtain ⟨front, d, hfront⟩ := List.eq_nil_or_concat m.text |>.resolve_left (by simp [htext])
    have hd : isEdgeBlank d = false := by
      rcases hm.last d (by simp [hfront]) with rfl | rfl <;> decide
    refine ⟨words, (m, w') :: marks', ?_, by simp [hmarks], h.withTail hrow⟩
    have hparts (rest : List Char) : words ++ (m.text ++ rest) = (words ++ front) ++ d :: rest := by
      simp [hfront]
    rw [rowText_cons, rowText_cons, hparts, rdropWhile_solid hd, hdrop, hparts]

/-- A row without the blanks at its ends is a row with the same directives. -/
theorem exists_trim_rowText (h : IsProseRow words marks) : ∃ words' marks',
    trim (rowText words marks) = rowText words' marks' ∧
      marks'.map (·.1) = marks.map (·.1) ∧ IsProseRow words' marks' := by
  have hsuffix : words.dropWhile isEdgeBlank <:+ words := List.dropWhile_suffix _
  have hlast : ∀ c ∈ (words.dropWhile isEdgeBlank).getLast?, c ∈ words.getLast? := by
    intro c hc
    obtain ⟨front, hfront⟩ := hsuffix
    rw [← hfront, List.getLast?_append, hc]
    rfl
  have htrim : trim (rowText words marks) =
      ((rowText words marks).dropWhile isEdgeBlank).rdropWhile isEdgeBlank := rfl
  rw [htrim, dropWhile_rowText h]
  exact exists_rdropWhile_rowText (h.withWords (fun c hc => hsuffix.subset hc) hlast)

theorem head_trim (s : List Char) : ∀ c ∈ (trim s).head?, isEdgeBlank c = false := by
  intro c hc
  obtain ⟨rest, hrest⟩ : trim s <+: s.dropWhile isEdgeBlank := List.rdropWhile_prefix isEdgeBlank _
  have hhead := List.head?_dropWhile_not isEdgeBlank s
  rw [← hrest, List.head?_append, hc] at hhead
  simpa using hhead

theorem head_rowText (h : IsProseRow words marks) :
    ∀ c ∈ (rowText words marks).head?, isProseChar c = true ∨ c = ':' := by
  intro c hc
  cases words with
  | cons d words =>
    cases hc
    exact Or.inl ((List.forall_mem_cons.mp h.prose).1 _ List.mem_cons_self)
  | nil =>
    cases marks with
    | nil => cases hc
    | cons p marks =>
      obtain ⟨text, htext⟩ := (List.forall_mem_cons.mp h.reads).1.colon
      rw [rowText_cons, List.nil_append, htext] at hc
      cases hc
      exact Or.inr rfl

/-- The tree of a row of prose behind blanks and before the end of the line. -/
theorem exists_bodyTree_row (components : Bool) {dialect : Dialect}
    (hdepth : 2 ≤ dialect.maxNesting) (h : IsProseRow words marks) {indent : Nat} {c : Char}
    {cs behind : List Char} (hrow : rowText words marks = List.replicate indent ' ' ++ c :: cs)
    (hp : IsProse dialect indent c cs) (hbehind : IsLineEnd behind) : ∃ words' marks',
      bodyTree dialect components (String.ofList (rowText words marks ++ behind)) =
        paragraphTree (rowNodes words' marks') ∧
      marks'.map (·.1) = marks.map (·.1) := by
  obtain ⟨words', marks', htrim, hmarks, hrow'⟩ := exists_trim_rowText h
  have hhead : ∀ d ∈ (rowText words' marks').head?, isBlank d = false ∧ d ≠ '<' := by
    intro d hd
    have hedge := head_trim (rowText words marks) d (htrim ▸ hd)
    rcases head_rowText hrow' d hd with hprose | rfl
    · exact ⟨not_blank_of_not_edge hprose hedge, ne_of_isProseChar hprose (by decide)⟩
    · decide
  have hne : dialect.maxNesting ≠ 0 := by omega
  have htree := treeOfTokens_row components hne hrow'.isRow hhead
  have htokens : tokens dialect (String.ofList (rowText words marks ++ behind)) =
      readParagraph dialect (rowText words' marks') := by
    have hline : IsPlainLine (c :: cs) := by
      intro d hd
      refine h.isPlainLine d ?_
      rw [hrow]
      exact List.mem_append_right _ hd
    rw [← htrim, hrow, List.append_assoc]
    exact tokens_prose hdepth hp hline hbehind
  refine ⟨words', marks', ?_, hmarks⟩
  rw [bodyTree, htokens, htree]

/-! ## Directives of a tree -/

theorem iterFrom_leaves (test : Node → Bool) {ns : List Node} (h : ∀ n ∈ ns, n.children = []) :
    iterFrom test ns = ns.filter test := by
  induction ns with
  | nil => rw [iterFrom]; rfl
  | cons n ns ih =>
    rw [List.forall_mem_cons] at h
    rw [iterFrom, List.filter_cons]
    simp only [h.1, List.nil_append, ih h.2]

theorem children_rowNodes (words : List Char) (marks : List (Mark × List Char)) :
    ∀ n ∈ rowNodes words marks, n.children = [] := by
  have hwords (words : List Char) : ∀ n ∈ wordNodes words, n.children = [] := by
    unfold wordNodes
    split
    · exact List.forall_mem_nil _
    · exact List.forall_mem_singleton.mpr rfl
  intro n hn
  rcases List.mem_append.mp hn with hn | hn
  · exact hwords words n hn
  · obtain ⟨p, -, hn⟩ := List.mem_flatMap.mp hn
    rcases List.mem_cons.mp hn with rfl | hn
    · rfl
    · exact hwords p.2 n hn

theorem filter_rowNodes (words : List Char) (marks : List (Mark × List Char)) :
    (rowNodes words marks).filter Node.isDirective = marks.map fun p => markNode p.1 := by
  have hwords (words : List Char) : (wordNodes words).filter Node.isDirective = [] := by
    unfold wordNodes
    split <;> rfl
  have hmark (m : Mark) (w : List Char) :
      (markNode m :: wordNodes w).filter Node.isDirective = [markNode m] := by
    rw [List.filter_cons_of_pos rfl, hwords]
  rw [rowNodes, List.filter_append, hwords, List.nil_append, List.filter_flatMap]
  simp only [hmark]
  exact List.flatMap_pure_eq_map _ _

theorem iterNodes_row (words : List Char) (marks : List (Mark × List Char)) :
    iterNodes Node.isDirective (paragraphTree (rowNodes words marks)) =
      marks.map fun p => markNode p.1 := by
  have hparagraph : iterNodes Node.isDirective (paragraphTree (rowNodes words marks)) =
      iterFrom Node.isDirective (rowNodes words marks) := by
    rw [iterNodes, paragraphTree, Node.root, Node.children, iterFrom]
    simp [Node.isDirective, Node.children]
  rw [hparagraph, iterFrom_leaves _ (children_rowNodes words marks), filter_rowNodes]

end

end DocumentMedia.Document
