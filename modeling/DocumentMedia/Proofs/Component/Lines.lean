import DocumentMedia.Proofs.Component.Written
import Mathlib.Data.List.Forall2

/-! # Components line by line

A text is first read as one component and only then line by line. Main statement: lines that are
components each are read as these components, unless the last line closes the component that the
first one opens; then all of them are one. -/
namespace DocumentMedia.Component

open DocumentMedia.Text

/-! ## Lines -/

/-- A text in which no line ends. -/
def SingleLine (l : List Char) : Prop := ∀ c ∈ l, isLineBreak c = false

instance (l : List Char) : Decidable (SingleLine l) :=
  decidable_of_iff (l.all (!isLineBreak ·) = true) (by simp [SingleLine])

theorem isBlank_of_isLineBreak {c : Char} (h : isLineBreak c = true) : isBlank c = true := by
  simp only [isLineBreak, Bool.or_eq_true, Bool.and_eq_true, decide_eq_true_eq, beq_iff_eq] at h
  simp only [isBlank, Bool.or_eq_true, Bool.and_eq_true, decide_eq_true_eq, beq_iff_eq]
  omega

theorem lines_cons {c : Char} (h : isLineBreak c = false) (cs : List Char) :
    lines (c :: cs) = match lines cs with
      | [] => [[c]]
      | l :: ls => (c :: l) :: ls := by
  have hreturn : c ≠ '\r' := by
    rintro rfl
    exact absurd h (by decide)
  exact (lines.eq_3 c cs fun _ he => absurd he hreturn).trans (if_neg (by simp [h]))

theorem lines_append_break {l : List Char} (h : SingleLine l) (rest : List Char) :
    lines (l ++ '\n' :: rest) = l :: lines rest := by
  induction l with
  | nil =>
    have hbreak : isLineBreak '\n' = true := by decide
    simp [lines, hbreak]
  | cons c l ih =>
    have hc := List.forall_mem_cons.mp h
    rw [List.cons_append, lines_cons hc.1, ih hc.2]

theorem lines_single {l : List Char} (h : SingleLine l) (hne : l ≠ []) : lines l = [l] := by
  induction l with
  | nil => exact absurd rfl hne
  | cons c l ih =>
    have hc := List.forall_mem_cons.mp h
    rw [lines_cons hc.1]
    cases l with
    | nil => rfl
    | cons d l => rw [ih hc.2 (List.cons_ne_nil d l)]

theorem lines_joinWith {ls : List (List Char)} (h : ∀ l ∈ ls, SingleLine l ∧ l ≠ []) :
    lines (joinWith ['\n'] ls) = ls := by
  induction ls with
  | nil => rfl
  | cons l ls ih =>
    rw [List.forall_mem_cons] at h
    cases ls with
    | nil => exact lines_single h.1.1 h.1.2
    | cons m ms =>
      rw [joinWith_cons (List.cons_ne_nil m ms), List.singleton_append, lines_append_break h.1.1,
        ih h.2]

theorem joinWith_getLast (sep : List Char) {l : List Char} {ls : List (List Char)}
    (h : l ∈ ls.getLast?) : ∃ before, joinWith sep ls = before ++ l := by
  induction ls with
  | nil => cases h
  | cons m ms ih =>
    cases ms with
    | nil =>
      cases h
      exact ⟨[], rfl⟩
    | cons n ns =>
      rw [List.getLast?_cons_cons] at h
      obtain ⟨before, hbefore⟩ := ih h
      rw [joinWith_cons (List.cons_ne_nil n ns), hbefore]
      exact ⟨m ++ (sep ++ before), by simp⟩

/-! ## Closing tags at the end -/

/-- A line ends with a closing tag of the name. -/
def ClosedBy (name line : List Char) : Prop :=
  ∃ before gap behind, Blanks gap ∧ Blanks behind ∧
    line = before ++ (closingTag name gap ++ behind)

/-- What is cut off at the last occurrence of a character is a part of what is cut off at any. -/
theorem exists_suffix_of_last {c : Char} {front s before tail : List Char}
    (h : front ++ c :: s = before ++ c :: tail) (hc : c ∉ tail) :
    ∃ between, c :: s = between ++ c :: tail := by
  rcases List.append_eq_append_iff.mp h with ⟨between, -, hs⟩ | ⟨between, -, htail⟩
  · exact ⟨between, hs⟩
  · cases between with
    | nil => exact ⟨[], htail.symm⟩
    | cons d between =>
      rw [List.cons_append, List.cons.injEq] at htail
      exact absurd (htail.2 ▸ List.mem_append_right between List.mem_cons_self) hc

theorem stripEnd_closingTag (inner name gap : List Char) :
    stripEnd (inner ++ closingTag name gap) = inner ++ closingTag name gap := by
  have hsolid := stripEnd_solid (c := '>') (by decide) (inner ++ '<' :: '/' :: (name ++ gap)) []
  simpa [closingTag, stripEnd] using hsolid

theorem closedBy_iff {name : List Char} (hname : ∀ c ∈ name, isNameChar c = true)
    (line : List Char) : ClosedBy name line ↔ (content? name (stripEnd line)).isSome = true := by
  constructor
  · rintro ⟨before, gap, behind, hgap, hbehind, rfl⟩
    rw [← List.append_assoc, stripEnd_blanks hbehind, stripEnd_closingTag,
      (content?_eq_some hname).mpr ⟨gap, hgap, rfl⟩]
    rfl
  · intro h
    obtain ⟨inner, hinner⟩ := Option.isSome_iff_exists.mp h
    obtain ⟨gap, hgap, hstrip⟩ := (content?_eq_some hname).mp hinner
    obtain ⟨behind, hbehind, hline⟩ := exists_stripEnd line
    refine ⟨inner, gap, behind, hgap, hbehind, ?_⟩
    rw [hline, hstrip, List.append_assoc]

theorem angle_notMem_name {name : List Char} (h : ∀ c ∈ name, isNameChar c = true) :
    '<' ∉ name := fun hc => absurd (h _ hc) (by decide +kernel)

theorem angle_notMem_blanks {s : List Char} (h : Blanks s) : '<' ∉ s :=
  fun hc => absurd (h _ hc) (by decide)

/-- If a text ends with a closing tag, then so does its last line, which begins with a tag. -/
theorem closedBy_of_stripEnd {name before inner gap tag : List Char}
    (hname : ∀ c ∈ name, isNameChar c = true) (hgap : Blanks gap) (lead : List Char)
    (h : stripEnd (before ++ (lead ++ '<' :: tag)) = inner ++ closingTag name gap) :
    ClosedBy name (lead ++ '<' :: tag) := by
  obtain ⟨behind, hbehind, hsplit⟩ := exists_stripEnd (before ++ (lead ++ '<' :: tag))
  have hcut : (before ++ lead) ++ '<' :: tag =
      inner ++ '<' :: ('/' :: (name ++ (gap ++ '>' :: behind))) := by
    rw [List.append_assoc, hsplit, h]
    simp [closingTag]
  have hangle : '<' ∉ '/' :: (name ++ (gap ++ '>' :: behind)) := by
    simp [angle_notMem_name hname, angle_notMem_blanks hgap, angle_notMem_blanks hbehind]
  obtain ⟨between, hbetween⟩ := exists_suffix_of_last hcut hangle
  refine ⟨lead ++ between, gap, behind, hgap, hbehind, ?_⟩
  rw [hbetween]
  simp [closingTag]

/-- Behind something, content is read up to a closing tag. -/
theorem StartTag.content?_eq_some {t : StartTag} (h : t.WellFormed) {s inner : List Char}
    (hs : s ≠ []) : t.content? s = some inner ↔
      ∃ gap, Blanks gap ∧ s = inner ++ closingTag t.name gap := by
  have hempty : s.isEmpty = false := by simpa using hs
  rw [← Component.content?_eq_some h.name.chars]
  unfold StartTag.content?
  cases Component.content? t.name s with
  | some whole => rfl
  | none => simp [hempty]

/-! ## Several lines as one component -/

def componentName? : Node → Option String
  | .parent _ _ (.component name _) _ => some name
  | _ => none

section

variable {flow : Bool} {first last : List Char} {e d : Node}

theorem exists_componentName (h : element? flow first = some e) :
    ∃ name, componentName? e = some name := by
  obtain ⟨lead, t, rest, hlead, ht, rfl⟩ := exists_startTag h
  rw [ht.read flow hlead] at h
  obtain ⟨inner, -, rfl⟩ := Option.map_eq_some_iff.mp h
  exact ⟨_, rfl⟩

theorem exists_lead (h : element? flow first = some e) :
    ∃ lead tag, first = lead ++ '<' :: tag := by
  obtain ⟨lead, t, rest, -, -, rfl⟩ := exists_startTag h
  exact ⟨lead, t.name ++ (propertiesText t.properties ++ (t.gap ++ t.mark)) ++ rest, by
    simp [StartTag.text]⟩

/-- Lines of which the last one closes the first one are one component, which has the name and the
attributes of the first one. -/
theorem element?_of_closed (hfirst : element? flow first = some e) (between : List Char)
    {name : String} (hname : componentName? e = some name) (hclosed : ClosedBy name.toList last) :
    ∃ children, element? flow (first ++ '\n' :: (between ++ last)) =
      some (e.withChildren children) := by
  obtain ⟨lead, t, rest, hlead, ht, rfl⟩ := exists_startTag hfirst
  rw [ht.read flow hlead] at hfirst
  obtain ⟨inner, -, rfl⟩ := Option.map_eq_some_iff.mp hfirst
  obtain rfl : String.ofList t.name = name := Option.some.inj hname
  rw [String.toList_ofList] at hclosed
  obtain ⟨front, gap, behind, hgap, hbehind, rfl⟩ := hclosed
  have htext : lead ++ (t.text ++ rest) ++
      '\n' :: (between ++ (front ++ (closingTag t.name gap ++ behind))) =
        lead ++ (t.text ++
          (rest ++ '\n' :: (between ++ front) ++ closingTag t.name gap ++ behind)) := by
    simp
  rw [htext, ht.read flow hlead, stripEnd_blanks hbehind, stripEnd_closingTag,
    StartTag.content?_closing ht _ hgap]
  exact ⟨_, rfl⟩

theorem element?_of_open (hfirst : element? flow first = some e)
    (hlast : element? flow last = some d) (between : List Char) {name : String}
    (hname : componentName? e = some name) (hopen : ¬ ClosedBy name.toList last) :
    element? flow (first ++ '\n' :: (between ++ last)) = none := by
  obtain ⟨lead, t, rest, hlead, ht, rfl⟩ := exists_startTag hfirst
  rw [ht.read flow hlead] at hfirst
  obtain ⟨inner, -, rfl⟩ := Option.map_eq_some_iff.mp hfirst
  obtain rfl : String.ofList t.name = name := Option.some.inj hname
  rw [String.toList_ofList] at hopen
  obtain ⟨front, tag, rfl⟩ := exists_lead hlast
  have htext : lead ++ (t.text ++ rest) ++ '\n' :: (between ++ (front ++ '<' :: tag)) =
      lead ++ (t.text ++ (rest ++ '\n' :: between ++ (front ++ '<' :: tag))) := by
    simp
  have hne : stripEnd (rest ++ '\n' :: between ++ (front ++ '<' :: tag)) ≠ [] := by
    rw [← List.append_assoc, stripEnd_solid (by decide)]
    simp
  rw [htext, ht.read flow hlead, Option.map_eq_none_iff, Option.eq_none_iff_forall_ne_some]
  intro whole hwhole
  obtain ⟨gap, hgap, hstrip⟩ := (StartTag.content?_eq_some ht hne).mp hwhole
  exact hopen (closedBy_of_stripEnd ht.name.chars hgap front hstrip)

end

/-! ## Main statement -/

/-- The last line closes the component that the first line opens. -/
def LastCloses (ls : List (List Char)) (es : List Node) : Prop :=
  ∃ name, es.head?.bind componentName? = some name ∧ ∃ l ∈ ls.getLast?, ClosedBy name.toList l

section

variable {flow : Bool} {ls : List (List Char)} {es : List Node}

theorem mapM_of_forall₂ (h : List.Forall₂ (fun l e => element? flow l = some e) ls es) :
    ls.mapM (element? flow) = some es := by
  induction h with
  | nil => rfl
  | cons hl _ ih => simp [List.mapM_cons, hl, ih]

theorem exists_element {l : List Char}
    (h : List.Forall₂ (fun l e => element? flow l = some e) ls es) (hl : l ∈ ls) :
    ∃ e, element? flow l = some e := by
  induction h with
  | nil => cases hl
  | cons hread _ ih =>
    rcases List.mem_cons.mp hl with rfl | hl
    · exact ⟨_, hread⟩
    · exact ih hl

/-- Lines that are components are the lines that are looked at. -/
theorem filter_lines (hlines : ∀ l ∈ ls, SingleLine l)
    (h : List.Forall₂ (fun l e => element? flow l = some e) ls es) :
    (lines (joinWith ['\n'] ls)).filter (fun l => !isAllBlank l) = ls := by
  have hsolid : ∀ l ∈ ls, isAllBlank l = false := by
    intro l hl
    obtain ⟨e, he⟩ := exists_element h hl
    obtain ⟨lead, tag, rfl⟩ := exists_lead he
    have hangle : isBlank '<' = false := by decide
    simp [isAllBlank, hangle]
  have hne : ∀ l ∈ ls, l ≠ [] := by
    rintro l hl rfl
    exact absurd (hsolid [] hl) (by decide)
  rw [lines_joinWith fun l hl => ⟨hlines l hl, hne l hl⟩, List.filter_eq_self]
  simpa using hsolid

/-- The first and the last of several components, and the text between them. -/
theorem exists_ends (hmany : 2 ≤ ls.length)
    (h : List.Forall₂ (fun l e => element? flow l = some e) ls es) :
    ∃ first last e d between, element? flow first = some e ∧ element? flow last = some d ∧
      es.head? = some e ∧ ls.getLast? = some last ∧
      joinWith ['\n'] ls = first ++ '\n' :: (between ++ last) := by
  match ls, es, hmany, h with
  | first :: second :: rest, e :: es, _, .cons hfirst htail =>
    have hlast := List.getLast?_eq_getLast_of_ne_nil (List.cons_ne_nil second rest)
    obtain ⟨d, hd⟩ := exists_element htail (List.mem_of_mem_getLast? hlast)
    obtain ⟨between, hbetween⟩ := joinWith_getLast ['\n'] hlast
    refine ⟨first, _, e, d, between, hfirst, hd, rfl, ?_, ?_⟩
    · rw [List.getLast?_cons_cons, hlast]
    · rw [joinWith_cons (List.cons_ne_nil second rest), hbetween, List.singleton_append]

/-- Lines that are components each are these components, just when the last line does not close the
component that the first one opens; otherwise they are a single one, with the name and the
attributes of the first. -/
theorem lines_are_components (hmany : 2 ≤ ls.length) (hlines : ∀ l ∈ ls, SingleLine l)
    (h : List.Forall₂ (fun l e => element? flow l = some e) ls es) :
    (nodes? flow (joinWith ['\n'] ls) = some es ↔ ¬ LastCloses ls es) ∧
      (LastCloses ls es → ∃ first ∈ es.head?, ∃ children,
        nodes? flow (joinWith ['\n'] ls) = some [first.withChildren children]) := by
  obtain ⟨first, last, e, d, between, hfirst, hlast, hhead, hend, htext⟩ := exists_ends hmany h
  obtain ⟨name, hname⟩ := exists_componentName hfirst
  by_cases hclosed : ClosedBy name.toList last
  · have hcloses : LastCloses ls es := ⟨name, by rw [hhead]; exact hname, last, hend, hclosed⟩
    obtain ⟨children, hwhole⟩ := element?_of_closed hfirst between hname hclosed
    have hnodes : nodes? flow (joinWith ['\n'] ls) = some [e.withChildren children] := by
      unfold nodes?
      rw [htext, hwhole]
    refine ⟨⟨fun hes => ?_, fun hno => absurd hcloses hno⟩, fun _ => ⟨e, hhead, children, hnodes⟩⟩
    -- One component is not several.
    rw [hnodes, Option.some.injEq] at hes
    rw [h.length_eq, ← hes] at hmany
    exact absurd hmany (by simp)
  · have hopen : ¬ LastCloses ls es := by
      rintro ⟨n, hn, l, hl, hclosedBy⟩
      rw [hhead] at hn
      obtain rfl : name = n := Option.some.inj (hname.symm.trans hn)
      obtain rfl : last = l := Option.some.inj (hend.symm.trans hl)
      exact hclosed hclosedBy
    have hnodes : nodes? flow (joinWith ['\n'] ls) = some es := by
      unfold nodes?
      rw [htext, element?_of_open hfirst hlast between hname hclosed, ← htext]
      simp only [filter_lines hlines h, Nat.not_lt.mpr hmany, if_false, mapM_of_forall₂ h]
    exact ⟨⟨fun _ => hopen, fun _ => hnodes⟩, fun hcloses => absurd hcloses hopen⟩

end

def sampleLines : List (List Char) :=
  ["<Media src=\"a.mp4\" />".toList, "  <Note>Hi</Note >".toList, "<br>".toList]

def sampleElements : List Node :=
  [.parent "mdxJsxFlowElement" [] (.component "Media" [⟨"src", some (.text "a.mp4")⟩]) [],
    .parent "mdxJsxFlowElement" [] (.component "Note" []) [Node.text "Hi"],
    .parent "mdxJsxFlowElement" [] (.component "br" []) []]

theorem sampleLines_are_components :
    2 ≤ sampleLines.length ∧ (∀ l ∈ sampleLines, SingleLine l) ∧
    List.Forall₂ (fun l e => element? true l = some e) sampleLines sampleElements ∧
    nodes? true (joinWith ['\n'] sampleLines) = some sampleElements := by
  have hmany : 2 ≤ sampleLines.length := by decide
  have hlines : ∀ l ∈ sampleLines, SingleLine l := by decide
  have hread : List.Forall₂ (fun l e => element? true l = some e) sampleLines sampleElements :=
    .cons rfl (.cons rfl (.cons rfl .nil))
  have hopen : ¬ LastCloses sampleLines sampleElements := by
    rintro ⟨name, hname, l, hl, hclosed⟩
    cases hname
    cases hl
    rw [closedBy_iff (forall_mem_of_all (by decide +kernel))] at hclosed
    exact absurd hclosed (by decide)
  exact ⟨hmany, hlines, hread, (lines_are_components hmany hlines hread).1.mpr hopen⟩

/-- Two elements of one name that are closed by tags are read as one, whose content holds the rest
of the first line and the beginning of the last. -/
theorem lines_become_one :
    element? true "<A>x</A>".toList =
      some (.parent "mdxJsxFlowElement" [] (.component "A" []) [Node.text "x"]) ∧
    element? true "<A>y</A>".toList =
      some (.parent "mdxJsxFlowElement" [] (.component "A" []) [Node.text "y"]) ∧
    nodes? true "<A>x</A>\n<A>y</A>".toList =
      some [.parent "mdxJsxFlowElement" [] (.component "A" []) [Node.text "x</A>\n<A>y"]] :=
  ⟨rfl, rfl, rfl⟩

end DocumentMedia.Component
