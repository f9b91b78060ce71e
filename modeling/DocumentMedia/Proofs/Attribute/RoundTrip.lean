import DocumentMedia.Proofs.Attribute.Block

/-! # Blocks in their full form

Classes, a style and free-form text are written as three pairs. They are read back from the pairs in
whatever order these stand, with any blanks between them, and with or without braces around them. -/
namespace DocumentMedia.Attribute.AttrBlock

open DocumentMedia.Text

/-! ## Between the braces -/

/-- The text behind an opening brace, if it begins with one. -/
def behindOpening (s : List Char) : List Char :=
  match s with
  | '\\' :: '{' :: r => r
  | '{' :: r => r
  | _ => s

/-- The text before a closing brace, if it ends in one. -/
def beforeClosing (s : List Char) : List Char :=
  match s.reverse with
  | '}' :: r => r.reverse
  | _ => s

theorem body_eq (raw : List Char) :
    body raw = beforeClosing (behindOpening (strip (plainQuotes raw))) := rfl

/-- What may stand in front of a block: a brace, behind a backslash or not, or nothing. -/
def openings : List (List Char) := [[], ['{'], ['\\', '{']]

def closings : List (List Char) := [[], ['}']]

section

variable {s opening closing : List Char}

theorem behindOpening_append (ho : opening ∈ openings) {c : Char} (hc : c ≠ '{' ∧ c ≠ '\\') :
    behindOpening (opening ++ c :: s) = c :: s := by
  simp only [openings, List.mem_cons, List.not_mem_nil, or_false] at ho
  rcases ho with rfl | rfl | rfl
  · rw [List.nil_append]
    unfold behindOpening
    split
    · next heq => exact absurd (List.cons.inj heq).1 hc.2
    · next heq => exact absurd (List.cons.inj heq).1 hc.1
    · rfl
  · rfl
  · rfl

theorem beforeClosing_append (hc : closing ∈ closings) (hs : ∀ c ∈ s.getLast?, c ≠ '}') :
    beforeClosing (s ++ closing) = s := by
  simp only [closings, List.mem_cons, List.not_mem_nil, or_false] at hc
  rcases hc with rfl | rfl
  · rw [List.append_nil]
    unfold beforeClosing
    split
    · next r hr =>
      rw [List.getLast?_eq_head?_reverse, hr] at hs
      exact absurd rfl (hs '}' rfl)
    · rfl
  · simp [beforeClosing]

theorem trimmed_between (ho : opening ∈ openings) (hc : closing ∈ closings) (ht : Trimmed s)
    (hne : s ≠ []) : Trimmed (opening ++ (s ++ closing)) := by
  have hopening : ∀ o ∈ openings, Trimmed o := by decide
  have hclosing : ∀ o ∈ closings, Trimmed o := by decide
  constructor
  · intro c hfirst
    rw [List.head?_append, List.head?_append_of_ne_nil _ hne] at hfirst
    rcases Option.or_eq_some_iff.mp hfirst with h | ⟨-, h⟩
    · exact (hopening opening ho).head c h
    · exact ht.head c h
  · intro c hlast
    rw [← List.append_assoc, List.getLast?_append, List.getLast?_append_of_ne_nil _ hne] at hlast
    rcases Option.or_eq_some_iff.mp hlast with h | ⟨-, h⟩
    · exact (hclosing closing hc).last c h
    · exact ht.last c h

/-- A text that does not begin or end like a brace is what stands between the braces. -/
theorem body_between (ho : opening ∈ openings) (hc : closing ∈ closings) (hs : plainQuotes s = s)
    (ht : Trimmed s) (hne : s ≠ []) (hfirst : ∀ c ∈ s.head?, c ≠ '{' ∧ c ≠ '\\')
    (hlast : ∀ c ∈ s.getLast?, c ≠ '}') : body (opening ++ s ++ closing) = s := by
  have hplain : plainQuotes (opening ++ (s ++ closing)) = opening ++ (s ++ closing) := by
    have hopening : ∀ o ∈ openings, plainQuotes o = o := by decide
    have hclosing : ∀ o ∈ closings, plainQuotes o = o := by decide
    rw [plainQuotes_append, plainQuotes_append, hs, hopening opening ho, hclosing closing hc]
  have hbehind : behindOpening (opening ++ (s ++ closing)) = s ++ closing := by
    obtain ⟨c, cs, rfl⟩ := List.exists_cons_of_ne_nil hne
    exact behindOpening_append ho (hfirst c rfl)
  rw [body_eq, List.append_assoc, hplain, (trimmed_between ho hc ht hne).strip, hbehind,
    beforeClosing_append hc hlast]

end

/-! ## The three pairs -/

def pairs (b : AttrBlock) : List (List Char × List Char) :=
  [("class".toList, joinWith [' '] b.classes), ("style".toList, b.style),
    ("attrs".toList, b.freeform)]

/-- The names of the classes are words, style and free-form text are trimmed, and no value holds a
double quote or a typographic one, or ends in a backslash. -/
structure Writable (b : AttrBlock) : Prop where
  classes : ∀ n ∈ b.classes, Unbroken n
  style : Trimmed b.style
  freeform : Trimmed b.freeform
  values : ∀ p ∈ b.pairs, Enclosed '"' p.2 ∧ ∀ c ∈ p.2, IsStraight c

instance (b : AttrBlock) : Decidable b.Writable :=
  decidable_of_iff ((∀ n ∈ b.classes, Unbroken n) ∧ Trimmed b.style ∧ Trimmed b.freeform ∧
      ∀ p ∈ b.pairs, Enclosed '"' p.2 ∧ ∀ c ∈ p.2, IsStraight c)
    ⟨fun ⟨hclasses, hstyle, hfreeform, hvalues⟩ => ⟨hclasses, hstyle, hfreeform, hvalues⟩,
      fun h => ⟨h.classes, h.style, h.freeform, h.values⟩⟩

section

variable {value : List Char} (hv : '"' ∉ value) (d : Draft)
include hv

theorem addToken_class : addToken d (writeAttr "class".toList value) =
    { d with block.classes := d.block.classes ++ words value } := by
  have hpair : splitPair (writeAttr "class".toList value) = ("class".toList, some value) :=
    splitPair_of_pair (by decide) (by decide) hv
  unfold addToken
  rw [hpair]
  rfl

theorem addToken_style : addToken d (writeAttr "style".toList value) =
    { d with block.style := joinStyle d.block.style value } := by
  have hpair : splitPair (writeAttr "style".toList value) = ("style".toList, some value) :=
    splitPair_of_pair (by decide) (by decide) hv
  unfold addToken
  rw [hpair]
  rfl

theorem addToken_attrs : addToken d (writeAttr "attrs".toList value) =
    { d with block.freeform := strip value } := by
  have hpair : splitPair (writeAttr "attrs".toList value) = ("attrs".toList, some value) :=
    splitPair_of_pair (by decide) (by decide) hv
  unfold addToken
  rw [hpair]
  rfl

end

section

variable {b : AttrBlock}

theorem forall_mem_pairs {P : List Char × List Char → Prop} : (∀ p ∈ b.pairs, P p) ↔
    P ("class".toList, joinWith [' '] b.classes) ∧ P ("style".toList, b.style) ∧
      P ("attrs".toList, b.freeform) := by
  simp [pairs]

/-- Pairs set different parts of a block, so that their order does not matter. -/
theorem addToken_comm (hb : b.Writable) : ∀ p ∈ b.pairs, ∀ q ∈ b.pairs, ∀ d : Draft,
    addToken (addToken d (writeAttr p.1 p.2)) (writeAttr q.1 q.2) =
      addToken (addToken d (writeAttr q.1 q.2)) (writeAttr p.1 p.2) := by
  obtain ⟨⟨hclass, -⟩, ⟨hstyle, -⟩, ⟨hattrs, -⟩⟩ := forall_mem_pairs.mp hb.values
  have hc := addToken_class hclass.inside
  have hs := addToken_style hstyle.inside
  have ha := addToken_attrs hattrs.inside
  simp only [forall_mem_pairs, hc, hs, ha, implies_true, and_self]

theorem finish_pairs (hb : b.Writable) :
    finish ((b.pairs.map fun p => writeAttr p.1 p.2).foldl addToken ⟨empty, []⟩) = b := by
  obtain ⟨⟨hclass, -⟩, ⟨hstyle, -⟩, ⟨hattrs, -⟩⟩ := forall_mem_pairs.mp hb.values
  have hkept : b.classes.filter (!·.isEmpty) = b.classes := by
    rw [List.filter_eq_self]
    intro n hn
    simpa using (hb.classes n hn).1
  have hjoin : joinStyle [] b.style = b.style := hb.style.strip
  simp only [pairs, List.map_cons, List.map_nil, List.foldl_cons, List.foldl_nil,
    addToken_class hclass.inside, addToken_style hstyle.inside, addToken_attrs hattrs.inside]
  simp only [finish, empty, List.nil_append, List.isEmpty_nil, if_true, words_joinWith hb.classes,
    hkept, hjoin, hb.freeform.strip]

theorem isName_pairs : ∀ p ∈ b.pairs, IsName p.1 := by
  have hclass : IsName "class".toList := by decide
  have hstyle : IsName "style".toList := by decide
  have hattrs : IsName "attrs".toList := by decide
  exact forall_mem_pairs.mpr ⟨hclass, hstyle, hattrs⟩

theorem head_pairs : ∀ p ∈ b.pairs, ∃ c cs, writeAttr p.1 p.2 = c :: cs ∧
    isBlank c = false ∧ c ≠ '{' ∧ c ≠ '\\' :=
  forall_mem_pairs.mpr ⟨⟨'c', _, rfl, by decide⟩, ⟨'s', _, rfl, by decide⟩, ⟨'a', _, rfl, by decide⟩⟩

def row (p q r : List Char × List Char) (gap gap' : List Char) : List Char :=
  writeAttr p.1 p.2 ++ gap ++ writeAttr q.1 q.2 ++ gap' ++ writeAttr r.1 r.2

section

variable (hb : b.Writable) {p q r : List Char × List Char} (hmem : ∀ e ∈ [p, q, r], e ∈ b.pairs)
  {gap gap' : List Char}
include hb hmem

theorem tokensOf_row (hgap : Blanks gap ∧ gap ≠ []) (hgap' : Blanks gap' ∧ gap' ≠ []) :
    tokensOf (row p q r gap gap') = [p, q, r].map fun e => writeAttr e.1 e.2 := by
  have hpieces : ∀ e ∈ [p, q, r], Pieces (writeAttr e.1 e.2) ∧ writeAttr e.1 e.2 ≠ [] :=
    fun e he => ⟨pieces_writeAttr (isName_pairs e (hmem e he)) (hb.values e (hmem e he)).1,
      by simp [writeAttr]⟩
  have hspread : row p q r gap gap' = spread [([], writeAttr p.1 p.2), (gap, writeAttr q.1 q.2),
      (gap', writeAttr r.1 r.2)] [] := by
    simp [row, spread]
  have hspaced : Spaced [([], writeAttr p.1 p.2), (gap, writeAttr q.1 q.2),
      (gap', writeAttr r.1 r.2)] [] := by
    refine ⟨?_, ?_, by simp⟩
    · simpa using ⟨hgap.1, hgap'.1⟩
    · simpa using ⟨hgap.2, hgap'.2⟩
  rw [hspread, tokensOf_spread hspaced (by simpa using hpieces)]
  rfl

theorem plainQuotes_row (hgap : Blanks gap) (hgap' : Blanks gap') :
    plainQuotes (row p q r gap gap') = row p q r gap gap' := by
  have hplain : ∀ e ∈ [p, q, r], plainQuotes (writeAttr e.1 e.2) = writeAttr e.1 e.2 :=
    fun e he => plainQuotes_of_straight
      (straight_writeAttr (isName_pairs e (hmem e he)) (hb.values e (hmem e he)).2)
  simp only [row, plainQuotes_append, plainQuotes_of_blank hgap, plainQuotes_of_blank hgap',
    hplain p (by simp), hplain q (by simp), hplain r (by simp)]

omit hb in
variable (gap gap') in
/-- A row begins with a key and ends in a quote. -/
theorem ends_row : (∃ c cs, row p q r gap gap' = c :: cs ∧ isBlank c = false ∧ c ≠ '{' ∧ c ≠ '\\') ∧
    (row p q r gap gap').getLast? = some '"' := by
  obtain ⟨c, cs, hhead, hc⟩ := head_pairs p (hmem p List.mem_cons_self)
  refine ⟨⟨c, _, by rw [row, hhead]; rfl, hc⟩, ?_⟩
  rw [row, List.getLast?_append, writeAttr, List.getLast?_append]
  rfl

end

/-- A block that is written as its three pairs is read back from them, in whatever order and with
whatever blanks they stand side by side, and with whatever braces around them. -/
theorem written_block_is_read (hb : b.Writable) {p q r : List Char × List Char}
    (horder : [p, q, r].Perm b.pairs) {gap gap' : List Char} (hgap : Blanks gap ∧ gap ≠ [])
    (hgap' : Blanks gap' ∧ gap' ≠ []) {opening closing : List Char} (ho : opening ∈ openings)
    (hc : closing ∈ closings) : parse (opening ++ row p q r gap gap' ++ closing) = b := by
  have hmem : ∀ e ∈ [p, q, r], e ∈ b.pairs := fun e he => horder.subset he
  have htokens := tokensOf_row hb hmem hgap hgap'
  have hquotes := plainQuotes_row hb hmem hgap.1 hgap'.1
  obtain ⟨⟨c, cs, hrow, hblank, hfirst⟩, hlast⟩ := ends_row hmem gap gap'
  have htrimmed : Trimmed (row p q r gap gap') :=
    ⟨fun d hd => by rw [hrow] at hd; cases hd; exact hblank,
      fun d hd => by rw [hlast] at hd; cases hd; decide⟩
  have hbody : body (opening ++ row p q r gap gap' ++ closing) = row p q r gap gap' :=
    body_between ho hc hquotes htrimmed (by rw [hrow]; exact List.cons_ne_nil c cs)
      (fun d hd => by rw [hrow] at hd; cases hd; exact hfirst)
      fun d hd => by rw [hlast] at hd; cases hd; decide
  -- The pairs set different parts of the block, so they may as well come in their own order.
  have hfold : [p, q, r].foldl (fun d e => addToken d (writeAttr e.1 e.2)) ⟨empty, []⟩ =
      b.pairs.foldl (fun d e => addToken d (writeAttr e.1 e.2)) ⟨empty, []⟩ :=
    horder.foldl_eq' (fun e he e' he' d => addToken_comm hb e (hmem e he) e' (hmem e' he') d) _
  rw [parse, hbody, splitTokens, hquotes, htokens, List.foldl_map, hfold, ← List.foldl_map,
    finish_pairs hb]

/-- Braces, equals signs, points, hash signs, single quotes, backslashes and a line feed in the
values. -/
def sampleFull : AttrBlock :=
  ⟨["it's", ".a=\x7bb\x7d", "#c\\", "d"].map String.toList, "font: 'x\\y'\n; \x7bz\x7d".toList,
    "title='A b' \\ .c".toList⟩

theorem sampleFull_is_read :
    parse ("\\\x7battrs=\"title='A b' \\ .c\"\t\n class=\"it's .a=\x7bb\x7d #c\\ d\"  ".toList ++
      "style=\"font: 'x\\y'\n; \x7bz\x7d\"\x7d".toList) = sampleFull := by
  have hwritable : sampleFull.Writable := by decide +kernel
  exact @written_block_is_read sampleFull hwritable ("attrs".toList, sampleFull.freeform)
    ("class".toList, joinWith [' '] sampleFull.classes) ("style".toList, sampleFull.style)
    (by decide +kernel) "\t\n ".toList "  ".toList (by decide) (by decide) ['\\', '{'] ['}']
    (by decide) (by decide)

/-- A closing brace behind a backslash is not one: the backslash stays with the last pair, which is
read as a class. -/
theorem escaped_closing_brace_is_read :
    let b : AttrBlock := ⟨[['a']], ['b'], ['c']⟩
    b.Writable ∧
      parse ("\\\x7b".toList ++ row ("class".toList, ['a']) ("style".toList, ['b'])
        ("attrs".toList, ['c']) [' '] [' '] ++ "\\\x7d".toList) =
        ⟨[['a'], "attrs=\"c\"\\".toList], ['b'], []⟩ := by
  decide +kernel

end

end DocumentMedia.Attribute.AttrBlock
