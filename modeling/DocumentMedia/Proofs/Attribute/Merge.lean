import DocumentMedia.Proofs.Attribute.Apart
import DocumentMedia.Proofs.Attribute.Block
import DocumentMedia.Proofs.Attribute.Style

/-! # Blocks side by side

A block is made of its tokens in turn. What stands in several blocks may as well stand in one: when
all quotes are closed in the block in which they are opened, the blocks are merged to the classes and
the style of the one. Only free-form text is not gathered, but taken from the last block that has
some. -/
namespace DocumentMedia.Attribute.AttrBlock

open DocumentMedia.Text

/-! ## Tokens in turn -/

/-- A block before its first token. -/
def Draft.start : Draft := ⟨empty, []⟩

/-- The classes and the style of `whole` are those of `first` and those of `later` behind them. -/
structure Draft.Continues (first later whole : Draft) : Prop where
  classes : whole.block.classes = first.block.classes ++ later.block.classes
  style : whole.block.style = joinStyle first.block.style later.block.style

section

variable {d e f v w : Draft}

theorem Draft.Continues.strip (h : d.Continues e w) : strip w.block.style = w.block.style := by
  rw [h.style, strip_joinStyle]

theorem Draft.Continues.start (hd : Text.strip d.block.style = d.block.style) :
    d.Continues .start d where
  classes := (List.append_nil _).symm
  style := by
    rw [Draft.start, empty, joinStyle_nil_right, hd]

theorem Draft.Continues.assoc (hw : d.Continues e w) (hv : e.Continues f v) {all : Draft}
    (h : w.Continues f all) : d.Continues v all where
  classes := by
    rw [h.classes, hw.classes, hv.classes, List.append_assoc]
  style := by
    rw [h.style, hw.style, hv.style, joinStyle_assoc]

/-- What a token gives does not depend on the tokens in front of it. -/
theorem continues_addToken (hd : Text.strip d.block.style = d.block.style) (token : List Char) :
    d.Continues (addToken .start token) (addToken d token) := by
  -- The start has no style, so joining it leaves the style as it is.
  have hstyle : d.block.style = joinStyle d.block.style [] := by rw [joinStyle_nil_right, hd]
  unfold addToken
  rcases splitPair token with ⟨key, _ | value⟩
  · dsimp only
    split
    · exact ⟨(List.append_nil _).symm, hstyle⟩
    · exact ⟨rfl, hstyle⟩
    · exact ⟨rfl, hstyle⟩
  · dsimp only
    split
    · exact ⟨rfl, hstyle⟩
    · split
      · -- A style is joined to nothing at the start, and to what is there behind other tokens.
        refine ⟨(List.append_nil _).symm, ?_⟩
        rw [Draft.start, empty, ← joinStyle_assoc, ← hstyle]
      · split
        · exact ⟨(List.append_nil _).symm, hstyle⟩
        · exact ⟨(List.append_nil _).symm, hstyle⟩

theorem continues_foldl (hd : Text.strip d.block.style = d.block.style)
    (tokens : List (List Char)) :
    d.Continues (tokens.foldl addToken .start) (tokens.foldl addToken d) := by
  induction tokens generalizing d with
  | nil => exact .start hd
  | cons token tokens ih =>
    have hstart : Text.strip Draft.start.block.style = Draft.start.block.style := rfl
    have hfirst := continues_addToken hd token
    exact hfirst.assoc (ih (continues_addToken hstart token).strip) (ih hfirst.strip)

end

/-! ## Blocks that look alike -/

/-- The same classes in the same order, and the same style. -/
structure LooksLike (a b : AttrBlock) : Prop where
  classes : a.classes = b.classes
  style : a.style = b.style

section

variable {a b c a' b' : AttrBlock}

theorem LooksLike.refl (a : AttrBlock) : LooksLike a a := ⟨rfl, rfl⟩

theorem LooksLike.symm (h : LooksLike a b) : LooksLike b a := ⟨h.classes.symm, h.style.symm⟩

theorem LooksLike.trans (h : LooksLike a b) (k : LooksLike b c) : LooksLike a c :=
  ⟨h.classes.trans k.classes, h.style.trans k.style⟩

theorem LooksLike.merge (h : LooksLike a a') (k : LooksLike b b') :
    LooksLike (a.merge b) (a'.merge b') := by
  constructor
  · rw [AttrBlock.merge, AttrBlock.merge, h.classes, k.classes]
  · rw [AttrBlock.merge, AttrBlock.merge, h.style, k.style]

/-- The block that is made of tokens. -/
def ofTokens (tokens : List (List Char)) : AttrBlock := finish (tokens.foldl addToken .start)

theorem ofTokens_append (ts us : List (List Char)) :
    LooksLike (ofTokens (ts ++ us)) ((ofTokens ts).merge (ofTokens us)) := by
  have hstart : Text.strip Draft.start.block.style = Draft.start.block.style := rfl
  have hts := (continues_foldl hstart ts).strip
  have hus := continues_foldl hts us
  rw [ofTokens, List.foldl_append]
  constructor
  · simp only [finish, AttrBlock.merge, ofTokens, hus.classes, List.filter_append]
  · exact hus.style

/-- Blocks that are merged in turn look like the block of all their tokens. -/
theorem looksLike_merged (tss : List (List (List Char))) :
    LooksLike ((tss.map ofTokens).foldl merge empty) (ofTokens tss.flatten) := by
  induction tss using List.reverseRecOn with
  | nil => exact .refl _
  | append_singleton tss ts ih =>
    rw [List.map_append, List.foldl_append, List.flatten_append, List.flatten_singleton]
    exact (ih.merge (.refl (ofTokens ts))).trans (ofTokens_append tss.flatten ts).symm

/-- Of merged blocks the last one that has free-form text gives it. -/
theorem freeform_merged (blocks : List AttrBlock) : (blocks.foldl merge empty).freeform =
    ((blocks.map (·.freeform)).filter (!·.isEmpty)).getLast?.getD [] := by
  induction blocks using List.reverseRecOn with
  | nil => rfl
  | append_singleton blocks b ih =>
    rw [List.foldl_append, List.map_append, List.filter_append]
    cases hfree : b.freeform with
    | nil => simp [merge, hfree, ih]
    | cons c cs => simp [merge, hfree]

theorem parse_braced (s : List Char) : parse (braced s) = ofTokens (tokensOf (plainQuotes s)) := by
  rw [parse, body_braced, splitTokens, plainQuotes_plainQuotes]
  rfl

/-- A block is read from the title of an image as it is from a text. -/
theorem titleBlock_braced (s : List Char) : titleBlock (braced s) = parse (braced s) := by
  have hhead : (braced s).head? = some '{' := rfl
  have hlast : (braced s).getLast? = some '}' := by
    rw [braced, List.getLast?_append]
    rfl
  simp only [titleBlock, (trimmed_braced s).strip, hhead, hlast, decide_true, Bool.and_self,
    Bool.true_or, if_true]

end

/-! ## Bodies side by side -/

section

variable {bodies : List (List Char)}

/-- The tokens of closed bodies are those of the bodies joined by spaces. -/
theorem tokensOf_bodies (h : ∀ b ∈ bodies, Closed (plainQuotes b)) :
    tokensOf (plainQuotes (joinWith [' '] bodies)) =
      bodies.flatMap fun b => tokensOf (plainQuotes b) := by
  induction bodies with
  | nil => rw [joinWith, plainQuotes, List.map_nil, tokensOf, List.flatMap_nil]
  | cons b bodies ih =>
    rw [List.forall_mem_cons] at h
    cases bodies with
    | nil => simp [joinWith]
    | cons b' bodies =>
      have hspace : plainQuotes [' '] = [' '] := by decide
      rw [joinWith_cons (List.cons_ne_nil b' bodies), plainQuotes_append, plainQuotes_append, hspace,
        List.singleton_append, tokensOf_append (Or.inl h.1) (stops_space _), tokensOf_space, ih h.2]
      rfl

/-- The block of closed bodies that are joined by spaces. -/
theorem parse_bodies (h : ∀ b ∈ bodies, Closed (plainQuotes b)) :
    parse (braced (joinWith [' '] bodies)) =
      ofTokens (bodies.flatMap fun b => tokensOf (plainQuotes b)) := by
  rw [parse_braced, tokensOf_bodies h]

end

end DocumentMedia.Attribute.AttrBlock
