import DocumentMedia.Attribute.Block
import DocumentMedia.Attribute.Loose
import DocumentMedia.Proofs.Attribute.Token

/-! # Blocks that were written

A block is written as names behind a point or a hash sign and as quoted pairs, with blanks between
them. What is written is what is read: by the parser of blocks as classes, style and free-form
text, and by that of directives as a map. -/
namespace DocumentMedia.Attribute

open DocumentMedia.Text

/-! ## Entries -/

/-- An entry of a block. -/
inductive BlockItem where
  /-- `.name` -/
  | name (n : List Char)
  /-- `#name` -/
  | mark (n : List Char)
  /-- `key="value"` -/
  | pair (key value : List Char)

/-- Names and keys: not empty, without blanks, quotes, equals signs and closing braces. -/
structure IsName (n : List Char) : Prop where
  nonempty : n ≠ []
  chars : ∀ c ∈ n, isKeyChar c
  straight : ∀ c ∈ n, IsStraight c
  brace : '}' ∉ n

instance (n : List Char) : Decidable (IsName n) :=
  decidable_of_iff
    (n ≠ [] ∧ n.all (fun c => isKeyChar c && decide (IsStraight c)) = true ∧ '}' ∉ n)
    ⟨fun ⟨hne, hall, hb⟩ => by
      simp only [List.all_eq_true, Bool.and_eq_true, decide_eq_true_eq] at hall
      exact ⟨hne, fun c hc => (hall c hc).1, fun c hc => (hall c hc).2, hb⟩,
    fun h => ⟨h.nonempty, by
      simpa only [List.all_eq_true, Bool.and_eq_true, decide_eq_true_eq] using
        fun c hc => ⟨h.chars c hc, h.straight c hc⟩, h.brace⟩⟩

/-- Values: without double quotes of any shape, closing braces and line feeds, and with no
backslash at the end. -/
structure IsValue (v : List Char) : Prop where
  quote : '"' ∉ plainQuotes v
  last : v.getLast? ≠ some '\\'
  brace : '}' ∉ v
  line : '\n' ∉ v

instance (v : List Char) : Decidable (IsValue v) :=
  decidable_of_iff ('"' ∉ plainQuotes v ∧ v.getLast? ≠ some '\\' ∧ '}' ∉ v ∧ '\n' ∉ v)
    ⟨fun ⟨hq, hlast, hb, hl⟩ => ⟨hq, hlast, hb, hl⟩, fun h => ⟨h.quote, h.last, h.brace, h.line⟩⟩

theorem IsName.pieces {n : List Char} (h : IsName n) : Pieces n :=
  .of_plain fun c hc => plain_of_isKeyChar (h.chars c hc)

theorem getLast?_plainQuotes {v : List Char} (h : v.getLast? ≠ some '\\') :
    (plainQuotes v).getLast? ≠ some '\\' := by
  intro hlast
  rw [plainQuotes, List.getLast?_map, Option.map_eq_some_iff] at hlast
  obtain ⟨c, hc, hb⟩ := hlast
  apply h
  rw [hc]
  by_cases hs : IsStraight c
  · rw [← hb, plainQuote_of_straight hs]
  · simp only [IsStraight, List.mem_cons, List.not_mem_nil, or_false, not_not] at hs
    rcases hs with rfl | rfl | rfl | rfl <;> revert hb <;> decide

theorem IsValue.enclosed {v : List Char} (h : IsValue v) : Enclosed '"' (plainQuotes v) :=
  ⟨h.quote, getLast?_plainQuotes h.last⟩

theorem pieces_writeAttr {key value : List Char} (hk : IsName key) (hv : Enclosed '"' value) :
    Pieces (AttrBlock.writeAttr key value) := by
  have hequals : Pieces ('=' :: ('"' :: value ++ '"' :: [])) :=
    .plain (by decide) (by decide) (.quoted (by decide) hv .nil)
  have h := hk.pieces.append hequals
  simpa [AttrBlock.writeAttr] using h

namespace BlockItem

def text : BlockItem → List Char
  | .name n => '.' :: n
  | .mark n => '#' :: n
  | .pair key value => AttrBlock.writeAttr key value

/-- The entry with ASCII quotes. -/
def plain : BlockItem → BlockItem
  | .pair key value => .pair key (plainQuotes value)
  | i => i

def WellFormed : BlockItem → Prop
  | .name n => IsName n
  | .mark n => IsName n ∧ n.getLast? ≠ some '\\'
  | .pair key value => IsName key ∧ IsValue value

instance : (i : BlockItem) → Decidable i.WellFormed
  | .name n => inferInstanceAs (Decidable (IsName n))
  | .mark n => inferInstanceAs (Decidable (IsName n ∧ n.getLast? ≠ some '\\'))
  | .pair key value => inferInstanceAs (Decidable (IsName key ∧ IsValue value))

variable {i : BlockItem}

theorem plainQuotes_text (h : i.WellFormed) : plainQuotes i.text = i.plain.text := by
  have quoted (s : List Char) (c : Char) (hc : IsStraight c) :
      plainQuotes (c :: s) = c :: plainQuotes s := by
    rw [plainQuotes, List.map_cons, plainQuote_of_straight hc, plainQuotes]
  cases i with
  | name n =>
    rw [text, quoted n '.' (by decide), plainQuotes_of_straight h.straight]
    rfl
  | mark n =>
    rw [text, quoted n '#' (by decide), plainQuotes_of_straight h.1.straight]
    rfl
  | pair key value =>
    simp only [text, plain, AttrBlock.writeAttr, plainQuotes_append, List.append_assoc,
      List.cons_append, plainQuotes_of_straight h.1.straight]
    rw [quoted _ '=' (by decide), quoted _ '"' (by decide), plainQuotes_append,
      quoted _ '"' (by decide)]
    rfl

theorem pieces_plain (h : i.WellFormed) : Pieces i.plain.text ∧ i.plain.text ≠ [] := by
  cases i with
  | name n => exact ⟨.plain (by decide) (by decide) h.pieces, by simp [plain, text]⟩
  | mark n => exact ⟨.plain (by decide) (by decide) h.1.pieces, by simp [plain, text]⟩
  | pair key value =>
    exact ⟨pieces_writeAttr h.1 h.2.enclosed, by simp [plain, text, AttrBlock.writeAttr]⟩

end BlockItem

/-! ## Layouts -/

/-- Entries with the gaps before them, and the blanks behind the last of them. -/
structure Layout where
  items : List (List Char × BlockItem)
  tail : List Char

namespace Layout

def text (l : Layout) : List Char := spread (l.items.map fun p => (p.1, p.2.text)) l.tail

def entries (l : Layout) : List BlockItem := l.items.map fun p => p.2.plain

structure WellFormed (l : Layout) : Prop where
  spaced : Spaced l.items l.tail
  items : ∀ p ∈ l.items, p.2.WellFormed

instance (l : Layout) : Decidable l.WellFormed :=
  decidable_of_iff (Spaced l.items l.tail ∧ ∀ p ∈ l.items, p.2.WellFormed)
    ⟨fun h => ⟨h.1, h.2⟩, fun h => ⟨h.spaced, h.items⟩⟩

theorem plainQuotes_items {ps : List (List Char × BlockItem)}
    (hblank : ∀ p ∈ ps, ∀ c ∈ p.1, isBlank c) (hitems : ∀ p ∈ ps, p.2.WellFormed) :
    plainQuotes (ps.flatMap fun p => p.1 ++ p.2.text) =
      ps.flatMap fun p => p.1 ++ p.2.plain.text := by
  induction ps with
  | nil => rfl
  | cons p ps ih =>
    rw [List.forall_mem_cons] at hitems hblank
    rw [List.flatMap_cons, List.flatMap_cons, plainQuotes_append, plainQuotes_append,
      plainQuotes_of_blank hblank.1, BlockItem.plainQuotes_text hitems.1, ih hblank.2 hitems.2]

theorem splitTokens_text {l : Layout} (h : l.WellFormed) :
    splitTokens l.text = l.entries.map BlockItem.text := by
  have hplain : plainQuotes l.text =
      spread (l.items.map fun p => (p.1, p.2.plain.text)) l.tail := by
    simp only [text, spread, plainQuotes_append, plainQuotes_of_blank h.spaced.tail,
      List.flatMap_map, plainQuotes_items h.spaced.blank h.items]
  have hspaced : Spaced (l.items.map fun p => (p.1, p.2.plain.text)) l.tail := by
    refine ⟨?_, ?_, h.spaced.tail⟩
    · simp only [List.forall_mem_map]
      exact h.spaced.blank
    · rw [← List.map_tail]
      simp only [List.forall_mem_map]
      exact h.spaced.apart
  rw [splitTokens, hplain, tokensOf_spread hspaced]
  · simp [entries, Function.comp_def]
  · simp only [List.forall_mem_map]
    exact fun p hp => BlockItem.pieces_plain (h.items p hp)

end Layout

/-! ## What entries say -/

namespace BlockItem

def classes : BlockItem → List (List Char)
  | .name n => [n]
  | .mark _ => []
  | .pair key value => if key = "class".toList then words value else []

def style? : BlockItem → Option (List Char)
  | .pair key value => if key = "style".toList then some value else none
  | _ => none

/-- What an entry adds to the free-form attributes. -/
def free? : BlockItem → Option (List Char × List Char)
  | .name _ => none
  | .mark n => some ("id".toList, n)
  | .pair key value =>
    if key = "class".toList || key = "style".toList then none else some (key, value)

/-- The entry has none of the keys to which the two parsers give meanings of their own. -/
def Common : BlockItem → Prop
  | .pair key _ => key ≠ "attrs".toList ∧ key ≠ "className".toList
  | _ => True

/-- What a text is read as. -/
def Reads (i : BlockItem) : Prop :=
  match i with
  | .name n => n ≠ [] ∧ splitPair i.text = (i.text, none)
  | .mark n => n ≠ [] ∧ splitPair i.text = (i.text, none)
  | .pair key value => splitPair i.text = (key, some value)

theorem reads_plain {i : BlockItem} (h : i.WellFormed) : i.plain.Reads := by
  have named {c : Char} {n : List Char} (hn : IsName n) (hc : isKeyChar c) :
      splitPair (c :: n) = (c :: n, none) :=
    splitPair_of_name (List.forall_mem_cons.mpr ⟨hc, hn.chars⟩)
  cases i with
  | name n => exact ⟨h.nonempty, named h (by decide)⟩
  | mark n => exact ⟨h.1.nonempty, named h.1 (by decide)⟩
  | pair key value =>
    exact splitPair_of_pair h.1.nonempty h.1.chars h.2.quote

theorem addToken_text {i : BlockItem} (h : i.Reads) (hc : i.Common) (d : AttrBlock.Draft) :
    AttrBlock.addToken d i.text =
      ⟨⟨d.block.classes ++ i.classes, i.style?.toList.foldl joinStyle d.block.style,
        d.block.freeform⟩,
        d.extras ++ i.free?.toList.map fun p => AttrBlock.writeAttr p.1 p.2⟩ := by
  cases i with
  | name n =>
    obtain ⟨-, hs⟩ := h
    unfold AttrBlock.addToken
    rw [hs]
    simp only [text, classes, style?, free?, Option.toList_none, List.foldl_nil, List.map_nil,
      List.append_nil]
  | mark n =>
    obtain ⟨hne, hs⟩ := h
    unfold AttrBlock.addToken
    rw [hs]
    obtain ⟨c, cs, rfl⟩ := List.exists_cons_of_ne_nil hne
    simp only [text, classes, style?, free?, Option.toList_none, Option.toList_some,
      List.foldl_nil, List.map_nil, List.append_nil, List.map_cons]
  | pair key value =>
    have hs : splitPair (pair key value).text = (key, some value) := h
    unfold AttrBlock.addToken
    rw [hs]
    obtain ⟨hattrs, hname⟩ := hc
    dsimp only [classes, style?, free?]
    by_cases hclass : key = "class".toList
    · subst hclass
      have hstyle : "class".toList ≠ "style".toList := by decide
      simp only [hstyle, decide_true, Bool.true_or, if_true, if_false, Option.toList_none,
        List.foldl_nil, List.map_nil, List.append_nil]
    · by_cases hstyle : key = "style".toList
      · subst hstyle
        simp only [hclass, hname, decide_true, decide_false, Bool.or_true, Bool.or_false,
          Bool.false_eq_true, if_true, if_false, Option.toList_none, Option.toList_some,
          List.foldl_cons, List.foldl_nil, List.map_nil, List.append_nil]
      · simp only [hclass, hstyle, hname, hattrs, decide_false, Bool.or_false,
          Bool.false_eq_true, if_false, Option.toList_none, Option.toList_some,
          List.foldl_nil, List.map_cons, List.map_nil, List.append_nil]

end BlockItem

def freeText (ps : List (List Char × List Char)) : List Char :=
  joinWith [' '] (ps.map fun p => AttrBlock.writeAttr p.1 p.2)

namespace Layout

def classes (l : Layout) : List (List Char) := l.entries.flatMap BlockItem.classes

def styles (l : Layout) : List (List Char) := l.entries.filterMap BlockItem.style?

def free (l : Layout) : List (List Char × List Char) := l.entries.filterMap BlockItem.free?

end Layout

theorem foldl_addToken {is : List BlockItem} (h : ∀ i ∈ is, i.Reads ∧ i.Common)
    (d : AttrBlock.Draft) :
    (is.map BlockItem.text).foldl AttrBlock.addToken d =
      ⟨⟨d.block.classes ++ is.flatMap BlockItem.classes,
        (is.filterMap BlockItem.style?).foldl joinStyle d.block.style, d.block.freeform⟩,
        d.extras ++ (is.filterMap BlockItem.free?).map fun p => AttrBlock.writeAttr p.1 p.2⟩ := by
  induction is generalizing d with
  | nil => simp
  | cons i is ih =>
    rw [List.forall_mem_cons] at h
    rw [List.map_cons, List.foldl_cons, BlockItem.addToken_text h.1.1 h.1.2, ih h.2]
    cases hs : i.style? <;> cases hf : i.free? <;> simp [hs, hf]

/-- A text in braces, as blocks are written. -/
def braced (s : List Char) : List Char := '{' :: s ++ ['}']

theorem trimmed_braced (s : List Char) : Trimmed (braced s) := by
  constructor
  · intro c hc
    cases hc
    decide
  · intro c hc
    simp only [braced, List.getLast?_append, List.getLast?_singleton, Option.some_or,
      Option.mem_def, Option.some.injEq] at hc
    subst hc
    decide

theorem body_braced (s : List Char) : AttrBlock.body (braced s) = plainQuotes s := by
  have hplain : plainQuotes (braced s) = braced (plainQuotes s) := by
    simp [braced, plainQuotes, plainQuote]
  unfold AttrBlock.body
  rw [hplain, (trimmed_braced _).strip]
  simp [braced]

theorem freeText_cons (p : List Char × List Char) (ps : List (List Char × List Char)) :
    ∃ rest, freeText (p :: ps) = p.1 ++ rest := by
  unfold freeText
  rw [List.map_cons]
  generalize ps.map (fun p => AttrBlock.writeAttr p.1 p.2) = ts
  cases ts with
  | nil => exact ⟨_, by simp only [joinWith, AttrBlock.writeAttr, List.append_assoc]; rfl⟩
  | cons t ts => exact ⟨_, by simp only [joinWith, AttrBlock.writeAttr, List.append_assoc]; rfl⟩

theorem freeText_quote (p : List Char × List Char) (ps : List (List Char × List Char)) :
    ∃ front, freeText (p :: ps) = front ++ ['"'] := by
  unfold freeText
  induction ps generalizing p with
  | nil => exact ⟨p.1 ++ '=' :: '"' :: p.2, rfl⟩
  | cons q ps ih =>
    obtain ⟨front, hfront⟩ := ih q
    rw [List.map_cons] at hfront
    rw [List.map_cons, List.map_cons, joinWith, hfront]
    · exact ⟨AttrBlock.writeAttr p.1 p.2 ++ [' '] ++ front, by simp⟩
    · simp

theorem trimmed_freeText {ps : List (List Char × List Char)} (h : ∀ p ∈ ps, IsName p.1) :
    Trimmed (freeText ps) := by
  cases ps with
  | nil => exact ⟨nofun, nofun⟩
  | cons p ps =>
    have hname := h p List.mem_cons_self
    constructor
    · intro c hc
      obtain ⟨rest, hrest⟩ := freeText_cons p ps
      obtain ⟨k, ks, hk⟩ := List.exists_cons_of_ne_nil hname.nonempty
      rw [hrest, hk, List.cons_append] at hc
      obtain rfl : k = c := Option.some.inj hc
      exact (plain_of_isKeyChar (hname.chars k (hk ▸ List.mem_cons_self))).1
    · intro c hc
      obtain ⟨front, hfront⟩ := freeText_quote p ps
      rw [hfront, List.getLast?_append] at hc
      cases hc
      decide

/-- Behind an empty free-form text the attributes are joined without a blank before them. -/
theorem strip_joined {ps : List (List Char × List Char)} (h : ∀ p ∈ ps, IsName p.1) :
    strip (joinWith [' '] ([] :: ps.map fun p => AttrBlock.writeAttr p.1 p.2)) = freeText ps := by
  cases ps with
  | nil => rfl
  | cons p ps =>
    have hblank : isBlank ' ' = true := by decide
    have hjoin : joinWith [' '] ([] :: (p :: ps).map fun p => AttrBlock.writeAttr p.1 p.2) =
        ' ' :: freeText (p :: ps) := by
      rw [List.map_cons, joinWith, freeText, List.map_cons]
      · rfl
      · simp
    rw [hjoin, strip, stripStart, List.dropWhile_cons_of_pos hblank]
    exact (trimmed_freeText h).strip

namespace Layout

variable {l : Layout}

theorem reads_entries (h : l.WellFormed) : ∀ i ∈ l.entries, i.Reads := by
  intro i hi
  obtain ⟨p, hp, rfl⟩ := List.mem_map.mp hi
  exact BlockItem.reads_plain (h.items p hp)

theorem free_names (h : l.WellFormed) : ∀ p ∈ l.free, IsName p.1 := by
  intro p hp
  obtain ⟨i, hi, hfree⟩ := List.mem_filterMap.mp hp
  obtain ⟨q, hq, rfl⟩ := List.mem_map.mp hi
  have hwell := h.items q hq
  revert hfree hwell
  cases q.2 with
  | name n => exact fun hfree => by cases hfree
  | mark n =>
    intro hfree hwell
    cases hfree
    exact (by decide : IsName "id".toList)
  | pair key value =>
    intro hfree hwell
    simp only [BlockItem.plain, BlockItem.free?] at hfree
    split at hfree
    · cases hfree
    · cases hfree
      exact hwell.1

/-- What a block is read as: its classes and its styles in turn, and its other entries as free-form
text. -/
theorem parse_text (h : l.WellFormed) (hc : ∀ i ∈ l.entries, i.Common) :
    AttrBlock.parse (braced l.text) =
      ⟨l.classes.filter (!·.isEmpty), l.styles.foldl joinStyle [], freeText l.free⟩ := by
  have hreads : ∀ i ∈ l.entries, i.Reads ∧ i.Common := fun i hi =>
    ⟨reads_entries h i hi, hc i hi⟩
  have htokens : splitTokens (AttrBlock.body (braced l.text)) = l.entries.map BlockItem.text := by
    rw [body_braced, splitTokens, plainQuotes_plainQuotes]
    exact splitTokens_text h
  rw [AttrBlock.parse, htokens, foldl_addToken hreads]
  have hstrip := strip_joined (free_names h)
  simp only [AttrBlock.finish, AttrBlock.empty, List.nil_append, List.isEmpty_map]
  split
  · next hempty =>
    have hfree : l.free = [] := List.isEmpty_iff.mp hempty
    rw [hfree]
    rfl
  · rw [← hstrip]
    rfl

/-! ## Reading entries again -/

theorem free_values (h : l.WellFormed) :
    ∀ p ∈ l.free, Enclosed '"' p.2 ∧ ∀ c ∈ p.2, IsStraight c := by
  intro p hp
  obtain ⟨i, hi, hfree⟩ := List.mem_filterMap.mp hp
  obtain ⟨q, hq, rfl⟩ := List.mem_map.mp hi
  have hwell := h.items q hq
  revert hfree hwell
  cases q.2 with
  | name n => exact fun hfree => by cases hfree
  | mark n =>
    intro hfree hwell
    cases hfree
    refine ⟨⟨fun hquote => ?_, hwell.2⟩, hwell.1.straight⟩
    exact absurd (hwell.1.chars '"' hquote) (by decide)
  | pair key value =>
    intro hfree hwell
    simp only [BlockItem.plain, BlockItem.free?] at hfree
    split at hfree
    · cases hfree
    · cases hfree
      refine ⟨hwell.2.enclosed, fun c hc => ?_⟩
      obtain ⟨d, -, rfl⟩ := List.mem_map.mp hc
      exact straight_plainQuote d

end Layout

/-- Pairs as named texts. -/
def asFields (ps : List (List Char × List Char)) : Fields :=
  ps.map fun p => (String.ofList p.1, .str (String.ofList p.2))

theorem straight_writeAttr {key value : List Char} (hk : IsName key)
    (hv : ∀ c ∈ value, IsStraight c) : ∀ c ∈ AttrBlock.writeAttr key value, IsStraight c := by
  simp only [AttrBlock.writeAttr, List.forall_mem_append, List.forall_mem_cons]
  exact ⟨⟨hk.straight, by decide, by decide, hv⟩, by decide, nofun⟩

theorem straight_freeText {ps : List (List Char × List Char)} (hk : ∀ p ∈ ps, IsName p.1)
    (hv : ∀ p ∈ ps, ∀ c ∈ p.2, IsStraight c) : ∀ c ∈ freeText ps, IsStraight c := by
  intro c hc
  rcases mem_joinWith hc with hc | ⟨t, ht, hc⟩
  · rw [List.mem_singleton.mp hc]
    decide
  · obtain ⟨p, hp, rfl⟩ := List.mem_map.mp ht
    exact straight_writeAttr (hk p hp) (hv p hp) c hc

/-- Pairs that were written are the tokens of their text. -/
theorem splitTokens_freeText {ps : List (List Char × List Char)} (hk : ∀ p ∈ ps, IsName p.1)
    (hv : ∀ p ∈ ps, Enclosed '"' p.2 ∧ ∀ c ∈ p.2, IsStraight c) :
    splitTokens (freeText ps) = ps.map fun p => AttrBlock.writeAttr p.1 p.2 := by
  rw [splitTokens, plainQuotes_of_straight (straight_freeText hk fun p hp => (hv p hp).2),
    freeText, tokensOf_joinWith]
  simp only [List.forall_mem_map]
  exact fun p hp => ⟨pieces_writeAttr (hk p hp) (hv p hp).1, by simp [AttrBlock.writeAttr]⟩

theorem splitTokens_pair {key value : List Char} (hk : IsName key) (hv : Enclosed '"' value)
    (hs : ∀ c ∈ value, IsStraight c) (rest : List Char) :
    splitTokens (AttrBlock.writeAttr key value ++ ' ' :: rest) =
      AttrBlock.writeAttr key value :: splitTokens rest := by
  have hplain : plainQuotes (AttrBlock.writeAttr key value ++ ' ' :: rest) =
      AttrBlock.writeAttr key value ++ ' ' :: plainQuotes rest := by
    rw [plainQuotes_append, plainQuotes_of_straight (straight_writeAttr hk hs)]
    rfl
  rw [splitTokens, hplain, tokensOf_token (pieces_writeAttr hk hv) (by simp [AttrBlock.writeAttr])
    (stops_space _), tokensOf_space, ← splitTokens]

theorem parseLoose_freeText {ps : List (List Char × List Char)} (hk : ∀ p ∈ ps, IsName p.1)
    (hv : ∀ p ∈ ps, Enclosed '"' p.2 ∧ ∀ c ∈ p.2, IsStraight c) :
    parseLoose (freeText ps) = Assoc.ofPairs (asFields ps) := by
  rw [parseLoose, splitTokens_freeText hk hv, Assoc.ofPairs, Assoc.putAll, asFields,
    List.foldl_map, List.foldl_map]
  refine List.foldl_ext _ _ _ fun m p hp => ?_
  have hpair : splitPair (AttrBlock.writeAttr p.1 p.2) = (p.1, some p.2) :=
    splitPair_of_pair (hk p hp).nonempty (hk p hp).chars (hv p hp).1.inside
  simp only [hpair]

/-! ## Entries of directives -/

namespace BlockItem

/-- What an entry sets in the map of a directive. -/
def attr? : BlockItem → Option (List Char × List Char)
  | .name _ => none
  | .mark n => some ("id".toList, n)
  | .pair key value => if key = "class".toList then none else some (key, value)

theorem addDirectiveToken_text {i : BlockItem} (h : i.Reads) (d : DirectiveDraft) :
    addDirectiveToken d i.text =
      ⟨i.attr?.toList.foldl
          (fun m p => Assoc.put m (String.ofList p.1) (String.ofList p.2)) d.attrs,
        d.classes ++ i.classes⟩ := by
  cases i with
  | name n =>
    obtain ⟨hne, hs⟩ := h
    unfold addDirectiveToken
    rw [hs]
    obtain ⟨c, cs, rfl⟩ := List.exists_cons_of_ne_nil hne
    simp only [text, classes, attr?, Option.toList_none, List.foldl_nil]
  | mark n =>
    obtain ⟨hne, hs⟩ := h
    unfold addDirectiveToken
    rw [hs]
    obtain ⟨c, cs, rfl⟩ := List.exists_cons_of_ne_nil hne
    simp only [text, classes, attr?, Option.toList_some, List.foldl_cons, List.foldl_nil,
      List.append_nil]
    rfl
  | pair key value =>
    have hs : splitPair (pair key value).text = (key, some value) := h
    unfold addDirectiveToken
    rw [hs]
    dsimp only [classes, attr?]
    split
    · rfl
    · simp only [Option.toList_some, List.foldl_cons, List.foldl_nil, List.append_nil]

end BlockItem

theorem addDirectiveToken_pair {key value : List Char} (hk : IsName key)
    (hclass : key ≠ "class".toList) (hv : '"' ∉ value) (d : DirectiveDraft) :
    addDirectiveToken d (AttrBlock.writeAttr key value) =
      ⟨Assoc.put d.attrs (String.ofList key) (String.ofList value), d.classes⟩ := by
  have hpair : splitPair (AttrBlock.writeAttr key value) = (key, some value) :=
    splitPair_of_pair hk.nonempty hk.chars hv
  unfold addDirectiveToken
  rw [hpair]
  simp only [hclass, if_false]

theorem foldl_addDirectiveToken {is : List BlockItem} (h : ∀ i ∈ is, i.Reads)
    (d : DirectiveDraft) :
    (is.map BlockItem.text).foldl addDirectiveToken d =
      ⟨(is.filterMap BlockItem.attr?).foldl
          (fun m p => Assoc.put m (String.ofList p.1) (String.ofList p.2)) d.attrs,
        d.classes ++ is.flatMap BlockItem.classes⟩ := by
  induction is generalizing d with
  | nil => simp
  | cons i is ih =>
    rw [List.forall_mem_cons] at h
    rw [List.map_cons, List.foldl_cons, BlockItem.addDirectiveToken_text h.1, ih h.2]
    cases ha : i.attr? <;> simp [ha]

namespace Layout

variable {l : Layout}

def attrs (l : Layout) : List (List Char × List Char) := l.entries.filterMap BlockItem.attr?

/-- Pairs as a map of texts. -/
def asTexts (ps : List (List Char × List Char)) : Assoc String String :=
  Assoc.ofPairs (ps.map fun p => (String.ofList p.1, String.ofList p.2))

/-- A pair and a block behind it, read as the attributes of a directive. -/
theorem parseDirective_text (h : l.WellFormed) {key value : List Char} (hk : IsName key)
    (hclass : key ≠ "class".toList) (hv : Enclosed '"' value) (hs : ∀ c ∈ value, IsStraight c) :
    parseDirective (AttrBlock.writeAttr key value ++ ' ' :: l.text) =
      if l.classes.isEmpty then asTexts ((key, value) :: l.attrs)
      else Assoc.put (asTexts ((key, value) :: l.attrs)) "class"
        (String.ofList (joinWith [' '] l.classes)) := by
  rw [parseDirective, splitTokens_pair hk hv hs, List.foldl_cons,
    addDirectiveToken_pair hk hclass hv.inside, splitTokens_text h,
    foldl_addDirectiveToken (reads_entries h)]
  simp only [List.nil_append, asTexts, Assoc.ofPairs, Assoc.putAll, List.map_cons, List.foldl_cons,
    List.foldl_map]
  rfl

end Layout

theorem parseDirective_freeText {ps : List (List Char × List Char)}
    (hk : ∀ p ∈ ps, IsName p.1 ∧ p.1 ≠ "class".toList)
    (hv : ∀ p ∈ ps, Enclosed '"' p.2 ∧ ∀ c ∈ p.2, IsStraight c) :
    parseDirective (freeText ps) = Layout.asTexts ps := by
  have hfold : ∀ d : DirectiveDraft,
      (ps.map fun p => AttrBlock.writeAttr p.1 p.2).foldl addDirectiveToken d =
        ⟨Assoc.putAll d.attrs (ps.map fun p => (String.ofList p.1, String.ofList p.2)),
          d.classes⟩ := by
    intro d
    induction ps generalizing d with
    | nil => rfl
    | cons p ps ih =>
      rw [List.forall_mem_cons] at hk hv
      rw [List.map_cons, List.foldl_cons,
        addDirectiveToken_pair hk.1.1 hk.1.2 hv.1.1.inside, ih hk.2 hv.2]
      rfl
  rw [parseDirective, splitTokens_freeText (fun p hp => (hk p hp).1) hv, hfold]
  rfl

end DocumentMedia.Attribute
