import DocumentMedia.Attribute.Block
import DocumentMedia.Proofs.Attribute.Apart
import DocumentMedia.Proofs.Attribute.Loose

/-! # Free-form attributes of blocks

Pairs and names behind a hash sign are written behind the text of the last `attrs` pair and read
once more with it. Each is found with its last value, and what the text gives to other keys is kept,
as long as no quote is closed in the wrong place. -/
namespace DocumentMedia.Attribute

open DocumentMedia.Text

/-! ## Parts of tokens -/

section

variable {s token key value : List Char} {c : Char}

theorem mem_of_mem_strip (h : c ∈ strip s) : c ∈ s := by
  obtain ⟨before, after, hs, -, -⟩ := exists_strip s
  rw [hs]
  exact List.mem_append_right _ (List.mem_append_left _ h)

theorem mem_of_mem_tokensOf (ht : token ∈ tokensOf s) (hc : c ∈ token) : c ∈ s := by
  induction s using tokens_induction with
  | nil =>
    rw [tokensOf] at ht
    cases ht
  | skip d ds hnone ih =>
    rw [tokensOf_skip hnone] at ht
    exact List.mem_cons_of_mem d (ih ht)
  | take s hsome ih =>
    rw [tokensOf_take rfl hsome, List.mem_cons] at ht
    rw [← append_takeToken s, List.mem_append]
    obtain rfl | ht := ht
    · exact Or.inl hc
    · exact Or.inr (ih ht)

/-- Typographic quotes are nowhere left in tokens. -/
theorem straight_splitTokens (ht : token ∈ splitTokens s) : ∀ c ∈ token, IsStraight c := by
  intro c hc
  obtain ⟨d, -, rfl⟩ := List.mem_map.mp (mem_of_mem_tokensOf ht hc)
  exact straight_plainQuote d

theorem mem_of_quotedInside? {q : Char} (h : quotedInside? q s = some value) (hc : c ∈ value) :
    c ∈ s := by
  unfold quotedInside? at h
  split at h
  · next d inside hs =>
    split at h
    · cases h
      rw [← List.mem_reverse, hs]
      exact List.mem_cons_of_mem d (List.mem_reverse.mp hc)
    · cases h
  · cases h

theorem mem_of_pairValue? (h : pairValue? s = some value) (hc : c ∈ value) : c ∈ s := by
  unfold pairValue? at h
  split at h
  · exact List.mem_cons_of_mem _ (mem_of_quotedInside? h hc)
  · exact List.mem_cons_of_mem _ (mem_of_quotedInside? h hc)
  · split at h
    · cases h
      exact hc
    · cases h

theorem mem_of_mem_dropLastBreak (hc : c ∈ dropLastBreak s) : c ∈ s := by
  unfold dropLastBreak at hc
  split at hc
  · next r hr =>
    rw [← List.mem_reverse, hr]
    exact List.mem_cons_of_mem _ (List.mem_reverse.mp hc)
  · exact hc

theorem splitPair_spec (h : splitPair token = (key, some value)) :
    (key ≠ [] ∧ ∀ c ∈ key, isKeyChar c) ∧ (∀ c ∈ key, c ∈ token) ∧ ∀ c ∈ value, c ∈ token := by
  unfold splitPair at h
  split at h
  · next k ks rest hkey hrest =>
    split at h
    · next v hv =>
      cases h
      refine ⟨⟨List.cons_ne_nil k ks, fun c hc => ?_⟩, fun c hc => ?_, fun c hc => ?_⟩
      · exact List.mem_takeWhile_imp (hkey ▸ hc)
      · exact (List.takeWhile_prefix _).subset (hkey ▸ hc)
      · have hmem := List.mem_cons_of_mem '=' (mem_of_mem_dropLastBreak (mem_of_pairValue? hv hc))
        exact (List.dropWhile_suffix _).subset (hrest ▸ hmem)
    · cases h
  · cases h

end

/-! ## Pairs that are written -/

section

variable {key value : List Char}

/-- With no such quote in a text, the one behind it closes at the end, even behind a backslash. -/
theorem closing_last {q : Char} (hq : q ≠ '\\') {s : List Char} (h : q ∉ s) :
    closing q (s ++ [q]) = some (s ++ [q], []) := by
  match s, h with
  | [], _ => exact closing_quote q []
  | [c], h =>
    have hc : c ≠ q := fun he => h (by simp [he])
    by_cases hb : c = '\\'
    · simp [closing, hb, hq.symm]
    · rw [List.cons_append, closing_plain hc hb, List.nil_append, closing_quote]
      rfl
  | c :: d :: s, h =>
    simp only [List.mem_cons, not_or] at h
    by_cases hb : c = '\\'
    · have hrest := closing_last hq h.2.2
      rw [hb]
      exact closing_escape hq hrest d
    · have hrest := closing_last hq (s := d :: s) (by simp [h.2])
      rw [List.cons_append, closing_plain (Ne.symm h.1) hb, hrest]
      rfl
termination_by s.length

theorem takeToken_plain {s : List Char} (h : ∀ c ∈ s, isBlank c = false ∧ isQuote c = false)
    (t : List Char) : takeToken (s ++ t) = (s ++ (takeToken t).1, (takeToken t).2) := by
  induction s with
  | nil => rfl
  | cons c s ih =>
    rw [List.forall_mem_cons] at h
    have hpiece : Attribute.piece? (c :: (s ++ t)) = some ([c], s ++ t) := by
      simp [Attribute.piece?, h.1.1, h.1.2]
    rw [List.cons_append, takeToken_of_some hpiece, ih h.2]
    rfl

/-- A pair without double quotes in its value is one token, however it ends. -/
theorem tokensOf_writeAttr (hk : ∀ c ∈ key, isKeyChar c) (hv : '"' ∉ value) :
    tokensOf (AttrBlock.writeAttr key value) = [AttrBlock.writeAttr key value] := by
  have hplain : ∀ c ∈ key ++ ['='], isBlank c = false ∧ isQuote c = false := by
    rw [List.forall_mem_append, List.forall_mem_singleton]
    exact ⟨fun c hc => plain_of_isKeyChar (hk c hc), by decide⟩
  have hquoted : Attribute.piece? ('"' :: (value ++ ['"'])) = some ('"' :: (value ++ ['"']), []) := by
    have hquote : isQuote '"' = true := by decide
    simp only [Attribute.piece?, hquote, if_true, closing_last (by decide) hv]
    rfl
  have hend : takeToken [] = ([], []) := takeToken_of_none rfl
  have htake := takeToken_plain hplain ('"' :: (value ++ ['"']))
  rw [takeToken_of_some hquoted, hend] at htake
  have hwhole : AttrBlock.writeAttr key value = key ++ ['='] ++ '"' :: (value ++ ['"']) := by
    simp [AttrBlock.writeAttr]
  rw [hwhole, tokensOf_take htake (by simp), tokensOf, List.append_nil]

/-- Pairs with blanks between them are read one by one if the quotes of all but the last are
closed. -/
theorem tokensOf_written {ps : List (List Char × List Char)}
    (hk : ∀ p ∈ ps, ∀ c ∈ p.1, isKeyChar c) (hv : ∀ p ∈ ps, '"' ∉ p.2)
    (hclosed : ∀ p ∈ ps.dropLast, Closed (AttrBlock.writeAttr p.1 p.2)) :
    tokensOf (joinWith [' '] (ps.map fun p => AttrBlock.writeAttr p.1 p.2)) =
      ps.map fun p => AttrBlock.writeAttr p.1 p.2 := by
  induction ps with
  | nil => rw [List.map_nil, joinWith, tokensOf]
  | cons p ps ih =>
    rw [List.forall_mem_cons] at hk hv
    cases ps with
    | nil => exact tokensOf_writeAttr hk.1 hv.1
    | cons p' ps =>
      rw [List.dropLast_cons_of_ne_nil (List.cons_ne_nil _ _), List.forall_mem_cons] at hclosed
      rw [List.map_cons, joinWith_cons (by simp), List.singleton_append,
        tokensOf_append (Or.inl hclosed.1) (stops_space _), tokensOf_writeAttr hk.1 hv.1,
        tokensOf_space, ih hk.2 hv.2 hclosed.2]
      rfl

end

namespace AttrBlock

/-! ## What tokens give -/

/-- The keys of the pairs that are not written into the free-form text. -/
def boundKeys : List (List Char) := ["class", "className", "style", "attrs"].map String.toList

/-- The pair that a token adds to the free-form text: its own, or a name behind a hash sign as the
identifier. -/
def freePair? (token : List Char) : Option (List Char × List Char) :=
  match splitPair token with
  | (key, some value) => if key ∈ boundKeys then none else some (key, value)
  | (_, none) =>
    match token with
    | '#' :: c :: cs => some ("id".toList, c :: cs)
    | _ => none

/-- The text that an `attrs` pair gives. -/
def attrsValue? (token : List Char) : Option (List Char) :=
  match splitPair token with
  | (key, some value) => if key = "attrs".toList then some value else none
  | _ => none

def freePairs (raw : List Char) : List (List Char × List Char) :=
  (splitTokens (body raw)).filterMap freePair?

/-- The text of the last `attrs` pair, empty without one. -/
def attrsText (raw : List Char) : List Char :=
  ((splitTokens (body raw)).filterMap attrsValue?).getLast?.getD []

/-- The pairs of a block as they are written behind the text of the last `attrs` pair. -/
def written (raw : List Char) : List Char :=
  joinWith [' '] ((freePairs raw).map fun p => writeAttr p.1 p.2)

/-- No quote is closed in the wrong place when the free-form text is read: values hold no double
quotes, all pairs but the last close theirs, and so does the text of the last `attrs` pair, unless
the pairs have no quotes of its kinds. -/
structure Rereadable (raw : List Char) : Prop where
  values : ∀ p ∈ freePairs raw, '"' ∉ p.2
  closed : ∀ p ∈ (freePairs raw).dropLast, Closed (writeAttr p.1 p.2)
  apart : Apart (strip (attrsText raw)) (written raw)

instance (raw : List Char) : Decidable (Rereadable raw) :=
  decidable_of_iff ((∀ p ∈ freePairs raw, '"' ∉ p.2) ∧
      (∀ p ∈ (freePairs raw).dropLast, Closed (writeAttr p.1 p.2)) ∧
      Apart (strip (attrsText raw)) (written raw))
    ⟨fun ⟨hv, hc, ha⟩ => ⟨hv, hc, ha⟩, fun h => ⟨h.values, h.closed, h.apart⟩⟩

theorem addToken_spec (d : Draft) (token : List Char) :
    (addToken d token).extras =
        d.extras ++ (freePair? token).toList.map (fun p => writeAttr p.1 p.2) ∧
      (addToken d token).block.freeform =
        ((attrsValue? token).map strip).getD d.block.freeform := by
  unfold addToken freePair? attrsValue?
  rcases splitPair token with ⟨key, _ | value⟩
  · dsimp only
    split <;> simp
  · have hbound : key ∈ boundKeys ↔ (key = "class".toList ∨ key = "className".toList) ∨
        key = "style".toList ∨ key = "attrs".toList := by
      simp only [boundKeys, List.map_cons, List.map_nil, List.mem_cons, List.not_mem_nil, or_false,
        or_assoc]
    simp only [hbound, Bool.or_eq_true, decide_eq_true_eq]
    by_cases hclass : key = "class".toList ∨ key = "className".toList
    · have hattrs : key ≠ "attrs".toList := by rcases hclass with rfl | rfl <;> decide
      rw [if_pos hclass, if_pos (Or.inl hclass), if_neg hattrs]
      simp
    · rw [if_neg hclass]
      by_cases hstyle : key = "style".toList
      · have hattrs : key ≠ "attrs".toList := by rw [hstyle]; decide
        rw [if_pos hstyle, if_pos (Or.inr (Or.inl hstyle)), if_neg hattrs]
        simp
      · rw [if_neg hstyle]
        by_cases hattrs : key = "attrs".toList
        · rw [if_pos hattrs, if_pos (Or.inr (Or.inr hattrs)), if_pos hattrs]
          simp
        · have hfree : ¬((key = "class".toList ∨ key = "className".toList) ∨
              key = "style".toList ∨ key = "attrs".toList) := by
            simp only [hclass, hstyle, hattrs, or_self, not_false_eq_true]
          rw [if_neg hattrs, if_neg hfree, if_neg hattrs]
          simp

theorem foldl_addToken_spec (tokens : List (List Char)) (d : Draft) :
    (tokens.foldl addToken d).extras =
        d.extras ++ (tokens.filterMap freePair?).map (fun p => writeAttr p.1 p.2) ∧
      (tokens.foldl addToken d).block.freeform =
        ((tokens.filterMap attrsValue?).getLast?.map strip).getD d.block.freeform := by
  induction tokens generalizing d with
  | nil => simp
  | cons token tokens ih =>
    obtain ⟨hextras, hfree⟩ := addToken_spec d token
    obtain ⟨ihextras, ihfree⟩ := ih (addToken d token)
    rw [List.foldl_cons, ihextras, ihfree, hextras, hfree]
    constructor
    · cases hpair : freePair? token <;> simp [hpair]
    · cases hvalue : attrsValue? token with
      | none => simp [hvalue]
      | some value =>
        rw [List.filterMap_cons_some hvalue, List.getLast?_cons]
        cases (tokens.filterMap attrsValue?).getLast? <;> rfl

theorem freeform_parse (raw : List Char) : (parse raw).freeform =
    if freePairs raw = [] then strip (attrsText raw)
    else strip (strip (attrsText raw) ++ ' ' :: written raw) := by
  obtain ⟨hspec, hfree⟩ := foldl_addToken_spec (splitTokens (body raw)) ⟨empty, []⟩
  have hextras : ((splitTokens (body raw)).foldl addToken ⟨empty, []⟩).extras =
      (freePairs raw).map fun p => writeAttr p.1 p.2 := by
    rw [hspec, List.nil_append, freePairs]
  have hattrs : ((splitTokens (body raw)).foldl addToken ⟨empty, []⟩).block.freeform =
      strip (attrsText raw) := by
    rw [hfree, attrsText]
    cases ((splitTokens (body raw)).filterMap attrsValue?).getLast? <;> rfl
  unfold parse finish
  rw [hextras, hattrs]
  by_cases hnone : freePairs raw = []
  · rw [if_pos hnone, hnone]
    rfl
  · have hpairs : (freePairs raw).map (fun p => writeAttr p.1 p.2) ≠ [] :=
      fun h => hnone (List.map_eq_nil_iff.mp h)
    rw [if_neg hnone, if_neg fun h => hpairs (List.isEmpty_iff.mp h), joinWith_cons hpairs,
      List.singleton_append, written]

/-! ## Reading once more -/

section

variable {raw : List Char}

/-- A pair that is written into the free-form text. -/
structure IsFree (p : List Char × List Char) : Prop where
  nonempty : p.1 ≠ []
  chars : ∀ c ∈ p.1, isKeyChar c
  straight : ∀ c ∈ writeAttr p.1 p.2, IsStraight c

theorem isFree_of_mem {p : List Char × List Char} (h : p ∈ freePairs raw) : IsFree p := by
  obtain ⟨token, htoken, hp⟩ := List.mem_filterMap.mp h
  have hstraight := straight_splitTokens htoken
  have hwrite {key value : List Char} (hk : ∀ c ∈ key, IsStraight c)
      (hv : ∀ c ∈ value, IsStraight c) : ∀ c ∈ writeAttr key value, IsStraight c := by
    simp only [writeAttr, List.forall_mem_append, List.forall_mem_cons]
    exact ⟨⟨hk, by decide, by decide, hv⟩, by decide, nofun⟩
  unfold freePair? at hp
  split at hp
  · next key value hpair =>
    obtain ⟨⟨hne, hchars⟩, hkey, hvalue⟩ := splitPair_spec hpair
    split at hp
    · cases hp
    · cases hp
      exact ⟨hne, hchars, hwrite (fun c hc => hstraight c (hkey c hc))
        fun c hc => hstraight c (hvalue c hc)⟩
  · split at hp
    · next c cs _ =>
      cases hp
      have hid : ∀ d ∈ "id".toList, isKeyChar d ∧ IsStraight d := forall_mem_of_all (by decide)
      exact ⟨nofun, fun d hd => (hid d hd).1,
        hwrite (fun d hd => (hid d hd).2) fun d hd => hstraight d (List.mem_cons_of_mem '#' hd)⟩
    · cases hp

theorem straight_attrsText (raw : List Char) : ∀ c ∈ attrsText raw, IsStraight c := by
  intro c hc
  unfold attrsText at hc
  cases hlast : ((splitTokens (body raw)).filterMap attrsValue?).getLast? with
  | none =>
    rw [hlast] at hc
    cases hc
  | some value =>
    rw [hlast] at hc
    obtain ⟨token, htoken, hvalue⟩ := List.mem_filterMap.mp (List.mem_of_getLast? hlast)
    unfold attrsValue? at hvalue
    split at hvalue
    · next hpair =>
      split at hvalue
      · cases hvalue
        exact straight_splitTokens htoken c ((splitPair_spec hpair).2.2 c hc)
      · cases hvalue
    · cases hvalue

theorem straight_written (raw : List Char) : ∀ c ∈ written raw, IsStraight c := by
  intro c hc
  rcases mem_joinWith hc with hc | ⟨w, hw, hc⟩
  · rw [List.mem_singleton.mp hc]
    decide
  · obtain ⟨p, hp, rfl⟩ := List.mem_map.mp hw
    exact (isFree_of_mem hp).straight c hc

/-- The tokens of the free-form text are those of the last `attrs` text and the pairs. -/
theorem splitTokens_freeform (h : Rereadable raw) : splitTokens (parse raw).freeform =
    splitTokens (attrsText raw) ++ (freePairs raw).map fun p => writeAttr p.1 p.2 := by
  have hattrs := straight_attrsText raw
  have hstrip : ∀ c ∈ strip (attrsText raw), IsStraight c := fun c hc =>
    hattrs c (mem_of_mem_strip hc)
  have happ : ∀ c ∈ strip (attrsText raw) ++ ' ' :: written raw, IsStraight c := by
    rw [List.forall_mem_append, List.forall_mem_cons]
    exact ⟨hstrip, by decide, straight_written raw⟩
  rw [freeform_parse, splitTokens, splitTokens, plainQuotes_of_straight hattrs]
  split
  · next hnone =>
    rw [plainQuotes_of_straight hstrip, tokensOf_strip, hnone, List.map_nil, List.append_nil]
  · have hapart : Apart (strip (attrsText raw)) (' ' :: written raw) := by
      refine h.apart.imp_right fun hkinds c hc hq => ?_
      rw [List.mem_cons, not_or]
      refine ⟨?_, hkinds c hc hq⟩
      rintro rfl
      exact absurd hq (by decide)
    rw [plainQuotes_of_straight fun c hc => happ c (mem_of_mem_strip hc), tokensOf_strip,
      tokensOf_append hapart (stops_space _), tokensOf_strip, tokensOf_space, written,
      tokensOf_written (fun p hp => (isFree_of_mem hp).chars) h.values h.closed]

/-- Each key of the free-form text has the value of the last pair or name behind a hash sign that
sets it, and without one the value that the last `attrs` text gives to it. -/
theorem find?_freeform (h : Rereadable raw) (key : String) :
    Assoc.find? (parseLoose (parse raw).freeform) key =
      (((freePairs raw).filter fun p => String.ofList p.1 == key).getLast?.map fun p =>
        Value.str (String.ofList p.2)).or (Assoc.find? (parseLoose (attrsText raw)) key) := by
  have hfields : ((freePairs raw).map fun p => writeAttr p.1 p.2).map looseField =
      (freePairs raw).map fun p => (String.ofList p.1, Value.str (String.ofList p.2)) := by
    rw [List.map_map]
    refine List.map_congr_left fun p hp => ?_
    have hfree := isFree_of_mem hp
    have hpair : splitPair (writeAttr p.1 p.2) = (p.1, some p.2) :=
      splitPair_of_pair hfree.nonempty hfree.chars (h.values p hp)
    rw [Function.comp_apply, looseField, hpair]
  have hparse : parseLoose (parse raw).freeform = Assoc.putAll (parseLoose (attrsText raw))
      ((freePairs raw).map fun p => (String.ofList p.1, Value.str (String.ofList p.2))) := by
    rw [parseLoose_eq, parseLoose_eq, splitTokens_freeform h, List.map_append, hfields]
    exact Assoc.putAll_append _ _ _
  rw [hparse, Assoc.find?_putAll, List.filter_map, List.getLast?_map, Option.map_map]
  rfl

/-- A block in which pairs outrank one another and the text of an `attrs` pair. -/
def sampleBlock : List Char :=
  "\x7b.wide title=\"A b\" #top attrs=\"loading=lazy title=x\" title='C'\x7d".toList

theorem find?_freeform_sample : Rereadable sampleBlock ∧
    (["title", "id", "loading", "class"].map fun key =>
      (Assoc.find? (parseLoose (parse sampleBlock).freeform) key).map Value.display) =
        [some "C", some "top", some "lazy", none] := by
  have hblock : Rereadable sampleBlock := by decide +kernel
  refine ⟨hblock, ?_⟩
  simp only [find?_freeform hblock]
  decide +kernel

/-- A value with double quotes is not found again. -/
theorem quoted_value_lost :
    freePairs "\x7btitle='say \"hi\"'\x7d".toList =
        [("title".toList, "say \"hi\"".toList)] ∧
      (Assoc.find? (parseLoose (parse "\x7btitle='say \"hi\"'\x7d".toList).freeform)
        "title").isNone := by
  decide +kernel

end

end AttrBlock

end DocumentMedia.Attribute
