import DocumentMedia.Attribute.Token
import DocumentMedia.Proofs.Text.Blank

/-! # Tokens that were written

A token is a run of plain characters and closed quotes. Tokens that are written with blanks between
them are read back as they are, whatever stands behind them. -/
namespace DocumentMedia.Attribute

open DocumentMedia.Text

/-! ## Quotes -/

theorem plainQuotes_append (s t : List Char) :
    plainQuotes (s ++ t) = plainQuotes s ++ plainQuotes t :=
  List.map_append

/-- A character that is no typographic quote. -/
def IsStraight (c : Char) : Prop := c ∉ ['“', '”', '‘', '’']

instance (c : Char) : Decidable (IsStraight c) := inferInstanceAs (Decidable (¬ _))

theorem plainQuote_of_straight {c : Char} (h : IsStraight c) : plainQuote c = c := by
  simp only [IsStraight, List.mem_cons, List.not_mem_nil, or_false, not_or] at h
  simp [plainQuote, h]

theorem straight_plainQuote (c : Char) : IsStraight (plainQuote c) := by
  unfold plainQuote
  split
  · decide
  · next h =>
    split
    · decide
    · next h' =>
      simp only [Bool.or_eq_true, decide_eq_true_eq, not_or] at h h'
      simp [IsStraight, h, h']

theorem plainQuotes_of_straight {s : List Char} (h : ∀ c ∈ s, IsStraight c) :
    plainQuotes s = s := by
  rw [plainQuotes, List.map_congr_left fun c hc => plainQuote_of_straight (h c hc), List.map_id']

theorem plainQuotes_plainQuotes (s : List Char) : plainQuotes (plainQuotes s) = plainQuotes s := by
  apply plainQuotes_of_straight
  intro c hc
  obtain ⟨d, -, rfl⟩ := List.mem_map.mp hc
  exact straight_plainQuote d

theorem plainQuotes_of_blank {s : List Char} (h : ∀ c ∈ s, isBlank c) : plainQuotes s = s := by
  apply plainQuotes_of_straight
  intro c hc he
  simp only [List.mem_cons, List.not_mem_nil, or_false] at he
  have := h c hc
  rcases he with rfl | rfl | rfl | rfl <;> revert this <;> decide

/-! ## Tokens -/

/-- Text between two quotes `q`: it holds no such quote, and no backslash right before the closing
one. -/
structure Enclosed (q : Char) (s : List Char) : Prop where
  inside : q ∉ s
  last : s.getLast? ≠ some '\\'

instance (q : Char) (s : List Char) : Decidable (Enclosed q s) :=
  decidable_of_iff (q ∉ s ∧ s.getLast? ≠ some '\\')
    ⟨fun h => ⟨h.1, h.2⟩, fun h => ⟨h.inside, h.last⟩⟩

theorem Enclosed.closing {q : Char} (hq : q ≠ '\\') {s : List Char} (h : Enclosed q s)
    (rest : List Char) : closing q (s ++ q :: rest) = some (s ++ [q], rest) := by
  match s, h with
  | [], _ => cases rest <;> simp [Attribute.closing]
  | [c], h =>
    have hc : c ≠ q := fun he => h.inside (by simp [he])
    have hb : c ≠ '\\' := fun he => h.last (by simp [he])
    have hrest : Attribute.closing q (q :: rest) = some ([q], rest) := by
      cases rest <;> simp [Attribute.closing]
    simp [Attribute.closing, hc, hb, hrest]
  | c :: d :: s, h =>
    have hinside := h.inside
    have hlast := h.last
    simp only [List.mem_cons, not_or] at hinside
    have hc : c ≠ q := Ne.symm hinside.1
    have hd : d ≠ q := Ne.symm hinside.2.1
    simp only [List.cons_append]
    rw [Attribute.closing, if_neg hc]
    split
    -- A backslash takes the character behind it along.
    · have hs : Enclosed q s := by
        refine ⟨hinside.2.2, fun he => hlast ?_⟩
        cases s with
        | nil => cases he
        | cons e s => simpa using he
      rw [hs.closing hq]
      rfl
    · have hs : Enclosed q (d :: s) :=
        ⟨by simp [hinside.2.1, hinside.2.2], fun he => hlast (by simpa using he)⟩
      rw [← List.cons_append, hs.closing hq]
      rfl
termination_by s.length

/-- A run of characters that are neither blanks nor quotes and of closed quotes. -/
inductive Pieces : List Char → Prop where
  | nil : Pieces []
  | plain {c s} (hb : isBlank c = false) (hq : isQuote c = false) (h : Pieces s) : Pieces (c :: s)
  | quoted {q inside s} (hq : isQuote q) (hi : Enclosed q inside) (h : Pieces s) :
      Pieces (q :: inside ++ q :: s)

theorem Pieces.of_plain {s : List Char} (h : ∀ c ∈ s, isBlank c = false ∧ isQuote c = false) :
    Pieces s := by
  induction s with
  | nil => exact .nil
  | cons c s ih =>
    rw [List.forall_mem_cons] at h
    exact .plain h.1.1 h.1.2 (ih h.2)

theorem Pieces.append {s t : List Char} (h : Pieces s) (k : Pieces t) : Pieces (s ++ t) := by
  induction h with
  | nil => exact k
  | plain hb hq _ ih => exact .plain hb hq ih
  | quoted hq hi _ ih =>
    rw [List.append_assoc, List.cons_append]
    exact .quoted hq hi ih

theorem not_quote_of_blank {c : Char} (h : isBlank c) : isQuote c = false := by
  rw [Bool.eq_false_iff]
  intro hq
  simp only [isQuote, Bool.or_eq_true, decide_eq_true_eq] at hq
  rcases hq with rfl | rfl <;> revert h <;> decide

theorem plain_of_isKeyChar {c : Char} (h : isKeyChar c) :
    isBlank c = false ∧ isQuote c = false := by
  simp only [isKeyChar, Bool.and_eq_true, Bool.not_eq_true'] at h
  exact ⟨h.1.1, h.2⟩

/-- No token goes on at the start of a text. -/
def Stops (rest : List Char) : Prop := ∀ c ∈ rest.head?, isBlank c

theorem Stops.piece? {rest : List Char} (h : Stops rest) : piece? rest = none := by
  cases rest with
  | nil => rfl
  | cons c cs =>
    have hb : isBlank c = true := h c rfl
    simp [Attribute.piece?, hb, not_quote_of_blank hb]

theorem Pieces.takeToken {s : List Char} (h : Pieces s) {rest : List Char} (hrest : Stops rest) :
    takeToken (s ++ rest) = (s, rest) := by
  induction h with
  | nil => exact takeToken_of_none hrest.piece?
  | @plain c s hb hq _ ih =>
    have hp : Attribute.piece? (c :: (s ++ rest)) = some ([c], s ++ rest) := by
      simp [Attribute.piece?, hb, hq]
    rw [List.cons_append, takeToken_of_some hp, ih]
    rfl
  | @quoted q inside s hq hi _ ih =>
    have hne : q ≠ '\\' := by
      rintro rfl
      revert hq
      decide
    have hp : Attribute.piece? (q :: (inside ++ q :: (s ++ rest))) =
        some (q :: (inside ++ [q]), s ++ rest) := by
      simp [Attribute.piece?, hq, hi.closing hne]
    rw [List.append_assoc, List.cons_append, List.cons_append, takeToken_of_some hp, ih]
    simp

theorem tokensOf_skip {c : Char} {cs : List Char} (h : (takeToken (c :: cs)).1 = []) :
    tokensOf (c :: cs) = tokensOf cs := by
  rw [tokensOf]
  split
  · rfl
  · next heq => rw [heq] at h; cases h

theorem tokensOf_take {s token rest : List Char} (h : takeToken s = (token, rest))
    (hne : token ≠ []) : tokensOf s = token :: tokensOf rest := by
  cases s with
  | nil =>
    rw [takeToken_of_none rfl] at h
    cases h
    exact absurd rfl hne
  | cons c cs =>
    rw [tokensOf]
    split
    · next heq => rw [h] at heq; cases heq; exact absurd rfl hne
    · next heq => rw [h] at heq; cases heq; rfl

/-- What holds of a text when it holds of the rest behind its first character, or behind its first
token, holds of all texts. -/
@[elab_as_elim]
theorem tokens_induction {motive : List Char → Prop} (nil : motive [])
    (skip : ∀ c cs, (takeToken (c :: cs)).1 = [] → motive cs → motive (c :: cs))
    (take : ∀ s, (takeToken s).1 ≠ [] → motive (takeToken s).2 → motive s) (s : List Char) :
    motive s := by
  induction hn : s.length using Nat.strong_induction_on generalizing s with
  | h n ih =>
    subst hn
    by_cases hnone : (takeToken s).1 = []
    · cases s with
      | nil => exact nil
      | cons c cs => exact skip c cs hnone (ih cs.length (Nat.lt_succ_self _) cs rfl)
    · refine take s hnone (ih _ ?_ _ rfl)
      have hwhole := congrArg List.length (append_takeToken s)
      have hpos := List.length_pos_iff.mpr hnone
      rw [List.length_append] at hwhole
      omega

theorem tokensOf_blanks {gap : List Char} (h : ∀ c ∈ gap, isBlank c) (s : List Char) :
    tokensOf (gap ++ s) = tokensOf s := by
  induction gap with
  | nil => rfl
  | cons c gap ih =>
    rw [List.forall_mem_cons] at h
    have hnone : Attribute.piece? (c :: (gap ++ s)) = none :=
      Stops.piece? (fun d hd => by cases hd; exact h.1)
    rw [List.cons_append, tokensOf_skip (by rw [takeToken_of_none hnone]), ih h.2]

theorem tokensOf_token {token : List Char} (h : Pieces token) (hne : token ≠ []) {rest : List Char}
    (hrest : Stops rest) : tokensOf (token ++ rest) = token :: tokensOf rest :=
  tokensOf_take (h.takeToken hrest) hne

/-- Tokens with the gaps before them, and a tail. -/
def spread (ts : List (List Char × List Char)) (tail : List Char) : List Char :=
  ts.flatMap (fun p => p.1 ++ p.2) ++ tail

/-- Gaps are blank, and only the first of them may be empty. -/
structure Spaced {α : Type} (ts : List (List Char × α)) (tail : List Char) : Prop where
  blank : ∀ p ∈ ts, ∀ c ∈ p.1, isBlank c
  apart : ∀ p ∈ ts.tail, p.1 ≠ []
  tail : ∀ c ∈ tail, isBlank c

instance {α : Type} (ts : List (List Char × α)) (tail : List Char) : Decidable (Spaced ts tail) :=
  decidable_of_iff (ts.all (fun p => p.1.all isBlank) = true ∧ (∀ p ∈ ts.tail, p.1 ≠ []) ∧
      tail.all isBlank = true)
    ⟨fun ⟨hblank, hapart, htail⟩ =>
      ⟨by simpa only [List.all_eq_true] using hblank, hapart, List.all_eq_true.mp htail⟩,
    fun h => ⟨by simpa only [List.all_eq_true] using h.blank, h.apart, List.all_eq_true.mpr h.tail⟩⟩

theorem Spaced.rest {α : Type} {t : List Char × α} {ts : List (List Char × α)} {tail : List Char}
    (h : Spaced (t :: ts) tail) : Spaced ts tail :=
  ⟨fun p hp => h.blank p (List.mem_cons_of_mem t hp),
    fun p hp => h.apart p (List.mem_of_mem_tail hp), h.tail⟩

theorem Spaced.stops {t : List Char × List Char} {ts : List (List Char × List Char)}
    {tail : List Char} (h : Spaced (t :: ts) tail) : Stops (spread ts tail) := by
  intro c hc
  cases ts with
  | nil => exact h.tail c (List.mem_of_head? hc)
  | cons p ts =>
    obtain ⟨gap, token⟩ := p
    cases gap with
    | nil => exact absurd rfl (h.apart ([], token) List.mem_cons_self)
    | cons d gap =>
      obtain rfl : d = c := by simpa [spread] using hc
      exact h.rest.blank _ List.mem_cons_self d List.mem_cons_self

theorem tokensOf_spread {ts : List (List Char × List Char)} {tail : List Char}
    (h : Spaced ts tail) (ht : ∀ p ∈ ts, Pieces p.2 ∧ p.2 ≠ []) :
    tokensOf (spread ts tail) = ts.map (·.2) := by
  induction ts with
  | nil =>
    have hblank := tokensOf_blanks h.tail []
    rw [List.append_nil] at hblank
    rw [spread, List.flatMap_nil, List.nil_append, hblank, tokensOf, List.map_nil]
  | cons p ts ih =>
    rw [List.forall_mem_cons] at ht
    have hspread : spread (p :: ts) tail = p.1 ++ (p.2 ++ spread ts tail) := by simp [spread]
    rw [hspread, tokensOf_blanks (h.blank p List.mem_cons_self),
      tokensOf_token ht.1.1 ht.1.2 h.stops, ih h.rest ht.2, List.map_cons]

theorem stops_space (s : List Char) : Stops (' ' :: s) := by
  rintro c hc
  cases hc
  decide

theorem tokensOf_space (s : List Char) : tokensOf (' ' :: s) = tokensOf s :=
  tokensOf_blanks (forall_mem_of_all (by decide) : ∀ c ∈ [' '], isBlank c) s

theorem tokensOf_joinWith {ts : List (List Char)} (h : ∀ t ∈ ts, Pieces t ∧ t ≠ []) :
    tokensOf (joinWith [' '] ts) = ts := by
  induction ts with
  | nil => rw [joinWith, tokensOf]
  | cons t ts ih =>
    rw [List.forall_mem_cons] at h
    cases ts with
    | nil =>
      have hstops : Stops [] := by
        rintro c hc
        cases hc
      have hlast := tokensOf_token h.1.1 h.1.2 hstops
      rwa [List.append_nil, tokensOf] at hlast
    | cons u us =>
      rw [joinWith_cons (List.cons_ne_nil u us), List.singleton_append,
        tokensOf_token h.1.1 h.1.2 (stops_space _), tokensOf_space, ih h.2]

/-! ## Pairs -/

theorem splitPair_of_name {token : List Char} (h : ∀ c ∈ token, isKeyChar c) :
    splitPair token = (token, none) := by
  have hdrop : token.dropWhile isKeyChar = [] := List.dropWhile_eq_nil_iff.mpr h
  unfold splitPair
  rw [hdrop]
  split
  · next heq => cases heq
  · rfl

theorem splitPair_of_pair {key value : List Char} (hne : key ≠ []) (hk : ∀ c ∈ key, isKeyChar c)
    (hv : '"' ∉ value) : splitPair (key ++ '=' :: '"' :: value ++ ['"']) = (key, some value) := by
  have hequals : isKeyChar '=' = false := by decide
  have htake : (key ++ '=' :: '"' :: value ++ ['"']).takeWhile isKeyChar = key := by
    rw [List.append_assoc, List.takeWhile_append_of_pos hk, List.cons_append,
      List.takeWhile_cons_of_neg (by simp [hequals]), List.append_nil]
  have hdrop : (key ++ '=' :: '"' :: value ++ ['"']).dropWhile isKeyChar =
      '=' :: '"' :: (value ++ ['"']) := by
    rw [List.append_assoc, List.dropWhile_append_of_pos hk, List.cons_append,
      List.dropWhile_cons_of_neg (by simp [hequals]), List.cons_append]
  have hlast : dropLastBreak ('"' :: (value ++ ['"'])) = '"' :: (value ++ ['"']) := by
    simp [dropLastBreak]
  have hvalue : pairValue? ('"' :: (value ++ ['"'])) = some value := by
    simp [pairValue?, quotedInside?, hv]
  obtain ⟨k, ks, rfl⟩ := List.exists_cons_of_ne_nil hne
  unfold splitPair
  rw [htake, hdrop]
  simp only [hlast, hvalue]

end DocumentMedia.Attribute
