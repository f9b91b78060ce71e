import DocumentMedia.Proofs.Attribute.Apart
import Mathlib.Data.List.Chain

/-! # Tokens and what is dropped between them

A text is cut into its tokens and single characters that are dropped. Nothing else is lost, whatever
quotes are open: the dropped characters are blanks and quotes that occur nowhere behind, so that at
most one quote of each kind is among them. -/
namespace DocumentMedia.Attribute

open DocumentMedia.Text

/-! ## Quoted segments -/

/-- What may stand between two quotes `q`: other characters, and quotes `q` behind a backslash. -/
inductive Inside (q : Char) : List Char → Prop where
  | nil : Inside q []
  | other {c s} (hc : c ≠ q) (h : Inside q s) : Inside q (c :: s)
  | escaped {s} (h : Inside q s) : Inside q ('\\' :: q :: s)

/-- Characters that are neither blanks nor quotes, and quoted segments. -/
inductive Segments : List Char → Prop where
  | nil : Segments []
  | plain {c s} (hb : isBlank c = false) (hq : isQuote c = false) (h : Segments s) :
      Segments (c :: s)
  | quoted {q inside s} (hq : isQuote q = true) (hi : Inside q inside) (h : Segments s) :
      Segments (q :: inside ++ q :: s)

section

variable {q : Char} {s inside rest piece : List Char}

/-- What is closed is a text that may stand between quotes, and the closing quote. -/
theorem inside_of_closing (hq : q ≠ '\\') (h : closing q s = some (inside, rest)) :
    ∃ body, inside = body ++ [q] ∧ Inside q body := by
  fun_induction closing q s generalizing inside rest with
  | case1 => cases h
  | case2 =>
    cases h
    exact ⟨[], rfl, .nil⟩
  | case3 => cases h
  | case4 =>
    cases h
    exact ⟨[], rfl, .nil⟩
  | case5 cs inside' rest' hclosing hne ih =>
    cases h
    obtain ⟨body, rfl, hbody⟩ := ih hclosing
    exact ⟨'\\' :: q :: body, rfl, .escaped hbody⟩
  | case6 cs hclosing hne ih =>
    cases h
    exact ⟨['\\'], rfl, .other hq.symm .nil⟩
  | case7 d cs hd hne ih =>
    obtain ⟨⟨inside', rest'⟩, hclosing, he⟩ := Option.map_eq_some_iff.mp h
    cases he
    obtain ⟨body, rfl, hbody⟩ := ih hclosing
    exact ⟨'\\' :: d :: body, rfl, .other hq.symm (.other hd hbody)⟩
  | case8 c d cs hc hb ih =>
    obtain ⟨⟨inside', rest'⟩, hclosing, he⟩ := Option.map_eq_some_iff.mp h
    cases he
    obtain ⟨body, rfl, hbody⟩ := ih hclosing
    exact ⟨c :: body, rfl, .other hc hbody⟩

/-- A quote is closed where the same quote occurs once more, escaped or not. -/
theorem notMem_of_closing_eq_none (h : closing q s = none) : q ∉ s := by
  fun_induction closing q s with
  | case1 => exact List.not_mem_nil
  | case2 => cases h
  | case3 c hc => simpa using Ne.symm hc
  | case4 => cases h
  | case5 => cases h
  | case6 => cases h
  | case7 d cs hd hne ih =>
    have hrest := ih (Option.map_eq_none_iff.mp h)
    simp [hrest, Ne.symm hd, Ne.symm hne]
  | case8 c d cs hc hb ih =>
    have hrest := ih (Option.map_eq_none_iff.mp h)
    rw [List.mem_cons, not_or]
    exact ⟨Ne.symm hc, hrest⟩

theorem closing_eq_none_iff : closing q s = none ↔ q ∉ s :=
  ⟨notMem_of_closing_eq_none, closing_of_notMem⟩

theorem segments_of_piece? (h : piece? s = some (piece, rest)) {more : List Char}
    (hmore : Segments more) : Segments (piece ++ more) := by
  cases s with
  | nil => cases h
  | cons c cs =>
    by_cases hquote : isQuote c
    · simp only [piece?, hquote, if_true] at h
      obtain ⟨⟨inside, rest'⟩, hclosing, he⟩ := Option.map_eq_some_iff.mp h
      cases he
      obtain ⟨body, rfl, hbody⟩ := inside_of_closing (not_escape_of_isQuote hquote) hclosing
      rw [List.cons_append, List.append_assoc]
      exact .quoted hquote hbody hmore
    · by_cases hblank : isBlank c
      · simp [piece?, hquote, hblank] at h
      · simp only [piece?, hquote, hblank, Bool.false_eq_true, if_false] at h
        cases h
        exact .plain (by simpa using hblank) (by simpa using hquote) hmore

/-- Where no token begins stands a blank, or a quote that occurs nowhere behind. -/
theorem dropped_of_piece?_eq_none {c : Char} (h : piece? (c :: s) = none) :
    isBlank c = true ∨ isQuote c = true ∧ c ∉ s := by
  by_cases hquote : isQuote c
  · simp only [piece?, hquote, if_true, Option.map_eq_none_iff] at h
    exact Or.inr ⟨hquote, closing_eq_none_iff.mp h⟩
  · by_cases hblank : isBlank c
    · exact Or.inl hblank
    · simp [piece?, hquote, hblank] at h

theorem segments_takeToken (s : List Char) : Segments (takeToken s).1 := by
  match hpiece : piece? s with
  | none =>
    rw [takeToken_of_none hpiece]
    exact .nil
  | some (piece, rest) =>
    have hlength := length_of_piece? hpiece
    rw [takeToken_of_some hpiece]
    exact segments_of_piece? hpiece (segments_takeToken rest)
termination_by s.length

/-- A token goes on as long as it can. -/
theorem piece?_takeToken (s : List Char) : piece? (takeToken s).2 = none := by
  match hpiece : piece? s with
  | none =>
    rw [takeToken_of_none hpiece]
    exact hpiece
  | some (piece, rest) =>
    have hlength := length_of_piece? hpiece
    rw [takeToken_of_some hpiece]
    exact piece?_takeToken rest
termination_by s.length

theorem takeToken_eq_nil_iff : (takeToken s).1 = [] ↔ piece? s = none := by
  constructor
  · intro hnone
    cases hpiece : piece? s with
    | none => rfl
    | some p =>
      rw [takeToken_of_some hpiece, List.append_eq_nil_iff] at hnone
      exact absurd hnone.1 (append_of_piece? hpiece).2
  · intro hnone
    rw [takeToken_of_none hnone]

end

/-! ## Parts of a text -/

inductive Part where
  | token (t : List Char)
  | dropped (c : Char)
  deriving DecidableEq, Repr

namespace Part

def text : Part → List Char
  | token t => t
  | dropped c => [c]

def token? : Part → Option (List Char)
  | token t => some t
  | dropped _ => none

end Part

/-- A text in parts: tokens, none of them right behind another one, and dropped characters, each a
blank or the last quote of its kind. -/
structure Cuts (s : List Char) (parts : List Part) : Prop where
  whole : parts.flatMap Part.text = s
  tokens : ∀ t, Part.token t ∈ parts → t ≠ [] ∧ Segments t
  apart : parts.IsChain fun a b => a.token? = none ∨ b.token? = none
  dropped : ∀ before c behind, parts = before ++ Part.dropped c :: behind →
    isBlank c = true ∨ isQuote c = true ∧ c ∉ behind.flatMap Part.text

section

variable {s t : List Char} {c : Char} {parts : List Part}

theorem Cuts.nil : Cuts [] [] :=
  ⟨rfl, nofun, .nil, fun before c behind h => by cases before <;> cases h⟩

theorem Cuts.drop (h : Cuts s parts) (hc : isBlank c = true ∨ isQuote c = true ∧ c ∉ s) :
    Cuts (c :: s) (.dropped c :: parts) where
  whole := congrArg (c :: ·) h.whole
  tokens := by
    intro t ht
    rcases List.mem_cons.mp ht with he | ht
    · cases he
    · exact h.tokens t ht
  apart := by
    rw [List.isChain_cons]
    exact ⟨fun _ _ => Or.inl rfl, h.apart⟩
  dropped := by
    intro before d behind heq
    cases before with
    | nil =>
      cases heq
      rwa [h.whole]
    | cons p before =>
      cases heq
      exact h.dropped before d behind rfl

theorem Cuts.take (h : Cuts s parts) (ht : t ≠ [] ∧ Segments t)
    (hnext : ∀ p ∈ parts.head?, p.token? = none) : Cuts (t ++ s) (.token t :: parts) where
  whole := congrArg (t ++ ·) h.whole
  tokens := by
    intro t' ht'
    rcases List.mem_cons.mp ht' with he | ht'
    · cases he
      exact ht
    · exact h.tokens t' ht'
  apart := by
    rw [List.isChain_cons]
    exact ⟨fun p hp => Or.inr (hnext p hp), h.apart⟩
  dropped := by
    intro before d behind heq
    cases before with
    | nil => cases heq
    | cons p before =>
      cases heq
      exact h.dropped before d behind rfl

/-- A quote that is dropped is the last one of its kind, so there is only one. -/
theorem Cuts.count_quote (h : Cuts s parts) (hc : isQuote c = true) :
    parts.count (.dropped c) ≤ 1 := by
  by_cases hmem : Part.dropped c ∈ parts
  · obtain ⟨before, behind, rfl, hbefore⟩ := List.eq_append_cons_of_mem hmem
    have hbehind : Part.dropped c ∉ behind := by
      intro hagain
      rcases h.dropped before c behind rfl with hblank | ⟨-, hlast⟩
      · rw [not_quote_of_blank hblank] at hc
        cases hc
      · exact hlast (List.mem_flatMap.mpr ⟨.dropped c, hagain, List.mem_singleton_self c⟩)
    rw [List.count_append, List.count_cons_self, List.count_eq_zero.mpr hbefore,
      List.count_eq_zero.mpr hbehind]
  · rw [List.count_eq_zero.mpr hmem]
    exact Nat.zero_le 1

/-- By induction on what is left behind a dropped character or a token. No token begins where one has
ended, so the part behind it is none. -/
theorem exists_cuts (s : List Char) : ∃ parts, Cuts s parts ∧
    parts.filterMap Part.token? = tokensOf s ∧
    (piece? s = none → ∀ p ∈ parts.head?, p.token? = none) := by
  induction s using tokens_induction with
  | nil => exact ⟨[], .nil, by rw [tokensOf]; rfl, nofun⟩
  | skip c cs hnone ih =>
    obtain ⟨parts, hcuts, htokens, -⟩ := ih
    have hc := dropped_of_piece?_eq_none (takeToken_eq_nil_iff.mp hnone)
    refine ⟨.dropped c :: parts, hcuts.drop hc, ?_, ?_⟩
    · rw [tokensOf_skip hnone, ← htokens]
      rfl
    · intro _ p hp
      cases hp
      rfl
  | take s hsome ih =>
    obtain ⟨parts, hcuts, htokens, hnext⟩ := ih
    have htake := hcuts.take ⟨hsome, segments_takeToken s⟩ (hnext (piece?_takeToken s))
    rw [append_takeToken] at htake
    refine ⟨.token (takeToken s).1 :: parts, htake, ?_, ?_⟩
    · rw [tokensOf_take rfl hsome, ← htokens]
      rfl
    · intro hnone
      exact absurd (takeToken_eq_nil_iff.mpr hnone) hsome

end

/-- Every text, with ASCII quotes, is cut into its tokens and dropped characters. At most one double
quote and one single quote are dropped. -/
theorem splitTokens_cuts (s : List Char) : ∃ parts, Cuts (plainQuotes s) parts ∧
    parts.filterMap Part.token? = splitTokens s ∧
    parts.count (.dropped '"') ≤ 1 ∧ parts.count (.dropped '\'') ≤ 1 := by
  obtain ⟨parts, hcuts, htokens, -⟩ := exists_cuts (plainQuotes s)
  exact ⟨parts, hcuts, htokens, hcuts.count_quote (by decide), hcuts.count_quote (by decide)⟩

end DocumentMedia.Attribute
