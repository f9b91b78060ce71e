import DocumentMedia.Proofs.Attribute.Token

/-! # Tokens of texts that stand side by side

The tokens of two texts with a blank between them are those of either, unless a quote that is open
behind the first one is closed in the second. -/
namespace DocumentMedia.Attribute

open DocumentMedia.Text

/-- The quote that is open behind a text, if there is one; `q?` is the one that is open before it.
Inside of quotes a backslash takes the character behind it along. -/
def openAfter : Option Char → List Char → Option Char
  | q?, [] => q?
  | none, c :: cs => openAfter (if isQuote c then some c else none) cs
  | some q, [c] => if c = q then none else some q
  | some q, c :: d :: cs =>
    if c = q then openAfter none (d :: cs)
    else if c = '\\' then openAfter (some q) cs
    else openAfter (some q) (d :: cs)

/-- All quotes of a text are closed in it. -/
def Closed (s : List Char) : Prop := openAfter none s = none

instance (s : List Char) : Decidable (Closed s) := inferInstanceAs (Decidable (_ = _))

/-- No quote of a text is closed in another one behind it: all are closed before, or the other one
has no quotes of their kinds. -/
def Apart (s t : List Char) : Prop := Closed s ∨ ∀ c ∈ s, isQuote c → c ∉ t

instance (s t : List Char) : Decidable (Apart s t) := inferInstanceAs (Decidable (_ ∨ _))

/-! ## Closing quotes -/

section

variable {q c d : Char} {s t : List Char}

theorem closing_quote (q : Char) (s : List Char) : closing q (q :: s) = some ([q], s) := by
  cases s <;> simp [closing]

theorem closing_plain (hc : c ≠ q) (hb : c ≠ '\\') (s : List Char) :
    closing q (c :: s) = (closing q s).map fun p => (c :: p.1, p.2) := by
  cases s <;> simp [closing, hc, hb]

theorem closing_of_notMem (h : q ∉ s) : closing q s = none := by
  fun_induction closing q s with
  | case1 | case3 => rfl
  | case2 | case4 | case5 | case6 => simp at h
  | case7 d cs _ _ ih =>
    rw [ih fun hq => h (by simp [hq])]
    rfl
  | case8 c d cs _ _ ih =>
    rw [ih fun hq => h (List.mem_cons_of_mem c hq)]
    rfl

/-- A text without the quote behind another one does not change what is closed there. -/
theorem closing_append_of_notMem (hq : q ≠ '\\') (h : q ∉ t) :
    closing q (s ++ t) = (closing q s).map fun p => (p.1, p.2 ++ t) := by
  fun_induction closing q s with
  | case1 => exact closing_of_notMem h
  | case2 => exact closing_quote q t
  | case3 c hc => exact closing_of_notMem (by simp [h, Ne.symm hc])
  | case4 => exact closing_quote q _
  | case5 cs inside rest hclosing hne ih =>
    rw [hclosing] at ih
    simp [closing, hq.symm, ih]
  | case6 cs hclosing hne ih =>
    rw [hclosing] at ih
    simp [closing, hq.symm, ih]
  | case7 d cs hd hne ih =>
    simp only [List.cons_append, closing, hq.symm, hd, if_false, if_true, ih]
    cases closing q cs <;> rfl
  | case8 c d cs hc hb ih =>
    rw [List.cons_append, closing_plain hc hb, ih]
    cases closing q (d :: cs) <;> rfl

theorem closing_escape (hq : q ≠ '\\') {inside rest : List Char}
    (h : closing q s = some (inside, rest)) (d : Char) :
    closing q ('\\' :: d :: s) = some ('\\' :: d :: inside, rest) := by
  by_cases hd : d = q <;> simp [closing, hq.symm, hd, h]

/-- A quote that is not open behind a text is closed in it, whatever stands behind the text. -/
theorem closing_of_closed (hq : q ≠ '\\') {s : List Char} (h : openAfter (some q) s = none) :
    ∃ inside rest, (∀ t, closing q (s ++ t) = some (inside, rest ++ t)) ∧ Closed rest := by
  match s, h with
  | [], h => cases h
  | [c], h =>
    rw [openAfter] at h
    split at h
    · next hc => exact ⟨[q], [], fun t => hc ▸ closing_quote q t, rfl⟩
    · cases h
  | c :: d :: cs, h =>
    rw [openAfter] at h
    split at h
    · next hc => exact ⟨[q], d :: cs, fun t => hc ▸ closing_quote q _, h⟩
    · next hc =>
      split at h
      · next hb =>
        obtain ⟨inside, rest, hclosing, hrest⟩ := closing_of_closed hq h
        refine ⟨c :: d :: inside, rest, fun t => ?_, hrest⟩
        rw [hb]
        exact closing_escape hq (hclosing t) d
      · next hb =>
        obtain ⟨inside, rest, hclosing, hrest⟩ := closing_of_closed hq h
        refine ⟨c :: inside, rest, fun t => ?_, hrest⟩
        rw [List.cons_append, closing_plain hc hb, hclosing]
        rfl
termination_by s.length

end

/-! ## Splitting -/

section

variable {c : Char} {s t : List Char}

theorem not_escape_of_isQuote (h : isQuote c) : c ≠ '\\' := by
  rintro rfl
  revert h
  decide

/-- A piece at the start of a text is one whatever stands behind the text; where there is none, the
first character can be passed over. -/
theorem piece?_append (h : Apart s t) (ht : Stops t) :
    (Attribute.piece? s = none ∧ Attribute.piece? (s ++ t) = none ∧ Apart s.tail t) ∨
      ∃ piece rest, Attribute.piece? s = some (piece, rest) ∧
        Attribute.piece? (s ++ t) = some (piece, rest ++ t) ∧ Apart rest t := by
  cases s with
  | nil => exact Or.inl ⟨rfl, ht.piece?, h⟩
  | cons c cs =>
    rw [List.cons_append]
    simp only [Attribute.piece?]
    by_cases hquote : isQuote c
    · have hq := not_escape_of_isQuote hquote
      simp only [hquote, if_true]
      by_cases hclosed : Closed (c :: cs)
      · rw [Closed, openAfter, if_pos hquote] at hclosed
        obtain ⟨inside, rest, hclosing, hrest⟩ := closing_of_closed hq hclosed
        have hself := hclosing []
        rw [List.append_nil, List.append_nil] at hself
        exact Or.inr ⟨c :: inside, rest, by rw [hself]; rfl, by rw [hclosing]; rfl, Or.inl hrest⟩
      · have hkinds := h.resolve_left hclosed
        have hrest : ∀ {r : List Char}, (∀ d ∈ r, d ∈ c :: cs) → Apart r t :=
          fun hsub => Or.inr fun d hd => hkinds d (hsub d hd)
        rw [closing_append_of_notMem hq (hkinds c List.mem_cons_self hquote)]
        cases hclosing : closing c cs with
        | none => exact Or.inl ⟨rfl, rfl, hrest fun d hd => List.mem_cons_of_mem c hd⟩
        | some p =>
          refine Or.inr ⟨c :: p.1, p.2, rfl, rfl, hrest fun d hd => ?_⟩
          rw [← append_of_closing hclosing]
          exact List.mem_cons_of_mem c (List.mem_append_right _ hd)
    · have hcs : Apart cs t := by
        refine h.imp (fun hclosed => ?_) fun hkinds d hd => hkinds d (List.mem_cons_of_mem c hd)
        rwa [Closed, openAfter, if_neg hquote] at hclosed
      simp only [hquote]
      by_cases hblank : isBlank c
      · simp only [hblank, if_true]
        exact Or.inl ⟨rfl, rfl, hcs⟩
      · simp only [hblank]
        exact Or.inr ⟨[c], cs, rfl, rfl, hcs⟩

theorem takeToken_append {s : List Char} (h : Apart s t) (ht : Stops t) :
    takeToken (s ++ t) = ((takeToken s).1, (takeToken s).2 ++ t) ∧ Apart (takeToken s).2 t := by
  rcases piece?_append h ht with ⟨hnone, hnone', -⟩ | ⟨piece, rest, hpiece, hpiece', hrest⟩
  · rw [takeToken_of_none hnone, takeToken_of_none hnone']
    exact ⟨rfl, h⟩
  · have hlength := length_of_piece? hpiece
    obtain ⟨htake, hapart⟩ := takeToken_append hrest ht
    rw [takeToken_of_some hpiece, takeToken_of_some hpiece', htake]
    exact ⟨rfl, hapart⟩
termination_by s.length

theorem apart_tail (h : Apart s t) (ht : Stops t) (hnone : (takeToken s).1 = []) :
    Apart s.tail t := by
  rcases piece?_append h ht with ⟨-, -, htail⟩ | ⟨piece, rest, hpiece, -, -⟩
  · exact htail
  · rw [takeToken_of_some hpiece, List.append_eq_nil_iff] at hnone
    exact absurd hnone.1 (append_of_piece? hpiece).2

/-- The tokens of texts that are apart are those of either. -/
theorem tokensOf_append {s : List Char} (h : Apart s t) (ht : Stops t) :
    tokensOf (s ++ t) = tokensOf s ++ tokensOf t := by
  induction s using tokens_induction with
  | nil => rw [tokensOf, List.nil_append, List.nil_append]
  | skip c cs hnone ih =>
    have hskip : (takeToken (c :: (cs ++ t))).1 = [] := by
      rw [← List.cons_append, (takeToken_append h ht).1, hnone]
    rw [List.cons_append, tokensOf_skip hskip, tokensOf_skip hnone, ih (apart_tail h ht hnone)]
  | take s hsome ih =>
    obtain ⟨htake, hapart⟩ := takeToken_append h ht
    rw [tokensOf_take htake hsome, tokensOf_take rfl hsome, ih hapart, List.cons_append]

theorem tokensOf_strip (s : List Char) : tokensOf (strip s) = tokensOf s := by
  obtain ⟨before, after, hs, hbefore, hafter⟩ := exists_strip s
  have hquotes : Apart (strip s) after := by
    refine Or.inr fun c _ hq hc => ?_
    rw [not_quote_of_blank (hafter c hc)] at hq
    cases hq
  have hnone : tokensOf after = [] := by
    have hblanks := tokensOf_blanks hafter []
    rwa [List.append_nil, tokensOf] at hblanks
  rw [congrArg tokensOf hs, tokensOf_blanks hbefore,
    tokensOf_append hquotes fun c hc => hafter c (List.mem_of_head? hc), hnone, List.append_nil]

end

end DocumentMedia.Attribute
