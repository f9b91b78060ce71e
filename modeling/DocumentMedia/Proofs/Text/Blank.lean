import DocumentMedia.Text.Alnum
import DocumentMedia.Text.Blank
import Mathlib.Data.List.DropRight

/-! # Stripped texts and words

A text is trimmed when no blank stands at its ends. Stripping yields trimmed texts and keeps them
as they are. The pieces of a text hold no separator, and words that were joined are its words. -/
namespace DocumentMedia.Text

/-- No blank stands at either end. -/
structure Trimmed (s : List Char) : Prop where
  head : ∀ c ∈ s.head?, isBlank c = false
  last : ∀ c ∈ s.getLast?, isBlank c = false

instance (s : List Char) : Decidable (Trimmed s) :=
  decidable_of_iff (s.head?.all (!isBlank ·) = true ∧ s.getLast?.all (!isBlank ·) = true)
    ⟨fun h => ⟨by simpa [Option.all_eq_true] using h.1, by simpa [Option.all_eq_true] using h.2⟩,
      fun h => ⟨by simpa [Option.all_eq_true] using h.head, by
        simpa [Option.all_eq_true] using h.last⟩⟩

/-- What holds of all characters of a text is checked on these, not on all characters there are. -/
instance decidableCharacters (p : Char → Prop) [DecidablePred p] (s : List Char) :
    Decidable (∀ c ∈ s, p c) :=
  List.decidableBAll p s

theorem forall_mem_of_all {α : Type} {p : α → Prop} [DecidablePred p] {s : List α}
    (h : s.all (fun c => decide (p c)) = true) : ∀ c ∈ s, p c := by
  simpa using h

theorem forall_mem_of_all₂ {α β : Type} {r : α → β → Prop} [∀ a b, Decidable (r a b)] {s : List α}
    {t : α → List β} (h : s.all (fun a => (t a).all fun b => decide (r a b)) = true) :
    ∀ a ∈ s, ∀ b ∈ t a, r a b := by
  simpa using h

theorem stripEnd_eq (s : List Char) : stripEnd s = s.rdropWhile isBlank := rfl

theorem stripStart_of_head {s : List Char} (h : ∀ c ∈ s.head?, isBlank c = false) :
    stripStart s = s := by
  cases s with
  | nil => rfl
  | cons c cs => simp [stripStart, h c rfl]

theorem stripEnd_of_last {s : List Char} (h : ∀ c ∈ s.getLast?, isBlank c = false) :
    stripEnd s = s := by
  rw [stripEnd_eq, List.rdropWhile_eq_self_iff]
  intro hne
  simpa using h _ (List.getLast?_eq_getLast_of_ne_nil hne)

/-- Characters are dropped at most up to one that is to be kept. -/
theorem rdropWhile_solid {p : Char → Bool} {c : Char} (hc : p c = false) (s rest : List Char) :
    (s ++ c :: rest).rdropWhile p = s ++ c :: rest.rdropWhile p := by
  simp [List.rdropWhile, List.dropWhile_append, hc]

theorem stripEnd_solid {c : Char} (hc : isBlank c = false) (s rest : List Char) :
    stripEnd (s ++ c :: rest) = s ++ c :: stripEnd rest :=
  rdropWhile_solid hc s rest

theorem Trimmed.strip {s : List Char} (h : Trimmed s) : strip s = s := by
  rw [Text.strip, stripStart_of_head h.head, stripEnd_of_last h.last]

theorem trimmed_strip (s : List Char) : Trimmed (strip s) := by
  constructor
  · intro c hc
    -- What remains of the end is a part of what begins without a blank.
    have hpre : Text.strip s <+: stripStart s := List.rdropWhile_prefix isBlank _
    cases hs : Text.strip s with
    | nil => simp [hs] at hc
    | cons d ds =>
      obtain ⟨rest, hrest⟩ := hpre
      rw [hs] at hc hrest
      obtain rfl : d = c := by simpa using hc
      have hhead := List.head?_dropWhile_not isBlank s
      rw [show s.dropWhile isBlank = stripStart s from rfl, ← hrest] at hhead
      simpa using hhead
  · intro c hc
    have hne : Text.strip s ≠ [] := by
      intro h
      simp [h] at hc
    have hlast := List.rdropWhile_last_not isBlank (stripStart s) hne
    rw [List.getLast?_eq_getLast_of_ne_nil hne] at hc
    rw [← Option.some.inj hc]
    exact Bool.eq_false_iff.mpr hlast

/-- Only blanks are dropped at the ends of a text. -/
theorem exists_strip (s : List Char) : ∃ before after, s = before ++ (strip s ++ after) ∧
    (∀ c ∈ before, isBlank c) ∧ ∀ c ∈ after, isBlank c := by
  have hend : strip s ++ ((stripStart s).reverse.takeWhile isBlank).reverse = stripStart s := by
    rw [strip, stripEnd, ← List.reverse_append, List.takeWhile_append_dropWhile,
      List.reverse_reverse]
  refine ⟨s.takeWhile isBlank, ((stripStart s).reverse.takeWhile isBlank).reverse, ?_,
    fun c => List.mem_takeWhile_imp, fun c hc => ?_⟩
  · rw [hend, stripStart, List.takeWhile_append_dropWhile]
  · exact List.mem_takeWhile_imp (List.mem_reverse.mp hc)

theorem infix_strip (s : List Char) : strip s <:+: s := by
  obtain ⟨before, after, hs, -⟩ := exists_strip s
  exact ⟨before, after, by rw [List.append_assoc, ← hs]⟩

theorem strip_strip (s : List Char) : strip (strip s) = strip s := (trimmed_strip s).strip

theorem isAllBlank_strip {s : List Char} (h : strip s ≠ []) : isAllBlank (strip s) = false := by
  cases hs : strip s with
  | nil => exact absurd hs h
  | cons c cs =>
    have hc := (trimmed_strip s).head c (by simp [hs])
    simp [isAllBlank, hc]

/-! ## Blanks and letters -/

/-- The numbers of all blanks. -/
def blankNumbers : List Nat :=
  [9, 10, 11, 12, 13, 28, 29, 30, 31, 32, 0x85, 0xA0, 0x1680, 0x2000, 0x2001, 0x2002, 0x2003,
    0x2004, 0x2005, 0x2006, 0x2007, 0x2008, 0x2009, 0x200A, 0x2028, 0x2029, 0x202F, 0x205F, 0x3000]

theorem blankNumbers_of_blank {c : Char} (h : isBlank c = true) : c.toNat ∈ blankNumbers := by
  simp only [isBlank, Bool.or_eq_true, Bool.and_eq_true, decide_eq_true_eq, beq_iff_eq] at h
  simp only [blankNumbers, List.mem_cons, List.not_mem_nil, or_false]
  omega

theorem isWord_of_blank {c : Char} (h : isBlank c = true) : isWord c = false := by
  have hall : ∀ n ∈ blankNumbers, isWord (Char.ofNat n) = false := by decide +kernel
  rw [← Char.ofNat_toNat c]
  exact hall _ (blankNumbers_of_blank h)

/-! ## Runs of blanks -/

def Blanks (s : List Char) : Prop := ∀ c ∈ s, isBlank c = true

instance (s : List Char) : Decidable (Blanks s) :=
  decidable_of_iff (s.all isBlank = true) List.all_eq_true

theorem stripStart_blanks {gap s : List Char} (h : Blanks gap) :
    stripStart (gap ++ s) = stripStart s :=
  List.dropWhile_append_of_pos h

theorem stripStart_solid {gap s : List Char} {c : Char} (h : Blanks gap) (hc : isBlank c = false) :
    stripStart (gap ++ c :: s) = c :: s := by
  rw [stripStart_blanks h]
  exact stripStart_of_head fun d hd => by cases hd; exact hc

theorem stripEnd_blanks {s trail : List Char} (h : Blanks trail) :
    stripEnd (s ++ trail) = stripEnd s := by
  unfold stripEnd
  rw [List.reverse_append, List.dropWhile_append_of_pos]
  exact fun c hc => h c (List.mem_reverse.mp hc)

theorem isEmpty_strip (s : List Char) : (strip s).isEmpty = isAllBlank s := by
  obtain ⟨before, behind, hs, hbefore, hbehind⟩ := exists_strip s
  cases hstrip : strip s with
  | nil =>
    rw [hstrip, List.nil_append] at hs
    have hall : isAllBlank s = true := by
      rw [isAllBlank_iff, hs]
      exact fun c hc => (List.mem_append.mp hc).elim (hbefore c) (hbehind c)
    rw [hall]
    rfl
  | cons c cs =>
    have hc := (trimmed_strip s).head c (by simp [hstrip])
    have hall : isAllBlank s = false := by
      rw [hs, hstrip]
      simp [isAllBlank, hc]
    rw [hall]
    rfl

/-- What is left when the blanks in front are dropped, with these blanks. -/
theorem exists_stripStart (s : List Char) : ∃ gap, Blanks gap ∧ s = gap ++ stripStart s :=
  ⟨s.takeWhile isBlank, fun _ hc => List.mem_takeWhile_imp hc,
    (List.takeWhile_append_dropWhile (p := isBlank)).symm⟩

theorem exists_stripEnd (s : List Char) : ∃ behind, Blanks behind ∧ s = stripEnd s ++ behind := by
  refine ⟨(s.reverse.takeWhile isBlank).reverse, fun c hc => ?_, ?_⟩
  · exact List.mem_takeWhile_imp (List.mem_reverse.mp hc)
  · rw [stripEnd, ← List.reverse_append, List.takeWhile_append_dropWhile, List.reverse_reverse]

/-! ## Runs -/

section

variable {p : Char → Bool} {s : List Char} {stop : Char}

theorem takeWhile_run (h : ∀ c ∈ s, p c = true) (hstop : p stop = false) (rest : List Char) :
    (s ++ stop :: rest).takeWhile p = s := by
  rw [List.takeWhile_append_of_pos h, List.takeWhile_cons, hstop]
  simp

theorem dropWhile_run (h : ∀ c ∈ s, p c = true) (hstop : p stop = false) (rest : List Char) :
    (s ++ stop :: rest).dropWhile p = stop :: rest := by
  rw [List.dropWhile_append_of_pos h, List.dropWhile_cons, hstop]
  simp

/-- The characters of a text without `stop` pass as other than `stop`. -/
theorem ne_of_notMem (h : stop ∉ s) : ∀ c ∈ s, decide (c ≠ stop) = true := by
  intro c hc
  simpa using fun he : c = stop => h (he ▸ hc)

end

/-! ## Pieces -/

theorem splitWhere_eq_splitOnP (p : Char → Bool) (s : List Char) :
    splitWhere p s = s.splitOnP p := by
  induction s with
  | nil => rfl
  | cons c s ih =>
    rw [splitWhere, ih, List.splitOnP_cons_eq_if_modifyHead]
    split
    · rfl
    · cases hs : s.splitOnP p with
      | nil => exact absurd hs (List.splitOnP_ne_nil p s)
      | cons w ws => rfl

theorem splitWhere_ne_nil (p : Char → Bool) (s : List Char) : splitWhere p s ≠ [] := by
  rw [splitWhere_eq_splitOnP]
  exact List.splitOnP_ne_nil p s

theorem splitWhere_append (p : Char → Bool) (s : List Char) (c : Char) (r : List Char)
    (hc : p c = true) : splitWhere p (s ++ c :: r) = splitWhere p s ++ splitWhere p r := by
  simp only [splitWhere_eq_splitOnP, List.splitOnP_append_cons s r hc]

theorem splitWhere_of_none (p : Char → Bool) (s : List Char) (h : ∀ c ∈ s, p c = false) :
    splitWhere p s = [s] := by
  rw [splitWhere_eq_splitOnP, List.splitOnP_eq_singleton h]

theorem splitWhere_pieces (p : Char → Bool) (s : List Char) :
    ∀ w ∈ splitWhere p s, ∀ c ∈ w, p c = false := by
  induction s with
  | nil => simp [splitWhere]
  | cons a s ih =>
    simp only [splitWhere]
    split
    · intro w hw
      rcases List.mem_cons.mp hw with rfl | hw
      · simp
      · exact ih w hw
    · next ha =>
      have ha : p a = false := by simpa using ha
      split
      · intro w hw c hc
        rw [List.mem_singleton.mp hw, List.mem_singleton] at hc
        exact hc ▸ ha
      · next w ws hs =>
        rw [hs] at ih
        intro v hv c hc
        rcases List.mem_cons.mp hv with rfl | hv
        · rcases List.mem_cons.mp hc with rfl | hc
          · exact ha
          · exact ih w (by simp) c hc
        · exact ih v (by simp [hv]) c hc

theorem dropHead?_eq_some {head s rest : List Char} :
    dropHead? head s = some rest ↔ s = head ++ rest := by
  induction head generalizing s with
  | nil => simp [dropHead?]
  | cons h head ih =>
    cases s with
    | nil => simp [dropHead?]
    | cons c s =>
      rw [dropHead?, List.cons_append, List.cons.injEq, @eq_comm _ c h, ← ih]
      split <;> simp [*]

/-! ## Words -/

/-- A text without blanks that is not empty. -/
def Unbroken (w : List Char) : Prop := w ≠ [] ∧ ∀ c ∈ w, isBlank c = false

instance (w : List Char) : Decidable (Unbroken w) :=
  inferInstanceAs (Decidable (_ ∧ _))

theorem unbroken_of_mem_words {s w : List Char} (h : w ∈ words s) : Unbroken w := by
  obtain ⟨hw, hne⟩ := List.mem_filter.mp h
  exact ⟨by simpa using hne, splitWhere_pieces _ _ w hw⟩

theorem words_append {s : List Char} {c : Char} (hc : isBlank c = true) (r : List Char) :
    words (s ++ c :: r) = words s ++ words r := by
  rw [words, splitWhere_append _ _ _ _ hc, List.filter_append, words, words]

theorem Unbroken.words {w : List Char} (h : Unbroken w) : words w = [w] := by
  rw [Text.words, splitWhere_of_none _ w h.2]
  simp [h.1]

theorem joinWith_cons {ws : List (List Char)} (h : ws ≠ []) (sep w : List Char) :
    joinWith sep (w :: ws) = w ++ (sep ++ joinWith sep ws) := by
  rw [joinWith, List.append_assoc]
  exact h

theorem mem_joinWith {sep : List Char} {ws : List (List Char)} {c : Char}
    (hc : c ∈ joinWith sep ws) : c ∈ sep ∨ ∃ w ∈ ws, c ∈ w := by
  induction ws with
  | nil => cases hc
  | cons w ws ih =>
    cases ws with
    | nil => exact Or.inr ⟨w, List.mem_cons_self, hc⟩
    | cons v vs =>
      rw [joinWith_cons (List.cons_ne_nil v vs), List.mem_append, List.mem_append] at hc
      rcases hc with hc | hc | hc
      · exact Or.inr ⟨w, List.mem_cons_self, hc⟩
      · exact Or.inl hc
      · exact (ih hc).imp_right fun ⟨u, hu, hcu⟩ => ⟨u, List.mem_cons_of_mem _ hu, hcu⟩

theorem infix_joinWith {sep s : List Char} {ss : List (List Char)} (h : s ∈ ss) :
    s <:+: joinWith sep ss := by
  induction ss with
  | nil => cases h
  | cons t ts ih =>
    rcases List.mem_cons.mp h with rfl | h
    · cases ts with
      | nil => exact List.infix_refl _
      | cons u us =>
        rw [joinWith_cons (List.cons_ne_nil u us)]
        exact (List.prefix_append _ _).isInfix
    · rw [joinWith_cons (List.ne_nil_of_mem h), ← List.append_assoc]
      exact (ih h).trans (List.suffix_append _ _).isInfix

/-- The words of texts that were joined by spaces are those of each text in turn. -/
theorem words_joinWith_space (ss : List (List Char)) :
    words (joinWith [' '] ss) = ss.flatMap words := by
  induction ss with
  | nil => rfl
  | cons s ss ih =>
    cases ss with
    | nil => simp [joinWith]
    | cons t ts =>
      rw [joinWith_cons (List.cons_ne_nil t ts), List.singleton_append, words_append (by decide),
        ih]
      rfl

/-- Words that were joined by spaces are the words of the text. -/
theorem words_joinWith {ws : List (List Char)} (h : ∀ w ∈ ws, Unbroken w) :
    words (joinWith [' '] ws) = ws := by
  rw [words_joinWith_space]
  induction ws with
  | nil => rfl
  | cons w ws ih =>
    rw [List.forall_mem_cons] at h
    rw [List.flatMap_cons, h.1.words, ih h.2, List.singleton_append]

theorem intercalate_cons (sep : Char) (x : List Char) (xs : List (List Char)) :
    [sep].intercalate (x :: xs) = x ++ xs.flatMap (sep :: ·) := by
  induction xs generalizing x with
  | nil => simp
  | cons y ys ih =>
    rw [List.intercalate_cons_cons, ih, List.flatMap_cons]
    simp

end DocumentMedia.Text
