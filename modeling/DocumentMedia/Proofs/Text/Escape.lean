import DocumentMedia.Proofs.Text.Blank
import DocumentMedia.Text.Escape

/-! # Escaped texts

A text is as it was after escaping only if it has no character that stands for syntax. Escaping adds
no blank at either end. -/
namespace DocumentMedia.Text

/-- Written as an entity between tags. -/
def isTextSpecial (c : Char) : Bool := c = '&' || c = '<' || c = '>'

/-- Written as an entity inside a value. -/
def isValueSpecial (c : Char) : Bool := c = '"' || c = '\'' || isTextSpecial c

theorem escapeTextChar_of_plain {c : Char} (h : isTextSpecial c = false) :
    escapeTextChar c = [c] := by
  simp only [isTextSpecial, Bool.or_eq_false_iff, decide_eq_false_iff_not] at h
  simp [escapeTextChar, h.1.1, h.1.2, h.2]

theorem escapeValueChar_of_plain {c : Char} (h : isValueSpecial c = false) :
    escapeValueChar c = [c] := by
  simp only [isValueSpecial, Bool.or_eq_false_iff, decide_eq_false_iff_not] at h
  simp [escapeValueChar, h.1.1, h.1.2, escapeTextChar_of_plain h.2]

theorem length_escapeTextChar {c : Char} (h : isTextSpecial c = true) :
    1 < (escapeTextChar c).length := by
  simp only [isTextSpecial, Bool.or_eq_true, decide_eq_true_eq] at h
  rcases h with (rfl | rfl) | rfl <;> decide

theorem length_escapeValueChar {c : Char} (h : isValueSpecial c = true) :
    1 < (escapeValueChar c).length := by
  simp only [isValueSpecial, isTextSpecial, Bool.or_eq_true, decide_eq_true_eq] at h
  rcases h with (rfl | rfl) | (rfl | rfl) | rfl <;> decide

section

variable {f : Char → List Char} {special : Char → Bool}
  (hplain : ∀ c, special c = false → f c = [c])
  (hspecial : ∀ c, special c = true → 1 < (f c).length)

include hplain hspecial

theorem length_le_flatMap (s : List Char) : s.length ≤ (s.flatMap f).length := by
  induction s with
  | nil => exact Nat.le_refl 0
  | cons c s ih =>
    rw [List.flatMap_cons, List.length_append, List.length_cons]
    cases hc : special c with
    | false =>
      rw [hplain c hc, List.length_singleton]
      omega
    | true =>
      have := hspecial c hc
      omega

theorem flatMap_eq_self_iff (s : List Char) : s.flatMap f = s ↔ ∀ c ∈ s, special c = false := by
  induction s with
  | nil => simp
  | cons c s ih =>
    rw [List.flatMap_cons, List.forall_mem_cons]
    cases hc : special c with
    | false =>
      rw [hplain c hc, List.singleton_append, List.cons_inj_right]
      simp only [ih, true_and]
    | true =>
      constructor
      · intro h
        have hlength := congrArg List.length h
        have hrest := length_le_flatMap hplain hspecial s
        have hmore := hspecial c hc
        rw [List.length_append, List.length_cons] at hlength
        omega
      · intro h
        cases h.1

end

theorem escapeText_eq_self_iff (s : String) :
    escapeText s = s ↔ ∀ c ∈ s.toList, isTextSpecial c = false := by
  have h := flatMap_eq_self_iff (fun _ => escapeTextChar_of_plain)
    (fun _ => length_escapeTextChar) s.toList
  rw [← h, ← String.toList_inj, escapeText, String.toList_ofList]

theorem escapeValue_eq_self_iff (s : String) :
    escapeValue s = s ↔ ∀ c ∈ s.toList, isValueSpecial c = false := by
  have h := flatMap_eq_self_iff (fun _ => escapeValueChar_of_plain)
    (fun _ => length_escapeValueChar) s.toList
  rw [← h, ← String.toList_inj, escapeValue, String.toList_ofList]

theorem escapeValue_append (a b : String) :
    escapeValue (a ++ b) = escapeValue a ++ escapeValue b := by
  simp [escapeValue]

theorem quote_notMem_escapeValue (s : String) : '"' ∉ (escapeValue s).toList := by
  rw [escapeValue, String.toList_ofList, List.mem_flatMap]
  rintro ⟨c, -, hc⟩
  by_cases hspecial : isValueSpecial c = true
  · revert hc
    simp only [isValueSpecial, isTextSpecial, Bool.or_eq_true, decide_eq_true_eq] at hspecial
    rcases hspecial with (rfl | rfl) | (rfl | rfl) | rfl <;> decide
  · rw [Bool.not_eq_true] at hspecial
    rw [escapeValueChar_of_plain hspecial, List.mem_singleton] at hc
    subst hc
    exact absurd hspecial (by decide)

/-! ## Ends -/

theorem trimmed_escapeTextChar {c : Char} (h : isBlank c = false) : Trimmed (escapeTextChar c) := by
  by_cases hspecial : isTextSpecial c = true
  · simp only [isTextSpecial, Bool.or_eq_true, decide_eq_true_eq] at hspecial
    rcases hspecial with (rfl | rfl) | rfl <;> decide
  · rw [Bool.not_eq_true] at hspecial
    rw [escapeTextChar_of_plain hspecial]
    constructor <;> simpa using h

theorem escapeTextChar_ne_nil (c : Char) : escapeTextChar c ≠ [] := by
  by_cases hspecial : isTextSpecial c = true
  · exact List.ne_nil_of_length_pos (Nat.lt_of_succ_lt (length_escapeTextChar hspecial))
  · rw [Bool.not_eq_true] at hspecial
    rw [escapeTextChar_of_plain hspecial]
    exact List.cons_ne_nil _ _

theorem escape_ne_nil {s : List Char} (h : s ≠ []) : s.flatMap escapeTextChar ≠ [] := by
  obtain ⟨c, cs, rfl⟩ := List.exists_cons_of_ne_nil h
  rw [List.flatMap_cons]
  exact List.append_ne_nil_of_left_ne_nil (escapeTextChar_ne_nil c) _

theorem trimmed_escape {s : List Char} (h : Trimmed s) : Trimmed (s.flatMap escapeTextChar) := by
  constructor
  · cases s with
    | nil => nofun
    | cons c cs =>
      have hc := (trimmed_escapeTextChar (h.head c rfl)).head
      rw [List.flatMap_cons, List.head?_append_of_ne_nil _ (escapeTextChar_ne_nil c)]
      exact hc
  · cases hs : s using List.reverseRecOn with
    | nil => nofun
    | append_singleton cs c =>
      subst hs
      have hlast : isBlank c = false := h.last c (by simp)
      have hc := (trimmed_escapeTextChar hlast).last
      rw [List.flatMap_append, List.flatMap_singleton,
        List.getLast?_append_of_ne_nil _ (escapeTextChar_ne_nil c)]
      exact hc

end DocumentMedia.Text
