import DocumentMedia.Attribute.Style
import DocumentMedia.Proofs.Text.Blank

/-! # Joined styles

Styles are joined as they are without blanks around them. A joined style has none and holds both
styles, joining with nothing only strips, and it does not matter which of three are joined first. -/
namespace DocumentMedia.Attribute

open DocumentMedia.Text

section

variable {a b : List Char}

theorem joinStyle_of_blank_left (ha : strip a = []) (b : List Char) : joinStyle a b = strip b := by
  simp only [joinStyle, ha, List.isEmpty_nil, if_true]

theorem joinStyle_of_blank_right (hb : strip b = []) (a : List Char) : joinStyle a b = strip a := by
  simp only [joinStyle, hb, List.isEmpty_nil, if_true]
  split
  · next h => exact (List.isEmpty_iff.mp h).symm
  · rfl

theorem joinStyle_of_solid (ha : strip a ≠ []) (hb : strip b ≠ []) :
    joinStyle a b = strip a ++ ';' :: ' ' :: strip b := by
  simp [joinStyle, ha, hb]

theorem joinStyle_nil_left (s : List Char) : joinStyle [] s = strip s :=
  joinStyle_of_blank_left rfl s

theorem joinStyle_nil_right (s : List Char) : joinStyle s [] = strip s :=
  joinStyle_of_blank_right rfl s

variable (a b)

theorem joinStyle_eq_nil_iff : joinStyle a b = [] ↔ strip a = [] ∧ strip b = [] := by
  by_cases ha : strip a = []
  · rw [joinStyle_of_blank_left ha]
    simp only [ha, true_and]
  · by_cases hb : strip b = []
    · rw [joinStyle_of_blank_right hb]
      simp only [hb, and_true]
    · rw [joinStyle_of_solid ha hb]
      simp [ha]

theorem strip_joinStyle : strip (joinStyle a b) = joinStyle a b := by
  by_cases ha : strip a = []
  · rw [joinStyle_of_blank_left ha, strip_strip]
  · by_cases hb : strip b = []
    · rw [joinStyle_of_blank_right hb, strip_strip]
    · rw [joinStyle_of_solid ha hb]
      -- The joined text begins as the first text does and ends as the second one does.
      refine Trimmed.strip ⟨?_, ?_⟩
      · intro c hc
        refine (trimmed_strip a).head c ?_
        rwa [List.head?_append_of_ne_nil _ ha] at hc
      · intro c hc
        refine (trimmed_strip b).last c ?_
        rwa [List.getLast?_append_of_ne_nil _ (List.cons_ne_nil _ _), List.getLast?_cons_cons,
          List.getLast?_cons_of_ne_nil hb] at hc

theorem infix_joinStyle_left : strip a <:+: joinStyle a b := by
  by_cases ha : strip a = []
  · rw [ha]
    exact List.nil_infix
  · by_cases hb : strip b = []
    · exact joinStyle_of_blank_right hb a ▸ List.infix_rfl
    · rw [joinStyle_of_solid ha hb]
      exact (List.prefix_append _ _).isInfix

theorem infix_joinStyle_right : strip b <:+: joinStyle a b := by
  by_cases ha : strip a = []
  · exact joinStyle_of_blank_left ha b ▸ List.infix_rfl
  · by_cases hb : strip b = []
    · rw [hb]
      exact List.nil_infix
    · rw [joinStyle_of_solid ha hb]
      refine List.IsSuffix.isInfix ?_
      exact ((List.suffix_cons _ _).trans (List.suffix_cons _ _)).trans (List.suffix_append _ _)

theorem joinStyle_assoc (c : List Char) :
    joinStyle (joinStyle a b) c = joinStyle a (joinStyle b c) := by
  by_cases hb : strip b = []
  · -- Only the outer two are left, and a style is stripped when it is joined.
    rw [joinStyle_of_blank_right hb, joinStyle_of_blank_left hb]
    simp only [joinStyle, strip_strip]
  · have hleft : strip (joinStyle a b) ≠ [] := by
      rw [strip_joinStyle, Ne, joinStyle_eq_nil_iff]
      exact fun h => hb h.2
    have hright : strip (joinStyle b c) ≠ [] := by
      rw [strip_joinStyle, Ne, joinStyle_eq_nil_iff]
      exact fun h => hb h.1
    by_cases ha : strip a = []
    · rw [joinStyle_of_blank_left ha, joinStyle_of_blank_left ha, strip_joinStyle]
      simp only [joinStyle, strip_strip]
    · by_cases hc : strip c = []
      · rw [joinStyle_of_blank_right hc, joinStyle_of_blank_right hc, strip_joinStyle]
        simp only [joinStyle, strip_strip]
      · rw [joinStyle_of_solid hleft hc, joinStyle_of_solid ha hright, strip_joinStyle,
          strip_joinStyle, joinStyle_of_solid ha hb, joinStyle_of_solid hb hc]
        simp only [List.append_assoc, List.cons_append]

end

end DocumentMedia.Attribute
