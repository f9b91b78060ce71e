import DocumentMedia.Text.AsciiFoldTable

/-! # ASCII folding

A text reduced to ASCII: letters lose their marks, compatibility forms become the characters they
stand for, and what has no ASCII form is dropped. Main statements: ASCII text stays as it is, and
folding works character by character.
-/
namespace DocumentMedia.Text

def foldChar (c : Char) : List Char :=
  if c.val < 128 then [c]
  else
    match foldTexts.find? fun (first, last, _) => first ≤ c.toNat && c.toNat ≤ last with
    | some (_, _, text) => text.toList
    | none =>
      match foldRuns.find? fun (first, last, _) => first ≤ c.toNat && c.toNat ≤ last with
      | some (first, _, start) => [Char.ofNat (start + (c.toNat - first))]
      | none => []

def fold (s : List Char) : List Char := s.flatMap foldChar

theorem fold_append (s t : List Char) : fold (s ++ t) = fold s ++ fold t := by
  simp [fold]

theorem fold_of_ascii (s : List Char) (h : ∀ c ∈ s, c.val < 128) : fold s = s := by
  induction s with
  | nil => rfl
  | cons c cs ih =>
    have hc : c.val < 128 := h c (by simp)
    have ih := ih fun d hd => h d (by simp [hd])
    simpa [fold, foldChar, hc] using ih

end DocumentMedia.Text
