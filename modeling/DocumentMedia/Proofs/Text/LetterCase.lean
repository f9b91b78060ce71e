import DocumentMedia.Text.LetterCase

/-! # Lower case, slashes and endings

A text without slashes has none in lower case, so the lower case of a suffix is still a suffix. The
lower case of a text ends in that of its ending. -/
namespace DocumentMedia.Text

theorem lowerRows_letters : ∀ row ∈ lowerRows, 97 ≤ row.2.2.2 := by
  decide +kernel

theorem mapCase_lowerRows_ge {n : Nat} (hn : 97 ≤ n) : 97 ≤ mapCase lowerRows n := by
  unfold mapCase
  split
  · next first last stride target h =>
    have := lowerRows_letters _ (Array.mem_of_find?_eq_some h)
    simp only at this
    omega
  · exact hn

theorem toLower_ne_slash : ∀ n : Fin 128, n.val ≠ 47 → (Char.ofNat n).toLower ≠ '/' := by decide

theorem ofNat_ne_slash {n : Nat} (hn : 97 ≤ n) : Char.ofNat n ≠ '/' := by
  intro he
  by_cases hv : n.isValidChar
  · rw [Char.ofNat, dif_pos hv] at he
    have : n = 47 := congrArg Char.toNat he
    omega
  · rw [Char.ofNat, dif_neg hv] at he
    exact absurd he (by decide)

theorem lowerChar_ne_slash {c : Char} (h : c ≠ '/') : lowerChar c ≠ '/' := by
  unfold lowerChar
  split
  · next hc =>
    have hn : c.toNat < 128 := by simpa [UInt32.lt_iff_toNat_lt] using hc
    have := toLower_ne_slash ⟨c.toNat, hn⟩ (fun he => h (by
      rw [← Char.ofNat_toNat c]
      simp only at he
      rw [he]))
    simpa using this
  · next hc =>
    apply ofNat_ne_slash
    apply mapCase_lowerRows_ge
    have hn : 128 ≤ c.toNat := by simpa [UInt32.lt_iff_toNat_lt] using hc
    omega

theorem slash_notMem_lowerAfter (before s : List Char) (h : '/' ∉ s) :
    '/' ∉ lowerAfter before s := by
  induction s generalizing before with
  | nil => simp [lowerAfter]
  | cons c s ih =>
    simp only [List.mem_cons, not_or] at h
    simp only [lowerAfter, List.mem_append, not_or]
    refine ⟨?_, ih _ h.2⟩
    split
    · split <;> decide
    · split
      · decide
      · simpa using (lowerChar_ne_slash (Ne.symm h.1)).symm

theorem slash_notMem_lower {s : List Char} (h : '/' ∉ s) : '/' ∉ lower s :=
  slash_notMem_lowerAfter [] s h

/-! ## Endings -/

theorem lowerAfter_of_simple {s : List Char} (h : ∀ c ∈ s, c ≠ 'Σ' ∧ c ≠ 'İ') (before : List Char) :
    lowerAfter before s = s.map lowerChar := by
  induction s generalizing before with
  | nil => rfl
  | cons c s ih =>
    rw [List.forall_mem_cons] at h
    rw [lowerAfter, if_neg h.1.1, if_neg h.1.2, ih h.2]
    rfl

/-- A text ends in the lower case of its ending, whatever stands before that. -/
theorem lower_append (s : List Char) {ending : List Char} (h : ∀ c ∈ ending, c ≠ 'Σ' ∧ c ≠ 'İ') :
    ∃ front, lower (s ++ ending) = front ++ ending.map lowerChar := by
  have hafter (before : List Char) :
      ∃ front, lowerAfter before (s ++ ending) = front ++ ending.map lowerChar := by
    induction s generalizing before with
    | nil => exact ⟨[], lowerAfter_of_simple h before⟩
    | cons c s ih =>
      obtain ⟨front, hfront⟩ := ih (c :: before)
      rw [List.cons_append, lowerAfter, hfront, ← List.append_assoc]
      exact ⟨_, rfl⟩
  exact hafter []

/-! ## ASCII words in lower case -/

theorem ascii_of_toLower {c : Char} (h : c.toLower.toNat < 128) : c.toNat < 128 := by
  unfold Char.toLower at h
  split at h
  · next hc =>
    have hz := UInt32.le_iff_toNat_le.mp hc.2
    have h90 : 'Z'.val.toNat = 90 := rfl
    show c.val.toNat < 128
    omega
  · exact h

theorem lowerAfter_ascii {c : Char} (h : c.toNat < 128) (before s : List Char) :
    lowerAfter before (c :: s) = c.toLower :: lowerAfter (c :: before) s := by
  have hsigma : c ≠ 'Σ' := by rintro rfl; exact absurd h (by decide)
  have hdotted : c ≠ 'İ' := by rintro rfl; exact absurd h (by decide)
  have hval : c.val < 128 := UInt32.lt_iff_toNat_lt.mpr h
  rw [lowerAfter, if_neg hsigma, if_neg hdotted, lowerChar, if_pos hval]
  rfl

theorem lowerRows_ascii : ∀ row ∈ lowerRows, row.2.2.2 < 128 → row = (8490, 8490, 1, 107) := by
  decide +kernel

theorem mapCase_ascii {n : Nat} (h : mapCase lowerRows n < 128) :
    n < 128 ∨ n = 8490 ∧ mapCase lowerRows n = 107 := by
  unfold mapCase at h ⊢
  split at h
  · next first last stride target hrow =>
    have hfound := Array.find?_some hrow
    have hrows := lowerRows_ascii _ (Array.mem_of_find?_eq_some hrow) (show target < 128 by omega)
    simp only [Prod.mk.injEq] at hrows
    obtain ⟨rfl, rfl, rfl, rfl⟩ := hrows
    simp only [Bool.and_eq_true, decide_eq_true_eq] at hfound
    obtain rfl : n = 8490 := by omega
    exact Or.inr ⟨rfl, rfl⟩
  · exact Or.inl h

theorem toNat_ofNat {n : Nat} (h : n.isValidChar) : (Char.ofNat n).toNat = n := by
  rw [Char.ofNat, dif_pos h]
  rfl

/-- What is an ASCII character in lower case is that character when case does not count. -/
theorem matchesLetter_lowerChar {c : Char} (h : (lowerChar c).toNat < 128)
    (h0 : lowerChar c ≠ '\x00') : matchesLetter (lowerChar c) c = true := by
  by_cases hc : c.val < 128
  · have hlower : lowerChar c = c.toLower := by rw [lowerChar, if_pos hc]
    simp [matchesLetter, hlower]
  · have hlower : lowerChar c = Char.ofNat (mapCase lowerRows c.toNat) := by
      rw [lowerChar, if_neg hc]
    have hn : 128 ≤ c.toNat := by simpa [UInt32.lt_iff_toNat_lt] using hc
    by_cases hv : (mapCase lowerRows c.toNat).isValidChar
    · rw [hlower, toNat_ofNat hv] at h
      rcases mapCase_ascii h with hlt | ⟨hkelvin, hk⟩
      · omega
      · have hc : c = Char.ofNat 0x212A := by rw [← Char.ofNat_toNat c, hkelvin]
        rw [hlower, hk, hc]
        decide
    · rw [hlower, Char.ofNat, dif_neg hv] at h0
      exact absurd rfl h0

/-- A text that is an ASCII word in lower case is that word when case does not count. -/
theorem dropWord?_of_lower {before s : List Char}
    (h : ∀ p ∈ lowerAfter before s, p.toNat < 128 ∧ p ≠ '\x00') :
    dropWord? (lowerAfter before s) s = some [] := by
  induction s generalizing before with
  | nil => rfl
  | cons c s ih =>
    rw [lowerAfter] at h ⊢
    split at h
    · next hc =>
      rw [List.singleton_append, List.forall_mem_cons] at h
      split at h <;> exact absurd h.1.1 (by decide)
    · split at h
      · exact absurd (h (Char.ofNat 0x307) (by simp)).1 (by decide)
      · next hsigma hdotted =>
        rw [List.singleton_append, List.forall_mem_cons] at h
        rw [if_neg hsigma, if_neg hdotted, List.singleton_append, dropWord?,
          if_pos (matchesLetter_lowerChar h.1.1 h.1.2), ih h.2]

end DocumentMedia.Text
