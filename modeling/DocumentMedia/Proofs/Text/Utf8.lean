import DocumentMedia.Text.Utf8
import Mathlib.Data.List.Basic

/-! # Reading UTF-8 that was written

The bytes of a text are read back as that text. -/
namespace DocumentMedia.Text.Utf8

theorem toList_loop (bs : ByteArray) (i : Nat) (r : List UInt8) :
    ByteArray.toList.loop bs i r = r.reverse ++ bs.data.toList.drop i := by
  fun_induction ByteArray.toList.loop bs i r with
  | case1 i r hi ih =>
    have hlen : i < bs.data.toList.length := by simpa using hi
    rw [ih, List.drop_eq_getElem_cons hlen]
    simp [ByteArray.get!, hi]
  | case2 i r hi =>
    rw [List.drop_eq_nil_of_le (by simpa using Nat.le_of_not_lt hi), List.append_nil]

theorem toList_eq (bs : ByteArray) : bs.toList = bs.data.toList := by
  rw [ByteArray.toList, toList_loop]
  rfl

theorem toList_toUTF8 (s : String) :
    s.toUTF8.toList = s.toList.flatMap String.utf8EncodeChar := by
  rw [String.toUTF8_eq_toByteArray, ← String.utf8Encode_toList, List.utf8Encode, toList_eq,
    List.toList_data_toByteArray]

theorem valid_bounds (c : Char) :
    c.val.toNat < 0x110000 ∧ ¬ (0xD800 ≤ c.val.toNat ∧ c.val.toNat < 0xE000) := by
  have hv := c.valid
  simp only [UInt32.isValidChar, Nat.isValidChar] at hv
  omega

/-! ## Following bytes -/

theorem follow_next {n low high code used m : Nat} {rest : List UInt8} (hm : m < 256)
    (hlow : low ≤ m) (hhigh : m ≤ high) :
    follow (n + 1) low high code used (UInt8.ofNat m :: rest) =
      follow n 0x80 0xBF (code * 64 + m % 64) (used + 1) rest := by
  have hb : (UInt8.ofNat m).toNat = m := by
    rw [UInt8.toNat_ofNat', Nat.mod_eq_of_lt (by omega)]
  rw [follow, hb, if_pos (by simp [hlow, hhigh])]

theorem follow_six {n code used k : Nat} {rest : List UInt8} :
    follow (n + 1) 0x80 0xBF code used (UInt8.ofNat (k % 64 + 128) :: rest) =
      follow n 0x80 0xBF (code * 64 + k % 64) (used + 1) rest := by
  rw [follow_next (by omega) (by omega) (by omega)]
  congr 2
  omega

theorem lead_one {n : Nat} (hn : n ≤ 0x7F) : lead (UInt8.ofNat n) = some (0, 0, 0) := by
  simp only [lead, UInt8.toNat_ofNat']
  rw [if_pos (by omega)]

theorem lead_two {n : Nat} (h1 : 0x7F < n) (h2 : n ≤ 0x7FF) :
    lead (UInt8.ofNat (n / 64 % 32 + 192)) = some (1, 0x80, 0xBF) := by
  simp only [lead, UInt8.toNat_ofNat']
  rw [if_neg (by omega), if_neg (by omega), if_pos (by omega)]

theorem lead_three {n : Nat} (h1 : 0x7FF < n) (h2 : n ≤ 0xFFFF)
    (hn : ¬ (0xD800 ≤ n ∧ n < 0xE000)) :
    ∃ low high, lead (UInt8.ofNat (n / 4096 % 16 + 224)) = some (2, low, high) ∧
      low ≤ n / 64 % 64 + 128 ∧ n / 64 % 64 + 128 ≤ high := by
  simp only [lead, UInt8.toNat_ofNat']
  rw [if_neg (by omega), if_neg (by omega), if_neg (by omega)]
  split
  · exact ⟨_, _, rfl, by omega, by omega⟩
  · split
    · exact ⟨_, _, rfl, by omega, by omega⟩
    · rw [if_pos (by omega)]
      exact ⟨_, _, rfl, by omega, by omega⟩

theorem lead_four {n : Nat} (h1 : 0xFFFF < n) (h2 : n < 0x110000) :
    ∃ low high, lead (UInt8.ofNat (n / 262144 % 8 + 240)) = some (3, low, high) ∧
      low ≤ n / 4096 % 64 + 128 ∧ n / 4096 % 64 + 128 ≤ high := by
  simp only [lead, UInt8.toNat_ofNat']
  rw [if_neg (by omega), if_neg (by omega), if_neg (by omega), if_neg (by omega),
    if_neg (by omega), if_neg (by omega)]
  split
  · exact ⟨_, _, rfl, by omega, by omega⟩
  · split
    · exact ⟨_, _, rfl, by omega, by omega⟩
    · rw [if_pos (by omega)]
      exact ⟨_, _, rfl, by omega, by omega⟩

/-! ## Characters and texts -/

theorem step_utf8EncodeChar (c : Char) (rest : List UInt8) :
    ∃ b bs, String.utf8EncodeChar c = b :: bs ∧ step b (bs ++ rest) = .char c rest := by
  obtain ⟨hmax, hsurrogate⟩ := valid_bounds c
  have hc : ∀ k, k = c.val.toNat → Step.char (Char.ofNat k) rest = .char c rest := by
    rintro k rfl
    exact congrArg (Step.char · rest) (Char.ofNat_toNat c)
  unfold String.utf8EncodeChar
  generalize c.val.toNat = n at hmax hsurrogate hc
  simp only
  split
  · next h1 =>
    refine ⟨_, _, rfl, ?_⟩
    simp only [step, lead_one h1, follow, leadBits, UInt8.toNat_ofNat', List.nil_append]
    exact hc _ (by omega)
  · split
    · next h1 h2 =>
      refine ⟨_, _, rfl, ?_⟩
      simp only [step, lead_two (by omega) h2, leadBits, UInt8.toNat_ofNat', List.cons_append,
        List.nil_append, follow_six, follow]
      exact hc _ (by omega)
    · split
      · next h1 h2 h3 =>
        obtain ⟨low, high, hlead, hlow, hhigh⟩ := lead_three (by omega) h3 hsurrogate
        refine ⟨_, _, rfl, ?_⟩
        simp only [step, hlead, leadBits, UInt8.toNat_ofNat', List.cons_append, List.nil_append]
        rw [follow_next (by omega) hlow hhigh, follow_six, follow]
        exact hc _ (by omega)
      · next h1 h2 h3 =>
        obtain ⟨low, high, hlead, hlow, hhigh⟩ := lead_four (by omega) hmax
        refine ⟨_, _, rfl, ?_⟩
        simp only [step, hlead, leadBits, UInt8.toNat_ofNat', List.cons_append, List.nil_append]
        rw [follow_next (by omega) hlow hhigh, follow_six, follow_six, follow]
        exact hc _ (by omega)

theorem decodeFrom_flatMap (cs : List Char) (fuel start : Nat) (acc : List Char)
    (hf : (cs.flatMap String.utf8EncodeChar).length ≤ fuel) :
    decodeFrom fuel start (cs.flatMap String.utf8EncodeChar) acc = .ok (acc.reverse ++ cs) := by
  induction cs generalizing fuel start acc with
  | nil => cases fuel <;> simp [decodeFrom]
  | cons c cs ih =>
    obtain ⟨b, bs, hbytes, hstep⟩ := step_utf8EncodeChar c (cs.flatMap String.utf8EncodeChar)
    rw [List.flatMap_cons, hbytes, List.cons_append] at hf ⊢
    rw [List.length_cons, List.length_append] at hf
    obtain ⟨fuel, rfl⟩ : ∃ n, fuel = n + 1 := Nat.exists_eq_succ_of_ne_zero (by omega)
    rw [decodeFrom, hstep]
    simp only
    rw [ih _ _ _ (by omega)]
    simp

/-- A text is read back from its bytes. -/
theorem decode_toUTF8 (s : String) : decode s.toUTF8 = .ok s := by
  rw [decode, toList_toUTF8, decodeFrom_flatMap]
  · simp [Except.map]
  · rw [← toList_toUTF8, toList_eq]
    simp

end DocumentMedia.Text.Utf8
