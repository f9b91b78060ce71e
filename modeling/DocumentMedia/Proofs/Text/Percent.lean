import DocumentMedia.Proofs.Text.Blank
import DocumentMedia.Proofs.Text.Utf8
import DocumentMedia.Text.Percent
import Mathlib.Algebra.Group.Nat.Defs
import Mathlib.Data.List.Infix

/-! # Reading percent codes

The runs of a text are read one by one, which is the same as reading all of its bytes at once. A
text without codes stays as it is, and a slash is read only where a slash or its code stands. -/
namespace DocumentMedia.Text

namespace Utf8

/-! ## Lenient reading -/

/-- The character that a lenient reader puts, and the bytes behind it. -/
def Step.read : Step → Char × List UInt8
  | .char c rest => (c, rest)
  | .fault _ _ rest => (Char.ofNat 0xFFFD, rest)

/-- A byte that is no continuation of a character. -/
def Leads (b : UInt8) : Prop := b.toNat < 0x80 ∨ 0xC0 ≤ b.toNat

theorem lead_table : ∀ n : Fin 256, ∀ r ∈ lead (UInt8.ofNat n), r.1 ≠ 0 →
    0x80 ≤ r.2.1 ∧ r.2.2 ≤ 0xBF ∧
      128 ≤ (leadBits (UInt8.ofNat n) r.1 * 64 + (r.2.1 - 0x80)) * 64 ^ (r.1 - 1) := by
  decide +kernel

/-- The bytes behind a lead byte are continuations, and too many for an ASCII character. -/
theorem lead_bounds {b : UInt8} {n low high : Nat} (h : lead b = some (n + 1, low, high)) :
    0x80 ≤ low ∧ high ≤ 0xBF ∧ 128 ≤ (leadBits b (n + 1) * 64 + (low - 0x80)) * 64 ^ n := by
  have htable := lead_table ⟨b.toNat, b.toNat_lt⟩
  rw [UInt8.ofNat_toNat] at htable
  exact htable _ h (Nat.succ_ne_zero n)

theorem suffix_follow {n low high code used : Nat} {rest : List UInt8} :
    (follow n low high code used rest).read.2 <:+ rest := by
  induction n generalizing low high code used rest with
  | zero => exact List.suffix_rfl
  | succ n ih =>
    cases rest with
    | nil => exact List.suffix_rfl
    | cons b rest =>
      rw [follow]
      split
      · exact ih.trans (List.suffix_cons b rest)
      · exact List.suffix_rfl

theorem suffix_step (b : UInt8) (rest : List UInt8) : (step b rest).read.2 <:+ rest := by
  unfold step
  split
  · exact List.suffix_rfl
  · exact suffix_follow

theorem length_step (b : UInt8) (rest : List UInt8) :
    (step b rest).read.2.length ≤ rest.length := (suffix_step b rest).length_le

theorem decodeLossyFrom_succ (fuel : Nat) (b : UInt8) (rest : List UInt8) (acc : List Char) :
    decodeLossyFrom (fuel + 1) (b :: rest) acc =
      decodeLossyFrom fuel (step b rest).read.2 ((step b rest).read.1 :: acc) := by
  rw [decodeLossyFrom]
  split
  · next hs => rw [hs]; rfl
  · next hs => rw [hs]; rfl

theorem decodeLossyFrom_of_length {fuel : Nat} {bs : List UInt8} (h : bs.length ≤ fuel)
    (acc : List Char) : decodeLossyFrom fuel bs acc = acc.reverse ++ decodeLossy bs := by
  induction fuel using Nat.strong_induction_on generalizing bs acc with
  | _ fuel ih =>
    cases bs with
    | nil => cases fuel <;> simp [decodeLossyFrom, decodeLossy]
    | cons b rest =>
      have hrest := length_step b rest
      rw [List.length_cons] at h
      obtain ⟨fuel, rfl⟩ : ∃ n, fuel = n + 1 := Nat.exists_eq_succ_of_ne_zero (by omega)
      rw [decodeLossy, List.length_cons, decodeLossyFrom_succ, decodeLossyFrom_succ,
        ih fuel (by omega) (by omega), ih rest.length (by omega) hrest]
      simp

theorem decodeLossy_cons (b : UInt8) (rest : List UInt8) :
    decodeLossy (b :: rest) = (step b rest).read.1 :: decodeLossy (step b rest).read.2 := by
  rw [decodeLossy, List.length_cons, decodeLossyFrom_succ,
    decodeLossyFrom_of_length (length_step b rest)]
  rfl

/-- The bytes of a character are not mixed up with those of the next one. -/
theorem follow_append {n low high code used : Nat} {rest : List UInt8} {b : UInt8}
    (hlow : 0x80 ≤ low) (hhigh : high ≤ 0xBF) (hb : Leads b) (more : List UInt8) :
    (follow n low high code used (rest ++ b :: more)).read =
      ((follow n low high code used rest).read.1,
        (follow n low high code used rest).read.2 ++ b :: more) := by
  induction n generalizing low high code used rest with
  | zero => rfl
  | succ n ih =>
    cases rest with
    | nil =>
      have hstop : ¬ (low ≤ b.toNat && b.toNat ≤ high) = true := by
        rw [Bool.and_eq_true, decide_eq_true_eq, decide_eq_true_eq]
        rcases hb with hb | hb <;> omega
      rw [List.nil_append, follow, follow, if_neg hstop]
      rfl
    | cons c rest =>
      rw [List.cons_append, follow, follow]
      split
      · exact ih (Nat.le_refl _) (Nat.le_refl _)
      · rfl

theorem step_append (c : UInt8) (rest : List UInt8) {b : UInt8} (hb : Leads b)
    (more : List UInt8) :
    (step c (rest ++ b :: more)).read =
      ((step c rest).read.1, (step c rest).read.2 ++ b :: more) := by
  unfold step
  split
  · rfl
  · next n low high hl =>
    cases n with
    | zero => rfl
    | succ n =>
      obtain ⟨hlow, hhigh, -⟩ := lead_bounds hl
      exact follow_append hlow hhigh hb more

/-- Reading goes on afresh at a byte that is no continuation. -/
theorem decodeLossy_append {bs : List UInt8} {b : UInt8} (hb : Leads b) (more : List UInt8) :
    decodeLossy (bs ++ b :: more) = decodeLossy bs ++ decodeLossy (b :: more) := by
  induction hn : bs.length using Nat.strong_induction_on generalizing bs with
  | _ n ih =>
    cases bs with
    | nil => rfl
    | cons c rest =>
      have hlen := length_step c rest
      rw [List.length_cons] at hn
      rw [List.cons_append, decodeLossy_cons, decodeLossy_cons, step_append c rest hb more]
      simp only
      rw [ih _ (by omega) rfl]
      rfl

theorem leads_utf8EncodeChar (c : Char) :
    ∃ b bs, String.utf8EncodeChar c = b :: bs ∧ Leads b := by
  obtain ⟨b, bs, hc, hs⟩ := step_utf8EncodeChar c []
  refine ⟨b, bs, hc, ?_⟩
  by_contra hb
  simp only [Leads, not_or, not_lt, not_le] at hb
  have hlead : lead b = none := by
    unfold lead
    simp only
    rw [if_neg (by omega), if_pos (by omega)]
  rw [step, hlead] at hs
  cases hs

theorem decodeLossy_char (c : Char) (more : List UInt8) :
    decodeLossy (String.utf8EncodeChar c ++ more) = c :: decodeLossy more := by
  obtain ⟨b, bs, hc, hs⟩ := step_utf8EncodeChar c more
  rw [hc, List.cons_append, decodeLossy_cons, hs]
  rfl

theorem decodeLossy_append_char (bs : List UInt8) (c : Char) (more : List UInt8) :
    decodeLossy (bs ++ (String.utf8EncodeChar c ++ more)) =
      decodeLossy bs ++ c :: decodeLossy more := by
  rw [← decodeLossy_char c more]
  obtain ⟨b, rest, hc, hb⟩ := leads_utf8EncodeChar c
  rw [hc, List.cons_append, decodeLossy_append hb]

theorem decodeLossy_flatMap (cs : List Char) :
    decodeLossy (cs.flatMap String.utf8EncodeChar) = cs := by
  induction cs with
  | nil => rfl
  | cons c cs ih => rw [List.flatMap_cons, decodeLossy_char, ih]

theorem decodeLossy_eq_nil {bs : List UInt8} : decodeLossy bs = [] ↔ bs = [] := by
  cases bs with
  | nil => exact ⟨fun _ => rfl, fun _ => rfl⟩
  | cons b rest =>
    rw [decodeLossy_cons]
    exact ⟨nofun, nofun⟩

/-! ## Slashes -/

theorem follow_char {n low high code used : Nat} {rest r : List UInt8} {c : Char}
    (h : follow n low high code used rest = .char c r) :
    ∃ k, c = Char.ofNat k ∧ code * 64 ^ n ≤ k := by
  induction n generalizing low high code used rest with
  | zero =>
    cases h
    exact ⟨code, rfl, by omega⟩
  | succ n ih =>
    cases rest with
    | nil => cases h
    | cons b rest =>
      rw [follow] at h
      split at h
      · obtain ⟨k, rfl, hk⟩ := ih h
        refine ⟨k, rfl, le_trans ?_ hk⟩
        rw [Nat.pow_succ, Nat.mul_comm (64 ^ n), ← Nat.mul_assoc]
        exact Nat.mul_le_mul_right _ (Nat.le_add_right _ _)
      · cases h

/-- Characters of several bytes lie above ASCII. -/
theorem follow_lead {b : UInt8} {n low high : Nat} {rest r : List UInt8} {c : Char}
    (hl : lead b = some (n + 1, low, high))
    (h : follow (n + 1) low high (leadBits b (n + 1)) 1 rest = .char c r) :
    ∃ k, c = Char.ofNat k ∧ 128 ≤ k := by
  obtain ⟨hlow, hhigh, hcode⟩ := lead_bounds hl
  cases rest with
  | nil => cases h
  | cons d rest =>
    rw [follow] at h
    split at h
    · next hd =>
      rw [Bool.and_eq_true, decide_eq_true_eq, decide_eq_true_eq] at hd
      obtain ⟨k, rfl, hk⟩ := follow_char h
      refine ⟨k, rfl, hcode.trans (le_trans (Nat.mul_le_mul_right _ ?_) hk)⟩
      omega
    · cases h

theorem ofNat_eq_slash {k : Nat} (h : Char.ofNat k = '/') : k = 47 := by
  by_cases hv : k.isValidChar
  · rw [Char.ofNat, dif_pos hv] at h
    exact congrArg Char.toNat h
  · rw [Char.ofNat, dif_neg hv] at h
    exact absurd h (by decide)

theorem step_ne_slash {b : UInt8} (hb : b ≠ 47) (rest : List UInt8) :
    (step b rest).read.1 ≠ '/' := by
  unfold step
  split
  · exact (by decide : Char.ofNat 0xFFFD ≠ '/')
  · next n low high hl =>
    cases n with
    | zero =>
      intro he
      exact hb (UInt8.toNat_inj.mp (ofNat_eq_slash he))
    | succ n =>
      cases hf : follow (n + 1) low high (leadBits b (n + 1)) 1 rest with
      | fault => exact (by decide : Char.ofNat 0xFFFD ≠ '/')
      | char c r =>
        obtain ⟨k, rfl, hk⟩ := follow_lead hl hf
        intro he
        have := ofNat_eq_slash he
        omega

/-- A slash is read from its own byte only. -/
theorem slash_notMem_decodeLossy {bs : List UInt8} (h : 47 ∉ bs) : '/' ∉ decodeLossy bs := by
  induction hn : bs.length using Nat.strong_induction_on generalizing bs with
  | _ n ih =>
    cases bs with
    | nil => exact List.not_mem_nil
    | cons b rest =>
      rw [List.mem_cons, not_or] at h
      have hlen := length_step b rest
      rw [List.length_cons] at hn
      rw [decodeLossy_cons, List.mem_cons, not_or]
      exact ⟨(step_ne_slash (Ne.symm h.1) rest).symm,
        ih _ (by omega) (fun hm => h.2 ((suffix_step b rest).subset hm)) rfl⟩

end Utf8

/-! ## Percent codes -/

/-- The byte that a text starts with, if that is written as a percent code. -/
def codeAt? : List Char → Option UInt8
  | '%' :: a :: b :: _ => hexByte? a b
  | _ => none

/-- Somewhere in a text a byte is written as a percent code. -/
def hasCode : List Char → Bool
  | [] => false
  | c :: s => (codeAt? (c :: s)).isSome || hasCode s

theorem percentBytes_code {a b : Char} {n : UInt8} (h : hexByte? a b = some n) (s : List Char) :
    percentBytes ('%' :: a :: b :: s) = n :: percentBytes s := by
  rw [percentBytes, h]

theorem utf8EncodeChar_percent : String.utf8EncodeChar '%' = [37] := by decide

theorem toUTF8_singleton (c : Char) :
    (String.singleton c).toUTF8.toList = String.utf8EncodeChar c := by
  rw [Utf8.toList_toUTF8, String.toList_singleton, List.flatMap_cons, List.flatMap_nil,
    List.append_nil]

theorem percentBytes_cons {c : Char} {s : List Char} (h : codeAt? (c :: s) = none) :
    percentBytes (c :: s) = String.utf8EncodeChar c ++ percentBytes s := by
  conv_lhs => unfold percentBytes
  split
  · next a b rest he =>
    cases he
    rw [codeAt?] at h
    rw [h, utf8EncodeChar_percent]
    rfl
  · next he =>
    cases he
    rw [toUTF8_singleton]
  · next he => cases he

theorem percentBytes_eq_nil {s : List Char} : percentBytes s = [] ↔ s = [] := by
  constructor
  · intro h
    cases s with
    | nil => rfl
    | cons c s =>
      cases hc : codeAt? (c :: s) with
      | none =>
        rw [percentBytes_cons hc, List.append_eq_nil_iff] at h
        exact absurd h.1 String.utf8EncodeChar_ne_nil
      | some b =>
        unfold codeAt? at hc
        split at hc
        · next he =>
          cases he
          rw [percentBytes_code hc] at h
          cases h
        · cases hc
  · rintro rfl
    rfl

/-- A character that is no hexadecimal digit ends a code. -/
theorem codeAt?_append {c d : Char} (s t : List Char) (hd : isHex d = false) :
    codeAt? (c :: s ++ d :: t) = codeAt? (c :: s) := by
  have hright (a : Char) : hexByte? a d = none := by
    have hd : hexValue? d = none := by simpa [isHex] using hd
    unfold hexByte?
    rw [hd]
    cases hexValue? a <;> rfl
  have hleft (a : Char) : hexByte? d a = none := by
    have hd : hexValue? d = none := by simpa [isHex] using hd
    unfold hexByte?
    rw [hd]
  by_cases hc : c = '%'
  · subst c
    match s, t with
    | [], [] => rfl
    | [], e :: t => exact hleft e
    | [a], t => exact hright a
    | a :: b :: s, t => rfl
  · unfold codeAt?
    simp [hc]

theorem hasCode_append {d : Char} (hd : isHex d = false) (s t : List Char) :
    hasCode (s ++ d :: t) = (hasCode s || hasCode (d :: t)) := by
  induction s with
  | nil => rfl
  | cons c s ih =>
    rw [List.cons_append, hasCode, ← List.cons_append, codeAt?_append s t hd, ih,
      ← Bool.or_assoc]
    rfl

theorem hasCode_of_notMem {s : List Char} (h : '%' ∉ s) : hasCode s = false := by
  induction s with
  | nil => rfl
  | cons c s ih =>
    rw [List.mem_cons, not_or] at h
    rw [hasCode, ih h.2, Bool.or_false]
    unfold codeAt?
    split
    · next he => cases he; exact absurd rfl h.1
    · rfl

theorem percentBytes_of_hasCode {s : List Char} (h : hasCode s = false) :
    percentBytes s = s.flatMap String.utf8EncodeChar := by
  induction s with
  | nil => rfl
  | cons c s ih =>
    rw [hasCode, Bool.or_eq_false_iff] at h
    rw [percentBytes_cons (by simpa using h.1), ih h.2, List.flatMap_cons]

theorem percentBytes_append {d : Char} (hd : isHex d = false) (s t : List Char) :
    percentBytes (s ++ d :: t) = percentBytes s ++ percentBytes (d :: t) := by
  induction hn : s.length using Nat.strong_induction_on generalizing s with
  | _ n ih =>
    cases s with
    | nil => rfl
    | cons c s =>
      rw [List.length_cons] at hn
      cases hc : codeAt? (c :: s) with
      | none =>
        have hc' : codeAt? (c :: (s ++ d :: t)) = none := by
          rw [← List.cons_append, codeAt?_append s t hd, hc]
        rw [List.cons_append, percentBytes_cons hc', percentBytes_cons hc,
          ih s.length (by omega) s rfl, List.append_assoc]
      | some b =>
        unfold codeAt? at hc
        split at hc
        · next a a' rest he =>
          cases he
          rw [List.length_cons, List.length_cons] at hn
          rw [List.cons_append, List.cons_append, List.cons_append, percentBytes_code hc,
            percentBytes_code hc, ih rest.length (by omega) rest rfl, List.cons_append]
        · cases hc

theorem isHex_of_ge {c : Char} (h : ¬ c.val < 128) : isHex c = false := by
  have hn : 128 ≤ c.val.toNat := by simpa [UInt32.lt_iff_toNat_lt] using h
  simp only [isHex, hexValue?, Char.le_def, UInt32.le_iff_toNat_le]
  have h9 : '9'.val.toNat = 57 := rfl
  have hf : 'f'.val.toNat = 102 := rfl
  have hF : 'F'.val.toNat = 70 := rfl
  simp only [h9, hf, hF]
  split_ifs with h1 h2 h3 <;> simp_all <;> omega

theorem unpercentRuns_eq (run s : List Char) :
    unpercentRuns run s = Utf8.decodeLossy (percentBytes (run.reverse ++ s)) := by
  induction s generalizing run with
  | nil => rw [unpercentRuns, List.append_nil]
  | cons c s ih =>
    unfold unpercentRuns
    split
    · rw [ih, List.reverse_cons, List.append_assoc]
      rfl
    · next hc =>
      have hne : c ≠ '%' := fun he => hc (he ▸ by decide)
      have hcode : codeAt? (c :: s) = none := by
        unfold codeAt?
        simp [hne]
      rw [ih, percentBytes_append (isHex_of_ge hc), percentBytes_cons hcode,
        Utf8.decodeLossy_append_char]
      rfl

theorem decodeLossy_percentBytes {s : List Char} (h : hasCode s = false) :
    Utf8.decodeLossy (percentBytes s) = s := by
  rw [percentBytes_of_hasCode h, Utf8.decodeLossy_flatMap]

/-- All bytes of a text are read at once. -/
theorem toList_unpercent (s : String) :
    (unpercent s).toList = Utf8.decodeLossy (percentBytes s.toList) := by
  unfold unpercent
  split
  · rw [String.toList_ofList, unpercentRuns_eq]
    rfl
  · next h =>
    rw [decodeLossy_percentBytes (hasCode_of_notMem (by simpa using h))]

/-- A text without percent codes stays as it is. -/
theorem unpercent_of_hasCode {s : String} (h : hasCode s.toList = false) : unpercent s = s := by
  rw [← String.toList_inj, toList_unpercent, decodeLossy_percentBytes h]

/-- What stands on either side of a character that is no hexadecimal digit is read apart. -/
theorem decodeLossy_percentBytes_append {d : Char} (hd : isHex d = false) (hp : d ≠ '%')
    (s t : List Char) : Utf8.decodeLossy (percentBytes (s ++ d :: t)) =
      Utf8.decodeLossy (percentBytes s) ++ d :: Utf8.decodeLossy (percentBytes t) := by
  have hcode : codeAt? (d :: t) = none := by
    unfold codeAt?
    simp [hp]
  rw [percentBytes_append hd, percentBytes_cons hcode, Utf8.decodeLossy_append_char]

/-! ## Codes of slashes -/

/-- No slash is written as a percent code. -/
def NoSlashCode (s : List Char) : Prop := ¬ "%2F".toList <:+: s ∧ ¬ "%2f".toList <:+: s

instance (s : List Char) : Decidable (NoSlashCode s) := inferInstanceAs (Decidable (_ ∧ _))

theorem NoSlashCode.mono {s t : List Char} (h : NoSlashCode t) (hs : s <:+: t) : NoSlashCode s :=
  ⟨fun hi => h.1 (hi.trans hs), fun hi => h.2 (hi.trans hs)⟩

theorem hexDigit_table : ∀ n : Fin 128,
    (hexValue? (Char.ofNat n) = some 2 → Char.ofNat n = '2') ∧
      (hexValue? (Char.ofNat n) = some 15 → Char.ofNat n = 'F' ∨ Char.ofNat n = 'f') ∧
      ∀ v ∈ hexValue? (Char.ofNat n), v < 16 := by
  decide +kernel

theorem hexValue?_some {c : Char} {v : Nat} (h : hexValue? c = some v) :
    v < 16 ∧ (v = 2 → c = '2') ∧ (v = 15 → c = 'F' ∨ c = 'f') := by
  have hc : c.val < 128 := by
    by_contra hc
    have hhex := isHex_of_ge hc
    rw [isHex, h] at hhex
    cases hhex
  have htable := hexDigit_table ⟨c.toNat, by simpa [UInt32.lt_iff_toNat_lt] using hc⟩
  simp only [Char.ofNat_toNat] at htable
  exact ⟨htable.2.2 v h, fun hv => htable.1 (hv ▸ h), fun hv => htable.2.1 (hv ▸ h)⟩

theorem hexByte?_slash {a b : Char} (h : hexByte? a b = some 47) :
    a = '2' ∧ (b = 'F' ∨ b = 'f') := by
  unfold hexByte? at h
  split at h
  · next x y hx hy =>
    obtain ⟨hx16, hx2, -⟩ := hexValue?_some hx
    obtain ⟨hy16, -, hy15⟩ := hexValue?_some hy
    have hn := congrArg UInt8.toNat (Option.some.inj h)
    rw [UInt8.toNat_ofNat'] at hn
    have h47 : (47 : UInt8).toNat = 47 := rfl
    rw [h47] at hn
    exact ⟨hx2 (by omega), hy15 (by omega)⟩
  · cases h

theorem slash_of_mem_utf8EncodeChar {c : Char} (h : 47 ∈ String.utf8EncodeChar c) : c = '/' := by
  have hslash : ∀ k, k = c.val.toNat → (47 : UInt8) = UInt8.ofNat k → k < 128 → c = '/' := by
    rintro k rfl hb hk
    have hn := congrArg UInt8.toNat hb
    rw [UInt8.toNat_ofNat'] at hn
    have h47 : (47 : UInt8).toNat = 47 := rfl
    rw [h47, Nat.mod_eq_of_lt (by omega)] at hn
    exact Char.ext (UInt32.toNat_inj.mp hn.symm)
  have hhigh : ∀ k, 128 ≤ k → k < 256 → (47 : UInt8) ≠ UInt8.ofNat k := by
    intro k hk hk' hb
    have hn := congrArg UInt8.toNat hb
    rw [UInt8.toNat_ofNat', Nat.mod_eq_of_lt hk'] at hn
    have h47 : (47 : UInt8).toNat = 47 := rfl
    omega
  unfold String.utf8EncodeChar at h
  generalize c.val.toNat = n at h hslash
  simp only at h
  split_ifs at h <;> simp only [List.mem_cons, List.not_mem_nil, or_false] at h
  · exact hslash n rfl h (by omega)
  · rcases h with h | h <;> exact absurd h (hhigh _ (by omega) (by omega))
  · rcases h with h | h | h <;> exact absurd h (hhigh _ (by omega) (by omega))
  · rcases h with h | h | h | h <;> exact absurd h (hhigh _ (by omega) (by omega))

theorem slash_notMem_percentBytes {s : List Char} (h : '/' ∉ s) (hc : NoSlashCode s) :
    47 ∉ percentBytes s := by
  induction hn : s.length using Nat.strong_induction_on generalizing s with
  | _ n ih =>
    cases s with
    | nil => exact List.not_mem_nil
    | cons c s =>
      rw [List.length_cons] at hn
      rw [List.mem_cons, not_or] at h
      cases hcode : codeAt? (c :: s) with
      | none =>
        rw [percentBytes_cons hcode, List.mem_append, not_or]
        exact ⟨fun hm => h.1 (slash_of_mem_utf8EncodeChar hm).symm,
          ih s.length (by omega) h.2 (hc.mono (List.suffix_cons c s).isInfix) rfl⟩
      | some b =>
        unfold codeAt? at hcode
        split at hcode
        · next a a' rest he =>
          cases he
          have hrest : rest <:+: '%' :: a :: a' :: rest := ⟨['%', a, a'], [], by simp⟩
          rw [percentBytes_code hcode, List.mem_cons, not_or]
          constructor
          · rintro rfl
            obtain ⟨rfl, rfl | rfl⟩ := hexByte?_slash hcode
            · exact hc.1 ⟨[], rest, rfl⟩
            · exact hc.2 ⟨[], rest, rfl⟩
          · refine ih rest.length ?_ ?_ (hc.mono hrest) rfl
            · rw [List.length_cons, List.length_cons] at hn
              omega
            · exact fun hm => h.2 (List.mem_cons_of_mem _ (List.mem_cons_of_mem _ hm))
        · cases hcode

end DocumentMedia.Text
