import DocumentMedia.Json.Read
import Mathlib.Data.List.Basic

/-! # Reading what was written

A value made of texts, words, lists and objects without repeated names is read back from its text.
-/
namespace DocumentMedia.JsonValue

open DocumentMedia.Text (hexValue?)

/-! ## Texts -/

theorem hexValue?_digitChar : ∀ d < 16, hexValue? (Nat.digitChar d) = some d := by
  decide

theorem hexValue?_hexDigit (n : Nat) : hexValue? (hexDigit n) = some (n % 16) :=
  hexValue?_digitChar _ (Nat.mod_lt n (by decide))

def utf16 (c : Char) : List Nat :=
  if c.toNat < 0x10000 then [c.toNat]
  else [0xD800 + (c.toNat - 0x10000) / 1024, 0xDC00 + (c.toNat - 0x10000) % 1024]

theorem units_unitEscape {n : Nat} (hn : n < 65536) (rest : List Char) :
    units (unitEscape n ++ rest) = (units rest).map fun (ns, r) => (n :: ns, r) := by
  have hvalue : (((n / 4096 % 16) * 16 + n / 256 % 16) * 16 + n / 16 % 16) * 16 + n % 16 = n := by
    omega
  simp only [unitEscape, List.cons_append, List.nil_append, units, unit?, hexValue?_hexDigit,
    Option.bind_eq_bind, Option.bind_some, hvalue]

theorem units_plain {c : Char} (hq : c ≠ '"') (hb : c ≠ '\\') (hc : 32 ≤ c.toNat)
    (rest : List Char) :
    units (c :: rest) = (units rest).map fun (ns, r) => (c.toNat :: ns, r) := by
  have hplain : ¬ (c.toNat < 32 || c = '\\') := by
    simp only [hb, decide_false, Bool.or_false, decide_eq_true_eq]
    omega
  rw [units, if_neg hplain]
  · exact hq
  · rintro a b c' d rest' rfl
    exact absurd rfl hb
  · rintro c' rest' rfl
    exact absurd rfl hb

theorem toNat_lt (c : Char) : c.toNat < 0x110000 := by
  have := c.valid
  simp only [UInt32.isValidChar, Nat.isValidChar] at this
  change c.val.toNat < 0x110000
  omega

theorem units_escape (c : Char) (rest : List Char) :
    units (escape c ++ rest) = (units rest).map fun (ns, r) => (utf16 c ++ ns, r) := by
  by_cases hc : c ∈ shortEscapes.map (·.2)
  · simp only [shortEscapes, List.map_cons, List.map_nil, List.mem_cons, List.not_mem_nil,
      or_false] at hc
    rcases hc with rfl | rfl | rfl | rfl | rfl | rfl | rfl <;> rfl
  · have hfind : shortEscapes.find? (·.2 = c) = none := by
      rw [List.find?_eq_none]
      intro p hp he
      exact hc (List.mem_map.mpr ⟨p, hp, by simpa using he⟩)
    have hlt := toNat_lt c
    simp only [escape, hfind, utf16]
    split
    · next hplain =>
      simp only [Bool.and_eq_true, decide_eq_true_eq] at hplain
      rw [if_pos (by omega)]
      apply units_plain _ _ hplain.1
      · rintro rfl
        exact hc (by decide)
      · rintro rfl
        exact hc (by decide)
    · split
      · next hsmall => exact units_unitEscape hsmall rest
      · rw [List.append_assoc, units_unitEscape (by omega), units_unitEscape (by omega)]
        simp only [Option.map_map]
        rfl

theorem units_quoted (cs rest : List Char) :
    units (cs.flatMap escape ++ '"' :: rest) = some (cs.flatMap utf16, rest) := by
  induction cs with
  | nil => rfl
  | cons c cs ih =>
    rw [List.flatMap_cons, List.append_assoc, units_escape, ih]
    rfl

theorem not_surrogate (c : Char) : isHigh c.toNat = false ∧ isLow c.toNat = false := by
  have hv := c.valid
  simp only [UInt32.isValidChar, Nat.isValidChar] at hv
  change isHigh c.val.toNat = false ∧ isLow c.val.toNat = false
  simp only [isHigh, isLow, Bool.and_eq_false_iff, decide_eq_false_iff_not]
  omega

theorem join_utf16 (c : Char) (ns : List Nat) : join (utf16 c ++ ns) = some c :: join ns := by
  unfold utf16
  split
  · obtain ⟨hh, hl⟩ := not_surrogate c
    cases ns with
    | nil => simp [join, hh, hl]
    | cons m ns => simp [join, hh, hl]
  · next hbig =>
    have hlt := toNat_lt c
    have hhigh : isHigh (0xD800 + (c.toNat - 0x10000) / 1024) = true := by
      simp only [isHigh, Bool.and_eq_true, decide_eq_true_eq]
      omega
    have hlow : isLow (0xDC00 + (c.toNat - 0x10000) % 1024) = true := by
      simp only [isLow, Bool.and_eq_true, decide_eq_true_eq]
      omega
    have hnat : 0x10000 + (0xD800 + (c.toNat - 0x10000) / 1024 - 0xD800) * 1024 +
        (0xDC00 + (c.toNat - 0x10000) % 1024 - 0xDC00) = c.toNat := by
      omega
    simp only [List.cons_append, List.nil_append, join, hhigh, hlow, Bool.and_self, if_true, hnat,
      Char.ofNat_toNat]

theorem join_flatMap (cs : List Char) : join (cs.flatMap utf16) = cs.map some := by
  induction cs with
  | nil => rfl
  | cons c cs ih => rw [List.flatMap_cons, join_utf16, ih, List.map_cons]

theorem ofUnits_utf16 (s : String) : ofUnits (s.toList.flatMap utf16) = .text s := by
  have hid : (s.toList.map some).mapM id = some s.toList := by
    induction s.toList with
    | nil => rfl
    | cons c cs ih => simp [ih]
  simp [ofUnits, join_flatMap, hid]

theorem nameOf_utf16 (s : String) : nameOf (s.toList.flatMap utf16) = s := by
  simp [nameOf, join_flatMap, Function.comp_def]

/-! ## Values -/

mutual

/-- Values without numbers, broken texts and repeated names. -/
def Plain : JsonValue → Prop
  | .null | .bool _ | .text _ => True
  | .number _ | .brokenText => False
  | .list vs => PlainItems vs
  | .object fs => (Assoc.keys fs).Nodup ∧ PlainFields fs

def PlainItems : List JsonValue → Prop
  | [] => True
  | v :: vs => Plain v ∧ PlainItems vs

def PlainFields : List (String × JsonValue) → Prop
  | [] => True
  | (_, v) :: fs => Plain v ∧ PlainFields fs

end

theorem dropSpaces_cons {c : Char} (h : isSpace c = false) (s : List Char) :
    dropSpaces (c :: s) = c :: s := by
  simp [dropSpaces, h]

theorem dropSpaces_indent (depth : Nat) (s : List Char) :
    dropSpaces (indent depth ++ s) = dropSpaces s := by
  apply List.dropWhile_append_of_pos
  intro c hc
  simp only [indent, List.mem_cons, List.mem_replicate] at hc
  rcases hc with rfl | ⟨-, rfl⟩ <;> rfl

/-- The first character of a written value is neither a blank nor a closing bracket. -/
theorem write_head (depth : Nat) {v : JsonValue} (hv : Plain v) :
    ∃ c cs, write depth v = c :: cs ∧ isSpace c = false ∧ c ≠ ']' ∧ c ≠ '\x7d' := by
  cases v with
  | null => exact ⟨'n', "ull".toList, by simp [write], by decide, by decide, by decide⟩
  | bool b =>
    cases b
    · exact ⟨'f', "alse".toList, by simp [write], by decide, by decide, by decide⟩
    · exact ⟨'t', "rue".toList, by simp [write], by decide, by decide, by decide⟩
  | number => cases hv
  | text s => exact ⟨'"', _, by rw [write, quote]; rfl, by decide, by decide, by decide⟩
  | brokenText => cases hv
  | list vs =>
    cases vs with
    | nil => exact ⟨'[', [']'], by simp [write], by decide, by decide, by decide⟩
    | cons v vs => exact ⟨'[', _, by rw [write]; rfl, by decide, by decide, by decide⟩
  | object fs =>
    cases fs with
    | nil => exact ⟨'\x7b', ['\x7d'], by simp [write], by decide, by decide, by decide⟩
    | cons f fs =>
      obtain ⟨k, v⟩ := f
      exact ⟨'\x7b', _, by rw [write]; rfl, by decide, by decide, by decide⟩

theorem readValue_quote (fuel : Nat) (s : String) (rest : List Char) :
    readValue (fuel + 1) (quote s ++ rest) = some (.text s, rest) := by
  have hquote : quote s ++ rest = '"' :: (s.toList.flatMap escape ++ '"' :: rest) := by
    simp [quote]
  rw [hquote, readValue, units_quoted, Option.map_some]
  simp only [ofUnits_utf16]

/-- Behind an opening bracket there is an item, or the list is empty. -/
theorem readValue_list {fuel : Nat} {s r : List Char} {vs : List JsonValue} {c : Char}
    {cs : List Char} (hs : dropSpaces s = c :: cs) (hc : c ≠ ']')
    (h : readItems fuel (c :: cs) = some (vs, r)) :
    readValue (fuel + 1) ('[' :: s) = some (.list vs, r) := by
  rw [readValue, hs]
  split
  · next he => exact absurd (List.cons.inj he).1 hc
  · rw [h, Option.map_some]

theorem readValue_object {fuel : Nat} {s r : List Char} {fs : List (String × JsonValue)}
    {cs : List Char} (hs : dropSpaces s = '"' :: cs)
    (h : readFields fuel ('"' :: cs) = some (fs, r)) (hn : (Assoc.keys fs).Nodup) :
    readValue (fuel + 1) ('\x7b' :: s) = some (.object fs, r) := by
  rw [readValue, hs]
  split
  · next he => cases he
  · rw [h, Option.map_some]
    simp only [Assoc.ofPairs_of_nodup hn]

mutual

/-- A written value is read from the start of a text. -/
theorem readValue_write (v : JsonValue) (hv : Plain v) (fuel depth : Nat) (rest : List Char)
    (hf : (write depth v).length ≤ fuel) :
    readValue fuel (write depth v ++ rest) = some (v, rest) := by
  obtain ⟨c, cs, hhead, -⟩ := write_head depth hv
  obtain ⟨fuel, rfl⟩ : ∃ n, fuel = n + 1 :=
    Nat.exists_eq_succ_of_ne_zero (by rw [hhead, List.length_cons] at hf; omega)
  match v with
  | .null => rfl
  | .bool true => rfl
  | .bool false => rfl
  | .text s => rw [write, readValue_quote]
  | .list [] => rw [write]; rfl
  | .object [] => rw [write]; rfl
  | .list (v :: vs) =>
    obtain ⟨c, cs, hc, hspace, hclose, -⟩ := write_head (depth + 1) hv.1
    rw [write] at hf ⊢
    simp only [List.length_append, List.length_cons, List.length_nil] at hf
    have hitems := readItems_write v vs hv.1 hv.2 fuel (depth + 1) depth rest (by omega)
    simp only [List.append_assoc, List.cons_append, List.nil_append] at hitems ⊢
    rw [hc, List.cons_append] at hitems ⊢
    refine readValue_list ?_ hclose hitems
    rw [dropSpaces_indent, dropSpaces_cons hspace]
  | .object ((k, v) :: fs) =>
    rw [write] at hf ⊢
    simp only [List.length_append, List.length_cons, List.length_nil] at hf
    have hfields := readFields_write k v fs hv.2.1 hv.2.2 fuel (depth + 1) depth rest (by omega)
    simp only [quote, List.append_assoc, List.cons_append, List.nil_append] at hfields ⊢
    refine readValue_object ?_ hfields hv.1
    rw [dropSpaces_indent, dropSpaces_cons (by decide)]
termination_by fuel

theorem readItems_write (v : JsonValue) (vs : List JsonValue) (hv : Plain v) (hvs : PlainItems vs)
    (fuel depth outer : Nat) (rest : List Char)
    (hf : (write depth v).length + (writeItems depth vs).length < fuel) :
    readItems fuel (write depth v ++ (writeItems depth vs ++ (indent outer ++ ']' :: rest))) =
      some (v :: vs, rest) := by
  obtain ⟨fuel, rfl⟩ : ∃ n, fuel = n + 1 := Nat.exists_eq_succ_of_ne_zero (by omega)
  have hvalue := readValue_write v hv fuel depth
    (writeItems depth vs ++ (indent outer ++ ']' :: rest)) (by omega)
  rw [readItems, hvalue]
  simp only [Option.bind_eq_bind, Option.bind_some]
  match vs with
  | [] =>
    rw [writeItems, List.nil_append, dropSpaces_indent, dropSpaces_cons (by decide)]
    rfl
  | v' :: vs =>
    obtain ⟨c, cs, hc, hspace, -⟩ := write_head depth hvs.1
    have hnext := readItems_write v' vs hvs.1 hvs.2 fuel depth outer rest (by
      simp only [writeItems, List.length_append, List.length_cons] at hf
      omega)
    simp only [writeItems, List.append_assoc, List.cons_append]
    rw [dropSpaces_cons (by decide)]
    simp only
    rw [dropSpaces_indent]
    rw [hc] at hnext ⊢
    rw [List.cons_append, dropSpaces_cons hspace, ← List.cons_append, hnext, Option.map_some]
termination_by fuel

theorem readFields_write (k : String) (v : JsonValue) (fs : List (String × JsonValue))
    (hv : Plain v) (hfs : PlainFields fs) (fuel depth outer : Nat) (rest : List Char)
    (hf : (quote k).length + (write depth v).length + (writeFields depth fs).length < fuel) :
    readFields fuel (quote k ++ (": ".toList ++ (write depth v ++
      (writeFields depth fs ++ (indent outer ++ '\x7d' :: rest))))) = some ((k, v) :: fs, rest) := by
  obtain ⟨fuel, rfl⟩ : ∃ n, fuel = n + 1 := Nat.exists_eq_succ_of_ne_zero (by omega)
  have hvalue := readValue_write v hv fuel depth
    (writeFields depth fs ++ (indent outer ++ '\x7d' :: rest)) (by omega)
  obtain ⟨c, cs, hc, hspace, -⟩ := write_head depth hv
  have hquote : ∀ s, quote k ++ s = '"' :: (k.toList.flatMap escape ++ '"' :: s) := by
    simp [quote]
  have hcolon : ": ".toList = [':', ' '] := rfl
  have hblank : ∀ s, dropSpaces (' ' :: (write depth v ++ s)) = write depth v ++ s := by
    intro s
    have hdrop : dropSpaces (' ' :: (write depth v ++ s)) = dropSpaces (write depth v ++ s) := rfl
    rw [hdrop, hc, List.cons_append, dropSpaces_cons hspace]
  rw [hquote, readFields, units_quoted]
  simp only [Option.bind_eq_bind, Option.bind_some, hcolon, List.cons_append, List.nil_append]
  rw [dropSpaces_cons (by decide)]
  simp only
  rw [hblank, hvalue, nameOf_utf16]
  simp only [Option.bind_some]
  match fs with
  | [] =>
    rw [writeFields, List.nil_append, dropSpaces_indent, dropSpaces_cons (by decide)]
    rfl
  | (k', v') :: fs =>
    have hnext := readFields_write k' v' fs hfs.1 hfs.2 fuel depth outer rest (by
      simp only [writeFields, List.length_append, List.length_cons] at hf
      omega)
    simp only [writeFields, List.append_assoc, List.cons_append]
    rw [dropSpaces_cons (by decide)]
    simp only
    rw [dropSpaces_indent]
    rw [show quote k' = '"' :: (k'.toList.flatMap escape ++ ['"']) by simp [quote]] at hnext ⊢
    rw [List.cons_append, dropSpaces_cons (by decide), ← List.cons_append, hnext, Option.map_some]
termination_by fuel

end

/-! ## Line ends -/

theorem hexDigit_ne_cr (n : Nat) : hexDigit n ≠ '\r' := by
  have hdigit : ∀ d < 16, Nat.digitChar d ≠ '\r' := by decide
  exact hdigit _ (Nat.mod_lt n (by decide))

theorem cr_notMem_unitEscape (n : Nat) : '\r' ∉ unitEscape n := by
  intro h
  simp only [unitEscape, List.mem_cons, List.not_mem_nil, or_false, Char.reduceEq, false_or] at h
  rcases h with h | h | h | h <;> exact hexDigit_ne_cr _ h.symm

theorem cr_notMem_escape (c : Char) : '\r' ∉ escape c := by
  unfold escape
  split
  · next letter d hfind =>
    have hletter : ∀ q ∈ shortEscapes, q.1 ≠ '\r' := by decide
    have hne := hletter _ (List.mem_of_find?_eq_some hfind)
    intro h
    simp only [List.mem_cons, List.not_mem_nil, or_false, Char.reduceEq, false_or] at h
    exact hne h.symm
  · simp only
    split
    · next hplain =>
      simp only [Bool.and_eq_true, decide_eq_true_eq] at hplain
      intro h
      rw [List.mem_singleton] at h
      subst h
      exact absurd hplain.1 (by decide)
    · split
      · exact cr_notMem_unitEscape _
      · rw [List.mem_append, not_or]
        exact ⟨cr_notMem_unitEscape _, cr_notMem_unitEscape _⟩

theorem cr_notMem_quote (s : String) : '\r' ∉ quote s := by
  simp only [quote, List.mem_cons, List.mem_append, List.mem_flatMap, List.not_mem_nil, or_false,
    Char.reduceEq, false_or]
  rintro ⟨c, -, hc⟩
  exact cr_notMem_escape c hc

theorem cr_notMem_indent (depth : Nat) : '\r' ∉ indent depth := by
  simp [indent, List.mem_replicate]

mutual

theorem cr_notMem_write (v : JsonValue) (hv : Plain v) (depth : Nat) : '\r' ∉ write depth v := by
  match v with
  | .null => simp [write]
  | .bool true => simp [write]
  | .bool false => simp [write]
  | .text s => rw [write]; exact cr_notMem_quote s
  | .list [] => simp [write]
  | .object [] => simp [write]
  | .list (v :: vs) =>
    simp [write, cr_notMem_indent, cr_notMem_write v hv.1, cr_notMem_writeItems vs hv.2]
  | .object ((k, v) :: fs) =>
    simp [write, cr_notMem_indent, cr_notMem_quote, cr_notMem_write v hv.2.1,
      cr_notMem_writeFields fs hv.2.2]

theorem cr_notMem_writeItems (vs : List JsonValue) (hvs : PlainItems vs) (depth : Nat) :
    '\r' ∉ writeItems depth vs := by
  match vs with
  | [] => simp [writeItems]
  | v :: vs =>
    simp [writeItems, cr_notMem_indent, cr_notMem_write v hvs.1, cr_notMem_writeItems vs hvs.2]

theorem cr_notMem_writeFields (fs : List (String × JsonValue)) (hfs : PlainFields fs)
    (depth : Nat) : '\r' ∉ writeFields depth fs := by
  match fs with
  | [] => simp [writeFields]
  | (k, v) :: fs =>
    simp [writeFields, cr_notMem_indent, cr_notMem_quote, cr_notMem_write v hfs.1,
      cr_notMem_writeFields fs hfs.2]

end

theorem ofText?_toText {v : JsonValue} (hv : Plain v) : ofText? v.toText = some v := by
  obtain ⟨c, cs, hc, hspace, -⟩ := write_head 0 hv
  have hread := readValue_write v hv (2 * (write 0 v).length + 2) 0 [] (by omega)
  have hstart : dropSpaces (write 0 v) = write 0 v := by
    rw [hc, dropSpaces_cons hspace]
  rw [List.append_nil] at hread
  simp only [ofText?, toText, String.toList_ofList, String.length_ofList, hstart, hread]
  rfl

end DocumentMedia.JsonValue
