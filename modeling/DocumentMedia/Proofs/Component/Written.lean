import DocumentMedia.Component.Syntax
import DocumentMedia.Proofs.Text.Blank

/-! # Components as they are written

A component is written as a start tag, with attributes and blanks between its parts, and a closing
tag behind its content if it has any. Main statements: what is written in this way is read as its
name, its attributes and its trimmed content, and whatever is read begins with such a start tag. -/
namespace DocumentMedia.Component

open DocumentMedia.Text

/-! ## Names and blanks -/

theorem isNameChar_of_blank {c : Char} (h : isBlank c = true) : isNameChar c = false := by
  have hne {d : Char} (hd : isBlank d = false) : c ≠ d := fun he => by simp [he, hd] at h
  have hpoint := hne (by decide : isBlank '.' = false)
  have hcolon := hne (by decide : isBlank ':' = false)
  have hhyphen := hne (by decide : isBlank '-' = false)
  simp [isNameChar, isWord_of_blank h, hpoint, hcolon, hhyphen]

theorem isNameChar_of_start {c : Char} (h : isNameStart c = true) : isNameChar c = true := by
  have hnumber : c.toNat < 128 := by
    simp only [isNameStart, Bool.or_eq_true, Bool.and_eq_true, decide_eq_true_eq] at h
    rcases h with h | h
    · exact Nat.lt_of_le_of_lt (UInt32.le_iff_toNat_le.mp h.2) (by decide)
    · exact Nat.lt_of_le_of_lt (UInt32.le_iff_toNat_le.mp h.2) (by decide)
  have hall : ∀ n < 128, isNameStart (Char.ofNat n) = true → isNameChar (Char.ofNat n) = true := by
    decide +kernel
  rw [← Char.ofNat_toNat c] at h ⊢
  exact hall _ hnumber h

theorem isPropertyChar_of_blank {c : Char} (h : isBlank c = true) : isPropertyChar c = false := by
  simp [isPropertyChar, h]

theorem not_blank_of_propertyChar {c : Char} (h : isPropertyChar c = true) : isBlank c = false := by
  simp only [isPropertyChar, Bool.and_eq_true, Bool.not_eq_true'] at h
  exact h.1.1.1.1.1

theorem ne_equals_of_propertyChar {c : Char} (h : isPropertyChar c = true) : c ≠ '=' := by
  rintro rfl
  revert h
  decide

/-- A blank in front of a character that is none, or that character itself. -/
theorem stops_of_blanks {p : Char → Bool} (hp : ∀ c, isBlank c = true → p c = false)
    {gap : List Char} (h : Blanks gap) {d : Char} (hd : p d = false) (s : List Char) :
    ∃ c cs, gap ++ d :: s = c :: cs ∧ p c = false := by
  cases gap with
  | nil => exact ⟨d, s, rfl, hd⟩
  | cons c gap => exact ⟨c, gap ++ d :: s, rfl, hp c (h c List.mem_cons_self)⟩

/-! ## Values -/

/-- The source of an expression, in which braces are nested at most once. -/
inductive Braced : List Char → Prop where
  | nil : Braced []
  | char {c s} : c ≠ '{' → c ≠ '}' → Braced s → Braced (c :: s)
  | group {inside s} : '{' ∉ inside → '}' ∉ inside → Braced s →
      Braced ('{' :: (inside ++ '}' :: s))

inductive WrittenValue where
  | double (text : List Char)
  | single (text : List Char)
  | braces (source : List Char)

namespace WrittenValue

def text : WrittenValue → List Char
  | double v => '"' :: (v ++ ['"'])
  | single v => '\'' :: (v ++ ['\''])
  | braces v => '{' :: (v ++ ['}'])

def value : WrittenValue → PropertyValue
  | double v => .text (String.ofList v)
  | single v => .text (String.ofList v)
  | braces v => .expr (String.ofList v)

def WellFormed : WrittenValue → Prop
  | double v => '"' ∉ v
  | single v => '\'' ∉ v
  | braces v => Braced v

end WrittenValue

/-- Inside inner braces everything else is passed over. -/
theorem expression?_inside {inside : List Char} (ho : '{' ∉ inside) (hc : '}' ∉ inside)
    (rest : List Char) : expression? true (inside ++ '}' :: rest) =
      (expression? false rest).map fun r => (inside ++ '}' :: r.1, r.2) := by
  induction inside with
  | nil => simp [expression?]
  | cons c inside ih =>
    simp only [List.mem_cons, not_or] at ho hc
    rw [List.cons_append, expression?, if_neg (Ne.symm hc.1), if_neg (Ne.symm ho.1), ih ho.2 hc.2,
      Option.map_map]
    rfl

theorem Braced.read {source : List Char} (h : Braced source) (rest : List Char) :
    expression? false (source ++ '}' :: rest) = some (source, rest) := by
  induction h with
  | nil => simp [expression?]
  | char ho hc _ ih => rw [List.cons_append, expression?, if_neg hc, if_neg ho, ih, Option.map_some]
  | @group inside s ho hc _ ih =>
    have hinside := expression?_inside ho hc (s ++ '}' :: rest)
    rw [ih, Option.map_some] at hinside
    simp [expression?, hinside]

/-- What has been read: inside inner braces first the rest of them. -/
def BracedFrom (nested : Bool) (source : List Char) : Prop :=
  if nested then ∃ inside s, '{' ∉ inside ∧ '}' ∉ inside ∧ Braced s ∧ source = inside ++ '}' :: s
  else Braced source

theorem bracedFrom_of_read {nested : Bool} {s source rest : List Char}
    (h : expression? nested s = some (source, rest)) :
    BracedFrom nested source ∧ s = source ++ '}' :: rest := by
  induction s generalizing nested source with
  | nil => simp [expression?] at h
  | cons c cs ih =>
    by_cases hclose : c = '}'
    · subst hclose
      cases nested with
      | false =>
        simp only [expression?, if_true, Bool.false_eq_true, if_false, Option.some.injEq,
          Prod.mk.injEq] at h
        obtain ⟨rfl, rfl⟩ := h
        exact ⟨Braced.nil, rfl⟩
      | true =>
        simp only [expression?, if_true] at h
        obtain ⟨⟨inside, r⟩, hread, he⟩ := Option.map_eq_some_iff.mp h
        cases he
        obtain ⟨hb, rfl⟩ := ih hread
        exact ⟨⟨[], inside, by simp, by simp, hb, rfl⟩, rfl⟩
    · by_cases hopen : c = '{'
      · subst hopen
        cases nested with
        | true => simp [expression?] at h
        | false =>
          rw [expression?, if_neg hclose, if_pos rfl] at h
          simp only [Bool.false_eq_true, if_false] at h
          obtain ⟨⟨inside, r⟩, hread, he⟩ := Option.map_eq_some_iff.mp h
          cases he
          obtain ⟨⟨inner, t, ho, hc, ht, rfl⟩, rfl⟩ := ih hread
          exact ⟨Braced.group ho hc ht, rfl⟩
      · rw [expression?, if_neg hclose, if_neg hopen] at h
        obtain ⟨⟨inside, r⟩, hread, he⟩ := Option.map_eq_some_iff.mp h
        cases he
        obtain ⟨hb, rfl⟩ := ih hread
        refine ⟨?_, rfl⟩
        cases nested with
        | false => exact Braced.char hopen hclose hb
        | true =>
          obtain ⟨inner, t, ho, hc, ht, rfl⟩ := hb
          have ho' : '{' ∉ c :: inner := by simp [Ne.symm hopen, ho]
          have hc' : '}' ∉ c :: inner := by simp [Ne.symm hclose, hc]
          exact ⟨c :: inner, t, ho', hc', ht, rfl⟩

instance (source : List Char) : Decidable (Braced source) :=
  decidable_of_iff (expression? false (source ++ ['}']) = some (source, []))
    ⟨fun h => (bracedFrom_of_read h).1, fun h => h.read []⟩

instance : (v : WrittenValue) → Decidable v.WellFormed
  | .double v => inferInstanceAs (Decidable ('"' ∉ v))
  | .single v => inferInstanceAs (Decidable ('\'' ∉ v))
  | .braces v => inferInstanceAs (Decidable (Braced v))

theorem untilQuote?_of_notMem {q : Char} {v : List Char} (h : q ∉ v) (rest : List Char) :
    untilQuote? q (v ++ q :: rest) = some (v, rest) := by
  unfold untilQuote?
  rw [dropWhile_run (ne_of_notMem h) (by simp), takeWhile_run (ne_of_notMem h) (by simp)]

theorem untilQuote?_eq_some {q : Char} {s v rest : List Char}
    (h : untilQuote? q s = some (v, rest)) : q ∉ v ∧ s = v ++ q :: rest := by
  unfold untilQuote? at h
  split at h
  · next d r hd =>
    cases h
    have hstop := List.head?_dropWhile_not (fun c => decide (c ≠ q)) s
    rw [hd] at hstop
    obtain rfl : d = q := by simpa using hstop
    have hsplit := List.takeWhile_append_dropWhile (p := fun c => decide (c ≠ d)) (l := s)
    rw [hd] at hsplit
    refine ⟨fun hq => ?_, hsplit.symm⟩
    simpa using List.mem_takeWhile_imp hq
  · cases h

/-- A value with its equals sign, and the blanks around that sign. -/
structure Assigned where
  before : List Char
  behind : List Char
  value : WrittenValue

namespace Assigned

def text (a : Assigned) : List Char := a.before ++ '=' :: (a.behind ++ a.value.text)

structure WellFormed (a : Assigned) : Prop where
  before : Blanks a.before
  behind : Blanks a.behind
  value : a.value.WellFormed

instance (a : Assigned) : Decidable a.WellFormed :=
  decidable_of_iff (Blanks a.before ∧ Blanks a.behind ∧ a.value.WellFormed)
    ⟨fun ⟨hbefore, hbehind, hvalue⟩ => ⟨hbefore, hbehind, hvalue⟩,
      fun h => ⟨h.before, h.behind, h.value⟩⟩

theorem WellFormed.read {a : Assigned} (h : a.WellFormed) (rest : List Char) :
    value? (a.text ++ rest) = some (a.value.value, rest) := by
  obtain ⟨before, behind, v⟩ := a
  obtain ⟨hbefore, hbehind, hv⟩ := h
  simp only [text, List.append_assoc, List.cons_append]
  unfold value?
  rw [stripStart_solid hbefore (by decide)]
  cases v with
  | double v =>
    simp only [WrittenValue.text, List.cons_append, List.append_assoc, List.nil_append,
      stripStart_solid hbehind (by decide : isBlank '"' = false), untilQuote?_of_notMem hv]
    rfl
  | single v =>
    simp only [WrittenValue.text, List.cons_append, List.append_assoc, List.nil_append,
      stripStart_solid hbehind (by decide : isBlank '\'' = false), untilQuote?_of_notMem hv]
    rfl
  | braces v =>
    simp only [WrittenValue.text, List.cons_append, List.append_assoc, List.nil_append,
      stripStart_solid hbehind (by decide : isBlank '{' = false), Braced.read hv]
    rfl

theorem of_read {s rest : List Char} {v : PropertyValue} (h : value? s = some (v, rest)) :
    ∃ a : Assigned, a.WellFormed ∧ s = a.text ++ rest ∧ a.value.value = v := by
  obtain ⟨before, hbefore, hs⟩ := exists_stripStart s
  unfold value? at h
  split at h
  · next s' hs' =>
    obtain ⟨behind, hbehind, hs''⟩ := exists_stripStart s'
    have hwritten : ∀ w : WrittenValue, w.WellFormed → stripStart s' = w.text ++ rest →
        w.value = v → ∃ a : Assigned, a.WellFormed ∧ s = a.text ++ rest ∧ a.value.value = v := by
      intro w hw htext hvalue
      refine ⟨⟨before, behind, w⟩, ⟨hbefore, hbehind, hw⟩, ?_, hvalue⟩
      rw [hs, hs', hs'', htext]
      simp [text]
    split at h
    · next r hr =>
      obtain ⟨⟨u, r'⟩, hread, he⟩ := Option.map_eq_some_iff.mp h
      cases he
      obtain ⟨hu, rfl⟩ := untilQuote?_eq_some hread
      exact hwritten (.double u) hu (by rw [hr]; simp [WrittenValue.text]) rfl
    · next r hr =>
      obtain ⟨⟨u, r'⟩, hread, he⟩ := Option.map_eq_some_iff.mp h
      cases he
      obtain ⟨hu, rfl⟩ := untilQuote?_eq_some hread
      exact hwritten (.single u) hu (by rw [hr]; simp [WrittenValue.text]) rfl
    · next r hr =>
      obtain ⟨⟨u, r'⟩, hread, he⟩ := Option.map_eq_some_iff.mp h
      cases he
      obtain ⟨hu, rfl⟩ := bracedFrom_of_read hread
      exact hwritten (.braces u) hu (by rw [hr]; simp [WrittenValue.text]) rfl
    · cases h
  · cases h

end Assigned

/-! ## Attributes -/

/-- An attribute with the blanks in front of it. -/
structure WrittenProperty where
  gap : List Char
  name : List Char
  assigned : Option Assigned

/-- No name and no value goes on here. -/
structure Follows (rest : List Char) : Prop where
  stops : ∃ c cs, rest = c :: cs ∧ isPropertyChar c = false
  noValue : value? rest = none

theorem value?_eq_none {s cs : List Char} {c : Char} (h : stripStart s = c :: cs) (hc : c ≠ '=') :
    value? s = none := by
  unfold value?
  rw [h]
  split
  · next he => exact absurd (List.cons.inj he).1 hc
  · rfl

theorem follows_of_gap {gap s : List Char} {c : Char} (hgap : Blanks gap) (hc : isBlank c = false)
    (hequals : c ≠ '=') (hstop : gap = [] → isPropertyChar c = false) :
    Follows (gap ++ c :: s) := by
  refine ⟨?_, value?_eq_none (stripStart_solid hgap hc) hequals⟩
  cases gap with
  | nil => exact ⟨c, s, rfl, hstop rfl⟩
  | cons d gap => exact ⟨d, _, rfl, isPropertyChar_of_blank (hgap d List.mem_cons_self)⟩

namespace WrittenProperty

def text (p : WrittenProperty) : List Char :=
  p.gap ++ (p.name ++ (p.assigned.map Assigned.text).getD [])

def property (p : WrittenProperty) : Property :=
  ⟨String.ofList p.name, p.assigned.map (·.value.value)⟩

structure WellFormed (p : WrittenProperty) : Prop where
  gap_ne_nil : p.gap ≠ []
  gap : Blanks p.gap
  name_ne_nil : p.name ≠ []
  name : ∀ c ∈ p.name, isPropertyChar c = true
  assigned : ∀ a ∈ p.assigned, a.WellFormed

instance (p : WrittenProperty) : Decidable p.WellFormed :=
  decidable_of_iff (p.gap ≠ [] ∧ Blanks p.gap ∧ p.name ≠ [] ∧
      p.name.all isPropertyChar = true ∧ ∀ a ∈ p.assigned, a.WellFormed)
    ⟨fun ⟨hne, hgap, hname, hchars, hassigned⟩ =>
        ⟨hne, hgap, hname, List.all_eq_true.mp hchars, hassigned⟩,
      fun h => ⟨h.gap_ne_nil, h.gap, h.name_ne_nil, List.all_eq_true.mpr h.name, h.assigned⟩⟩

variable {p : WrittenProperty}

/-- An attribute is read up to what stops its name. -/
theorem WellFormed.read_name (h : p.WellFormed) {tail : List Char}
    (htail : ∃ c cs, tail = c :: cs ∧ isPropertyChar c = false) :
    property? (p.gap ++ (p.name ++ tail)) =
      match value? tail with
      | some (v, rest) => some (⟨String.ofList p.name, some v⟩, rest)
      | none => some (⟨String.ofList p.name, none⟩, tail) := by
  obtain ⟨c, cs, rfl, hc⟩ := htail
  obtain ⟨b, gap, hgap⟩ := List.exists_cons_of_ne_nil h.gap_ne_nil
  obtain ⟨d, ds, hname⟩ := List.exists_cons_of_ne_nil h.name_ne_nil
  have hblanks : Blanks (b :: gap) := hgap ▸ h.gap
  have hd : isBlank d = false :=
    not_blank_of_propertyChar (h.name d (hname ▸ List.mem_cons_self))
  have hstrip : stripStart (gap ++ (p.name ++ c :: cs)) = p.name ++ c :: cs := by
    rw [hname]
    exact stripStart_solid (fun e he => hblanks e (List.mem_cons_of_mem _ he)) hd
  have htake := takeWhile_run h.name hc cs
  have hdrop := dropWhile_run h.name hc cs
  rw [hgap]
  unfold property?
  simp only [List.cons_append, hblanks b List.mem_cons_self, if_true, hstrip, htake, hdrop]
  split
  · next hnil => exact absurd hnil h.name_ne_nil
  · cases value? (c :: cs) <;> rfl

theorem WellFormed.read (h : p.WellFormed) {rest : List Char} (hrest : Follows rest) :
    property? (p.text ++ rest) = some (p.property, rest) := by
  unfold text property
  cases ha : p.assigned with
  | none =>
    have hread := h.read_name hrest.stops
    rw [hrest.noValue] at hread
    simpa using hread
  | some a =>
    have hwell := h.assigned a ha
    have hstops : ∃ c cs, a.text ++ rest = c :: cs ∧ isPropertyChar c = false := by
      rw [Assigned.text, List.append_assoc, List.cons_append]
      exact stops_of_blanks (fun _ => isPropertyChar_of_blank) hwell.before (by decide) _
    have hread := h.read_name hstops
    rw [hwell.read rest] at hread
    simpa using hread

theorem of_read {s rest : List Char} {q : Property} (h : property? s = some (q, rest)) :
    ∃ p : WrittenProperty, p.WellFormed ∧ s = p.text ++ rest ∧ p.property = q := by
  unfold property? at h
  split at h
  · cases h
  · next c cs =>
    split at h
    · next hc =>
      dsimp only at h
      obtain ⟨gap, hgap, hcs⟩ := exists_stripStart cs
      have hsplit := List.takeWhile_append_dropWhile (p := isPropertyChar) (l := stripStart cs)
      split at h
      · cases h
      · next name hne =>
        have hwell : ∀ assigned : Option Assigned, (∀ a ∈ assigned, a.WellFormed) →
            WellFormed ⟨c :: gap, (stripStart cs).takeWhile isPropertyChar, assigned⟩ := by
          intro assigned ha
          exact ⟨List.cons_ne_nil c gap, List.forall_mem_cons.mpr ⟨hc, hgap⟩, hne,
            fun d hd => List.mem_takeWhile_imp hd, ha⟩
        have htext : c :: cs = (c :: gap) ++ ((stripStart cs).takeWhile isPropertyChar ++
            (stripStart cs).dropWhile isPropertyChar) := by
          rw [hsplit, List.cons_append, ← hcs]
        split at h
        · next v r hv =>
          cases h
          obtain ⟨a, ha, hr, rfl⟩ := Assigned.of_read hv
          refine ⟨⟨c :: gap, _, some a⟩, hwell (some a) (by rintro _ ⟨⟩; exact ha), ?_, rfl⟩
          rw [htext, hr]
          simp [text]
        · cases h
          refine ⟨⟨c :: gap, _, none⟩, hwell none (by rintro _ ⟨⟩), ?_, rfl⟩
          rw [htext]
          simp [text]
    · cases h

theorem WellFormed.follows (h : p.WellFormed) (rest : List Char) : Follows (p.text ++ rest) := by
  obtain ⟨d, ds, hname⟩ := List.exists_cons_of_ne_nil h.name_ne_nil
  have hd := h.name d (hname ▸ List.mem_cons_self)
  have hgap : p.gap = [] → isPropertyChar d = false := fun he => absurd he h.gap_ne_nil
  unfold text
  rw [hname, List.append_assoc, List.cons_append, List.cons_append]
  exact follows_of_gap h.gap (not_blank_of_propertyChar hd) (ne_equals_of_propertyChar hd) hgap

end WrittenProperty

/-- No further attribute is read here. -/
structure EndsProperties (tail : List Char) : Prop extends Follows tail where
  noProperty : property? tail = none

def propertiesText (ps : List WrittenProperty) : List Char := ps.flatMap (·.text)

theorem length_le_propertiesText {ps : List WrittenProperty} (h : ∀ p ∈ ps, p.WellFormed) :
    ps.length ≤ (propertiesText ps).length := by
  induction ps with
  | nil => exact Nat.le_refl 0
  | cons p ps ih =>
    rw [List.forall_mem_cons] at h
    have hgap := List.length_pos_iff.mpr h.1.gap_ne_nil
    have hrest := ih h.2
    unfold propertiesText at hrest ⊢
    rw [List.flatMap_cons, List.length_append, List.length_cons, WrittenProperty.text,
      List.length_append]
    omega

theorem propertiesFrom_written {ps : List WrittenProperty} (h : ∀ p ∈ ps, p.WellFormed)
    {tail : List Char} (htail : EndsProperties tail) {fuel : Nat} (hfuel : ps.length ≤ fuel) :
    propertiesFrom fuel (propertiesText ps ++ tail) = (ps.map (·.property), tail) := by
  induction ps generalizing fuel with
  | nil =>
    cases fuel with
    | zero => rfl
    | succ fuel =>
      unfold propertiesFrom
      rw [propertiesText, List.flatMap_nil, List.nil_append, htail.noProperty]
      rfl
  | cons p ps ih =>
    rw [List.forall_mem_cons] at h
    rw [List.length_cons] at hfuel
    obtain ⟨fuel, rfl⟩ : ∃ k, fuel = k + 1 := ⟨fuel - 1, by omega⟩
    have hfollows : Follows (propertiesText ps ++ tail) := by
      cases ps with
      | nil => exact htail.toFollows
      | cons q qs =>
        rw [propertiesText, List.flatMap_cons, List.append_assoc]
        exact (h.2 q List.mem_cons_self).follows _
    have hfirst := h.1.read hfollows
    have hrest := ih h.2 (show ps.length ≤ fuel by omega)
    rw [propertiesText, List.flatMap_cons, List.append_assoc, ← propertiesText]
    unfold propertiesFrom
    rw [hfirst]
    dsimp only
    rw [hrest]
    rfl

theorem properties_written {ps : List WrittenProperty} (h : ∀ p ∈ ps, p.WellFormed)
    {tail : List Char} (htail : EndsProperties tail) :
    properties (propertiesText ps ++ tail) = (ps.map (·.property), tail) := by
  have hlength := length_le_propertiesText h
  refine propertiesFrom_written h htail ?_
  rw [List.length_append]
  omega

theorem exists_written_properties {fuel : Nat} {s rest : List Char} {qs : List Property}
    (h : propertiesFrom fuel s = (qs, rest)) : ∃ ps : List WrittenProperty,
      (∀ p ∈ ps, p.WellFormed) ∧ s = propertiesText ps ++ rest ∧ ps.map (·.property) = qs := by
  induction fuel generalizing s qs with
  | zero =>
    cases h
    exact ⟨[], by simp, rfl, rfl⟩
  | succ fuel ih =>
    unfold propertiesFrom at h
    split at h
    · cases h
      exact ⟨[], by simp, rfl, rfl⟩
    · next q r hq =>
      obtain ⟨p, hp, rfl, rfl⟩ := WrittenProperty.of_read hq
      cases hr : propertiesFrom fuel r with
      | mk qs' rest' =>
        rw [hr] at h
        cases h
        obtain ⟨ps, hps, rfl, rfl⟩ := ih hr
        refine ⟨p :: ps, List.forall_mem_cons.mpr ⟨hp, hps⟩, ?_, rfl⟩
        simp [propertiesText]

/-! ## Start tags -/

/-- The name of a component. -/
structure IsComponentName (name : List Char) : Prop where
  start : ∃ c ∈ name.head?, isNameStart c = true
  chars : ∀ c ∈ name, isNameChar c = true

instance (name : List Char) : Decidable (IsComponentName name) :=
  decidable_of_iff (name.head?.any isNameStart = true ∧ name.all isNameChar = true)
    ⟨fun ⟨hstart, hchars⟩ =>
        ⟨(Option.any_eq_true _ _).mp hstart, List.all_eq_true.mp hchars⟩,
      fun h => ⟨(Option.any_eq_true _ _).mpr h.start, List.all_eq_true.mpr h.chars⟩⟩

theorem IsComponentName.exists_cons {name : List Char} (h : IsComponentName name) :
    ∃ c cs, name = c :: cs ∧ isNameStart c = true := by
  obtain ⟨c, hc, hstart⟩ := h.start
  cases name with
  | nil => cases hc
  | cons d ds =>
    cases hc
    exact ⟨c, ds, rfl, hstart⟩

structure StartTag where
  name : List Char
  properties : List WrittenProperty
  /-- The blanks before the end of the tag. -/
  gap : List Char
  slash : Bool

namespace StartTag

def mark (t : StartTag) : List Char := if t.slash then ['/', '>'] else ['>']

def text (t : StartTag) : List Char :=
  '<' :: (t.name ++ (propertiesText t.properties ++ (t.gap ++ t.mark)))

structure WellFormed (t : StartTag) : Prop where
  name : IsComponentName t.name
  properties : ∀ p ∈ t.properties, p.WellFormed
  gap : Blanks t.gap

instance (t : StartTag) : Decidable t.WellFormed :=
  decidable_of_iff (IsComponentName t.name ∧ (∀ p ∈ t.properties, p.WellFormed) ∧ Blanks t.gap)
    ⟨fun ⟨hname, hproperties, hgap⟩ => ⟨hname, hproperties, hgap⟩,
      fun h => ⟨h.name, h.properties, h.gap⟩⟩

/-- The content that is read behind a start tag, none of it for elements without a closing tag. -/
def content? (t : StartTag) (rest : List Char) : Option (List Char) :=
  match Component.content? t.name rest with
  | some inner => some inner
  | none =>
    if rest.isEmpty && (t.slash || voidTags.contains (lowerString (String.ofList t.name))) then
      some []
    else none

/-- The component that a start tag and its content make. -/
def component (t : StartTag) (flow : Bool) (inner : List Char) : Node :=
  build flow t.name (t.properties.map (·.property)) inner

variable {t : StartTag}

theorem tagEnd?_mark (h : Blanks t.gap) (rest : List Char) :
    tagEnd? (t.gap ++ (t.mark ++ rest)) = some (t.slash, rest) := by
  unfold tagEnd? mark
  cases t.slash with
  | true =>
    simp only [if_true, List.cons_append, List.nil_append,
      stripStart_solid h (by decide : isBlank '/' = false)]
  | false =>
    simp only [Bool.false_eq_true, if_false, List.cons_append, List.nil_append,
      stripStart_solid h (by decide : isBlank '>' = false)]

theorem mark_eq (t : StartTag) : ∃ c cs, t.mark = c :: cs ∧ (c = '/' ∨ c = '>') := by
  unfold mark
  cases t.slash with
  | true => exact ⟨'/', _, rfl, Or.inl rfl⟩
  | false => exact ⟨'>', _, rfl, Or.inr rfl⟩

theorem endsProperties (h : Blanks t.gap) (rest : List Char) :
    EndsProperties (t.gap ++ (t.mark ++ rest)) := by
  obtain ⟨c, cs, hmark, hc⟩ := t.mark_eq
  have hblank : isBlank c = false := by rcases hc with rfl | rfl <;> decide
  have hequals : c ≠ '=' := by rcases hc with rfl | rfl <;> decide
  have hstop : isPropertyChar c = false := by rcases hc with rfl | rfl <;> decide
  rw [hmark, List.cons_append]
  refine ⟨follows_of_gap h hblank hequals fun _ => hstop, ?_⟩
  unfold property?
  cases hgap : t.gap with
  | nil => simp [hblank]
  | cons b gap =>
    rw [hgap] at h
    have hstrip := stripStart_solid (s := cs ++ rest)
      (fun e he => h e (List.mem_cons_of_mem b he)) hblank
    simp [h b List.mem_cons_self, hstrip, hstop]

/-- The name of a tag ends where its attributes begin. -/
theorem WellFormed.stops_name (h : t.WellFormed) (rest : List Char) : ∃ c cs,
    propertiesText t.properties ++ (t.gap ++ (t.mark ++ rest)) = c :: cs ∧
      isNameChar c = false := by
  cases hps : t.properties with
  | nil =>
    obtain ⟨c, cs, hmark, hc⟩ := t.mark_eq
    have hname : isNameChar c = false := by rcases hc with rfl | rfl <;> decide +kernel
    rw [hmark, List.cons_append]
    exact stops_of_blanks (fun _ => isNameChar_of_blank) h.gap hname _
  | cons p ps =>
    have hp := h.properties p (hps ▸ List.mem_cons_self)
    obtain ⟨b, gap, hgap⟩ := List.exists_cons_of_ne_nil hp.gap_ne_nil
    have hb : isNameChar b = false := isNameChar_of_blank (hp.gap b (hgap ▸ List.mem_cons_self))
    rw [propertiesText, List.flatMap_cons, WrittenProperty.text, hgap]
    exact ⟨b, _, rfl, hb⟩

theorem text_eq (t : StartTag) : ∃ s, t.text = s ++ ['>'] := by
  unfold text mark
  cases t.slash with
  | true => exact ⟨'<' :: (t.name ++ (propertiesText t.properties ++ (t.gap ++ ['/']))), by simp⟩
  | false => exact ⟨'<' :: (t.name ++ (propertiesText t.properties ++ t.gap)), by simp⟩

theorem strip_text (t : StartTag) {lead : List Char} (hlead : Blanks lead) (rest : List Char) :
    strip (lead ++ (t.text ++ rest)) = t.text ++ stripEnd rest := by
  obtain ⟨s, hs⟩ := t.text_eq
  have hstart : stripStart (lead ++ (t.text ++ rest)) = t.text ++ rest := by
    rw [text, List.cons_append]
    exact stripStart_solid hlead (by decide)
  rw [strip, hstart, hs, List.append_assoc, List.singleton_append, stripEnd_solid (by decide)]
  simp

/-- A component is told by its start tag and what follows it, whatever that is. -/
theorem WellFormed.read (h : t.WellFormed) (flow : Bool) {lead : List Char} (hlead : Blanks lead)
    (rest : List Char) : element? flow (lead ++ (t.text ++ rest)) =
      (t.content? (stripEnd rest)).map (t.component flow) := by
  obtain ⟨c, cs, hname, hc⟩ := h.name.exists_cons
  have hcs : ∀ d ∈ cs, isNameChar d = true :=
    fun d hd => h.name.chars d (hname ▸ List.mem_cons_of_mem c hd)
  have hread := properties_written h.properties (endsProperties h.gap (stripEnd rest))
  obtain ⟨d, ds, hd, hstop⟩ := h.stops_name (stripEnd rest)
  have htake := takeWhile_run hcs hstop ds
  have hdrop := dropWhile_run hcs hstop ds
  rw [← hd] at htake hdrop
  have htext : t.text ++ stripEnd rest = '<' :: c :: (cs ++
      (propertiesText t.properties ++ (t.gap ++ (t.mark ++ stripEnd rest)))) := by
    simp [text, hname]
  unfold element?
  rw [t.strip_text hlead, htext]
  simp only [hc, if_true, htake, hdrop, hread, tagEnd?_mark h.gap, ← hname]
  unfold content? component
  cases Component.content? t.name (stripEnd rest) with
  | some inner => rfl
  | none =>
    dsimp only
    split <;> rfl

end StartTag

theorem stripStart_of_tagEnd? {s rest : List Char} {slash : Bool}
    (h : tagEnd? s = some (slash, rest)) :
    stripStart s = (if slash then ['/', '>'] else ['>']) ++ rest := by
  unfold tagEnd? at h
  split at h
  · next r hr =>
    cases h
    exact hr
  · next r hr =>
    cases h
    exact hr
  · cases h

/-- What is read as a component begins with a start tag. -/
theorem exists_startTag {flow : Bool} {s : List Char} {e : Node} (h : element? flow s = some e) :
    ∃ (lead : List Char) (t : StartTag) (rest : List Char),
      Blanks lead ∧ t.WellFormed ∧ s = lead ++ (t.text ++ rest) := by
  obtain ⟨before, behind, hs, hbefore, -⟩ := exists_strip s
  unfold element? at h
  split at h
  · next c cs hstrip =>
    split at h
    · next hc =>
      dsimp only at h
      have hchars : ∀ d ∈ c :: cs.takeWhile isNameChar, isNameChar d = true :=
        List.forall_mem_cons.mpr ⟨isNameChar_of_start hc, fun d hd => List.mem_takeWhile_imp hd⟩
      have hname : IsComponentName (c :: cs.takeWhile isNameChar) := ⟨⟨c, rfl, hc⟩, hchars⟩
      have hsplit := List.takeWhile_append_dropWhile (p := isNameChar) (l := cs)
      have hread : propertiesFrom (cs.dropWhile isNameChar).length (cs.dropWhile isNameChar) =
          ((properties (cs.dropWhile isNameChar)).1,
            (properties (cs.dropWhile isNameChar)).2) := rfl
      obtain ⟨ps, hps, htail, -⟩ := exists_written_properties hread
      split at h
      · cases h
      · next slash rest hend =>
        obtain ⟨gap, hgap, hmark⟩ := exists_stripStart (properties (cs.dropWhile isNameChar)).2
        have htext := stripStart_of_tagEnd? hend
        refine ⟨before, ⟨c :: cs.takeWhile isNameChar, ps, gap, slash⟩, rest ++ behind, hbefore,
          ⟨hname, hps, hgap⟩, ?_⟩
        have hcs : cs = cs.takeWhile isNameChar ++ (propertiesText ps ++
            (gap ++ ((if slash then ['/', '>'] else ['>']) ++ rest))) := by
          rw [← htext, ← hmark, ← htail, hsplit]
        rw [hs, hstrip]
        conv_lhs => rw [hcs]
        simp [StartTag.text, StartTag.mark]
    · cases h
  · cases h

/-! ## Closing tags -/

/-- A closing tag; blanks may stand before its end. -/
def closingTag (name gap : List Char) : List Char := '<' :: '/' :: (name ++ (gap ++ ['>']))

theorem stripStart_closing {name gap : List Char} (hname : ∀ c ∈ name, isNameChar c = true)
    (hgap : Blanks gap) (s : List Char) :
    stripStart (gap.reverse ++ (name.reverse ++ '/' :: s)) = name.reverse ++ '/' :: s := by
  have hreverse : Blanks gap.reverse := fun c hc => hgap c (List.mem_reverse.mp hc)
  cases hr : name.reverse with
  | nil => exact stripStart_solid hreverse (by decide)
  | cons d ds =>
    have hd : isNameChar d = true := hname d (List.mem_reverse.mp (hr ▸ List.mem_cons_self))
    have hblank : isBlank d = false := by
      by_contra hb
      rw [isNameChar_of_blank (Bool.not_eq_false _ ▸ hb)] at hd
      cases hd
    exact stripStart_solid hreverse hblank

/-- The content is what stands before a closing tag of the name at the end of the text. -/
theorem content?_eq_some {name : List Char} (hname : ∀ c ∈ name, isNameChar c = true)
    {s inner : List Char} :
    content? name s = some inner ↔ ∃ gap, Blanks gap ∧ s = inner ++ closingTag name gap := by
  constructor
  · intro h
    unfold content? at h
    split at h
    · next r hr =>
      split at h
      · next before hbefore =>
        cases h
        obtain ⟨gap, hgap, hsplit⟩ := exists_stripStart r
        rw [dropHead?_eq_some.mp hbefore] at hsplit
        refine ⟨gap.reverse, fun c hc => hgap c (List.mem_reverse.mp hc), ?_⟩
        rw [← List.reverse_reverse s, hr, hsplit]
        simp [closingTag]
      · cases h
    · cases h
  · rintro ⟨gap, hgap, rfl⟩
    have hreverse : (inner ++ closingTag name gap).reverse =
        '>' :: (gap.reverse ++ (name.reverse ++ '/' :: '<' :: inner.reverse)) := by
      simp [closingTag]
    have hhead : dropHead? (name.reverse ++ ['/', '<'])
        (name.reverse ++ '/' :: '<' :: inner.reverse) = some inner.reverse :=
      dropHead?_eq_some.mpr (by simp)
    unfold content?
    rw [hreverse]
    simp only [stripStart_closing hname hgap, hhead, List.reverse_reverse]

theorem StartTag.content?_closing {t : StartTag} (h : t.WellFormed) (inner : List Char)
    {gap : List Char} (hgap : Blanks gap) :
    t.content? (inner ++ closingTag t.name gap) = some inner := by
  unfold StartTag.content?
  rw [(content?_eq_some h.name.chars).mpr ⟨gap, hgap, rfl⟩]

theorem StartTag.content?_nil {t : StartTag}
    (hend : t.slash = true ∨ lowerString (String.ofList t.name) ∈ voidTags) :
    t.content? [] = some [] := by
  have hnone : Component.content? t.name [] = none := rfl
  unfold StartTag.content?
  rw [hnone]
  rcases hend with hslash | hvoid
  · simp [hslash]
  · simp [hvoid]

/-! ## Main statement -/

/-- A whole component with the blanks around it. -/
structure WrittenComponent where
  lead : List Char
  tag : StartTag
  /-- The content and the blanks in the closing tag. -/
  content : Option (List Char × List Char)
  trail : List Char

namespace WrittenComponent

/-- What stands behind the start tag. -/
def ending (w : WrittenComponent) : List Char :=
  match w.content with
  | some (inner, gap) => inner ++ closingTag w.tag.name gap
  | none => []

def text (w : WrittenComponent) : List Char := w.lead ++ (w.tag.text ++ (w.ending ++ w.trail))

def inner (w : WrittenComponent) : List Char := (w.content.map (·.1)).getD []

structure WellFormed (w : WrittenComponent) : Prop where
  lead : Blanks w.lead
  tag : w.tag.WellFormed
  /-- Without a closing tag there is a slash, or the element never has content. -/
  ends : w.content = none →
    w.tag.slash = true ∨ lowerString (String.ofList w.tag.name) ∈ voidTags
  gap : ∀ c ∈ w.content, Blanks c.2
  trail : Blanks w.trail

instance (w : WrittenComponent) : Decidable w.WellFormed :=
  decidable_of_iff (Blanks w.lead ∧ w.tag.WellFormed ∧ (w.content = none →
      w.tag.slash = true ∨ lowerString (String.ofList w.tag.name) ∈ voidTags) ∧
      (∀ c ∈ w.content, Blanks c.2) ∧ Blanks w.trail)
    ⟨fun ⟨hlead, htag, hends, hgap, htrail⟩ => ⟨hlead, htag, hends, hgap, htrail⟩,
      fun h => ⟨h.lead, h.tag, h.ends, h.gap, h.trail⟩⟩

theorem WellFormed.read {w : WrittenComponent} (h : w.WellFormed) (flow : Bool) :
    element? flow w.text = some (w.tag.component flow w.inner) := by
  have hcontent : w.tag.content? (stripEnd (w.ending ++ w.trail)) = some w.inner := by
    rw [stripEnd_blanks h.trail]
    unfold ending inner
    cases hc : w.content with
    | none => exact StartTag.content?_nil (h.ends hc)
    | some c =>
      have hgap := h.gap c hc
      have hend : stripEnd (c.1 ++ closingTag w.tag.name c.2) =
          c.1 ++ closingTag w.tag.name c.2 := by
        have hsolid := stripEnd_solid (c := '>') (by decide)
          (c.1 ++ '<' :: '/' :: (w.tag.name ++ c.2)) []
        simpa [closingTag, stripEnd] using hsolid
      dsimp only
      rw [hend]
      exact StartTag.content?_closing h.tag c.1 hgap
  rw [text, h.tag.read flow h.lead, hcontent]
  rfl

end WrittenComponent

/-- A component is read, whatever its layout, as its name, its attributes in their order and its
trimmed content. -/
theorem written_is_read {w : WrittenComponent} (h : w.WellFormed) (flow : Bool) :
    element? flow w.text = some (.parent (typeName flow) []
      (.component (String.ofList w.tag.name) (w.tag.properties.map (·.property)))
      (if isAllBlank w.inner then [] else [Node.text (String.ofList (strip w.inner))])) := by
  rw [h.read, StartTag.component, build, isEmpty_strip]

def sampleWritten : WrittenComponent where
  lead := " ".toList
  tag :=
    { name := "Media".toList
      properties :=
        [⟨"\n  ".toList, "src".toList, some ⟨" ".toList, " ".toList, .double "a=1/b>.mp4".toList⟩⟩,
          ⟨" ".toList, "autoPlay".toList, none⟩,
          ⟨" ".toList, "title".toList, some ⟨[], [], .single "say \"hi\"".toList⟩⟩,
          ⟨" ".toList, "size".toList, some ⟨[], [], .braces "{w: 1}".toList⟩⟩]
      gap := " ".toList
      slash := false }
  content := some (" Hi, > there\n".toList, " ".toList)
  trail := "\n".toList

theorem sampleWritten_is_read : sampleWritten.WellFormed ∧
    element? true sampleWritten.text = some (.parent "mdxJsxFlowElement" []
      (.component "Media"
        [⟨"src", some (.text "a=1/b>.mp4")⟩, ⟨"autoPlay", none⟩,
          ⟨"title", some (.text "say \"hi\"")⟩, ⟨"size", some (.expr "{w: 1}")⟩])
      [Node.text "Hi, > there"]) := by
  have hwell : sampleWritten.WellFormed := by decide +kernel
  exact ⟨hwell, written_is_read hwell true⟩

end DocumentMedia.Component
