import DocumentMedia.Directive.Syntax
import DocumentMedia.Proofs.Attribute.Block
import Mathlib.Data.List.Nodup

/-! # Directives that were written

A directive is a name, a label in brackets and attributes in braces. The closing brace is looked for
outside of quotes, while the attributes are split by a reader that knows escapes as well; on pairs
that were written both agree, so that a written directive is read back. -/
namespace DocumentMedia.Document

open DocumentMedia.Text DocumentMedia.Attribute
open DocumentMedia.Directive (untilBrace)

/-! ## Up to the closing brace -/

/-- A text over which the closing brace of a directive is looked for further on. -/
def PassesBrace (s : List Char) : Prop :=
  ∀ rest, untilBrace none (s ++ rest) =
    (untilBrace none rest).map fun (inside, r) => (s ++ inside, r)

theorem PassesBrace.append {s t : List Char} (h : PassesBrace s) (k : PassesBrace t) :
    PassesBrace (s ++ t) := by
  intro rest
  rw [List.append_assoc, h, k, Option.map_map]
  simp [Function.comp_def]

theorem passesBrace_nil : PassesBrace [] := by
  intro rest
  simp

theorem passesBrace_plain {s : List Char} (hq : ∀ c ∈ s, isQuote c = false) (hb : '}' ∉ s)
    (hl : '\n' ∉ s) : PassesBrace s := by
  induction s with
  | nil => exact passesBrace_nil
  | cons c s ih =>
    simp only [List.mem_cons, not_or] at hb hl
    rw [List.forall_mem_cons] at hq
    have hquote := hq.1
    simp only [isQuote, Bool.or_eq_false_iff, decide_eq_false_iff_not] at hquote
    intro rest
    rw [List.cons_append, untilBrace, if_neg (Ne.symm hb.1), if_neg (Ne.symm hl.1)]
    simp only [hquote, decide_false, Bool.or_self, Bool.false_eq_true, if_false]
    rw [ih hq.2 hb.2 hl.2, Option.map_map]
    simp [Function.comp_def]

theorem passesBrace_char {c : Char} (hq : isQuote c = false) (hb : c ≠ '}') (hl : c ≠ '\n') :
    PassesBrace [c] :=
  passesBrace_plain (by simpa using hq) (by simpa using hb.symm) (by simpa using hl.symm)

theorem untilBrace_quoted {q : Char} {v : List Char} (hq : q ∉ v) (hl : '\n' ∉ v) (hn : q ≠ '\n')
    (rest : List Char) : untilBrace (some q) (v ++ q :: rest) =
      (untilBrace none rest).map fun (inside, r) => (v ++ q :: inside, r) := by
  induction v with
  | nil => simp [untilBrace, hn]
  | cons c v ih =>
    simp only [List.mem_cons, not_or] at hq hl
    rw [List.cons_append, untilBrace, if_neg (Ne.symm hl.1), if_neg (Ne.symm hq.1),
      ih hq.2 hl.2, Option.map_map]
    simp [Function.comp_def]

theorem passesBrace_quoted {v : List Char} (hq : '"' ∉ v) (hl : '\n' ∉ v) :
    PassesBrace ('"' :: v ++ ['"']) := by
  intro rest
  have hquoted := untilBrace_quoted hq hl (by decide) rest
  rw [List.append_assoc, List.cons_append, List.singleton_append, untilBrace]
  simp only [show ('"' : Char) ≠ '}' by decide, show ('"' : Char) ≠ '\n' by decide, decide_true,
    Bool.true_or, if_true, if_false]
  rw [hquoted, Option.map_map]
  simp [Function.comp_def]

theorem quote_notMem {v : List Char} (h : '"' ∉ plainQuotes v) : '"' ∉ v := fun hv =>
  h (List.mem_map.mpr ⟨'"', hv, by decide⟩)

theorem passesBrace_name {n : List Char} (h : IsName n) : PassesBrace n := by
  refine passesBrace_plain (fun c hc => (plain_of_isKeyChar (h.chars c hc)).2) h.brace fun hl => ?_
  exact absurd (plain_of_isKeyChar (h.chars _ hl)).1 (by decide)

theorem passesBrace_pair {key value : List Char} (hk : IsName key) (hq : '"' ∉ value)
    (hl : '\n' ∉ value) : PassesBrace (AttrBlock.writeAttr key value) := by
  have hequals : PassesBrace ['='] := passesBrace_char (by decide) (by decide) (by decide)
  have h := ((passesBrace_name hk).append hequals).append (passesBrace_quoted hq hl)
  simpa [AttrBlock.writeAttr] using h

/-! ## Names and labels -/

/-- The name of a directive: a letter, and behind it word characters and hyphens. -/
def IsDirectiveName : List Char → Prop
  | [] => False
  | c :: cs => Directive.isLetter c ∧ ∀ d ∈ cs, Directive.isNameChar d

instance : (name : List Char) → Decidable (IsDirectiveName name)
  | [] => inferInstanceAs (Decidable False)
  | c :: cs =>
    inferInstanceAs (Decidable (Directive.isLetter c ∧ ∀ d ∈ cs, Directive.isNameChar d))

def labelText : Option (List Char) → List Char
  | none => []
  | some l => '[' :: l ++ [']']

theorem attrs?_braced {attrs : List Char} (h : PassesBrace attrs) (rest : List Char) :
    Directive.attrs? (braced attrs ++ rest) = some (attrs, rest) := by
  have hpast := h ('}' :: rest)
  rw [braced, List.cons_append, List.cons_append, List.append_assoc, List.singleton_append,
    Directive.attrs?, hpast]
  simp [untilBrace]

theorem label?_written {l : List Char} (h : ']' ∉ l ∧ '\n' ∉ l) (rest : List Char) :
    Directive.label? (labelText (some l) ++ rest) = some (l, rest) := by
  have hpass : ∀ c ∈ l, (decide (c ≠ ']') && decide (c ≠ '\n')) = true := by
    intro c hc
    rw [ne_of_notMem h.1 c hc, ne_of_notMem h.2 c hc]
    rfl
  have hstop : (decide (']' ≠ ']') && decide (']' ≠ '\n')) = false := by decide
  rw [labelText, List.cons_append, List.cons_append, List.append_assoc, List.singleton_append]
  simp only [Directive.label?, dropWhile_run hpass hstop, takeWhile_run hpass hstop]

theorem stop_written (label : Option (List Char)) (attrs rest : List Char) :
    ∃ stop behind, labelText label ++ (braced attrs ++ rest) = stop :: behind ∧
      Directive.isNameChar stop = false := by
  cases label with
  | none => exact ⟨'{', attrs ++ ['}'] ++ rest, rfl, by decide⟩
  | some l => exact ⟨'[', l ++ [']'] ++ (braced attrs ++ rest), rfl, by decide⟩

theorem body?_written {name attrs : List Char} {label : Option (List Char)}
    (hn : IsDirectiveName name) (hl : ∀ l ∈ label, ']' ∉ l ∧ '\n' ∉ l) (ha : PassesBrace attrs)
    (rest : List Char) :
    Directive.body? (name ++ (labelText label ++ (braced attrs ++ rest))) =
      some (⟨name, label, some attrs⟩, rest) := by
  obtain _ | ⟨c, cs⟩ := name
  · exact absurd hn id
  obtain ⟨hc, hcs⟩ := hn
  obtain ⟨stop, behind, hstop, hend⟩ := stop_written label attrs rest
  -- The name ends at the bracket or the brace, so its characters are taken and no more.
  have htake : (cs ++ (labelText label ++ (braced attrs ++ rest))).takeWhile
      Directive.isNameChar = cs := by
    rw [hstop]
    exact takeWhile_run hcs hend behind
  have hdrop : (cs ++ (labelText label ++ (braced attrs ++ rest))).dropWhile
      Directive.isNameChar = labelText label ++ (braced attrs ++ rest) := by
    rw [hstop]
    exact dropWhile_run hcs hend behind
  rw [List.cons_append]
  unfold Directive.body?
  simp only [hc, if_true, htake, hdrop]
  cases label with
  | none =>
    have hnone : Directive.label? (labelText none ++ (braced attrs ++ rest)) = none := rfl
    simp only [hnone]
    rw [labelText, List.nil_append, attrs?_braced ha]
  | some l => simp only [label?_written (hl l rfl), attrs?_braced ha]

/-! ## Reading back -/

/-- The value of a written attribute: no double quote, no typographic quote and no line feed in it,
and no backslash at its end. -/
structure IsQuotable (v : List Char) : Prop extends Enclosed '"' v where
  straight : ∀ c ∈ v, IsStraight c
  line : '\n' ∉ v

instance (v : List Char) : Decidable (IsQuotable v) :=
  decidable_of_iff (Enclosed '"' v ∧ (∀ c ∈ v, IsStraight c) ∧ '\n' ∉ v)
    ⟨fun ⟨henclosed, hall, hline⟩ => ⟨henclosed, hall, hline⟩,
      fun h => ⟨h.toEnclosed, h.straight, h.line⟩⟩

/-- A directive that is written out: each attribute is a pair in double quotes. -/
structure WrittenDirective where
  name : List Char
  label : Option (List Char)
  attributes : List (List Char × List Char)

namespace WrittenDirective

/-- Inside a text one colon marks the directive, and one more in a line of its own. -/
def text (d : WrittenDirective) : List Char :=
  ':' :: (d.name ++ (labelText d.label ++ braced (freeText d.attributes)))

def map (d : WrittenDirective) : Assoc String String :=
  d.attributes.map fun p => (String.ofList p.1, String.ofList p.2)

structure WellFormed (d : WrittenDirective) : Prop where
  name : IsDirectiveName d.name
  label : ∀ l ∈ d.label, ']' ∉ l ∧ '\n' ∉ l
  keys : ∀ p ∈ d.attributes, IsName p.1 ∧ p.1 ≠ "class".toList
  values : ∀ p ∈ d.attributes, IsQuotable p.2
  distinct : (d.attributes.map (·.1)).Nodup

instance (d : WrittenDirective) : Decidable d.WellFormed :=
  decidable_of_iff (IsDirectiveName d.name ∧ (∀ l ∈ d.label, ']' ∉ l ∧ '\n' ∉ l) ∧
      (∀ p ∈ d.attributes, IsName p.1 ∧ p.1 ≠ "class".toList) ∧
      (∀ p ∈ d.attributes, IsQuotable p.2) ∧ (d.attributes.map (·.1)).Nodup)
    ⟨fun ⟨hname, hlabel, hkeys, hvalues, hdistinct⟩ => ⟨hname, hlabel, hkeys, hvalues, hdistinct⟩,
      fun h => ⟨h.name, h.label, h.keys, h.values, h.distinct⟩⟩

variable {d : WrittenDirective}

theorem passesBrace_freeText {ps : List (List Char × List Char)} (hk : ∀ p ∈ ps, IsName p.1)
    (hv : ∀ p ∈ ps, IsQuotable p.2) : PassesBrace (freeText ps) := by
  have hspace : PassesBrace [' '] := passesBrace_char (by decide) (by decide) (by decide)
  induction ps with
  | nil => exact passesBrace_nil
  | cons p ps ih =>
    rw [List.forall_mem_cons] at hk hv
    have hpair := passesBrace_pair hk.1 hv.1.inside hv.1.line
    cases ps with
    | nil => exact hpair
    | cons q ps =>
      rw [freeText, List.map_cons, joinWith_cons (by simp), ← freeText]
      exact hpair.append (hspace.append (ih hk.2 hv.2))

theorem WellFormed.passesBrace (h : d.WellFormed) : PassesBrace (freeText d.attributes) :=
  passesBrace_freeText (fun p hp => (h.keys p hp).1) h.values

theorem WellFormed.parseDirective (h : d.WellFormed) :
    parseDirective (freeText d.attributes) = d.map := by
  have hdistinct : (Assoc.keys d.map).Nodup := by
    have hkeys : Assoc.keys d.map = (d.attributes.map (·.1)).map String.ofList := by
      simp [Assoc.keys, map]
    have hinj : Function.Injective String.ofList := fun _ _ => String.ofList_injective
    rw [hkeys]
    exact h.distinct.map hinj
  rw [parseDirective_freeText h.keys fun p hp => ⟨(h.values p hp).toEnclosed,
    (h.values p hp).straight⟩]
  exact Assoc.ofPairs_of_nodup hdistinct

end WrittenDirective

/-- A written directive is read back: its name, its label and its attributes in their order. Inside
a text anything may stand behind it; a directive in a line of its own may have blanks at its end. -/
theorem directive_reads_back (d : WrittenDirective) (h : d.WellFormed) :
    ∃ r : Directive.Reading, (∀ rest, Directive.text? (d.text ++ rest) = some (r, rest)) ∧
      (∀ tail, (∀ c ∈ tail, c = ' ' ∨ c = '\t') →
        Directive.leaf? (':' :: d.text ++ tail) = some r) ∧
      r.name = d.name ∧ r.label = d.label ∧ r.attributes = d.map := by
  have hbody (rest : List Char) := body?_written h.name h.label h.passesBrace rest
  refine ⟨⟨d.name, d.label, some (freeText d.attributes)⟩, fun rest => ?_, fun tail htail => ?_,
    rfl, rfl, h.parseDirective⟩
  · rw [WrittenDirective.text, List.cons_append, Directive.text?, List.append_assoc,
      List.append_assoc, hbody]
  · have hall : (tail.all fun c => c = ' ' || c = '\t') = true := by simpa using htail
    rw [WrittenDirective.text, List.cons_append, List.cons_append, Directive.leaf?,
      List.append_assoc, List.append_assoc, hbody]
    simp only [hall, if_true]

/-- Braces, single quotes, equals signs and backslashes in values, a label with an opening bracket,
and keys that begin like classes. -/
def sampleDirective : WrittenDirective where
  name := "img-1_é".toList
  label := some "A [cat, \x7bb\x7d".toList
  attributes := [("src".toList, "a \x7d \\b=c.png".toList), (".wide".toList, "it's".toList),
    ("#top".toList, []), ("alt".toList, "C:\\x y".toList)]

theorem sampleDirective_reads_back : sampleDirective.WellFormed ∧
    ∃ r : Directive.Reading,
      (∀ rest, Directive.text? (sampleDirective.text ++ rest) = some (r, rest)) ∧
      (∀ tail, (∀ c ∈ tail, c = ' ' ∨ c = '\t') →
        Directive.leaf? (':' :: sampleDirective.text ++ tail) = some r) ∧
      r.name = "img-1_é".toList ∧ r.label = some "A [cat, \x7bb\x7d".toList ∧
      r.attributes =
        [("src", "a \x7d \\b=c.png"), (".wide", "it's"), ("#top", ""), ("alt", "C:\\x y")] := by
  have hsample : sampleDirective.WellFormed := by decide +kernel
  refine ⟨hsample, ?_⟩
  obtain ⟨r, htext, hleaf, hname, hlabel, hattributes⟩ :=
    directive_reads_back sampleDirective hsample
  refine ⟨r, htext, hleaf, hname, hlabel, hattributes.trans ?_⟩
  decide +kernel

end DocumentMedia.Document
