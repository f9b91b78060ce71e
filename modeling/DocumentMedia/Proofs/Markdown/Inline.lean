import DocumentMedia.Markdown.Inline
import DocumentMedia.Proofs.Text.Blank

/-! # Directives among words

Words are read as text, and a directive between them as a directive unless a letter or a digit
stands right in front of it. Main statement: the tokens of a text made of words and directives are
its texts and its directives in order. -/
namespace DocumentMedia.Markdown

open DocumentMedia.Text

/-! ## Runs of actions -/

section

variable {σ α β : Type}

theorem run_bind_of {act : StateM σ α} {s t : σ} {a : α} (h : act.run s = (a, t))
    (next : α → StateM σ β) : (act >>= next).run s = (next a).run t := by
  rw [StateT.run_bind, h]
  rfl

theorem run_get_bind (act : σ → StateM σ α) (s : σ) : (get >>= act).run s = (act s).run s := rfl

theorem run_set_bind (t : σ) (act : PUnit → StateM σ α) (s : σ) :
    (set t >>= act).run s = (act ⟨⟩).run t := rfl

theorem run_modify_bind (f : σ → σ) (act : PUnit → StateM σ α) (s : σ) :
    (modify f >>= act).run s = (act ⟨⟩).run (f s) := rfl

end

/-! ## Places in a text -/

/-- A reader that has `front` behind it and `rest` before it. -/
structure Scan.At (s : Scan) (front rest : List Char) : Prop where
  src : s.src = (front ++ rest).toArray
  pos : s.pos = front.length
  stop : s.stop = s.src.size

namespace Scan.At

variable {s : Scan} {front rest : List Char}

theorem size (h : s.At front rest) : s.src.size = front.length + rest.length := by
  rw [h.src, List.size_toArray, List.length_append]

theorem char? (h : s.At front rest) : s.char? s.pos = rest.head? := by
  simp [Scan.char?, h.src, h.pos, List.head?_eq_getElem?, List.getElem?_append_right]

theorem inside? (h : s.At front rest) : s.inside? s.pos = rest.head? := by
  have hchar := h.char?
  unfold Scan.char? at hchar
  cases rest with
  | nil => simp [Scan.inside?, hchar]
  | cons c cs =>
    have hlt : s.pos < s.stop := by
      rw [h.stop, h.size, h.pos, List.length_cons]
      omega
    rw [Scan.inside?, if_pos hlt, hchar]

theorem before (h : s.At front rest) :
    (if s.pos = 0 then none else s.char? (s.pos - 1)) = front.getLast? := by
  rw [h.pos, Scan.char?, h.src, List.getLast?_eq_getElem?]
  split
  · next hzero => simp [List.length_eq_zero_iff.mp hzero]
  · next hpos =>
    rw [List.getElem?_toArray, List.getElem?_append_left (by omega)]

theorem slice (h : s.At front rest) (n : Nat) :
    s.slice s.pos (s.pos + n) = rest.take n := by
  simp [Scan.slice, h.src, h.pos]

theorem after (h : s.At front rest) : s.after s.pos = rest := by
  simp [Scan.after, h.src, h.pos]

theorem skipWhile (h : s.At front rest) (p : Char → Bool) :
    s.skipWhile p s.pos = s.pos + (rest.takeWhile p).length := by
  have hstop : s.stop = s.pos + rest.length := by rw [h.stop, h.size, h.pos]
  rw [Scan.skipWhile, hstop, h.slice, List.take_length]

end Scan.At

/-! ## Constructs -/

section

variable {s : Scan} {front rest : List Char}

theorem tryAll_accept {c : Construct} {cs : List Construct} {t : Scan}
    (h : (c false).run s = (true, t)) : (tryAll false (c :: cs)).run s = (true, t) := by
  rw [tryAll, run_bind_of h]
  rfl

theorem tryAll_refuse {c : Construct} {cs : List Construct}
    (h : (c false).run s = (false, s)) :
    (tryAll false (c :: cs)).run s = (tryAll false cs).run s := by
  rw [tryAll, run_bind_of h]
  rfl

/-- A text that a plain run takes whole: it is not empty, and it ends where the text ends or at a
character at which runs end. -/
structure PlainRun (run rest : List Char) : Prop where
  nonempty : run ≠ []
  chars : ∀ c ∈ run, endsRun c = false
  stops : ∀ c ∈ rest.head?, endsRun c = true

theorem PlainRun.takeWhile {run : List Char} (h : PlainRun run rest) :
    (run ++ rest).takeWhile (!endsRun ·) = run := by
  have hrun : ∀ c ∈ run, (!endsRun c) = true := fun c hc => by simp [h.chars c hc]
  cases rest with
  | nil => rw [List.append_nil, List.takeWhile_eq_self_iff.mpr hrun]
  | cons c cs => exact takeWhile_run hrun (by simp [h.stops c rfl]) cs

theorem plainRun_run {run : List Char} (h : s.At front (run ++ rest)) (hrun : PlainRun run rest) :
    (plainRun false).run s =
      (true, { s.addPending run with pos := s.pos + run.length }) := by
  have hnext : s.skipWhile (!endsRun ·) s.pos = s.pos + run.length := by
    rw [h.skipWhile, hrun.takeWhile]
  have hne : s.pos + run.length ≠ s.pos := by
    have := List.length_pos_iff.mpr hrun.nonempty
    omega
  have hslice : s.slice s.pos (s.pos + run.length) = run := by
    rw [h.slice, List.take_left' rfl]
  unfold plainRun
  rw [run_get_bind]
  simp only [hnext, if_neg hne, hslice]
  rfl

theorem plainRun_refuses {c : Char} (h : s.At front (c :: rest)) (hc : endsRun c = true) :
    (plainRun false).run s = (false, s) := by
  have hnext : s.skipWhile (!endsRun ·) s.pos = s.pos := by
    rw [h.skipWhile]
    simp [hc]
  simp [plainRun, hnext]
  rfl

/-- Constructs that begin with a mark of their own refuse a colon. -/
theorem refuses_colon (h : s.At front (':' :: rest)) :
    ∀ c ∈ [plainRun, lineEnd, escapeMark, codeSpan, strikeRun], (c false).run s = (false, s) := by
  have hchar := h.char?
  rw [List.head?_cons] at hchar
  simp only [List.forall_mem_cons, List.not_mem_nil, false_implies, implies_true, and_true]
  refine ⟨plainRun_refuses h (by decide), ?_, ?_, ?_, ?_⟩
  · simp [lineEnd, hchar]
    rfl
  · simp [escapeMark, hchar]
    rfl
  · simp [codeSpan, hchar]
    rfl
  · simp [strikeRun, hchar]
    rfl

/-- The token of a directive. -/
def directiveToken (text : List Char) (r : Directive.Reading) : Token :=
  { type := "text_directive"
    content := String.ofList text
    directive := ⟨String.ofList r.name, r.label.map String.ofList,
      r.attributes.map fun (k, v) => (k, .str v)⟩ }

/-- A directive as it is written, and what it is read as wherever it stands. -/
structure Mark where
  text : List Char
  reading : Directive.Reading

structure Mark.Reads (m : Mark) : Prop where
  read : ∀ rest, Directive.text? (m.text ++ rest) = some (m.reading, rest)
  carries : (m.reading.label.isNone && m.reading.attrs.isNone) = false
  last : ∀ c ∈ m.text.getLast?, c = ']' ∨ c = '\x7d'

theorem Mark.Reads.colon {m : Mark} (h : m.Reads) : ∃ text, m.text = ':' :: text := by
  have hread := h.read []
  rw [List.append_nil] at hread
  unfold Directive.text? at hread
  split at hread
  · next s hs => exact ⟨s, hs⟩
  · cases hread

/-- Another directive may stand right behind a directive. -/
theorem Mark.Reads.apart {m : Mark} (h : m.Reads) :
    ∀ c ∈ m.text.getLast?, isAlnum c = false ∧ c ≠ ':' := by
  intro c hc
  rcases h.last c hc with rfl | rfl <;> decide

theorem directive_run {m : Mark} (h : s.At front (m.text ++ rest)) (hm : m.Reads)
    (hfront : ∀ c ∈ front.getLast?, isAlnum c = false ∧ c ≠ ':') :
    (directive false).run s = (true, { s.push (directiveToken m.text m.reading) with
      pos := s.pos + m.text.length }) := by
  obtain ⟨text, htext⟩ := hm.colon
  have hchar : s.char? s.pos = some ':' := by rw [h.char?, htext]; rfl
  have hbefore : (if s.pos = 0 then none else s.char? (s.pos - 1)).any
      (fun c => isAlnum c || c = ':') = false := by
    rw [h.before]
    cases hlast : front.getLast? with
    | none => rfl
    | some c => simp [hfront c hlast]
  have hsize : s.src.size - rest.length = s.pos + m.text.length := by
    rw [h.size, h.pos, List.length_append]
    omega
  have htake : (m.text ++ rest).take ((m.text ++ rest).length - rest.length) = m.text := by
    rw [List.length_append, Nat.add_sub_cancel, List.take_left' rfl]
  unfold directive
  rw [run_get_bind]
  simp only [hchar, hbefore, h.after, hm.read rest, hm.carries, hsize, htake, ne_eq,
    not_true_eq_false, decide_false, Bool.or_self, Bool.false_eq_true, if_false]
  rfl

variable {env : InlineEnv} {skip content : InlineM Unit}

theorem tryAll_append {before : List Construct} (h : ∀ c ∈ before, (c false).run s = (false, s))
    (cs : List Construct) : (tryAll false (before ++ cs)).run s = (tryAll false cs).run s := by
  induction before with
  | nil => rfl
  | cons c before ih =>
    rw [List.forall_mem_cons] at h
    rw [List.cons_append, tryAll_refuse h.1, ih h.2]

theorem tryAll_plainRun {run : List Char} (h : s.At front (run ++ rest))
    (hrun : PlainRun run rest) : (tryAll false (constructs env skip content)).run s =
      (true, { s.addPending run with pos := s.pos + run.length }) := by
  unfold constructs
  split <;> exact tryAll_accept (plainRun_run h hrun)

/-- In every dialect only constructs with other marks are tried before directives. -/
theorem tryAll_directive {m : Mark} (h : s.At front (m.text ++ rest)) (hm : m.Reads)
    (hfront : ∀ c ∈ front.getLast?, isAlnum c = false ∧ c ≠ ':') :
    (tryAll false (constructs env skip content)).run s =
      (true, { s.push (directiveToken m.text m.reading) with pos := s.pos + m.text.length }) := by
  have hdirective := directive_run h hm hfront
  obtain ⟨text, htext⟩ := hm.colon
  rw [htext, List.cons_append] at h
  have hrefuse := refuses_colon h
  have htry (before after : List Construct)
      (hbefore : before ⊆ [plainRun, lineEnd, escapeMark, codeSpan, strikeRun]) :
      (tryAll false (before ++ directive :: after)).run s = _ :=
    (tryAll_append (fun c hc => hrefuse c (hbefore hc)) _).trans (tryAll_accept hdirective)
  unfold constructs
  split
  · split
    · exact htry [plainRun, lineEnd, escapeMark, codeSpan, strikeRun] _ (List.Subset.refl _)
    · exact htry [plainRun, lineEnd, escapeMark, codeSpan] _ (by simp)
  · exact htry [plainRun] [] (by simp)

/-! ## Runs of the reader -/

theorem readLoop_step {cs : List Construct} {c : Char} {t : Scan} (hc : s.inside? s.pos = some c)
    (h : (tryAll false cs).run s = (true, t)) (fuel : Nat) :
    (readLoop cs (fuel + 1)).run s = (readLoop cs fuel).run t := by
  rw [readLoop, run_get_bind]
  simp only [hc]
  rw [run_bind_of h]
  rfl

theorem readLoop_end {cs : List Construct} (h : s.At front []) (fuel : Nat) :
    (readLoop cs fuel).run s = ((), s) := by
  cases fuel with
  | zero => rfl
  | succ fuel =>
    have hinside : s.inside? s.pos = none := h.inside?
    rw [readLoop, run_get_bind]
    simp only [hinside]
    rfl

end

def wordTokens (words : List Char) : List Token :=
  if words.isEmpty then [] else [{ type := "text", content := String.ofList words }]

/-- Words, and directives with the words behind each of them. -/
def rowText (first : List Char) (marks : List (Mark × List Char)) : List Char :=
  first ++ marks.flatMap fun p => p.1.text ++ p.2

def rowTokens (first : List Char) (marks : List (Mark × List Char)) : List Token :=
  wordTokens first ++ marks.flatMap fun p => directiveToken p.1.text p.1.reading :: wordTokens p.2

theorem rowText_cons (words : List Char) (m : Mark) (w : List Char)
    (marks : List (Mark × List Char)) :
    rowText words ((m, w) :: marks) = words ++ (m.text ++ rowText w marks) := by
  simp [rowText]

/-- Words without marks, and directives that do not stand right behind a letter or a digit. -/
structure IsRow (first : List Char) (marks : List (Mark × List Char)) : Prop where
  reads : ∀ p ∈ marks, p.1.Reads
  words : ∀ w ∈ first :: marks.map (·.2), ∀ c ∈ w, endsRun c = false
  apart : ∀ w ∈ (first :: marks.map (·.2)).dropLast, ∀ c ∈ w.getLast?, isAlnum c = false

theorem IsRow.tail {first words : List Char} {m : Mark} {marks : List (Mark × List Char)}
    (h : IsRow first ((m, words) :: marks)) : IsRow words marks where
  reads := (List.forall_mem_cons.mp h.reads).2
  words := (List.forall_mem_cons.mp h.words).2
  apart := (List.forall_mem_cons.mp h.apart).2

theorem IsRow.before {front words : List Char} {p : Mark × List Char}
    {marks : List (Mark × List Char)} (h : IsRow words (p :: marks))
    (hfront : ∀ c ∈ front.getLast?, isAlnum c = false ∧ c ≠ ':') :
    ∀ c ∈ (front ++ words).getLast?, isAlnum c = false ∧ c ≠ ':' := by
  intro c hc
  rw [List.getLast?_append] at hc
  cases hlast : words.getLast? with
  | none =>
    rw [hlast, Option.none_or] at hc
    exact hfront c hc
  | some d =>
    rw [hlast, Option.some_or] at hc
    obtain rfl : d = c := Option.some.inj hc
    refine ⟨(List.forall_mem_cons.mp h.apart).1 d hlast, ?_⟩
    rintro rfl
    have hrun := (List.forall_mem_cons.mp h.words).1 ':' (List.mem_of_getLast? hlast)
    exact absurd hrun (by decide)

section

variable {s : Scan} {front rest words : List Char}

/-- The reader behind words that it has taken. -/
def Scan.behindWords (s : Scan) (words : List Char) : Scan :=
  { s with pos := s.pos + words.length, pending := words.reverse }

theorem Scan.At.behindWords (h : s.At front (words ++ rest)) :
    (s.behindWords words).At (front ++ words) rest where
  src := by rw [Scan.behindWords, List.append_assoc]; exact h.src
  pos := by rw [List.length_append, ← h.pos]; rfl
  stop := h.stop

theorem flush_behindWords (s : Scan) (words : List Char) :
    (s.behindWords words).flush = { s with
      pos := s.pos + words.length, tokens := s.tokens ++ (wordTokens words).toArray,
      pending := [] } := by
  unfold Scan.flush Scan.behindWords wordTokens
  cases words with
  | nil => simp
  | cons c cs => simp

theorem readLoop_words (env : InlineEnv) (skip content : InlineM Unit)
    (h : s.At front (words ++ rest)) (hs : s.pending = [])
    (hwords : ∀ c ∈ words, endsRun c = false) (hrest : ∀ c ∈ rest.head?, endsRun c = true)
    {fuel : Nat} (hfuel : (words ++ rest).length < fuel) :
    ∃ left, rest.length < left ∧ (readLoop (constructs env skip content) fuel).run s =
      (readLoop (constructs env skip content) left).run (s.behindWords words) := by
  rw [List.length_append] at hfuel
  cases words with
  | nil =>
    refine ⟨fuel, by omega, ?_⟩
    congr 1
    rw [Scan.behindWords, List.length_nil, Nat.add_zero, List.reverse_nil, ← hs]
  | cons c cs =>
    obtain ⟨left, rfl⟩ : ∃ left, fuel = left + 1 := Nat.exists_eq_succ_of_ne_zero (by omega)
    have hrun : PlainRun (c :: cs) rest := ⟨List.cons_ne_nil c cs, hwords, hrest⟩
    refine ⟨left, by rw [List.length_cons] at hfuel; omega, ?_⟩
    rw [readLoop_step h.inside? (tryAll_plainRun h hrun)]
    simp only [Scan.addPending, hs, List.append_nil]
    rfl

/-- The reader behind a directive that it has taken. -/
def Scan.behindMark (s : Scan) (m : Mark) : Scan :=
  { s.push (directiveToken m.text m.reading) with pos := s.pos + m.text.length }

theorem src_push (s : Scan) (t : Token) : (s.push t).src = s.src ∧ (s.push t).stop = s.stop := by
  unfold Scan.push Scan.flush
  split <;> exact ⟨rfl, rfl⟩

theorem Scan.At.behindMark {m : Mark} (h : s.At front (m.text ++ rest)) :
    (s.behindMark m).At (front ++ m.text) rest where
  src := by
    have hpush := src_push s (directiveToken m.text m.reading)
    rw [List.append_assoc, ← h.src]
    exact hpush.1
  pos := by rw [List.length_append, ← h.pos]; rfl
  stop := by
    have hpush := src_push s (directiveToken m.text m.reading)
    exact hpush.2.trans (h.stop.trans (congrArg Array.size hpush.1.symm))

theorem behindMark_behindWords (s : Scan) (words : List Char) (m : Mark) :
    (s.behindWords words).behindMark m = { s with
      pos := s.pos + words.length + m.text.length
      tokens := s.tokens ++ (wordTokens words ++ [directiveToken m.text m.reading]).toArray
      pending := [] } := by
  rw [Scan.behindMark, Scan.push, flush_behindWords]
  simp [Scan.behindWords]

theorem readLoop_mark (env : InlineEnv) (skip content : InlineM Unit) {m : Mark}
    (h : s.At front (m.text ++ rest)) (hm : m.Reads)
    (hfront : ∀ c ∈ front.getLast?, isAlnum c = false ∧ c ≠ ':') (fuel : Nat) :
    (readLoop (constructs env skip content) (fuel + 1)).run s =
      (readLoop (constructs env skip content) fuel).run (s.behindMark m) := by
  obtain ⟨text, htext⟩ := hm.colon
  have hinside : s.inside? s.pos = some ':' := by
    rw [h.inside?, htext]
    rfl
  exact readLoop_step hinside (tryAll_directive h hm hfront) fuel

/-- The reader takes words and directives in turn. The induction is on the directives left; none of
them stands right behind a letter, a digit or a colon. -/
theorem readLoop_row (env : InlineEnv) (skip content : InlineM Unit)
    {marks : List (Mark × List Char)} (hrow : IsRow words marks)
    (h : s.At front (rowText words marks)) (hs : s.pending = [])
    (hfront : ∀ c ∈ front.getLast?, isAlnum c = false ∧ c ≠ ':')
    {fuel : Nat} (hfuel : (rowText words marks).length < fuel) :
    ((readLoop (constructs env skip content) fuel).run s).2.flush =
      { s with pos := s.src.size, tokens := s.tokens ++ (rowTokens words marks).toArray } := by
  induction marks generalizing words front s fuel with
  | nil =>
    have hwords := (List.forall_mem_cons.mp hrow.words).1
    obtain ⟨left, -, hread⟩ := readLoop_words env skip content h hs hwords (by simp) hfuel
    have hsize : s.pos + words.length = s.src.size := by
      rw [h.size, h.pos]
      simp [rowText]
    rw [hread, readLoop_end h.behindWords, flush_behindWords, hsize]
    simp [rowTokens, hs]
  | cons p marks ih =>
    obtain ⟨m, w⟩ := p
    have hm : m.Reads := (List.forall_mem_cons.mp hrow.reads).1
    have hwords := (List.forall_mem_cons.mp hrow.words).1
    obtain ⟨text, htext⟩ := hm.colon
    rw [rowText_cons] at h hfuel
    have hcolon : ∀ c ∈ (m.text ++ rowText w marks).head?, endsRun c = true := by
      rw [htext]
      intro c hc
      cases hc
      decide
    obtain ⟨left, hleft, hread⟩ := readLoop_words env skip content h hs hwords hcolon hfuel
    have hfront' := hrow.before hfront
    obtain ⟨left, rfl⟩ : ∃ n, left = n + 1 := Nat.exists_eq_succ_of_ne_zero (by omega)
    have hat := h.behindWords
    have hlast : ∀ c ∈ (front ++ words ++ m.text).getLast?, isAlnum c = false ∧ c ≠ ':' := by
      rw [List.getLast?_append_of_ne_nil _ (by simp [htext])]
      exact hm.apart
    have hpending : ((s.behindWords words).behindMark m).pending = [] := by
      rw [behindMark_behindWords]
    have hshort : (rowText w marks).length < left := by
      rw [htext, List.length_append, List.length_cons] at hleft
      omega
    rw [hread, readLoop_mark env skip content hat hm hfront',
      ih hrow.tail hat.behindMark hpending hlast hshort, behindMark_behindWords]
    simp [rowTokens, hs]

end

/-! ## Tokens -/

theorem joinTexts_cons {t : Token} (h : isTextToken t = false) (ts : List Token) :
    joinTexts (t :: ts) = t :: joinTexts ts := by
  rw [joinTexts]
  cases joinTexts ts with
  | nil => rfl
  | cons u us => simp [h]

/-- Words in front of a directive, or at the end, stay a token of their own. -/
theorem joinTexts_wordTokens (words : List Char) {ts : List Token}
    (h : ∀ t ∈ ts.head?, isTextToken t = false) (hts : joinTexts ts = ts) :
    joinTexts (wordTokens words ++ ts) = wordTokens words ++ ts := by
  unfold wordTokens
  split
  · exact hts
  · rw [List.singleton_append, joinTexts, hts]
    cases ts with
    | nil => rfl
    | cons t ts => simp [h t rfl]

theorem joinTexts_rowTokens (words : List Char) (marks : List (Mark × List Char)) :
    joinTexts (rowTokens words marks) = rowTokens words marks := by
  induction marks generalizing words with
  | nil => exact joinTexts_wordTokens words (by simp) rfl
  | cons p marks ih =>
    obtain ⟨m, w⟩ := p
    have hdirective : isTextToken (directiveToken m.text m.reading) = false := by
      simp [isTextToken, directiveToken]
    refine joinTexts_wordTokens words (fun t ht => ?_) ?_
    · cases ht
      exact hdirective
    · rw [List.flatMap_cons, List.cons_append, joinTexts_cons hdirective]
      exact congrArg _ (ih w)

theorem map_plainText_rowTokens (words : List Char) (marks : List (Mark × List Char)) :
    (rowTokens words marks).map plainText = rowTokens words marks := by
  have hwords (words : List Char) : (wordTokens words).map plainText = wordTokens words := by
    unfold wordTokens
    split <;> rfl
  have hdirective (m : Mark) : plainText (directiveToken m.text m.reading) =
      directiveToken m.text m.reading := rfl
  simp only [rowTokens, List.map_append, List.map_flatMap, List.map_cons, hwords, hdirective]

theorem resolveEmphasis_none (ts : Array Token) :
    resolveEmphasis ts [#[]] = joinTexts ((joinTexts ts.toList).map plainText) := by
  simp [resolveEmphasis, pairDelimiters, strikeTokens, emphasisTokens]

/-- The tokens of words and directives between them. -/
theorem inlineTokens_row {env : InlineEnv} (hdepth : env.dialect.maxNesting ≠ 0)
    {words : List Char} {marks : List (Mark × List Char)} (h : IsRow words marks) :
    inlineTokens env (rowText words marks) = rowTokens words marks := by
  obtain ⟨depth, hdepth⟩ := Nat.exists_eq_succ_of_ne_zero hdepth
  have hat : (Scan.start (rowText words marks)).At [] (rowText words marks) := ⟨rfl, rfl, rfl⟩
  have hfuel : (rowText words marks).length <
      (Scan.start (rowText words marks)).stop + 1 - (Scan.start (rowText words marks)).pos := by
    rw [hat.stop, hat.size, hat.pos]
    simp
  have hread := readLoop_row env (skipOne env (depth + 1)) (readText env depth) h hat rfl (by simp)
    hfuel
  have hrun : ((readText env (depth + 1)).run (Scan.start (rowText words marks))).2 =
      ((readLoop (constructs env (skipOne env (depth + 1)) (readText env depth))
        ((Scan.start (rowText words marks)).stop + 1 -
          (Scan.start (rowText words marks)).pos)).run
        (Scan.start (rowText words marks))).2.flush := rfl
  rw [inlineTokens, hdepth, Nat.succ_eq_add_one, hrun, hread]
  simp only [Scan.start, resolveEmphasis_none, Array.empty_append]
  rw [joinTexts_rowTokens, map_plainText_rowTokens, joinTexts_rowTokens]

end DocumentMedia.Markdown
