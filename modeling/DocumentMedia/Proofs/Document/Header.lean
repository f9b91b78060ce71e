import DocumentMedia.Document.Header
import DocumentMedia.Proofs.Text.Blank

/-! # Headers line by line

A text whose first line is a fence has a header up to the next fence, as long as the lines between
them say something. Main statement: what is read of such a text is the value of these lines and what
is behind them; blank lines alone are a header only when no fence follows in the body, and no line
at all is none. -/
namespace DocumentMedia.Document

open DocumentMedia.Text

/-! ## Lines -/

/-- A statement about texts by their lines, of which the last one has no end. -/
theorem lines_induction {P : List Char → Prop} (last : ∀ l, '\n' ∉ l → P l)
    (line : ∀ l rest, '\n' ∉ l → P rest → P (l ++ '\n' :: rest)) (s : List Char) : P s := by
  by_cases h : '\n' ∈ s
  · obtain ⟨l, rest, hl, rfl, -⟩ := List.exists_erase_eq h
    have hlength : rest.length < (l ++ '\n' :: rest).length := by
      rw [List.length_append, List.length_cons]
      omega
    exact line l rest hl (lines_induction last line rest)
  · exact last s h
termination_by s.length

/-- Lines with their ends. -/
def unlines (ls : List (List Char)) : List Char := ls.flatMap (· ++ ['\n'])

theorem unlines_cons (l : List Char) (ls : List (List Char)) (s : List Char) :
    unlines (l :: ls) ++ s = l ++ '\n' :: (unlines ls ++ s) := by
  simp [unlines]

/-- Three hyphens, behind which blanks may stand. -/
def isFence : List Char → Bool
  | '-' :: '-' :: '-' :: gap => isAllBlank gap
  | _ => false

/-- A line that may stand between two fences. -/
structure IsHeaderLine (l : List Char) : Prop where
  single : '\n' ∉ l
  noFence : isFence l = false

instance (l : List Char) : Decidable (IsHeaderLine l) :=
  decidable_of_iff ('\n' ∉ l ∧ isFence l = false)
    ⟨fun h => ⟨h.1, h.2⟩, fun h => ⟨h.single, h.noFence⟩⟩

/-- The first fence among the lines of a text stands between the lines `before` and the text
`rest`. -/
structure FirstFence (s : List Char) (before : List (List Char)) (rest : List Char) : Prop where
  lines : ∀ l ∈ before, IsHeaderLine l
  eq : ∃ fence, '\n' ∉ fence ∧ isFence fence = true ∧
    s = unlines before ++ (fence ++ '\n' :: rest)

def NoFence (s : List Char) : Prop := ∀ before rest, ¬ FirstFence s before rest

theorem FirstFence.cons {s rest l : List Char} {before : List (List Char)} (hl : IsHeaderLine l)
    (h : FirstFence s before rest) : FirstFence (l ++ '\n' :: s) (l :: before) rest := by
  obtain ⟨fence, hsingle, hfence, rfl⟩ := h.eq
  exact ⟨List.forall_mem_cons.mpr ⟨hl, h.lines⟩, fence, hsingle, hfence,
    (unlines_cons l before _).symm⟩

theorem firstFence_of_fence {fence : List Char} (hsingle : '\n' ∉ fence)
    (hfence : isFence fence = true) (rest : List Char) :
    FirstFence (fence ++ '\n' :: rest) [] rest :=
  ⟨List.forall_mem_nil _, fence, hsingle, hfence, rfl⟩

/-! ## Blank lines -/

/-- Blank lines at the start are dropped. What stands behind the last line end is kept. -/
def withoutBlankLines : List (List Char) → List (List Char)
  | l :: m :: ls => if isAllBlank l then withoutBlankLines (m :: ls) else l :: m :: ls
  | ls => ls

/-- A text without the blank lines at its start. -/
def dropBlankLines (s : List Char) : List Char :=
  ['\n'].intercalate (withoutBlankLines (s.splitOn '\n'))

theorem dropBlankLines_last {l : List Char} (h : '\n' ∉ l) : dropBlankLines l = l := by
  rw [dropBlankLines, List.splitOn_eq_singleton h, withoutBlankLines, List.intercalate_singleton]
  exact fun m n ns he => by cases he

theorem dropBlankLines_line {l : List Char} (h : '\n' ∉ l) (rest : List Char) :
    dropBlankLines (l ++ '\n' :: rest) =
      if isAllBlank l then dropBlankLines rest else l ++ '\n' :: rest := by
  have hsplit : (l ++ '\n' :: rest).splitOn '\n' = l :: rest.splitOn '\n' :=
    List.splitOn_append_cons_self_of_not_mem h rest
  have hjoin : ['\n'].intercalate (rest.splitOn '\n') = rest := List.intercalate_splitOn '\n'
  rw [dropBlankLines, dropBlankLines, hsplit]
  cases hrest : rest.splitOn '\n' with
  | nil => exact absurd hrest (List.splitOn_ne_nil _ _)
  | cons m ls =>
    rw [withoutBlankLines]
    split
    · rfl
    · rw [List.intercalate_cons_cons, ← hrest, hjoin, List.append_assoc, List.singleton_append]

variable {l : List Char}

theorem isAllBlank_cons (c : Char) (s : List Char) :
    isAllBlank (c :: s) = (isBlank c && isAllBlank s) := rfl

theorem behindBlankLines?_last (h : '\n' ∉ l) : behindBlankLines? l = none := by
  induction l with
  | nil => rfl
  | cons c l ih =>
    rw [List.mem_cons, not_or] at h
    rw [behindBlankLines?, ih h.2, if_neg (Ne.symm h.1), ite_self]

theorem behindBlankLines?_line (h : '\n' ∉ l) (rest : List Char) :
    behindBlankLines? (l ++ '\n' :: rest) =
      if isAllBlank l then some ((behindBlankLines? rest).getD rest) else none := by
  induction l with
  | nil =>
    have hbreak : isBlank '\n' = true := by decide
    rw [List.nil_append, behindBlankLines?, if_pos hbreak]
    cases behindBlankLines? rest <;> rfl
  | cons c l ih =>
    rw [List.mem_cons, not_or] at h
    rw [List.cons_append, behindBlankLines?, ih h.2, isAllBlank_cons]
    cases isBlank c <;> cases isAllBlank l <;> simp [Ne.symm h.1]

theorem behindBlankLines?_getD (s : List Char) :
    (behindBlankLines? s).getD s = dropBlankLines s := by
  induction s using lines_induction with
  | last l h => rw [behindBlankLines?_last h, dropBlankLines_last h, Option.getD_none]
  | line l rest h ih =>
    rw [behindBlankLines?_line h, dropBlankLines_line h, ih]
    split <;> rfl

theorem blankLineStarts_line (h : '\n' ∉ l) (rest : List Char) :
    blankLineStarts (l ++ '\n' :: rest) =
      if isAllBlank l then blankLineStarts rest ++ [rest] else [] := by
  induction l with
  | nil =>
    have hbreak : isBlank '\n' = true := by decide
    rw [List.nil_append, blankLineStarts, if_pos hbreak, if_pos rfl]
    rfl
  | cons c l ih =>
    rw [List.mem_cons, not_or] at h
    rw [List.cons_append, blankLineStarts, ih h.2, isAllBlank_cons, if_neg (Ne.symm h.1),
      List.append_nil]
    cases isBlank c <;> cases isAllBlank l <;> rfl

/-! ## The next fence -/

/-- Whether a line closes a header, and what is behind it then. -/
theorem closes_line (h : '\n' ∉ l) (rest : List Char) :
    dropHead? "\n---".toList ('\n' :: (l ++ '\n' :: rest)) >>= behindBlankLines? =
      if isFence l then some (dropBlankLines rest) else none := by
  unfold isFence
  split
  · next gap =>
    have hgap : '\n' ∉ gap := fun hc => h (by simp [hc])
    have hhead : dropHead? "\n---".toList ('\n' :: ('-' :: '-' :: '-' :: gap ++ '\n' :: rest)) =
        some (gap ++ '\n' :: rest) := dropHead?_eq_some.mpr rfl
    rw [hhead, Option.bind_eq_bind, Option.bind_some, behindBlankLines?_line hgap,
      behindBlankLines?_getD]
  · next hother =>
    rw [if_neg (by simp), Option.bind_eq_bind, Option.bind_eq_none_iff]
    intro behind hbehind
    have heq : l ++ '\n' :: rest = '-' :: '-' :: '-' :: behind := by
      simpa using dropHead?_eq_some.mp hbehind
    -- The three hyphens are characters of the line, as no line end is among them.
    rcases l with _ | ⟨a, _ | ⟨b, _ | ⟨c, gap⟩⟩⟩
    · simp at heq
    · simp at heq
    · simp at heq
    · obtain ⟨rfl, rfl, rfl, -⟩ : a = '-' ∧ b = '-' ∧ c = '-' ∧ _ := by simpa using heq
      exact absurd rfl (hother gap)

theorem untilFence?_within (h : '\n' ∉ l) (s : List Char) :
    untilFence? (l ++ s) = (untilFence? s).map fun (yaml, body) => (l ++ yaml, body) := by
  induction l with
  | nil => simp
  | cons c l ih =>
    rw [List.mem_cons, not_or] at h
    have hhead : dropHead? "\n---".toList (c :: (l ++ s)) = none := by
      rw [show "\n---".toList = '\n' :: "---".toList from rfl, dropHead?, if_neg h.1]
    rw [List.cons_append, untilFence?, hhead, ih h.2]
    cases untilFence? s <;> rfl

theorem untilFence?_last (h : '\n' ∉ l) : untilFence? l = none := by
  rw [← List.append_nil l, untilFence?_within h]
  rfl

theorem untilFence?_break_last (h : '\n' ∉ l) : untilFence? ('\n' :: l) = none := by
  have hclosed : dropHead? "\n---".toList ('\n' :: l) >>= behindBlankLines? = none := by
    rw [Option.bind_eq_bind, Option.bind_eq_none_iff]
    intro behind hbehind
    have heq : l = '-' :: '-' :: '-' :: behind := by
      simpa using dropHead?_eq_some.mp hbehind
    exact behindBlankLines?_last fun hc => h (by simp [heq, hc])
  rw [untilFence?, hclosed, untilFence?_last h]
  rfl

theorem untilFence?_line (h : '\n' ∉ l) (rest : List Char) :
    untilFence? ('\n' :: (l ++ '\n' :: rest)) =
      if isFence l then some ([], dropBlankLines rest)
      else (untilFence? ('\n' :: rest)).map fun (yaml, body) => ('\n' :: (l ++ yaml), body) := by
  rw [untilFence?, closes_line h]
  split
  · next hfence =>
    split at hfence
    · next hl =>
      cases hfence
      rw [if_pos hl]
    · cases hfence
  · next hfence =>
    split at hfence
    · cases hfence
    · next hl =>
      rw [if_neg hl, untilFence?_within h, Option.map_map]
      rfl

variable {before : List (List Char)} {s rest : List Char}

theorem untilFence?_first (h : FirstFence s before rest) :
    untilFence? ('\n' :: s) = some (before.flatMap ('\n' :: ·), dropBlankLines rest) := by
  obtain ⟨fence, hsingle, hfence, rfl⟩ := h.eq
  have hbefore := h.lines
  clear h
  induction before with
  | nil =>
    rw [unlines, List.flatMap_nil, List.nil_append, untilFence?_line hsingle, if_pos hfence]
    rfl
  | cons l ls ih =>
    rw [List.forall_mem_cons] at hbefore
    rw [unlines_cons, untilFence?_line hbefore.1.single, if_neg (by simp [hbefore.1.noFence]),
      ih hbefore.2]
    rfl

/-- A header and its fence: the text up to the fence and the body behind it. -/
theorem untilFence?_firstFence (h : '\n' ∉ l) (hs : FirstFence s before rest) :
    untilFence? (l ++ '\n' :: s) =
      some (['\n'].intercalate (l :: before), dropBlankLines rest) := by
  rw [untilFence?_within h, untilFence?_first hs, intercalate_cons]
  rfl

theorem untilFence?_noFence (h : NoFence s) : untilFence? ('\n' :: s) = none := by
  induction s using lines_induction with
  | last l hl => exact untilFence?_break_last hl
  | line l rest hl ih =>
    have hfence : isFence l = false :=
      Bool.eq_false_iff.mpr fun hf => h [] rest (firstFence_of_fence hl hf rest)
    have hrest : NoFence rest := fun before r hr => h _ r (hr.cons ⟨hl, hfence⟩)
    rw [untilFence?_line hl, if_neg (by simp [hfence]), ih hrest]
    rfl

/-! ## Headers -/

/-- A fence, the lines, one more fence and the body. -/
def fencedText (lines : List (List Char)) (body : List Char) : List Char :=
  "---\n".toList ++ (unlines lines ++ ("---\n".toList ++ body))

/-- The header that begins behind blank lines at the start, if one ends there, else at the start. -/
def headerFrom? (s : List Char) : Option (List Char × List Char) :=
  ((blankLineStarts s).findSome? untilFence?).or (untilFence? s)

theorem splitHeader?_fencedText (lines : List (List Char)) (body : List Char) :
    splitHeader? (fencedText lines body) =
      headerFrom? (unlines lines ++ ("---\n".toList ++ body)) := by
  have hhead : dropHead? "---".toList (fencedText lines body) =
      some ([] ++ '\n' :: (unlines lines ++ ("---\n".toList ++ body))) :=
    dropHead?_eq_some.mpr rfl
  rw [splitHeader?, hhead]
  simp only
  have hblank : isAllBlank [] = true := rfl
  rw [blankLineStarts_line List.not_mem_nil, if_pos hblank, List.findSome?_append, headerFrom?,
    List.findSome?_singleton]

theorem headerFrom?_line (h : '\n' ∉ l) (rest : List Char) :
    headerFrom? (l ++ '\n' :: rest) =
      if isAllBlank l then (headerFrom? rest).or (untilFence? (l ++ '\n' :: rest))
      else untilFence? (l ++ '\n' :: rest) := by
  rw [headerFrom?, blankLineStarts_line h]
  split
  · rw [List.findSome?_append, List.findSome?_singleton, headerFrom?]
  · rfl

theorem firstFence_closing (body : List Char) : FirstFence ("---\n".toList ++ body) [] body :=
  have hsingle : '\n' ∉ "---".toList := by decide
  firstFence_of_fence hsingle (by decide) body

theorem firstFence_unlines {lines : List (List Char)} (h : ∀ l ∈ lines, IsHeaderLine l)
    (body : List Char) : FirstFence (unlines lines ++ ("---\n".toList ++ body)) lines body :=
  ⟨h, "---".toList, by decide, by decide, rfl⟩

variable {lines : List (List Char)} {body : List Char}

/-- Blank lines in front of a header that says something are not part of it. -/
theorem headerFrom?_solid (h : ∀ l ∈ lines, IsHeaderLine l)
    (hsolid : ∃ l ∈ lines, isAllBlank l = false) (body : List Char) :
    headerFrom? (unlines lines ++ ("---\n".toList ++ body)) =
      some (['\n'].intercalate (lines.dropWhile isAllBlank), dropBlankLines body) := by
  induction lines with
  | nil => simp at hsolid
  | cons l ls ih =>
    rw [List.forall_mem_cons] at h
    rw [unlines_cons, headerFrom?_line h.1.single, List.dropWhile_cons]
    cases hl : isAllBlank l with
    | true =>
      have hrest : ∃ l ∈ ls, isAllBlank l = false := by simpa [hl] using hsolid
      rw [if_pos rfl, if_pos rfl, ih h.2 hrest, Option.some_or]
    | false =>
      rw [if_neg (by simp), if_neg (by simp),
        untilFence?_firstFence h.1.single (firstFence_unlines h.2 body)]

/-- The closing fence is looked at as the start of a header once only blanks stand before it. -/
theorem headerFrom?_closing (body : List Char) :
    headerFrom? ("---\n".toList ++ body) = untilFence? ("---".toList ++ '\n' :: body) := by
  have hline : "---\n".toList ++ body = "---".toList ++ '\n' :: body := rfl
  rw [hline, headerFrom?_line (by decide), if_neg (by decide)]

theorem headerFrom?_blank_fence (h : ∀ l ∈ lines, IsHeaderLine l ∧ isAllBlank l = true)
    (hbody : FirstFence body before rest) :
    headerFrom? (unlines lines ++ ("---\n".toList ++ body)) =
      some (['\n'].intercalate ("---".toList :: before), dropBlankLines rest) := by
  induction lines with
  | nil => exact (headerFrom?_closing body).trans (untilFence?_firstFence (by decide) hbody)
  | cons l ls ih =>
    rw [List.forall_mem_cons] at h
    rw [unlines_cons, headerFrom?_line h.1.1.single, if_pos h.1.2, ih h.2, Option.some_or]

theorem headerFrom?_none (hbody : NoFence body) : headerFrom? ("---\n".toList ++ body) = none := by
  rw [headerFrom?_closing, untilFence?_within (by decide), untilFence?_noFence hbody]
  rfl

/-- Of blank lines only the last one is a header. -/
theorem headerFrom?_blank_noFence (h : ∀ l ∈ lines, IsHeaderLine l ∧ isAllBlank l = true)
    (hbody : NoFence body) (hl : IsHeaderLine l) (hblank : isAllBlank l = true) :
    headerFrom? (unlines (lines ++ [l]) ++ ("---\n".toList ++ body)) =
      some (['\n'].intercalate [l], dropBlankLines body) := by
  induction lines with
  | nil =>
    rw [List.nil_append, unlines_cons, headerFrom?_line hl.single, if_pos hblank, unlines,
      List.flatMap_nil, List.nil_append, headerFrom?_none hbody, Option.none_or,
      untilFence?_firstFence hl.single (firstFence_closing body)]
  | cons m ls ih =>
    rw [List.forall_mem_cons] at h
    rw [List.cons_append, unlines_cons, headerFrom?_line h.1.1.single, if_pos h.1.2, ih h.2,
      Option.some_or]

/-- What is read for the value of a header and the body behind it. -/
def headerOutcome (body : List Char) :
    Except YamlError Value → Except HeaderError (HeaderFields × String)
  | .error e => .error (.yaml e)
  | .ok (.map fields) => .ok (fields, String.ofList body)
  | .ok v => if v.isFalsy then .ok ([], String.ofList body) else .error (.notMapping v.typeName)

theorem headerFields_outcome (v : Value) (body : List Char) :
    (headerFields v).map (fun fields => (fields, String.ofList body)) =
      headerOutcome body (.ok v) := by
  cases v with
  | map fields => cases fields <;> rfl
  | _ =>
    simp only [headerFields, headerOutcome]
    split <;> rfl

theorem readHeader_some {text yaml : List Char} (h : splitHeader? text = some (yaml, body)) :
    readHeader (String.ofList text) = headerOutcome body (Yaml.load (String.ofList yaml)) := by
  rw [readHeader, String.toList_ofList, h]
  cases hload : Yaml.load (String.ofList yaml) with
  | error e =>
    simp only [hload]
    rfl
  | ok v =>
    rw [← headerFields_outcome]
    simp only [hload]
    change (do return (← headerFields v, String.ofList body)) = _
    cases headerFields v <;> rfl

theorem readHeader_none {text : List Char} (h : splitHeader? text = none) :
    readHeader (String.ofList text) = .ok ([], String.ofList text) := by
  rw [readHeader, String.toList_ofList, h]

/-- The value of lines as YAML. -/
def loadLines (lines : List (List Char)) : Except YamlError Value :=
  Yaml.load (String.ofList (['\n'].intercalate lines))

/-- Blank lines in front of YAML do not change its value. In particular, that of blank lines alone
is that of an empty text. -/
def BlanksIgnored (lines : List (List Char)) : Prop :=
  ∀ blank rest, lines = blank ++ rest → (∀ l ∈ blank, isAllBlank l = true) →
    loadLines rest = loadLines lines

/-- What is read of lines between two fences and of a body. If not all lines are blank, or there are
some and the body has no fence, the header is the value of the lines. Without lines, a text whose
body has no fence has no header. If only blank lines, if any, stand between the fences, the lines of
a body up to its first fence are read as the header, with the closing fence in front of them. -/
theorem readHeader_fencedText (h : ∀ l ∈ lines, IsHeaderLine l) (body : List Char) :
    (BlanksIgnored lines →
        (∃ l ∈ lines, isAllBlank l = false) ∨ (lines ≠ [] ∧ NoFence body) →
      readHeader (String.ofList (fencedText lines body)) =
        headerOutcome (dropBlankLines body) (loadLines lines)) ∧
    (lines = [] → NoFence body →
      readHeader (String.ofList (fencedText lines body)) =
        .ok ([], String.ofList (fencedText lines body))) ∧
    ((∀ l ∈ lines, isAllBlank l = true) → ∀ before rest, FirstFence body before rest →
      readHeader (String.ofList (fencedText lines body)) =
        headerOutcome (dropBlankLines rest) (loadLines ("---".toList :: before))) := by
  have hsplit := splitHeader?_fencedText lines body
  refine ⟨fun hignored hread => ?_, fun hnil hbody => ?_, fun hblank before rest hbody => ?_⟩
  · by_cases hsolid : ∃ l ∈ lines, isAllBlank l = false
    · have hload := hignored _ _ (List.takeWhile_append_dropWhile (p := isAllBlank)).symm
        fun l hl => List.mem_takeWhile_imp hl
      rw [headerFrom?_solid h hsolid] at hsplit
      rw [readHeader_some hsplit, ← hload, loadLines]
    · obtain ⟨hne, hbody⟩ := hread.resolve_left hsolid
      have hblank : ∀ l ∈ lines, IsHeaderLine l ∧ isAllBlank l = true :=
        fun l hl => ⟨h l hl, by simpa using fun hs => hsolid ⟨l, hl, hs⟩⟩
      have hparts := List.dropLast_concat_getLast hne
      have hload := hignored _ _ hparts.symm
        fun l hl => (hblank l (List.dropLast_subset lines hl)).2
      have hlast := hblank _ (List.getLast_mem hne)
      have hfront : ∀ l ∈ lines.dropLast, IsHeaderLine l ∧ isAllBlank l = true :=
        fun l hl => hblank l (List.dropLast_subset lines hl)
      have hfrom := headerFrom?_blank_noFence hfront hbody hlast.1 hlast.2
      rw [hparts, ← hsplit] at hfrom
      rw [readHeader_some hfrom, ← hload, loadLines]
  · subst hnil
    exact readHeader_none (hsplit.trans (headerFrom?_none hbody))
  · rw [headerFrom?_blank_fence (fun l hl => ⟨h l hl, hblank l hl⟩) hbody] at hsplit
    rw [readHeader_some hsplit, loadLines]

/-- The entry of a map with one entry, from a text to a text. -/
def textEntry? : Except YamlError Value → Option (String × String)
  | .ok (.map [(.str k, .str v)]) => some (k, v)
  | _ => none

theorem eq_of_textEntry? {loaded : Except YamlError Value} {k v : String}
    (h : textEntry? loaded = some (k, v)) : loaded = .ok (.map [(.str k, .str v)]) := by
  unfold textEntry? at h
  split at h
  · cases h
    rfl
  · cases h

/-- A header behind a blank line, no header, and a body that is read as one. -/
theorem readHeader_fencedText_sample :
    readHeader "---\n\na: b\n---\n\nHi.\n---\nx: y\n---\n" =
      .ok ([(.str "a", .str "b")], "Hi.\n---\nx: y\n---\n") ∧
    readHeader "---\n---\nHi." = .ok ([], "---\n---\nHi.") ∧
    readHeader "---\n\n---\na: b\n---\nHi." = .ok ([(.str "a", .str "b")], "Hi.") := by
  have hload : loadLines ["a: b".toList] = .ok (.map [(.str "a", .str "b")]) :=
    eq_of_textEntry? (by decide +kernel)
  have hblank : loadLines [[], "a: b".toList] = .ok (.map [(.str "a", .str "b")]) :=
    eq_of_textEntry? (by decide +kernel)
  have hfence : loadLines ["---".toList, "a: b".toList] = .ok (.map [(.str "a", .str "b")]) :=
    eq_of_textEntry? (by decide +kernel)
  have hignored : BlanksIgnored [[], "a: b".toList] := by
    intro blank rest hparts hall
    rcases blank with _ | ⟨l, _ | ⟨m, ls⟩⟩
    · rw [hparts, List.nil_append]
    · obtain ⟨-, rfl⟩ := List.cons.inj hparts
      rw [hload, hblank]
    · obtain ⟨-, hm⟩ := List.cons.inj hparts
      have hsolid := hall m (by simp)
      rw [← (List.cons.inj hm).1] at hsolid
      exact absurd hsolid (by decide)
  have hnone : NoFence "Hi.".toList := by
    intro before rest hfirst
    obtain ⟨fence, -, -, heq⟩ := hfirst.eq
    have hbreak : '\n' ∈ "Hi.".toList := by simp [heq]
    exact absurd hbreak (by decide)
  have hentry : ∀ l ∈ ["a: b".toList], IsHeaderLine l := by decide
  have hfirst : FirstFence "a: b\n---\nHi.".toList ["a: b".toList] "Hi.".toList :=
    firstFence_unlines hentry "Hi.".toList
  have hlines : ∀ l ∈ [[], "a: b".toList], IsHeaderLine l := by decide
  have hblanks : ∀ l ∈ [[]], IsHeaderLine l := by decide
  have hsolid := (readHeader_fencedText hlines "\nHi.\n---\nx: y\n---\n".toList).1 hignored
    (Or.inl ⟨"a: b".toList, by decide, by decide⟩)
  have hempty := (readHeader_fencedText (List.forall_mem_nil _) "Hi.".toList).2.1 rfl hnone
  have hbody := (readHeader_fencedText hblanks "a: b\n---\nHi.".toList).2.2 (by decide) _ _ hfirst
  rw [hblank] at hsolid
  rw [hfence] at hbody
  exact ⟨hsolid, hempty, hbody⟩

/-- Without lines between the fences, the body is read as the header up to its first fence, or the
whole text is the body; and a header that is a number is none when the number is zero. -/
theorem header_is_lost :
    readHeader (String.ofList (fencedText [] "a: b\n---\nHi.\n".toList)) =
      .ok ([(.str "a", .str "b")], "Hi.\n") ∧
    readHeader (String.ofList (fencedText [] "Hi.\n".toList)) = .ok ([], "---\n---\nHi.\n") ∧
    loadLines [] = .ok .null ∧
    readHeader (String.ofList (fencedText ["0".toList] "Hi.\n".toList)) = .ok ([], "Hi.\n") ∧
    loadLines ["0".toList] = .ok (.int 0) := by
  have hentry : Yaml.load "---\na: b" = .ok (.map [(.str "a", .str "b")]) :=
    eq_of_textEntry? (by decide +kernel)
  have hzero : Yaml.load "0" = .ok (.int 0) := rfl
  have hread : splitHeader? (fencedText [] "a: b\n---\nHi.\n".toList) =
      some ("---\na: b".toList, "Hi.\n".toList) := by decide +kernel
  have hnone : splitHeader? (fencedText [] "Hi.\n".toList) = none := by decide +kernel
  have hnumber : splitHeader? (fencedText ["0".toList] "Hi.\n".toList) =
      some ("0".toList, "Hi.\n".toList) := by decide +kernel
  refine ⟨?_, readHeader_none hnone, rfl, ?_, hzero⟩
  · rw [readHeader_some hread, String.ofList_toList, hentry]
    rfl
  · rw [readHeader_some hnumber, String.ofList_toList, hzero]
    rfl

end DocumentMedia.Document
