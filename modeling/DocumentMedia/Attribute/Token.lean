import DocumentMedia.Text.Blank

/-! # Attribute tokens

Attribute text is split at blanks, but not inside quotes. Main statements: a token and what follows
it make up the text it was read from, and reading a token always moves on.
-/
namespace DocumentMedia.Attribute

open DocumentMedia.Text

def isQuote (c : Char) : Bool := c = '"' || c = '\''

/-- Typographic quotes become their ASCII forms. -/
def plainQuote (c : Char) : Char :=
  if c = '“' || c = '”' then '"'
  else if c = '‘' || c = '’' then '\''
  else c

def plainQuotes (s : List Char) : List Char := s.map plainQuote

/-- Splits the text after an opening quote behind its closing quote: the first one that no
backslash escapes or, when all are escaped, the last one. -/
def closing (q : Char) : List Char → Option (List Char × List Char)
  | [] => none
  | [c] => if c = q then some ([c], []) else none
  | c :: d :: cs =>
    if c = q then some ([c], d :: cs)
    else if c = '\\' then
      if d = q then
        match closing q cs with
        | some (inside, rest) => some (c :: d :: inside, rest)
        -- None further right closes, so this one does in spite of its backslash.
        | none => some ([c, d], cs)
      else (closing q cs).map fun (inside, rest) => (c :: d :: inside, rest)
    else (closing q (d :: cs)).map fun (inside, rest) => (c :: inside, rest)

/-- A quoted segment or a single character that is neither a blank nor a quote. -/
def piece? : List Char → Option (List Char × List Char)
  | [] => none
  | c :: cs =>
    if isQuote c then (closing c cs).map fun (inside, rest) => (c :: inside, rest)
    else if isBlank c then none
    else some ([c], cs)

theorem append_of_closing {q : Char} {s inside rest : List Char}
    (h : closing q s = some (inside, rest)) : inside ++ rest = s := by
  fun_induction closing q s generalizing inside rest with
  | case1 => simp at h
  | case2 => simp_all
  | case3 => simp_all
  | case4 =>
    simp only [Option.some.injEq, Prod.mk.injEq] at h
    obtain ⟨rfl, rfl⟩ := h
    rfl
  | case5 _ _ _ h' _ ih =>
    simp only [Option.some.injEq, Prod.mk.injEq] at h
    obtain ⟨rfl, rfl⟩ := h
    simp [ih h']
  | case6 =>
    simp only [Option.some.injEq, Prod.mk.injEq] at h
    obtain ⟨rfl, rfl⟩ := h
    rfl
  | case7 _ _ _ _ ih =>
    obtain ⟨⟨a, b⟩, hab, he⟩ := Option.map_eq_some_iff.1 h
    simp only [Prod.mk.injEq] at he
    obtain ⟨rfl, rfl⟩ := he
    simp [ih hab]
  | case8 _ _ _ _ _ ih =>
    obtain ⟨⟨a, b⟩, hab, he⟩ := Option.map_eq_some_iff.1 h
    simp only [Prod.mk.injEq] at he
    obtain ⟨rfl, rfl⟩ := he
    simp [ih hab]

theorem append_of_piece? {s piece rest : List Char} (h : piece? s = some (piece, rest)) :
    piece ++ rest = s ∧ piece ≠ [] := by
  cases s with
  | nil => simp [piece?] at h
  | cons c cs =>
    by_cases hq : isQuote c
    · simp only [piece?, hq, if_true] at h
      obtain ⟨⟨a, b⟩, hab, he⟩ := Option.map_eq_some_iff.1 h
      simp only [Prod.mk.injEq] at he
      obtain ⟨rfl, rfl⟩ := he
      simp [append_of_closing hab]
    · by_cases hb : isBlank c
      · simp [piece?, hq, hb] at h
      · simp only [piece?, hq, hb] at h
        simp only [Bool.false_eq_true, if_false, Option.some.injEq, Prod.mk.injEq] at h
        obtain ⟨rfl, rfl⟩ := h
        simp

theorem length_of_piece? {s piece rest : List Char} (h : piece? s = some (piece, rest)) :
    rest.length < s.length := by
  obtain ⟨rfl, hne⟩ := append_of_piece? h
  have := List.length_pos_iff.2 hne
  simp
  omega

/-- The longest run of pieces at the start of a text, and the rest. -/
def takeToken (s : List Char) : List Char × List Char :=
  match h : piece? s with
  | none => ([], s)
  | some (piece, rest) =>
    have := length_of_piece? h
    let (more, rest') := takeToken rest
    (piece ++ more, rest')
termination_by s.length

theorem takeToken_of_none {s : List Char} (h : piece? s = none) : takeToken s = ([], s) := by
  rw [takeToken]
  split <;> simp_all

theorem takeToken_of_some {s piece rest : List Char} (h : piece? s = some (piece, rest)) :
    takeToken s = (piece ++ (takeToken rest).1, (takeToken rest).2) := by
  rw [takeToken]
  split <;> simp_all

theorem append_takeToken (s : List Char) : (takeToken s).1 ++ (takeToken s).2 = s := by
  fun_induction takeToken s with
  | case1 => simp
  | case2 s piece rest h _ ih =>
    simp_all [append_of_piece? h]

/-- The tokens of a text; blanks and quotes that never close stand between them. -/
def tokensOf (s : List Char) : List (List Char) :=
  match s with
  | [] => []
  | c :: cs =>
    match h : takeToken (c :: cs) with
    | ([], _) => tokensOf cs
    | (d :: ds, rest) =>
      have : rest.length < (c :: cs).length := by
        have := congrArg List.length (append_takeToken (c :: cs))
        rw [h] at this
        simp at this ⊢
        omega
      (d :: ds) :: tokensOf rest
termination_by s.length
decreasing_by
  · simp only [List.length_cons]
    omega
  · assumption

def splitTokens (s : List Char) : List (List Char) := tokensOf (plainQuotes s)

def isKeyChar (c : Char) : Bool := !isBlank c && c ≠ '=' && !isQuote c

/-- The text between two quotes of a kind that occurs nowhere else in it. -/
def quotedInside? (q : Char) (s : List Char) : Option (List Char) :=
  match s.reverse with
  | c :: inside => if c = q && !inside.contains q then some inside.reverse else none
  | [] => none

/-- The value after an equals sign: quoted, or without blanks and quotes. -/
def pairValue? : List Char → Option (List Char)
  | '"' :: s => quotedInside? '"' s
  | '\'' :: s => quotedInside? '\'' s
  | s => if s.all fun c => !isBlank c && !isQuote c then some s else none

/-- Key and value of a token `key=value`; any other token is a key without a value. -/
def splitPair (token : List Char) : List Char × Option (List Char) :=
  match token.takeWhile isKeyChar, token.dropWhile isKeyChar with
  | k :: ks, '=' :: value =>
    match pairValue? (dropLastBreak value) with
    | some v => (k :: ks, some v)
    | none => (token, none)
  | _, _ => (token, none)

end DocumentMedia.Attribute
