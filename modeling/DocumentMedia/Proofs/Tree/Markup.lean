import DocumentMedia.Text.Alnum
import DocumentMedia.Tree.Render

/-! # Reading tags

A reader of markup, one character after another. A tag begins with `<`; its attributes are flags or
have values in double quotes. Entities are decoded, of which the two for quotes are known inside
values only. The reader gives every character between tags as a token of its own and refuses all
that is no markup. What is rendered as a text, an attribute or a tag is read back as such. -/
namespace DocumentMedia.Markup

open DocumentMedia.Text

/-- Attributes as they are written: a flag has no value. -/
abbrev Attributes := List (String × Option String)

inductive Token where
  | start (tag : String) (attrs : Attributes)
  | close (tag : String)
  | char (c : Char)
  deriving DecidableEq, Repr

/-- Letters, digits and hyphens. -/
def isNameChar (c : Char) : Bool := isAlnum c || c = '-'

def textEntity? : List Char → Option Char
  | ['a', 'm', 'p'] => some '&'
  | ['l', 't'] => some '<'
  | ['g', 't'] => some '>'
  | _ => none

def valueEntity? : List Char → Option Char
  | ['q', 'u', 'o', 't'] => some '"'
  | ['#', 'x', '2', '7'] => some '\''
  | name => textEntity? name

/-- Where the reader is, with what it has read there. -/
inductive Mode where
  | text
  | textEntity (entity : List Char)
  | tagOpen
  | startTag (tag : List Char)
  | closeTag (tag : List Char)
  | attribute (tag : String) (attrs : Attributes) (name : List Char)
  | equals (tag : String) (attrs : Attributes) (name : List Char)
  | value (tag : String) (attrs : Attributes) (name value : List Char)
  | valueEntity (tag : String) (attrs : Attributes) (name value entity : List Char)
  | valueEnd (tag : String) (attrs : Attributes)
  deriving DecidableEq, Repr

namespace Mode

/-- Behind a name or a value the tag ends, or a space comes and an attribute. -/
def leave (tag : String) (attrs : Attributes) (c : Char) : Option (Mode × List Token) :=
  if c = '>' then some (.text, [.start tag attrs])
  else if c = ' ' then some (.attribute tag attrs [], [])
  else none

/-- Reads one character, unless it cannot stand there. -/
def step : Mode → Char → Option (Mode × List Token)
  | .text, c =>
    if c = '<' then some (.tagOpen, [])
    else if c = '&' then some (.textEntity [], [])
    else some (.text, [.char c])
  | .textEntity entity, c =>
    if c = ';' then (textEntity? entity).map fun d => (.text, [.char d])
    else some (.textEntity (entity ++ [c]), [])
  | .tagOpen, c =>
    if c = '/' then some (.closeTag [], [])
    else if isNameChar c then some (.startTag [c], [])
    else none
  | .startTag tag, c =>
    if isNameChar c then some (.startTag (tag ++ [c]), [])
    else leave (String.ofList tag) [] c
  | .closeTag tag, c =>
    if isNameChar c then some (.closeTag (tag ++ [c]), [])
    else if c = '>' && !tag.isEmpty then some (.text, [.close (String.ofList tag)])
    else none
  | .attribute tag attrs name, c =>
    if isNameChar c then some (.attribute tag attrs (name ++ [c]), [])
    else if name.isEmpty then none
    else if c = '=' then some (.equals tag attrs name, [])
    else leave tag (attrs ++ [(String.ofList name, none)]) c
  | .equals tag attrs name, c => if c = '"' then some (.value tag attrs name [], []) else none
  | .value tag attrs name v, c =>
    if c = '"' then
      some (.valueEnd tag (attrs ++ [(String.ofList name, some (String.ofList v))]), [])
    else if c = '&' then some (.valueEntity tag attrs name v [], [])
    else some (.value tag attrs name (v ++ [c]), [])
  | .valueEntity tag attrs name v entity, c =>
    if c = ';' then (valueEntity? entity).map fun d => (.value tag attrs name (v ++ [d]), [])
    else some (.valueEntity tag attrs name v (entity ++ [c]), [])
  | .valueEnd tag attrs, c => leave tag attrs c

def run : Mode → List Char → Option (Mode × List Token)
  | m, [] => some (m, [])
  | m, c :: cs =>
    match m.step c with
    | none => none
    | some (m, ts) => (run m cs).map fun (m, us) => (m, ts ++ us)

end Mode

/-- The tokens of a text, unless it ends inside a tag or holds what is no markup. -/
def read (s : String) : Option (List Token) :=
  match Mode.text.run s.toList with
  | some (.text, ts) => some ts
  | _ => none

/-! ## Runs of the reader -/

/-- From one mode a text is read as some tokens, up to another mode. -/
def Reads (m : Mode) (s : List Char) (ts : List Token) (m' : Mode) : Prop := m.run s = some (m', ts)

instance (m : Mode) (s : List Char) (ts : List Token) (m' : Mode) : Decidable (Reads m s ts m') :=
  inferInstanceAs (Decidable (m.run s = some (m', ts)))

theorem Reads.nil (m : Mode) : Reads m [] [] m := rfl

theorem Reads.single {m m' : Mode} {c : Char} {ts : List Token} (h : m.step c = some (m', ts)) :
    Reads m [c] ts m' := by
  simp [Reads, Mode.run, h]

theorem Reads.append {m m' m'' : Mode} {a b : List Char} {ts us : List Token}
    (h : Reads m a ts m') (k : Reads m' b us m'') : Reads m (a ++ b) (ts ++ us) m'' := by
  unfold Reads at *
  induction a generalizing m ts with
  | nil =>
    cases h
    exact k
  | cons c a ih =>
    rw [List.cons_append, Mode.run]
    rw [Mode.run] at h
    cases hstep : m.step c with
    | none => rw [hstep] at h; cases h
    | some r =>
      obtain ⟨m₁, ts₁⟩ := r
      rw [hstep] at h
      obtain ⟨⟨m₂, ts₂⟩, hrun, he⟩ := Option.map_eq_some_iff.mp h
      cases he
      have hrest := ih hrun
      dsimp only
      rw [hrest, Option.map_some, List.append_assoc]

theorem Reads.cons {m m' m'' : Mode} {c : Char} {cs : List Char} {ts us : List Token}
    (h : m.step c = some (m', ts)) (k : Reads m' cs us m'') :
    Reads m (c :: cs) (ts ++ us) m'' :=
  (Reads.single h).append k

theorem Reads.read {s : String} {ts : List Token} (h : Reads .text s.toList ts .text) :
    read s = some ts := by
  rw [Markup.read, h]

/-! ## Texts and values -/

theorem reads_escapeTextChar (c : Char) : Reads .text (escapeTextChar c) [.char c] .text := by
  by_cases hamp : c = '&'
  · subst c; rfl
  by_cases hlt : c = '<'
  · subst c; rfl
  by_cases hgt : c = '>'
  · subst c; rfl
  have hsame : escapeTextChar c = [c] := by simp [escapeTextChar, hamp, hlt, hgt]
  rw [hsame]
  exact Reads.single (by simp [Mode.step, hlt, hamp])

theorem reads_escapeText (s : String) :
    Reads .text (escapeText s).toList (s.toList.map .char) .text := by
  rw [escapeText, String.toList_ofList]
  induction s.toList with
  | nil => exact Reads.nil _
  | cons c cs ih =>
    rw [List.flatMap_cons, List.map_cons]
    exact (reads_escapeTextChar c).append ih

section

variable (tag : String) (attrs : Attributes) (name : List Char)

theorem reads_escapeValueChar (value : List Char) (c : Char) :
    Reads (.value tag attrs name value) (escapeValueChar c) []
      (.value tag attrs name (value ++ [c])) := by
  by_cases hquote : c = '"'
  · subst c; rfl
  by_cases hapostrophe : c = '\''
  · subst c; rfl
  by_cases hamp : c = '&'
  · subst c; rfl
  by_cases hlt : c = '<'
  · subst c; rfl
  by_cases hgt : c = '>'
  · subst c; rfl
  have hsame : escapeValueChar c = [c] := by
    simp [escapeValueChar, escapeTextChar, hquote, hapostrophe, hamp, hlt, hgt]
  rw [hsame]
  exact Reads.single (by simp [Mode.step, hquote, hamp])

theorem reads_escapeValue (s : String) (value : List Char) :
    Reads (.value tag attrs name value) (escapeValue s).toList []
      (.value tag attrs name (value ++ s.toList)) := by
  rw [escapeValue, String.toList_ofList]
  induction s.toList generalizing value with
  | nil =>
    rw [List.append_nil]
    exact Reads.nil _
  | cons c cs ih =>
    have hrest := ih (value ++ [c])
    rw [List.append_assoc, List.singleton_append] at hrest
    rw [List.flatMap_cons]
    exact (reads_escapeValueChar tag attrs name value c).append hrest

end

/-! ## Names and attributes -/

/-- A name is not empty. -/
structure IsName (s : String) : Prop where
  nonempty : s.toList ≠ []
  chars : ∀ c ∈ s.toList, isNameChar c = true

instance (s : String) : Decidable (IsName s) :=
  decidable_of_iff (s.toList ≠ [] ∧ s.toList.all isNameChar = true)
    ⟨fun h => ⟨h.1, List.all_eq_true.mp h.2⟩, fun h => ⟨h.nonempty, List.all_eq_true.mpr h.chars⟩⟩

theorem not_isNameChar {c : Char} (h : c ∈ ['<', '>', '/', '=', '"', ' ']) :
    isNameChar c = false := by
  have hall : ['<', '>', '/', '=', '"', ' '].all (fun c => !isNameChar c) = true := by decide
  simpa using List.all_eq_true.mp hall c h

/-- A mode that collects the characters of a name takes a whole name. -/
theorem reads_name (mode : List Char → Mode)
    (h : ∀ name c, isNameChar c = true → (mode name).step c = some (mode (name ++ [c]), []))
    {s : List Char} (hs : ∀ c ∈ s, isNameChar c = true) (name : List Char) :
    Reads (mode name) s [] (mode (name ++ s)) := by
  induction s generalizing name with
  | nil =>
    rw [List.append_nil]
    exact Reads.nil _
  | cons c cs ih =>
    rw [List.forall_mem_cons] at hs
    have hrest := ih hs.2 (name ++ [c])
    rw [List.append_assoc, List.singleton_append] at hrest
    exact Reads.cons (h name c hs.1) hrest

/-- An attribute as it is written. -/
def attributeText (a : String × Option String) : List Char :=
  match a.2 with
  | none => a.1.toList
  | some value => a.1.toList ++ '=' :: '"' :: (escapeValue value).toList ++ ['"']

/-- The reader is behind a name or a value and has read some attributes of a tag. -/
structure Behind (m : Mode) (tag : String) (attrs : Attributes) : Prop where
  space : m.step ' ' = some (.attribute tag attrs [], [])
  tagEnd : m.step '>' = some (.text, [.start tag attrs])

theorem behind_startTag (tag : String) : Behind (.startTag tag.toList) tag [] := by
  have hspace : isNameChar ' ' = false := not_isNameChar (by decide)
  have hend : isNameChar '>' = false := not_isNameChar (by decide)
  constructor
  · simp [Mode.step, Mode.leave, hspace]
  · simp [Mode.step, Mode.leave, hend]

theorem reads_attributeName (tag : String) (attrs : Attributes) {name : String} (h : IsName name) :
    Reads (.attribute tag attrs []) name.toList [] (.attribute tag attrs name.toList) := by
  refine reads_name (.attribute tag attrs) ?_ h.chars []
  intro n c hc
  simp [Mode.step, hc]

theorem reads_attribute {m : Mode} {tag : String} {attrs : Attributes}
    (hm : Behind m tag attrs) {a : String × Option String} (ha : IsName a.1) :
    ∃ m', Reads m (' ' :: attributeText a) [] m' ∧ Behind m' tag (attrs ++ [a]) := by
  obtain ⟨name, value⟩ := a
  have hname := reads_attributeName tag attrs ha
  have hempty : name.toList.isEmpty = false := by simpa using ha.nonempty
  have hspace : isNameChar ' ' = false := not_isNameChar (by decide)
  have hend : isNameChar '>' = false := not_isNameChar (by decide)
  have hequals : isNameChar '=' = false := not_isNameChar (by decide)
  cases value with
  | none =>
    refine ⟨.attribute tag attrs name.toList, Reads.cons hm.space hname, ?_, ?_⟩
    · simp [Mode.step, Mode.leave, hspace, hempty]
    · simp [Mode.step, Mode.leave, hend, hempty]
  | some value =>
    refine ⟨.valueEnd tag (attrs ++ [(name, some value)]), ?_, rfl, rfl⟩
    have hopen : Reads (.attribute tag attrs name.toList) ['=', '"'] []
        (.value tag attrs name.toList []) := by
      have hstep : (Mode.attribute tag attrs name.toList).step '=' =
          some (.equals tag attrs name.toList, []) := by
        simp [Mode.step, hequals, hempty]
      exact Reads.cons hstep (Reads.single rfl)
    have hclose : Reads (.value tag attrs name.toList value.toList) ['"'] []
        (.valueEnd tag (attrs ++ [(name, some value)])) := by
      refine Reads.single ?_
      simp [Mode.step]
    have hvalue := reads_escapeValue tag attrs name.toList value []
    have htail := ((hname.append hopen).append hvalue).append hclose
    have htext : attributeText (name, some value) =
        name.toList ++ ['=', '"'] ++ (escapeValue value).toList ++ ['"'] := by
      simp [attributeText]
    rw [htext]
    exact Reads.cons hm.space htail

theorem reads_attributes {as : Attributes} (has : ∀ a ∈ as, IsName a.1) {m : Mode} {tag : String}
    {attrs : Attributes} (hm : Behind m tag attrs) :
    Reads m (as.flatMap (fun a => ' ' :: attributeText a) ++ ['>']) [.start tag (attrs ++ as)]
      .text := by
  induction as generalizing m attrs with
  | nil =>
    rw [List.append_nil]
    exact Reads.single hm.tagEnd
  | cons a as ih =>
    rw [List.forall_mem_cons] at has
    obtain ⟨m', hread, hm'⟩ := reads_attribute hm has.1
    have hrest := ih has.2 hm'
    rw [List.append_assoc, List.singleton_append] at hrest
    rw [List.flatMap_cons, List.append_assoc]
    exact hread.append hrest

/-! ## Tags -/

theorem reads_start {tag : String} (htag : IsName tag) {as : Attributes}
    (has : ∀ a ∈ as, IsName a.1) :
    Reads .text ('<' :: tag.toList ++ as.flatMap (fun a => ' ' :: attributeText a) ++ ['>'])
      [.start tag as] .text := by
  obtain ⟨c, cs, hcs⟩ := List.exists_cons_of_ne_nil htag.nonempty
  have hchars := htag.chars
  rw [hcs, List.forall_mem_cons] at hchars
  have hslash : c ≠ '/' := by
    rintro rfl
    rw [not_isNameChar (by decide)] at hchars
    cases hchars.1
  have hname : Reads .tagOpen tag.toList [] (.startTag tag.toList) := by
    rw [hcs]
    have hstep : Mode.tagOpen.step c = some (.startTag [c], []) := by
      simp [Mode.step, hslash, hchars.1]
    refine Reads.cons hstep (reads_name .startTag ?_ hchars.2 [c])
    intro n d hd
    simp [Mode.step, hd]
  have hopen : Reads .text ['<'] [] .tagOpen := rfl
  have hall := (hopen.append hname).append (reads_attributes has (behind_startTag tag))
  simpa using hall

theorem reads_close {tag : String} (htag : IsName tag) :
    Reads .text ('<' :: '/' :: tag.toList ++ ['>']) [.close tag] .text := by
  have hopen : Reads .text ['<', '/'] [] (.closeTag []) := rfl
  have hname : Reads (.closeTag []) tag.toList [] (.closeTag tag.toList) := by
    refine reads_name .closeTag ?_ htag.chars []
    intro n c hc
    simp [Mode.step, hc]
  have hend : Reads (.closeTag tag.toList) ['>'] [.close tag] .text := by
    refine Reads.single ?_
    have hempty : tag.toList.isEmpty = false := by simpa using htag.nonempty
    simp [Mode.step, not_isNameChar, hempty]
  have hall := (hopen.append hname).append hend
  simpa using hall

end DocumentMedia.Markup
