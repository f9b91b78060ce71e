import DocumentMedia.Attribute.Loose

/-! # Loose attributes as a map

Loose attributes are a map made of their tokens, each of which gives a text or a flag. The attributes
of a directive override those that are given in front of them. -/
namespace DocumentMedia.Attribute

open DocumentMedia.Text

/-- The attribute that a token gives: a text under its key, or a flag. -/
def looseField (token : List Char) : String × Value :=
  match splitPair token with
  | (key, none) => (String.ofList key, .bool true)
  | (key, some value) => (String.ofList key, .str (String.ofList value))

theorem parseLoose_eq (s : List Char) :
    parseLoose s = Assoc.ofPairs ((splitTokens s).map looseField) := by
  rw [parseLoose, Assoc.ofPairs, Assoc.putAll, List.foldl_map]
  refine congrArg (fun f => (splitTokens s).foldl f []) ?_
  funext m token
  unfold looseField
  rcases splitPair token with ⟨key, _ | value⟩ <;> rfl

/-- A value is a flag or a text. -/
def IsLoose (v : Value) : Prop := v = .bool true ∨ ∃ s, v = .str s

theorem isLoose_parseLoose (s : List Char) : ∀ e ∈ parseLoose s, IsLoose e.2 := by
  intro e he
  rw [parseLoose_eq] at he
  obtain ⟨token, -, rfl⟩ := List.mem_map.mp ((Assoc.mem_of_mem_putAll he).resolve_left nofun)
  unfold looseField
  split
  · exact Or.inl rfl
  · exact Or.inr ⟨_, rfl⟩

theorem nodup_keys_parseLoose (s : List Char) : (Assoc.keys (parseLoose s)).Nodup := by
  rw [parseLoose_eq]
  exact Assoc.nodup_keys_ofPairs _

/-! ## Attributes behind given ones -/

/-- Attributes of a directive, with given ones in front of them and without: the classes are the
same, and each key has the value that it has without them, or else the given one. -/
structure Overrides (given : Assoc String String) (d e : DirectiveDraft) : Prop where
  classes : d.classes = e.classes
  attrs : ∀ key, Assoc.find? d.attrs key = (Assoc.find? e.attrs key).or (Assoc.find? given key)

section

variable {given : Assoc String String} {d e : DirectiveDraft}

theorem find?_put_or {m n : Assoc String String} (h : ∀ key, Assoc.find? m key =
    (Assoc.find? n key).or (Assoc.find? given key)) (k v key : String) :
    Assoc.find? (Assoc.put m k v) key =
      (Assoc.find? (Assoc.put n k v) key).or (Assoc.find? given key) := by
  rw [Assoc.find?_put, Assoc.find?_put]
  split
  · rfl
  · exact h key

theorem Overrides.put (h : Overrides given d e) (k v : String) :
    Overrides given ⟨Assoc.put d.attrs k v, d.classes⟩ ⟨Assoc.put e.attrs k v, e.classes⟩ :=
  ⟨h.classes, find?_put_or h.attrs k v⟩

theorem Overrides.addClasses (h : Overrides given d e) (names : List (List Char)) :
    Overrides given ⟨d.attrs, d.classes ++ names⟩ ⟨e.attrs, e.classes ++ names⟩ :=
  ⟨congrArg (· ++ names) h.classes, h.attrs⟩

theorem Overrides.step (h : Overrides given d e) (token : List Char) :
    Overrides given (addDirectiveToken d token) (addDirectiveToken e token) := by
  unfold addDirectiveToken
  rcases splitPair token with ⟨key, _ | value⟩
  · dsimp only
    split
    · exact h.addClasses _
    · exact h.put _ _
    · split
      · exact h
      · exact h.put _ _
  · dsimp only
    split
    · exact h.addClasses _
    · exact h.put _ _

theorem Overrides.foldl (h : Overrides given d e) (tokens : List (List Char)) :
    Overrides given (tokens.foldl addDirectiveToken d) (tokens.foldl addDirectiveToken e) := by
  induction tokens generalizing d e with
  | nil => exact h
  | cons token tokens ih => exact ih (h.step token)

/-- Attributes behind tokens that set the given ones override them. -/
theorem find?_parseDirective_behind {s t : List Char} {first : List (List Char)}
    (htokens : splitTokens s = first ++ splitTokens t)
    (hfirst : first.foldl addDirectiveToken ⟨[], []⟩ = ⟨given, []⟩) (key : String) :
    Assoc.find? (parseDirective s) key =
      (Assoc.find? (parseDirective t) key).or (Assoc.find? given key) := by
  have hstart : Overrides given ⟨given, []⟩ ⟨[], []⟩ := ⟨rfl, fun _ => rfl⟩
  have hend := hstart.foldl (splitTokens t)
  unfold parseDirective
  rw [htokens, List.foldl_append, hfirst]
  dsimp only
  rw [hend.classes]
  split
  · exact hend.attrs key
  · exact find?_put_or hend.attrs _ _ key

end

end DocumentMedia.Attribute
