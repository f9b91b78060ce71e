import DocumentMedia.Value.Basic

/-! # Entries

A value as the entries of a map: a map as it is, and any row of two-part rows, each of which is a
key with its value.
-/
namespace DocumentMedia.Value

/-- The parts of a value: the members of a list or a set, the characters of a text, the numbers of
bytes, the keys of a map. -/
def parts? : Value → Option (List Value)
  | .list vs | .set vs => some vs
  | .pair k v => some [k, v]
  | .str s => some (s.toList.map fun c => .str (String.singleton c))
  | .bytes bs => some (bs.map fun b => .int b.toNat)
  | .map es => some (es.map (·.1))
  | .null | .bool _ | .int _ | .float _ | .date _ | .time _ | .media _ | .attr _ | .cycle _ => none

inductive EntryFault where
  /-- The value, or an entry of it, has no parts. -/
  | noParts
  /-- The entry at a position has a number of parts other than two. -/
  | size (index count : Nat)
  | badKey
  deriving DecidableEq, Repr

/-- The text of a fault, where it has one. -/
def EntryFault.message? : EntryFault → Option String
  | .size index count =>
    some s!"dictionary update sequence element #{index} has length {count}; 2 is required"
  | .noParts | .badKey => none

/-- One entry, at a position of its row. -/
def entryAt (index : Nat) (v : Value) : Except EntryFault (Value × Value) :=
  match v.parts? with
  | none => .error .noParts
  | some [k, w] => if k.isKey then .ok (k, w) else .error .badKey
  | some ps => .error (.size index ps.length)

/-- Puts the entries of a row that begins at a position; a later entry wins its key. -/
def putEntries (es : List (Value × Value)) (index : Nat) :
    List Value → Except EntryFault (List (Value × Value))
  | [] => .ok es
  | v :: vs =>
    match entryAt index v with
    | .error e => .error e
    | .ok (k, w) => putEntries (putEntry es k w) (index + 1) vs

/-- The entries of a value; what counts as absent has none. -/
def entries (v : Value) : Except EntryFault (List (Value × Value)) :=
  if v.isFalsy then .ok []
  else
    match v with
    | .map es => .ok es
    | v =>
      match v.parts? with
      | none => .error .noParts
      | some vs => putEntries [] 0 vs

end DocumentMedia.Value
