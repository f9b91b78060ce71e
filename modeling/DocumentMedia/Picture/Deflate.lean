import DocumentMedia.Bytes

/-! # Compressed data

Compressed data is a row of blocks of bits, in which short codes stand for bytes and for repetitions
of earlier bytes. How many bytes come out is counted up to a limit; the bytes are not kept.
-/
namespace DocumentMedia.Picture.Deflate

abbrev Bits := List Bool

/-- The bits of a byte, the lowest first. -/
def bitsOf (b : UInt8) : Bits := (List.range 8).map b.toNat.testBit

inductive Stop where
  /-- There is more data than the limit. -/
  | over
  /-- The data ends, or it is damaged. -/
  | short
  deriving DecidableEq, Repr

/-- A number of some bits, the lowest first, and the bits behind it. -/
def number : Nat → Bits → Except Stop (Nat × Bits)
  | 0, bs => .ok (0, bs)
  | _ + 1, [] => .error .short
  | n + 1, b :: bs => do
    let (m, bs) ← number n bs
    return (b.toNat + 2 * m, bs)

/-- A set of codes, ordered by length and then by symbol: how many there are of each length from
one on, and the symbols. -/
structure Code where
  counts : List Nat
  symbols : Array Nat

/-- Longest code in bits. -/
def maxLength : Nat := 15

/-- The codes of symbols that are numbered from zero; length zero means no code. -/
def Code.ofLengths (lengths : List Nat) : Code where
  counts := (List.range maxLength).map fun n => lengths.count (n + 1)
  symbols := ((List.range maxLength).flatMap fun n =>
    lengths.zipIdx.filterMap fun (l, symbol) => if l = n + 1 then some symbol else none).toArray

/-- How many more codes of the greatest length there could be; none if there are too many. -/
def Code.spare? (c : Code) : Option Nat :=
  c.counts.foldlM (fun left n => if n ≤ 2 * left then some (2 * left - n) else none) 1

/-- Whether a set of codes can be used: it leaves no spare code, or has no code longer than a
bit where that is allowed. -/
def Code.isUsable (c : Code) (mayBeShort : Bool) : Bool :=
  match c.spare? with
  | none => false
  | some 0 => true
  | some _ => mayBeShort && (c.counts.drop 1).all (· = 0)

/-- Reads bits until they are a code: `code` is what was read, `first` the first code of its length
and `index` the place of the symbol of that. -/
def Code.decodeFrom (c : Code) : List Nat → Nat → Nat → Nat → Bits → Except Stop (Nat × Bits)
  | [], _, _, _, _ => .error .short
  | _ :: _, _, _, _, [] => .error .short
  | n :: counts, code, first, index, b :: bs =>
    let code := code + b.toNat
    if code < first + n then
      match c.symbols[index + (code - first)]? with
      | some symbol => .ok (symbol, bs)
      | none => .error .short
    else c.decodeFrom counts (2 * code) (2 * (first + n)) (index + n) bs

def Code.decode (c : Code) (bs : Bits) : Except Stop (Nat × Bits) := c.decodeFrom c.counts 0 0 0 bs

/-- Adds bytes to a count. Above the limit it matters whether a whole byte of input is left. -/
def grow (limit count n : Nat) (rest : Bits) : Except Stop Nat :=
  if count + n ≤ limit then .ok (count + n)
  else if (rest.drop 7).isEmpty then .error .short
  else .error .over

/-- The least repetition of each symbol above the end symbol, and how many bits are added to it. -/
def repetitions : Array (Nat × Nat) := #[
  (3, 0), (4, 0), (5, 0), (6, 0), (7, 0), (8, 0), (9, 0), (10, 0), (11, 1), (13, 1), (15, 1),
  (17, 1), (19, 2), (23, 2), (27, 2), (31, 2), (35, 3), (43, 3), (51, 3), (59, 3), (67, 4), (83, 4),
  (99, 4), (115, 4), (131, 5), (163, 5), (195, 5), (227, 5), (258, 0)]

/-- The least distance of each symbol, and how many bits are added to it. -/
def distances : Array (Nat × Nat) := #[
  (1, 0), (2, 0), (3, 0), (4, 0), (5, 1), (7, 1), (9, 2), (13, 2), (17, 3), (25, 3), (33, 4),
  (49, 4), (65, 5), (97, 5), (129, 6), (193, 6), (257, 7), (385, 7), (513, 8), (769, 8), (1025, 9),
  (1537, 9), (2049, 10), (3073, 10), (4097, 11), (6145, 11), (8193, 12), (12289, 12), (16385, 13),
  (24577, 13)]

def valueOf (table : Array (Nat × Nat)) (symbol : Nat) (bs : Bits) : Except Stop (Nat × Bits) :=
  match table[symbol]? with
  | none => .error .short
  | some (least, extra) => do
    let (n, bs) ← number extra bs
    return (least + n, bs)

def endSymbol : Nat := 256

/-- Counts the bytes of a block of codes; `fuel` bounds the number of codes. -/
def countCodes (limit : Nat) (items places : Code) : Nat → Nat → Bits → Except Stop (Nat × Bits)
  | 0, _, _ => .error .short
  | fuel + 1, count, bs => do
    let (symbol, bs) ← items.decode bs
    if symbol < endSymbol then
      let count ← grow limit count 1 bs
      countCodes limit items places fuel count bs
    else if symbol = endSymbol then return (count, bs)
    else
      let (n, bs) ← valueOf repetitions (symbol - endSymbol - 1) bs
      let (place, bs) ← places.decode bs
      let (distance, bs) ← valueOf distances place bs
      if count < distance then throw .short
      let count ← grow limit count n bs
      countCodes limit items places fuel count bs

/-- Counts the bytes of a block that is not compressed. -/
def countStored (limit count : Nat) (bs : Bits) : Except Stop (Nat × Bits) := do
  let bs := bs.drop (bs.length % 8)
  let (n, bs) ← number 16 bs
  let (check, bs) ← number 16 bs
  if n + check ≠ 0xFFFF then throw .short
  let available := min n (bs.length / 8)
  let count ← grow limit count available (bs.drop (8 * min available (limit - count)))
  if available < n then throw .short
  return (count, bs.drop (8 * n))

/-- The codes of blocks that bring none. -/
def fixedItems : Code := .ofLengths
  (List.replicate 144 8 ++ List.replicate 112 9 ++ List.replicate 24 7 ++ List.replicate 8 8)

def fixedPlaces : Code := .ofLengths (List.replicate 32 5)

/-- The order in which the lengths of codes for lengths are written. -/
def lengthOrder : List Nat := [16, 17, 18, 0, 8, 7, 9, 6, 10, 5, 11, 4, 12, 3, 13, 2, 14, 1, 15]

def numbersOf (width : Nat) : Nat → Bits → Except Stop (List Nat × Bits)
  | 0, bs => .ok ([], bs)
  | n + 1, bs => do
    let (x, bs) ← number width bs
    let (xs, bs) ← numbersOf width n bs
    return (x :: xs, bs)

/-- Reads the lengths of codes up to a number of them, given those before in reverse; `fuel` bounds
the number of steps. -/
def readLengths (c : Code) (total : Nat) : Nat → List Nat → Bits → Except Stop (List Nat × Bits)
  | 0, _, _ => .error .short
  | fuel + 1, before, bs =>
    if total ≤ before.length then
      if before.length = total then .ok (before.reverse, bs) else .error .short
    else do
      let (symbol, bs) ← c.decode bs
      if symbol < 16 then readLengths c total fuel (symbol :: before) bs
      else if symbol = 16 then
        let (n, bs) ← number 2 bs
        match before with
        | [] => throw .short
        | l :: _ => readLengths c total fuel (List.replicate (3 + n) l ++ before) bs
      else
        let (n, bs) ← number (if symbol = 17 then 3 else 7) bs
        let n := n + if symbol = 17 then 3 else 11
        readLengths c total fuel (List.replicate n 0 ++ before) bs

/-- The codes that a block brings. -/
def readCodes (bs : Bits) : Except Stop ((Code × Code) × Bits) := do
  let (items, bs) ← number 5 bs
  let (places, bs) ← number 5 bs
  let (lengths, bs) ← number 4 bs
  if 29 < items || 29 < places then throw .short
  let (given, bs) ← numbersOf 3 (lengths + 4) bs
  let code := Code.ofLengths ((List.range 19).map fun symbol =>
    given.getD (lengthOrder.idxOf symbol) 0)
  if !code.isUsable false then throw .short
  let total := items + 257 + (places + 1)
  let (all, bs) ← readLengths code total (total + 1) [] bs
  let own := Code.ofLengths (all.take (items + 257))
  let far := Code.ofLengths (all.drop (items + 257))
  if all.getD endSymbol 0 = 0 || !own.isUsable true || !far.isUsable true then throw .short
  return ((own, far), bs)

/-- Counts the bytes of all blocks; `fuel` bounds their number. -/
def countBlocks (limit : Nat) : Nat → Nat → Bits → Except Stop Nat
  | 0, _, _ => .error .short
  | fuel + 1, count, bs => do
    let (last, bs) ← number 1 bs
    let (kind, bs) ← number 2 bs
    let (count, bs) ← match kind with
      | 0 => countStored limit count bs
      | 1 => countCodes limit fixedItems fixedPlaces (bs.length + 1) count bs
      | 2 => do
        let ((items, places), bs) ← readCodes bs
        countCodes limit items places (bs.length + 1) count bs
      | _ => throw .short
    if last = 1 then return count else countBlocks limit fuel count bs

/-- Whether the two bytes at the start announce compressed data of the only known kind. -/
def headerFits (a b : UInt8) : Bool :=
  (a.toNat * 256 + b.toNat) % 31 = 0 && a.toNat % 16 = 8 && a.toNat / 16 ≤ 7 &&
    b.toNat / 32 % 2 = 0

/-- Whether compressed data holds more than `limit` bytes. What is damaged holds what comes before
the damage. -/
def exceeds (limit : Nat) : Bytes → Bool
  | a :: b :: data =>
    let bits := data.flatMap bitsOf
    headerFits a b &&
      (match countBlocks limit bits.length 0 bits with
        | .error .over => true
        | _ => false)
  | _ => false

end DocumentMedia.Picture.Deflate
