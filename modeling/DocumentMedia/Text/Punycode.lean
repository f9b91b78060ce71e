/-! # Punycode

Labels of host names in ASCII: the ASCII characters of a label, a hyphen, and the other characters
as a row of variable-length numbers in increasing order.
-/
namespace DocumentMedia.Text.Punycode

def digit (d : Nat) : Char := if d < 26 then Char.ofNat (97 + d) else Char.ofNat (22 + d)

def digitValue? (c : Char) : Option Nat :=
  if 'a' ≤ c && c ≤ 'z' then some (c.toNat - 97)
  else if 'A' ≤ c && c ≤ 'Z' then some (c.toNat - 65)
  else if '0' ≤ c && c ≤ '9' then some (c.toNat - 22)
  else none

/-- The threshold of the digit at `k`, which grows by 36 per digit. -/
def threshold (k bias : Nat) : Nat := min 26 (max 1 (k - bias))

/-- Divides by 35 until a number is at most 455; `fuel` exceeds its number of digits. -/
def shrink : Nat → Nat → Nat → Nat × Nat
  | 0, delta, k => (delta, k)
  | fuel + 1, delta, k => if 455 < delta then shrink fuel (delta / 35) (k + 36) else (delta, k)

/-- The bias after a number, when `count` characters are placed. -/
def adapt (delta count : Nat) (first : Bool) : Nat :=
  let d := if first then delta / 700 else delta / 2
  let d := d + d / count
  let (d, k) := shrink d d 0
  k + 36 * d / (d + 38)

/-- A number in digits of falling weight; the digit below its threshold is the last one. -/
def encodeNumber : Nat → Nat → Nat → Nat → List Char
  | 0, _, _, _ => []
  | fuel + 1, bias, k, q =>
    let t := threshold k bias
    if q < t then [digit q]
    else digit (t + (q - t) % (36 - t)) :: encodeNumber fuel bias (k + 36) ((q - t) / (36 - t))

/-- The state of encoding: what is written, the distance since, the bias, characters placed. -/
structure Encoder where
  out : List Char
  delta : Nat
  bias : Nat
  placed : Nat

/-- Passes one character of the label while `m` is the character being placed. -/
def Encoder.pass (basic m : Nat) (s : Encoder) (c : Char) : Encoder :=
  if c.toNat < m then { s with delta := s.delta + 1 }
  else if c.toNat = m then
    { out := s.out ++ encodeNumber (s.delta + 1) s.bias 36 s.delta
      delta := 0
      bias := adapt s.delta (s.placed + 1) (s.placed = basic)
      placed := s.placed + 1 }
  else s

def encodeFrom (label : List Char) (basic : Nat) : List Nat → Nat → Encoder → Encoder
  | [], _, s => s
  | m :: ms, n, s =>
    let s := { s with delta := s.delta + (m - n) * (s.placed + 1) }
    let s := label.foldl (Encoder.pass basic m) s
    encodeFrom label basic ms (m + 1) { s with delta := s.delta + 1 }

def encode (label : List Char) : List Char :=
  let basic := label.filter (·.toNat < 128)
  let others := ((label.filter (128 ≤ ·.toNat)).map Char.toNat).eraseDups.mergeSort
  let n := basic.length
  let tail := (encodeFrom label n others 128 ⟨[], 0, 72, n⟩).out
  if basic.isEmpty then tail else basic ++ '-' :: tail

/-- Reads a number; returns it with the rest. -/
def decodeNumber (bias : Nat) : List Char → Nat → Nat → Nat → Option (Nat × List Char)
  | [], _, _, _ => none
  | c :: cs, k, weight, total => do
    let d ← digitValue? c
    let total := total + d * weight
    let t := threshold k bias
    if d < t then return (total, cs)
    else decodeNumber bias cs (k + 36) (weight * (36 - t)) total

/-- Places characters by the numbers read; `at_` is the place of the next one. -/
def decodeFrom : Nat → List Char → List Char → Nat → Nat → Nat → Bool → Option (List Char)
  | 0, _, out, _, _, _, _ => some out
  | _ + 1, [], out, _, _, _, _ => some out
  | fuel + 1, cs, out, at_, code, bias, first => do
    let (delta, rest) ← decodeNumber bias cs 36 1 0
    let spot := at_ + delta
    let size := out.length + 1
    let code := code + spot / size
    let spot := spot % size
    if 0x10FFFF < code || (0xD800 ≤ code && code < 0xE000) then none
    else
      let out := out.take spot ++ Char.ofNat code :: out.drop spot
      decodeFrom fuel rest out (spot + 1) code (adapt delta size first) false

def decode? (s : List Char) : Option (List Char) :=
  if s.any (128 ≤ ·.toNat) then none
  else
    let tail := (s.reverse.takeWhile (· ≠ '-')).reverse
    let basic := (s.take (s.length - tail.length)).dropLast
    decodeFrom (s.length + 1) tail basic 0 128 72 true

example : encode "bücher".toList = "bcher-kva".toList := by decide +kernel

end DocumentMedia.Text.Punycode
