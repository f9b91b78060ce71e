/-! # Reading UTF-8

Bytes to text. The first byte of a character fixes how many bytes follow and the range of the
second one. A strict reader names the first fault; a lenient one puts a replacement character for
each faulty stretch.
-/
namespace DocumentMedia.Text.Utf8

/-- What is wrong with a faulty stretch. -/
inductive Fault where
  | invalidStart
  | invalidContinuation
  | unexpectedEnd
  deriving DecidableEq, Repr

def Fault.reason : Fault → String
  | .invalidStart => "invalid start byte"
  | .invalidContinuation => "invalid continuation byte"
  | .unexpectedEnd => "unexpected end of data"

/-- Number of following bytes and the least and greatest second byte after a lead byte. -/
def lead (b : UInt8) : Option (Nat × Nat × Nat) :=
  let n := b.toNat
  if n < 0x80 then some (0, 0, 0)
  else if n < 0xC2 then none
  else if n < 0xE0 then some (1, 0x80, 0xBF)
  else if n = 0xE0 then some (2, 0xA0, 0xBF)
  else if n = 0xED then some (2, 0x80, 0x9F)
  else if n < 0xF0 then some (2, 0x80, 0xBF)
  else if n = 0xF0 then some (3, 0x90, 0xBF)
  else if n < 0xF4 then some (3, 0x80, 0xBF)
  else if n = 0xF4 then some (3, 0x80, 0x8F)
  else none

def leadBits (b : UInt8) (following : Nat) : Nat :=
  match following with
  | 0 => b.toNat
  | 1 => b.toNat % 32
  | 2 => b.toNat % 16
  | _ => b.toNat % 8

inductive Step where
  | char (c : Char) (rest : List UInt8)
  | fault (f : Fault) (length : Nat) (rest : List UInt8)

/-- Reads the bytes that follow a lead byte; `used` bytes of the character are read already. -/
def follow : Nat → Nat → Nat → Nat → Nat → List UInt8 → Step
  | 0, _, _, code, _, rest => .char (Char.ofNat code) rest
  | _ + 1, _, _, _, used, [] => .fault .unexpectedEnd used []
  | n + 1, low, high, code, used, b :: rest =>
    if low ≤ b.toNat && b.toNat ≤ high then
      follow n 0x80 0xBF (code * 64 + b.toNat % 64) (used + 1) rest
    else .fault .invalidContinuation used (b :: rest)

def step (b : UInt8) (rest : List UInt8) : Step :=
  match lead b with
  | none => .fault .invalidStart 1 rest
  | some (n, low, high) => follow n low high (leadBits b n) 1 rest

/-- The first fault of a text: where it starts, the byte there and how far it reaches. -/
structure DecodeError where
  fault : Fault
  start : Nat
  length : Nat
  byte : UInt8
  deriving DecidableEq, Repr

def hexDigits (n : UInt8) : String :=
  String.ofList [Nat.digitChar (n.toNat / 16), Nat.digitChar (n.toNat % 16)]

def DecodeError.message (e : DecodeError) : String :=
  let place :=
    if e.length = 1 then s!"byte 0x{hexDigits e.byte} in position {e.start}"
    else s!"bytes in position {e.start}-{e.start + e.length - 1}"
  "'utf-8' codec can't decode " ++ place ++ ": " ++ e.fault.reason

/-- Strict reading, with as much fuel as there are bytes. -/
def decodeFrom : Nat → Nat → List UInt8 → List Char → Except DecodeError (List Char)
  | 0, _, _, acc => .ok acc.reverse
  | _ + 1, _, [], acc => .ok acc.reverse
  | fuel + 1, at_, b :: rest, acc =>
    match step b rest with
    | .char c rest' => decodeFrom fuel (at_ + (rest.length + 1 - rest'.length)) rest' (c :: acc)
    | .fault f n _ => .error ⟨f, at_, n, b⟩

def decode (bytes : ByteArray) : Except DecodeError String :=
  (decodeFrom bytes.size 0 bytes.toList []).map String.ofList

/-- Lenient reading. -/
def decodeLossyFrom : Nat → List UInt8 → List Char → List Char
  | 0, _, acc => acc.reverse
  | _ + 1, [], acc => acc.reverse
  | fuel + 1, b :: rest, acc =>
    match step b rest with
    | .char c rest' => decodeLossyFrom fuel rest' (c :: acc)
    | .fault _ _ rest' => decodeLossyFrom fuel rest' (Char.ofNat 0xFFFD :: acc)

def decodeLossy (bytes : List UInt8) : List Char := decodeLossyFrom bytes.length bytes []

end DocumentMedia.Text.Utf8
