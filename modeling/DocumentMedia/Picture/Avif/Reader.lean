import DocumentMedia.Bytes
import DocumentMedia.Picture.Error

/-! # Reading boxes

A reader takes numbers and boxes off the front of bytes. A reader that fails has found no image; one
that raises an error has found an image that cannot be decoded.
-/
namespace DocumentMedia.Picture.Avif

open DocumentMedia.Bytes

abbrev Outcome := OptionT (Except DecodeError)

def fault (e : DecodeError) : Outcome α := OptionT.mk (.error e)

abbrev Reader := StateT Bytes Outcome

/-- The result of a reader on some bytes, which it need not use up. -/
def Reader.on (r : Reader α) (bs : Bytes) : Outcome α := (·.1) <$> r.run bs

def take (n : Nat) : Reader Bytes := fun bs =>
  match split? n bs with
  | some r => pure r
  | none => failure

/-- A number of `n` bytes, highest first. -/
def number (n : Nat) : Reader Nat := big <$> take n

/-- The version and the flags at the start of the content of many boxes. -/
def version : Reader (Nat × Nat) := do return (← number 1, ← number 3)

def versionZero : Reader Unit := do guard ((← version).1 = 0)

/-- The number of an item, which is never zero. -/
def itemNumber (n : Nat) : Reader Nat := do
  let id ← number n
  guard (id ≠ 0)
  return id

def text (n : Nat) : Reader String :=
  (fun bs => String.ofList (bs.map fun b => Char.ofNat b.toNat)) <$> take n

/-- A text up to a zero byte, which must come. -/
def textToZero : Reader String := do
  let s ← text (((← get).takeWhile (· ≠ 0)).length)
  let _ ← take 1
  return s

structure Box where
  name : String
  content : Bytes

/-- The name of a box and the length of its content, unless that goes on to the end. -/
def boxHead : Reader (String × Option Nat) := do
  let length ← number 4
  let name ← text 4
  let long ← if length = 1 then some <$> number 8 else pure none
  let extra := (if long.isSome then 8 else 0) + (if name = "uuid" then 16 else 0)
  let _ ← if name = "uuid" then take 16 else pure []
  if length = 0 then return (name, none)
  else
    let length := long.getD length
    guard (8 + extra ≤ length)
    return (name, some (length - (8 + extra)))

/-- A box inside another one, which tells its length. -/
def box : Reader Box := do
  match ← boxHead with
  | (name, some n) => return ⟨name, ← take n⟩
  | (_, none) => failure

def times (step : σ → Reader σ) : Nat → σ → Reader σ
  | 0, s => pure s
  | n + 1, s => do times step n (← step s)

def eachOfAtMost (step : σ → Box → Outcome σ) : Nat → σ → Reader σ
  | 0, s => do
    guard (← get).isEmpty
    return s
  | fuel + 1, s => do
    if (← get).isEmpty then return s
    else
      let b ← box
      eachOfAtMost step fuel (← step s b)

/-- Does a step for each box up to the end. There are no more boxes than bytes. -/
def eachBox (step : σ → Box → Outcome σ) (s : σ) : Reader σ := do
  eachOfAtMost step (← get).length s

end DocumentMedia.Picture.Avif
