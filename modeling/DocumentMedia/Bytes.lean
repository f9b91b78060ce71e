/-! # Numbers in bytes

Pieces of a list of bytes and the numbers written in them, lowest or highest byte first.
-/
namespace DocumentMedia

abbrev Bytes := List UInt8

namespace Bytes

/-- The number whose lowest byte comes first. -/
def little : Bytes → Nat
  | [] => 0
  | b :: bs => b.toNat + 256 * little bs

/-- The number whose highest byte comes first. -/
def big (bs : Bytes) : Nat := bs.foldl (fun n b => n * 256 + b.toNat) 0

def split? (n : Nat) (bs : Bytes) : Option (Bytes × Bytes) :=
  let (a, b) := bs.splitAt n
  if a.length = n then some (a, b) else none

def slice? (place n : Nat) (bs : Bytes) : Option Bytes := (split? n (bs.drop place)).map (·.1)

def little? (place n : Nat) (bs : Bytes) : Option Nat := (slice? place n bs).map little

def big? (place n : Nat) (bs : Bytes) : Option Nat := (slice? place n bs).map big

def startsWith (bs : Bytes) (head : List Nat) : Bool :=
  (bs.take head.length).map UInt8.toNat = head

def startsWithText (bs : Bytes) (head : String) : Bool :=
  startsWith bs (head.toList.map Char.toNat)

end Bytes

end DocumentMedia
