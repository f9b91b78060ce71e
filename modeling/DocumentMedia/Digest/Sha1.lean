/-! # Content hashes

The SHA-1 digest of a list of bytes: the message is padded to whole blocks of sixteen words, and
each block is mixed into five chaining words by eighty rounds.
-/
namespace DocumentMedia.Sha1

structure Chain where
  a : UInt32
  b : UInt32
  c : UInt32
  d : UInt32
  e : UInt32
  deriving DecidableEq, Repr

def Chain.start : Chain := ⟨0x67452301, 0xEFCDAB89, 0x98BADCFE, 0x10325476, 0xC3D2E1F0⟩

def rotate (x : UInt32) (n : UInt32) : UInt32 := (x <<< n) ||| (x >>> (32 - n))

/-- The `width` low bytes of a number, the greatest first. -/
def bigEndian : Nat → Nat → List UInt8
  | 0, _ => []
  | width + 1, n => UInt8.ofNat (n >>> (8 * width)) :: bigEndian width n

/-- A one bit, zeros up to the last eight bytes of a block, and the length in bits. -/
def padding (length : Nat) : List UInt8 :=
  0x80 :: List.replicate ((119 - length % 64) % 64) 0 ++ bigEndian 8 (length * 8)

def wordsOf : List UInt8 → List UInt32
  | a :: b :: c :: d :: rest =>
    ((a.toUInt32 <<< 24) ||| (b.toUInt32 <<< 16) ||| (c.toUInt32 <<< 8) ||| d.toUInt32) ::
      wordsOf rest
  | _ => []

/-- Extends the words of a block, the latest first. -/
def extend : Nat → List UInt32 → List UInt32
  | 0, ws => ws
  | n + 1, ws =>
    let at_ (i : Nat) : UInt32 := ws.getD i 0
    extend n (rotate (at_ 2 ^^^ at_ 7 ^^^ at_ 13 ^^^ at_ 15) 1 :: ws)

def roundOf (t : Nat) (s : Chain) : UInt32 × UInt32 :=
  if t < 20 then ((s.b &&& s.c) ||| (~~~s.b &&& s.d), 0x5A827999)
  else if t < 40 then (s.b ^^^ s.c ^^^ s.d, 0x6ED9EBA1)
  else if t < 60 then ((s.b &&& s.c) ||| (s.b &&& s.d) ||| (s.c &&& s.d), 0x8F1BBCDC)
  else (s.b ^^^ s.c ^^^ s.d, 0xCA62C1D6)

def round (t : Nat) (w : UInt32) (s : Chain) : Chain :=
  let (f, k) := roundOf t s
  ⟨rotate s.a 5 + f + s.e + k + w, s.a, rotate s.b 30, s.c, s.d⟩

def rounds (t : Nat) : List UInt32 → Chain → Chain
  | [], s => s
  | w :: ws, s => rounds (t + 1) ws (round t w s)

def mixBlock (s : Chain) (block : List UInt32) : Chain :=
  let r := rounds 0 (extend 64 block.reverse).reverse s
  ⟨s.a + r.a, s.b + r.b, s.c + r.c, s.d + r.d, s.e + r.e⟩

/-- Mixes in whole blocks of words; `fuel` bounds their number. -/
def mixAll : Nat → Chain → List UInt32 → Chain
  | 0, s, _ => s
  | _ + 1, s, [] => s
  | fuel + 1, s, ws => mixAll fuel (mixBlock s (ws.take 16)) (ws.drop 16)

def hexByte (b : UInt8) : List Char :=
  [Nat.digitChar (b.toNat / 16), Nat.digitChar (b.toNat % 16)]

def digestWords (bytes : List UInt8) : Chain :=
  let ws := wordsOf (bytes ++ padding bytes.length)
  mixAll ws.length Chain.start ws

def hexDigest (bytes : List UInt8) : String :=
  let s := digestWords bytes
  String.ofList ([s.a, s.b, s.c, s.d, s.e].flatMap fun w => (bigEndian 4 w.toNat).flatMap hexByte)

theorem length_bigEndian (width n : Nat) : (bigEndian width n).length = width := by
  induction width with
  | zero => rfl
  | succ width ih => simp [bigEndian, ih]

theorem length_hexBytes (bs : List UInt8) : (bs.flatMap hexByte).length = 2 * bs.length := by
  induction bs with
  | nil => rfl
  | cons b bs ih =>
    simp only [List.flatMap_cons, List.length_append, ih, List.length_cons, hexByte]
    simp only [List.length_nil]
    omega

theorem length_hexDigest (bytes : List UInt8) : (hexDigest bytes).toList.length = 40 := by
  simp only [hexDigest, String.toList_ofList, List.flatMap_cons, List.flatMap_nil,
    List.length_append, length_hexBytes, length_bigEndian, List.length_nil]

theorem digitChar_ne_slash : ∀ n : Fin 16, Nat.digitChar n ≠ '/' := by decide

theorem slash_notMem_hexByte (b : UInt8) : '/' ∉ hexByte b := by
  have hb : b.toNat < 256 := b.toNat_lt
  have h₁ := digitChar_ne_slash ⟨b.toNat / 16, by omega⟩
  have h₂ := digitChar_ne_slash ⟨b.toNat % 16, by omega⟩
  simp only [hexByte, List.mem_cons, List.not_mem_nil, or_false, not_or]
  exact ⟨fun h => h₁ h.symm, fun h => h₂ h.symm⟩

theorem slash_notMem_hexDigest (bytes : List UInt8) : '/' ∉ (hexDigest bytes).toList := by
  simp only [hexDigest, String.toList_ofList, List.mem_flatMap, not_exists, not_and]
  intro w _ b _
  exact slash_notMem_hexByte b

end DocumentMedia.Sha1
