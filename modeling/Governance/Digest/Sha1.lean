/-!
# The SHA-1 digest

A message is padded to whole blocks of sixteen words, and each block is mixed into a state of five
words in eighty rounds. The words of the rounds come from a window of sixteen, which every round
shifts by one.

* `padded_length`: padding gives whole blocks.
* `length_sha1`: a digest has twenty bytes.
-/

set_option autoImplicit false

namespace Governance.Digest

/-- The state that blocks are mixed into. -/
structure Sha1State where
  a : UInt32
  b : UInt32
  c : UInt32
  d : UInt32
  e : UInt32
  deriving DecidableEq

namespace Sha1State

/-- The state before the first block. -/
def initial : Sha1State := ⟨0x67452301, 0xEFCDAB89, 0x98BADCFE, 0x10325476, 0xC3D2E1F0⟩

/-- A word turned to the left by `n` bits, `0 < n < 32`. -/
def turn (n x : UInt32) : UInt32 := (x <<< n) ||| (x >>> (32 - n))

/-- The function and the constant of a round. -/
def mixer (t : Nat) (b c d : UInt32) : UInt32 × UInt32 :=
  if t < 20 then ((b &&& c) ||| (~~~b &&& d), 0x5A827999)
  else if t < 40 then (b ^^^ c ^^^ d, 0x6ED9EBA1)
  else if t < 60 then ((b &&& c) ||| (b &&& d) ||| (c &&& d), 0x8F1BBCDC)
  else (b ^^^ c ^^^ d, 0xCA62C1D6)

/-- One round with its word. -/
def round (t : Nat) (w : UInt32) (s : Sha1State) : Sha1State :=
  let (f, k) := mixer t s.b s.c s.d
  ⟨turn 5 s.a + f + s.e + k + w, s.a, turn 30 s.b, s.c, s.d⟩

/-- The window of the next round. -/
def shift (window : List UInt32) : List UInt32 :=
  let next :=
    window.getD 13 0 ^^^ window.getD 8 0 ^^^ window.getD 2 0 ^^^ window.getD 0 0
  window.drop 1 ++ [turn 1 next]

/-- The rounds from `t` on, `n` of them. -/
def rounds : Nat → Nat → List UInt32 → Sha1State → Sha1State
  | 0, _, _, s => s
  | n + 1, t, window, s => rounds n (t + 1) (shift window) (round t (window.getD 0 0) s)

/-- Mixes a block of sixteen words into the state. -/
def mix (s : Sha1State) (block : List UInt32) : Sha1State :=
  let r := rounds 80 0 block s
  ⟨s.a + r.a, s.b + r.b, s.c + r.c, s.d + r.d, s.e + r.e⟩

/-- The words of the state. -/
def words (s : Sha1State) : List UInt32 := [s.a, s.b, s.c, s.d, s.e]

end Sha1State

/-- The last `n` bytes of a number, the most significant first. -/
def bigEndian : Nat → Nat → List UInt8
  | 0, _ => []
  | n + 1, x => bigEndian n (x / 256) ++ [(x % 256).toUInt8]

/-- As many bytes are written as were asked for, whatever the number is. -/
@[simp] theorem length_bigEndian (n x : Nat) : (bigEndian n x).length = n := by
  induction n generalizing x with
  | zero => rfl
  | succ n ih => simp [bigEndian, ih]

/-- The message, a bit set, as many zeros as fill a block, and the number of bits of the message. -/
def padded (message : List UInt8) : List UInt8 :=
  message ++ 0x80 :: List.replicate ((119 - message.length % 64) % 64) 0 ++
    bigEndian 8 (8 * message.length)

/-- A padded message consists of whole blocks of 64 bytes. -/
theorem padded_length (message : List UInt8) : (padded message).length % 64 = 0 := by
  simp only [padded, List.length_append, List.length_cons, List.length_replicate,
    length_bigEndian]
  omega

/-- The words that bytes write, four bytes to a word. -/
def toWords : List UInt8 → List UInt32
  | a :: b :: c :: d :: rest =>
    (((a.toUInt32 * 256 + b.toUInt32) * 256 + c.toUInt32) * 256 + d.toUInt32) :: toWords rest
  | _ => []

/-- The words in blocks of sixteen. -/
def toBlocks (words : List UInt32) : List (List UInt32) :=
  match words with
  | [] => []
  | w :: rest => (w :: rest.take 15) :: toBlocks (rest.drop 15)
termination_by words.length
decreasing_by
  rw [List.length_drop, List.length_cons]
  exact Nat.lt_succ_of_le (Nat.sub_le _ _)

/-- The digest of a message. -/
def sha1 (message : List UInt8) : List UInt8 :=
  let final := (toBlocks (toWords (padded message))).foldl Sha1State.mix .initial
  final.words.flatMap fun w => bigEndian 4 w.toNat

/-- A digest has twenty bytes. -/
theorem length_sha1 (message : List UInt8) : (sha1 message).length = 20 := by
  simp [sha1, Sha1State.words]

end Governance.Digest
