import Governance.Json.Basic

/-!
# Tokens of JSON text

JSON text is a list of bytes. `Json.Token.scan` cuts it into tokens; numbers and strings are kept as
they are written (`Literal`, `Raw`), because a reader that skips a member must not stumble over a
number that is too large or over half of a surrogate pair in it. `Literal.value?` and `Raw.text?`
say what they stand for.

A number that is not whole, or does not fit 64 bits, is rounded from its leading digits: as many as
fit 64 bits without a sign make a whole number, which is then multiplied or divided by a power of
ten, each step rounding once.
-/

set_option autoImplicit false

namespace Governance.Json

/-- A number as it is written. -/
structure Literal where
  negative : Bool
  whole : List Char
  fraction : List Char
  exponent : Option (Bool × List Char)
  deriving DecidableEq

/-- A unit of a string as it is written: a byte, or the code of a `\u` escape. -/
inductive RawUnit where
  | byte (b : UInt8)
  | code (n : Nat)
  deriving DecidableEq

/-- A string as it is written. -/
abbrev Raw := List RawUnit

/-- A token of JSON text. -/
inductive Token where
  | beginObject
  | endObject
  | beginArray
  | endArray
  | colon
  | comma
  | null
  | bool (b : Bool)
  | number (l : Literal)
  | string (r : Raw)
  deriving DecidableEq

/-! ### What a number stands for -/

/-- Appends digits to a number while it fits 64 bits; returns the number and the digits left. -/
def absorb : Nat → List Char → Nat × List Char
  | n, [] => (n, [])
  | n, d :: rest =>
    let n' := n * 10 + (d.toNat - '0'.toNat)
    if Decimal.inUnsigned64 n' then absorb n' rest else (n, d :: rest)

/-- `x` times the nearest number to a power of ten that has one. -/
def scaleUp (x : Binary64) (power : Nat) : Option Binary64 :=
  (Binary64.ofDecimal false 1 power).bind x.mul

/-- `x` divided by the nearest number to a power of ten that has one. -/
def scaleDown (x : Binary64) (power : Nat) : Option Binary64 :=
  (Binary64.ofDecimal false 1 power).bind x.div

/-- The greatest power of ten that is a number of the format. -/
def maxPower : Nat := 308

/-- The number `digits · 10 ^ power`, rounded step by step. -/
def scaled (digits : Nat) (power : Int) : Option Binary64 :=
  (Binary64.ofNat? digits).bind fun x =>
    if 0 ≤ power then
      if power ≤ maxPower then scaleUp x power.toNat else if x.isZero then some x else none
    else if -(maxPower : Int) ≤ power then scaleDown x power.natAbs
    else if -(2 * maxPower : Int) ≤ power then
      (scaleDown x maxPower).bind fun y => scaleDown y (power.natAbs - maxPower)
    else some (Binary64.zero false)

/-- The magnitude of a number that is not whole. An exponent beyond 31 bits makes it zero or too
large. -/
def Literal.magnitude? (l : Literal) : Option Binary64 :=
  let (n, dropped) := absorb 0 l.whole
  let (n, unread) := absorb n l.fraction
  let power : Int := (dropped.length : Int) - ((l.fraction.length : Int) - unread.length)
  match l.exponent with
  | none => scaled n power
  | some (negative, ds) =>
    let e := Decimal.ofDigits ds
    if 1 <<< 31 ≤ e then
      if n ≠ 0 && !negative then none else some (Binary64.zero false)
    else scaled n (if negative then power - e else power + e)

/-- The number that a literal stands for; `none` where it is too large. -/
def Literal.value? (l : Literal) : Option Number :=
  let n := Decimal.ofDigits l.whole
  let float : Option Number :=
    l.magnitude?.map fun x => .float (if l.negative then x.neg else x)
  if l.fraction.isEmpty && l.exponent.isNone then
    if l.negative then
      if n ≠ 0 && n ≤ 1 <<< 63 then some (.integer (-(n : Int))) else float
    else if Decimal.inUnsigned64 n then some (.integer n) else float
  else float

/-! ### What a string stands for -/

/-- The bytes of a character in UTF-8. -/
def utf8Bytes (c : Char) : List UInt8 := (String.singleton c).toUTF8.toList

/-- The bytes of a string; `none` where a surrogate stands without its partner. -/
def Raw.bytes? : Raw → Option (List UInt8)
  | [] => some []
  | .byte b :: rest => (Raw.bytes? rest).map (b :: ·)
  | .code n :: .code m :: rest =>
    if 0xD800 ≤ n && n < 0xDC00 then
      if 0xDC00 ≤ m && m < 0xE000 then
        let c := Char.ofNat (0x10000 + (n - 0xD800) * 0x400 + (m - 0xDC00))
        (Raw.bytes? rest).map (utf8Bytes c ++ ·)
      else none
    else if 0xDC00 ≤ n && n < 0xE000 then none
    else (Raw.bytes? (.code m :: rest)).map (utf8Bytes (Char.ofNat n) ++ ·)
  | .code n :: rest =>
    if 0xD800 ≤ n && n < 0xE000 then none
    else (Raw.bytes? rest).map (utf8Bytes (Char.ofNat n) ++ ·)

/-- The text that bytes write in UTF-8. -/
def decodeUtf8? (bytes : List UInt8) : Option String := String.fromUTF8? ⟨bytes.toArray⟩

/-- The text that a string stands for. -/
def Raw.text? (r : Raw) : Option String := r.bytes?.bind decodeUtf8?

/-! ### Scanning -/

/-- The byte of an ASCII character. -/
def ascii (c : Char) : UInt8 := c.toNat.toUInt8

/-- Whether a byte is a blank of JSON. -/
def isJsonBlank (b : UInt8) : Bool :=
  b == ascii ' ' || b == ascii '\n' || b == ascii '\t' || b == ascii '\r'

/-- Whether a byte is a digit. -/
def isDigitByte (b : UInt8) : Bool := ascii '0' ≤ b && b ≤ ascii '9'

/-- The value of a byte as a digit in base 16. -/
def hexValue? (b : UInt8) : Option Nat :=
  if isDigitByte b then some (b.toNat - '0'.toNat)
  else if ascii 'a' ≤ b && b ≤ ascii 'f' then some (b.toNat - 'a'.toNat + 10)
  else if ascii 'A' ≤ b && b ≤ ascii 'F' then some (b.toNat - 'A'.toNat + 10)
  else none

/-- The code that four digits in base 16 write. -/
def hexCode? (a b c d : UInt8) : Option Nat := do
  let a ← hexValue? a
  let b ← hexValue? b
  let c ← hexValue? c
  let d ← hexValue? d
  return ((a * 16 + b) * 16 + c) * 16 + d

/-- The byte that a one-letter escape stands for. -/
def shortEscape? (b : UInt8) : Option UInt8 :=
  if b == ascii '"' || b == ascii '\\' || b == ascii '/' then some b
  else if b == ascii 'b' then some 0x08
  else if b == ascii 'f' then some 0x0C
  else if b == ascii 'n' then some 0x0A
  else if b == ascii 'r' then some 0x0D
  else if b == ascii 't' then some 0x09
  else none

/-- Scans a string after its opening quote; `done` is what came before, backwards. -/
def scanString (done : Raw) : List UInt8 → Option (Raw × List UInt8)
  | [] => none
  | 0x22 :: rest => some (done.reverse, rest)
  | 0x5C :: 0x75 :: a :: b :: c :: d :: rest =>
    (hexCode? a b c d).bind fun n => scanString (.code n :: done) rest
  | 0x5C :: b :: rest => (shortEscape? b).bind fun e => scanString (.byte e :: done) rest
  | b :: rest =>
    if b < 0x20 || b == 0x5C then none else scanString (.byte b :: done) rest

/-- Scanning a string consumes at least its closing quote. -/
theorem scanString_length {done r : Raw} {s rest : List UInt8}
    (h : scanString done s = some (r, rest)) : rest.length < s.length := by
  -- Only an escape and a plain byte read on, and each of them takes a byte off first.
  fun_induction scanString done s with
  | case1 => cases h
  | case2 =>
    simp only [Option.some.injEq, Prod.mk.injEq] at h
    simp [← h.2]
  | case3 done a b c d s ih =>
    obtain ⟨n, _, hn⟩ := Option.bind_eq_some_iff.mp h
    have hrest := ih n hn
    simp only [List.length_cons]
    omega
  | case4 done b s _ ih =>
    obtain ⟨e, _, he⟩ := Option.bind_eq_some_iff.mp h
    have hrest := ih e he
    simp only [List.length_cons]
    omega
  | case5 => cases h
  | case6 done b s _ _ _ _ ih =>
    have hrest := ih h
    simp only [List.length_cons]
    omega

/-- The digits at the front of a text, and what follows them. -/
def scanDigits (s : List UInt8) : List Char × List UInt8 :=
  ((s.takeWhile isDigitByte).map fun b => Char.ofNat b.toNat, s.dropWhile isDigitByte)

/-- The digits and what follows them make up the text. -/
theorem scanDigits_length_add (s : List UInt8) :
    (scanDigits s).1.length + (scanDigits s).2.length = s.length := by
  simp only [scanDigits, List.length_map]
  rw [← List.length_append, List.takeWhile_append_dropWhile]

/-- What is left behind digits is no longer than the text. -/
theorem scanDigits_length (s : List UInt8) : (scanDigits s).2.length ≤ s.length := by
  have hall := scanDigits_length_add s
  omega

/-- Scans a fraction: a point with digits after it, or nothing. -/
def scanFraction (s : List UInt8) : Option (List Char × List UInt8) :=
  match s with
  | 0x2E :: rest =>
    let (ds, rest) := scanDigits rest
    if ds.isEmpty then none else some (ds, rest)
  | _ => some ([], s)

/-- A fraction leaves no more than there was. -/
theorem scanFraction_length {s rest : List UInt8} {ds : List Char}
    (h : scanFraction s = some (ds, rest)) : rest.length ≤ s.length := by
  unfold scanFraction at h
  have hdigits := fun r => scanDigits_length r
  split at h <;> grind

/-- The sign at the front of a text: whether it is a minus sign, and what follows. -/
def scanSign (s : List UInt8) : Bool × List UInt8 :=
  match s with
  | 0x2D :: rest => (true, rest)
  | 0x2B :: rest => (false, rest)
  | _ => (false, s)

/-- A sign leaves no more than there was. -/
theorem scanSign_length (s : List UInt8) : (scanSign s).2.length ≤ s.length := by
  unfold scanSign
  split <;> simp

/-- Scans an exponent: a letter, perhaps a sign, and digits, or nothing. -/
def scanExponent (s : List UInt8) : Option (Option (Bool × List Char) × List UInt8) :=
  match s with
  | [] => some (none, [])
  | e :: rest =>
    if e == ascii 'e' || e == ascii 'E' then
      let (negative, rest) := scanSign rest
      let (ds, rest) := scanDigits rest
      if ds.isEmpty then none else some (some (negative, ds), rest)
    else some (none, s)

/-- An exponent leaves no more than there was. -/
theorem scanExponent_length {s rest : List UInt8} {e : Option (Bool × List Char)}
    (h : scanExponent s = some (e, rest)) : rest.length ≤ s.length := by
  unfold scanExponent at h
  have hsign := fun r => scanSign_length r
  have hdigits := fun r => scanDigits_length r
  split at h <;> grind

/-- The whole part of a number, which is a zero or begins with another digit, and what follows. -/
def scanWhole (s : List UInt8) : List Char × List UInt8 :=
  match s with
  | 0x30 :: rest => (['0'], rest)
  | _ => scanDigits s

/-- The digits of a whole number and what is left are all of the text. -/
theorem scanWhole_length_add (s : List UInt8) :
    (scanWhole s).1.length + (scanWhole s).2.length = s.length := by
  unfold scanWhole
  split
  · simp [Nat.add_comm]
  · exact scanDigits_length_add s

/-- Scans a number after its sign. -/
def scanNumber (negative : Bool) (s : List UInt8) : Option (Literal × List UInt8) :=
  let (whole, rest) := scanWhole s
  if whole.isEmpty then none
  else match scanFraction rest with
    | none => none
    | some (fraction, rest) => match scanExponent rest with
      | none => none
      | some (exponent, rest) => some (⟨negative, whole, fraction, exponent⟩, rest)

/-- A number has at least one digit. -/
theorem scanNumber_length {negative : Bool} {s rest : List UInt8} {l : Literal}
    (h : scanNumber negative s = some (l, rest)) : rest.length < s.length := by
  simp only [scanNumber] at h
  split at h
  · cases h
  next hw =>
    split at h
    · cases h
    next hf =>
      split at h
      · cases h
      next he =>
        simp only [Option.some.injEq, Prod.mk.injEq] at h
        have h₁ := scanFraction_length hf
        have h₂ := scanExponent_length he
        have h₃ := scanWhole_length_add s
        -- The number has a digit, so at least one byte is taken off.
        have h₄ : (scanWhole s).1.length ≠ 0 := by simpa using hw
        rw [← h.2]
        omega

/-- What follows a word at the front of a text. -/
def afterWord (word : String) (s : List UInt8) : Option (List UInt8) :=
  let bytes := word.toList.map ascii
  if bytes.isPrefixOf s then some (s.drop bytes.length) else none

/-- What is left behind a word is no longer than the text. -/
theorem afterWord_length {word : String} {s rest : List UInt8}
    (h : afterWord word s = some rest) : rest.length ≤ s.length := by
  simp only [afterWord] at h
  split at h
  · simp only [Option.some.injEq] at h
    simp [← h]
  · cases h

/-- What the first byte of a token says about it. -/
inductive Start where
  | mark (t : Token)
  | word (t : Token) (more : String)
  | quote
  | minus
  | digit
  | other

/-- What the first byte of a token says about it. -/
def start (b : UInt8) : Start :=
  if b == ascii '\x7b' then .mark .beginObject
  else if b == ascii '\x7d' then .mark .endObject
  else if b == ascii '[' then .mark .beginArray
  else if b == ascii ']' then .mark .endArray
  else if b == ascii ':' then .mark .colon
  else if b == ascii ',' then .mark .comma
  else if b == ascii 'n' then .word .null "ull"
  else if b == ascii 't' then .word (.bool true) "rue"
  else if b == ascii 'f' then .word (.bool false) "alse"
  else if b == ascii '"' then .quote
  else if b == ascii '-' then .minus
  else if isDigitByte b then .digit
  else .other

/-- Scans the token that begins with `b`. -/
def scanToken (b : UInt8) (s : List UInt8) : Option (Token × List UInt8) :=
  match start b with
  | .mark t => some (t, s)
  | .word t more => (afterWord more s).map (t, ·)
  | .quote => (scanString [] s).map fun p => (.string p.1, p.2)
  | .minus => (scanNumber true s).map fun p => (.number p.1, p.2)
  | .digit => (scanNumber false (b :: s)).map fun p => (.number p.1, p.2)
  | .other => none

/-- What remains after a token is shorter than the text that begins with it. -/
theorem scanToken_length {b : UInt8} {s rest : List UInt8} {t : Token}
    (h : scanToken b s = some (t, rest)) : rest.length < (b :: s).length := by
  unfold scanToken at h
  rw [List.length_cons]
  -- A mark is one byte. A word, a string and a number with a sign are scanned behind their first
  -- byte, and a number without a sign is scanned from that byte on.
  split at h
  · simp only [Option.some.injEq, Prod.mk.injEq] at h
    simp [← h.2]
  · obtain ⟨r, hr, he⟩ := Option.map_eq_some_iff.mp h
    have hrest := afterWord_length hr
    grind
  · obtain ⟨p, hp, he⟩ := Option.map_eq_some_iff.mp h
    have hrest := scanString_length hp
    grind
  · obtain ⟨p, hp, he⟩ := Option.map_eq_some_iff.mp h
    have hrest := scanNumber_length hp
    grind
  · obtain ⟨p, hp, he⟩ := Option.map_eq_some_iff.mp h
    have hrest := scanNumber_length hp
    grind
  · cases h

/-- Scans the tokens of a text; `done` is what came before, backwards. -/
def Token.scanFrom (done : List Token) (s : List UInt8) : Option (List Token) :=
  match s with
  | [] => some done.reverse
  | b :: rest =>
    if isJsonBlank b then Token.scanFrom done rest
    else match _h : scanToken b rest with
      | none => none
      | some (t, rest') => Token.scanFrom (t :: done) rest'
termination_by s.length
decreasing_by
  · simp
  · exact scanToken_length _h

/-- The tokens of a text; `none` where some part of it is no token. -/
def Token.scan (s : List UInt8) : Option (List Token) := Token.scanFrom [] s

end Governance.Json
