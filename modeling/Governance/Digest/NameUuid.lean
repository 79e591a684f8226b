import Governance.Digest.Sha1

/-!
# Identifiers derived from names

A name-based UUID of version 5: the digest of a namespace followed by the name, cut to sixteen
bytes, with the version and the variant written into it. The same name gives the same identifier in
every run.
-/

set_option autoImplicit false

namespace Governance.Digest

/-- The namespace of names that are URLs. -/
def urlNamespace : List UInt8 :=
  [0x6b, 0xa7, 0xb8, 0x11, 0x9d, 0xad, 0x11, 0xd1, 0x80, 0xb4, 0x00, 0xc0, 0x4f, 0xd4, 0x30, 0xc8]

/-- Writes the version into the byte at position 6 and the variant into the one at position 8. -/
def stamp (bytes : List UInt8) : List UInt8 :=
  (bytes.modify 6 fun b => (b &&& 0x0f) ||| 0x50).modify 8 fun b => (b &&& 0x3f) ||| 0x80

/-- A byte as two digits in base 16. -/
def hexByte (b : UInt8) : List Char :=
  let digit := fun n => "0123456789abcdef".toList.getD n '0'
  [digit (b.toNat / 16), digit (b.toNat % 16)]

/-- Sixteen bytes as digits in groups of 8, 4, 4, 4 and 12. -/
def hyphenated (bytes : List UInt8) : List Char :=
  let group := fun start count => ((bytes.drop start).take count).flatMap hexByte
  group 0 4 ++ '-' :: group 4 2 ++ '-' :: group 6 2 ++ '-' :: group 8 2 ++ '-' :: group 10 6

/-- The identifier of a name among URLs. -/
def nameUuid (name : String) : String :=
  String.ofList (hyphenated (stamp ((sha1 (urlNamespace ++ name.toUTF8.toList)).take 16)))

end Governance.Digest
