/-!
# Texts of bytes

Bytes that are no text are nevertheless shown as one. They are decoded as UTF-8,
one byte at a time, and what belongs to no character is shown by the replacement
character: once for bytes that begin a character and break off, and once for
every byte that begins none. So different bytes may be shown alike, but not the
bytes of different texts.
-/

namespace DeclGraph.Text

/-- The bytes that encode a text. -/
def encode (text : List Char) : List UInt8 := text.flatMap String.utf8EncodeChar

/-- What is shown in place of bytes that belong to no character. -/
def replacement : Char := '\uFFFD'

/-- A character of which the first bytes have been read. -/
structure Begun where
  /-- The part of the scalar value that is known. -/
  value : Nat
  /-- How many bytes are missing behind the next one. -/
  further : Nat
  /-- The bounds of the next byte. They are narrower where a shorter encoding, a
  surrogate or a value beyond the last character would follow. -/
  lowest : Nat := 0x80
  highest : Nat := 0xBF
deriving DecidableEq, Repr

/-- What a byte completes and what it begins, between two characters. -/
def beginWith (byte : UInt8) : List Char × Option Begun :=
  let lead := byte.toNat
  if lead < 0x80 then ([Char.ofNat lead], none)
  else if lead < 0xC2 then ([replacement], none)
  else if lead < 0xE0 then ([], some { value := lead - 0xC0, further := 0 })
  else if lead < 0xF0 then
    ([], some {
      value := lead - 0xE0
      further := 1
      lowest := if lead = 0xE0 then 0xA0 else 0x80
      highest := if lead = 0xED then 0x9F else 0xBF })
  else if lead < 0xF5 then
    ([], some {
      value := lead - 0xF0
      further := 2
      lowest := if lead = 0xF0 then 0x90 else 0x80
      highest := if lead = 0xF4 then 0x8F else 0xBF })
  else ([replacement], none)

/-- What the next byte of a begun character completes and what is begun after
it. A byte out of bounds breaks the character off and is read anew. -/
def Begun.continueWith (begun : Begun) (byte : UInt8) : List Char × Option Begun :=
  if begun.lowest ≤ byte.toNat ∧ byte.toNat ≤ begun.highest then
    let value := begun.value * 64 + (byte.toNat - 0x80)
    match begun.further with
    | 0 => ([Char.ofNat value], none)
    | further + 1 => ([], some { value, further })
  else
    let (shown, next) := beginWith byte
    (replacement :: shown, next)

/-- Decodes bytes behind a character that may have begun. -/
def decodeFrom : Option Begun → List UInt8 → List Char
  | none, [] => []
  | some _, [] => [replacement]
  | none, byte :: rest => (beginWith byte).1 ++ decodeFrom (beginWith byte).2 rest
  | some begun, byte :: rest =>
    (begun.continueWith byte).1 ++ decodeFrom (begun.continueWith byte).2 rest

/-- The text by which bytes are shown. -/
def decode (bytes : List UInt8) : List Char := decodeFrom none bytes

/-- A byte that begins no character is shown as the replacement character is. -/
example : decode [0x61, 0xFF, 0x2E] = decode (encode ['a', replacement, '.']) := by decide

end DeclGraph.Text
