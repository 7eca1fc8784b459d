import Mathlib.Data.List.DropRight
import Mathlib.Order.Basic

namespace FuturesBot

/-- Where the ten digits of each script begin, for the scripts that have them. -/
def decimalZeros : List ℕ :=
  [0x30, 0x660, 0x6F0, 0x7C0, 0x966, 0x9E6, 0xA66, 0xAE6, 0xB66, 0xBE6, 0xC66, 0xCE6, 0xD66, 0xDE6,
    0xE50, 0xED0, 0xF20, 0x1040, 0x1090, 0x17E0, 0x1810, 0x1946, 0x19D0, 0x1A80, 0x1A90, 0x1B50,
    0x1BB0, 0x1C40, 0x1C50, 0xA620, 0xA8D0, 0xA900, 0xA9D0, 0xA9F0, 0xAA50, 0xABF0, 0xFF10, 0x104A0,
    0x10D30, 0x11066, 0x110F0, 0x11136, 0x111D0, 0x112F0, 0x11450, 0x114D0, 0x11650, 0x116C0,
    0x11730, 0x118E0, 0x11950, 0x11C50, 0x11D50, 0x11DA0, 0x11F50, 0x16A60, 0x16AC0, 0x16B50,
    0x1D7CE, 0x1D7D8, 0x1D7E2, 0x1D7EC, 0x1D7F6, 0x1E140, 0x1E2F0, 0x1E4F0, 0x1E950, 0x1FBF0]

/-- What `int` skips at both ends. -/
def numeralBlanks : List ℕ :=
  [0x09, 0x0A, 0x0B, 0x0C, 0x0D, 0x20, 0x85, 0xA0, 0x1680, 0x2000, 0x2001, 0x2002, 0x2003, 0x2004,
    0x2005, 0x2006, 0x2007, 0x2008, 0x2009, 0x200A, 0x2028, 0x2029, 0x202F, 0x205F, 0x3000]

/-- A digit or a blank as `int` reads it. -/
def numeralChar (c : Char) : Char :=
  if c.toNat ∈ numeralBlanks then ' '
  else
    match decimalZeros.find? fun first => first ≤ c.toNat && c.toNat < first + 10 with
    | some first => Char.ofNat ('0'.toNat + (c.toNat - first))
    | none => c

def isHexDigit (c : Char) : Bool :=
  c.isDigit || ('a' ≤ c && c ≤ 'f') || ('A' ≤ c && c ≤ 'F')

/-- Digits, with no more than one underscore between two of them. -/
def isHexNumeral : List Char → Bool
  | [] => false
  | [c] => isHexDigit c
  | c :: '_' :: rest => isHexDigit c && isHexNumeral rest
  | c :: rest => isHexDigit c && isHexNumeral rest

/-- Whether `int(text, 16)` takes a text without a minus sign. -/
def readsBase16 (text : List Char) : Bool :=
  let blank := fun c => decide (c = ' ')
  let text := ((text.map numeralChar).dropWhile blank).rdropWhile blank
  let text := if text.head? = some '+' then text.tail else text
  if text.take 2 = ['0', 'x'] ∨ text.take 2 = ['0', 'X'] then
    let text := text.drop 2
    isHexNumeral (if text.head? = some '_' then text.tail else text)
  else isHexNumeral text

/-- `text.replace(part, "")`; the first `skip` characters belong to an occurrence. -/
def removeAll (part : List Char) (skip : ℕ) : List Char → List Char
  | [] => []
  | c :: rest =>
    if 0 < skip then removeAll part (skip - 1) rest
    else if part.isPrefixOf (c :: rest) then removeAll part (part.length - 1) rest
    else c :: removeAll part 0 rest

/-- What `uuid.UUID` takes for the digits of an identifier. -/
def uuidDigits (text : String) : List Char :=
  let brace := fun c => decide (c = '{' ∨ c = '}')
  let bare := removeAll "uuid:".toList 0 (removeAll "urn:".toList 0 text.toList)
  ((bare.dropWhile brace).rdropWhile brace).filter fun c => c ≠ '-'

/-- Whether `uuid.UUID` takes a text. -/
def isUuid (text : String) : Bool :=
  decide ((uuidDigits text).length = 32) && readsBase16 (uuidDigits text)

/-- An identifier as `uuid4` draws them. -/
structure Uuid where
  text : String
  valid : isUuid text = true

example : isUuid "urn:uuid:12345678-1234-4234-8234-123456789ABC" = true := by decide +kernel

end FuturesBot
