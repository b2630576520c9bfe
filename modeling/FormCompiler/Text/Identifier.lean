/-!
# Identifiers in emitted text

An identifier is written as it is when it starts with no digit and all its
characters are plain; otherwise its bytes stand between quotes, those that
are not printable as a backslash and two hexadecimal digits.
-/

namespace FormCompiler

def hexDigit (value : Nat) : Char :=
  (("0123456789ABCDEF".toList)[value]?).getD '0'

/-- One byte of quoted text. -/
def escapedByte (byte : UInt8) : List Char :=
  let code := byte.toNat
  if 0x20 ≤ code ∧ code ≤ 0x7E ∧ code ≠ '"'.toNat ∧ code ≠ '\\'.toNat then
    [Char.ofNat code]
  else ['\\', hexDigit (code / 16), hexDigit (code % 16)]

def escapedBytes (bytes : List UInt8) : String :=
  String.ofList (bytes.flatMap escapedByte)

def utf8Bytes (text : String) : List UInt8 := text.toUTF8.toList

/-- Whether a name can stand without quotes. -/
def isPlainName (isPlain : Char → Bool) (name : List Char) : Bool :=
  match name with
  | [] => false
  | first :: _ => !first.isDigit && name.all isPlain

/-- A name, in quotes unless it is plain. -/
def identifierText (isPlain : Char → Bool) (name : String) : String :=
  if isPlainName isPlain name.toList then name
  else "\"" ++ escapedBytes (utf8Bytes name) ++ "\""

end FormCompiler
