import BrailleScript.Text.Quoted
import BrailleScript.Text.Utf8

/-!
# Braille cells as bytes

The 256 braille cells U+2800 … U+28FF stand for the 256 bytes.  A text is written in cells by
taking its UTF-8 bytes one by one; reading goes back.  Since cells may come from anywhere, reading
has two forms: `decodeText` shows ill-formed bytes as U+FFFD, and `decodeName` keeps different
cell words different.
-/

namespace BrailleScript.Cell

/-- The code point of the cell without dots, which stands for byte 0. -/
def base : Nat := 0x2800

/-- Whether a character is a braille cell. -/
def isCell (c : Char) : Bool :=
  base ≤ c.toNat && c.toNat ≤ base + 0xFF

/-- The cell of a byte. -/
def ofByte (b : UInt8) : Char :=
  Char.ofNat (base + b.toNat)

/-- The byte of a cell. -/
def toByte? (c : Char) : Option UInt8 :=
  if isCell c then some (UInt8.ofNat (c.toNat - base)) else none

/-- One cell for each byte of the text. -/
def encodeChars (cs : List Char) : List Char :=
  (Text.Utf8.encode cs).map ofByte

/-- The bytes of a cell text; a character that is no cell stands for its own bytes. -/
def bytes (cs : List Char) : List UInt8 :=
  cs.flatMap fun c =>
    match toByte? c with
    | some b => [b]
    | none => String.utf8EncodeChar c

/-- The text written by cells, ill-formed bytes shown as U+FFFD. -/
def decodeChars (cs : List Char) : List Char :=
  Text.Utf8.decodeLossy (bytes cs)

/-- `\x` and two hexadecimal digits. -/
def escapeByte (b : UInt8) : List Char :=
  ['\\', 'x', Nat.digitChar (b.toNat / 16), Nat.digitChar (b.toNat % 16)]

/-- What a segment of bytes contributes to a name: a backslash is doubled and ill-formed bytes
are escaped, so no two byte lists give one name. -/
def nameChars : Text.Utf8.Segment → List Char
  | .char c => if c = '\\' then ['\\', '\\'] else [c]
  | .invalid bs => bs.flatMap escapeByte

/-- The name written by a cell word. -/
def decodeNameChars (cs : List Char) : List Char :=
  (Text.Utf8.segments (bytes cs)).flatMap nameChars

/-- A text in cells. -/
def encodeText (s : String) : String :=
  String.ofList (encodeChars s.toList)

/-- The text of cells. -/
def decodeText (s : String) : String :=
  String.ofList (decodeChars s.toList)

/-- The name of a cell word. -/
def decodeName (s : String) : String :=
  String.ofList (decodeNameChars s.toList)

end BrailleScript.Cell
