/-
Percent escapes.

A percent sign with two hexadecimal digits stands for a byte; any other character
stands for its own bytes in UTF-8, a percent sign without two digits included.  The
bytes together have to be text.

Forms are written the other way: letters, digits and a few marks stand for themselves,
a space becomes a plus sign, and every other byte is escaped.
-/
import ClusterAccess.Text.Digits

namespace ClusterAccess.Text

/-- The bytes that a text with percent escapes stands for. -/
def unescape : List Char → List UInt8
  | [] => []
  | '%' :: high :: low :: rest =>
    match hexDigit? high, hexDigit? low with
    | some h, some l => UInt8.ofNat (h * 16 + l) :: unescape rest
    | _, _ => String.utf8EncodeChar '%' ++ unescape (high :: low :: rest)
  | c :: rest => String.utf8EncodeChar c ++ unescape rest

/-- The text that a text with percent escapes stands for, if its bytes are text. -/
def percentDecode? (text : List Char) : Option String :=
  String.fromUTF8? (unescape text).toByteArray

/-- Does a form leave the byte as it is? -/
def isFormPlain (c : Char) : Bool :=
  c.isAlphanum || c == '*' || c == '-' || c == '.' || c == '_'

/-- A byte as a form writes it. -/
def formByte (byte : UInt8) : List Char :=
  let c := Char.ofNat byte.toNat
  if c = ' ' then ['+']
  else if byte.toNat < 128 && isFormPlain c then [c]
  else '%' :: hexDigits true 2 byte.toNat

/-- A text as a form writes it. -/
def formEncode (text : String) : List Char :=
  text.toUTF8.toList.flatMap formByte

end ClusterAccess.Text
