/-
Blank text.

A field that holds only white space counts as empty in two places: a mapping
section that is blank has no rows, and a cluster name that is blank is refused.
White space is the Unicode property of that name, so the characters are listed.
-/
namespace ClusterAccess.Text

/-- The characters with the Unicode property White_Space. -/
def isBlank (c : Char) : Bool :=
  (0x09 ≤ c.val && c.val ≤ 0x0D) || c.val == 0x20 || c.val == 0x85 || c.val == 0xA0
    || c.val == 0x1680 || (0x2000 ≤ c.val && c.val ≤ 0x200A) || c.val == 0x2028 || c.val == 0x2029
    || c.val == 0x202F || c.val == 0x205F || c.val == 0x3000

/-- A text of white space alone; the empty text is one. -/
def allBlank (text : String) : Bool :=
  text.toList.all isBlank

/-- The text without the white space around it. -/
def trim (text : List Char) : List Char :=
  ((text.dropWhile isBlank).reverse.dropWhile isBlank).reverse

end ClusterAccess.Text
