/-
Letters and digits beyond ASCII.

The first character of a log directive is a letter or a digit in the sense of
Unicode.  Beyond the first blocks the scripts are told from the blocks of
punctuation, symbols and unassigned characters, which are listed.
-/
namespace ClusterAccess.Text

/-- Ranges above ASCII that hold no letters and no digits. -/
def symbolRanges : List (Nat × Nat) :=
  [(0x80, 0xA9), (0xAB, 0xB1), (0xB4, 0xB4), (0xB6, 0xB8), (0xBB, 0xBB), (0xBF, 0xBF), (0xD7, 0xD7),
    (0xF7, 0xF7), (0x2C2, 0x2C5), (0x2D2, 0x2DF), (0x300, 0x344), (0x346, 0x36F), (0x2000, 0x206F),
    (0x207A, 0x207E), (0x208A, 0x208E), (0x20A0, 0x2101), (0x2190, 0x245F), (0x24EA, 0x24EA),
    (0x2500, 0x2775), (0x2794, 0x2BFF), (0x2E00, 0x2E2E), (0x2E30, 0x3004), (0x3008, 0x3020),
    (0x302A, 0x3030), (0x3036, 0x3037), (0x303D, 0x3040), (0xD7FC, 0xF8FF), (0xFE00, 0xFE6F),
    (0xFEFF, 0xFF0F), (0xFF1A, 0xFF20), (0xFF3B, 0xFF40), (0xFF5B, 0xFF65), (0xFFE0, 0xFFFF),
    (0x1D000, 0x1D35F), (0x1F000, 0x1F0FF), (0x1F10D, 0x1F12F), (0x1F18A, 0x1FBEF),
    (0xE0000, 0x10FFFF)]

/-- Is the character a letter or a digit of some script? -/
def isLetterOrDigit (c : Char) : Bool :=
  if c.val < 0x80 then c.isAlphanum
  else !symbolRanges.any fun (first, last) => first ≤ c.toNat && c.toNat ≤ last

end ClusterAccess.Text
