/-! White space and trimming. Blank characters are the 25 characters of the
Unicode property White_Space; among them are the vertical tab, the form feed,
U+0085 and U+00A0, and not the separators U+001C to U+001F, U+200B or U+FEFF. -/

namespace SipMigrate.Text

def isBlank (c : Char) : Bool :=
  let n := c.toNat
  (0x09 ≤ n && n ≤ 0x0D) || n == 0x20 || n == 0x85 || n == 0xA0 || n == 0x1680 ||
    (0x2000 ≤ n && n ≤ 0x200A) || n == 0x2028 || n == 0x2029 || n == 0x202F ||
    n == 0x205F || n == 0x3000

def trimStart (l : List Char) : List Char := l.dropWhile isBlank

def trimEnd (l : List Char) : List Char := (l.reverse.dropWhile isBlank).reverse

/-- The text without the blanks at its two ends. -/
def trim (l : List Char) : List Char := trimEnd (trimStart l)

theorem trimStart_of_not_isBlank {c : Char} (h : isBlank c = false) (l : List Char) :
    trimStart (c :: l) = c :: l := by
  simp [trimStart, h]

theorem trimEnd_of_not_isBlank {c : Char} (h : isBlank c = false) (l : List Char) :
    trimEnd (l ++ [c]) = l ++ [c] := by
  simp [trimEnd, h]

end SipMigrate.Text
