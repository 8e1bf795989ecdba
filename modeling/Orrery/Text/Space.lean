/-!
# White space

White space in any script: the Unicode property `White_Space`.
-/

namespace Orrery

namespace Text

/-- White space, in any script. -/
def isSpace (c : Char) : Bool :=
  let n := c.toNat
  (0x09 ≤ n && n ≤ 0x0D) || n = 0x20 || n = 0x85 || n = 0xA0 || n = 0x1680
    || (0x2000 ≤ n && n ≤ 0x200A) || n = 0x2028 || n = 0x2029 || n = 0x202F || n = 0x205F || n = 0x3000

/-- Without the white space in front. -/
def trimmedLeft (cs : List Char) : List Char := cs.dropWhile isSpace

/-- Without the white space at either end. -/
def trimmed (cs : List Char) : List Char := (trimmedLeft (trimmedLeft cs).reverse).reverse

/-- A text that says nothing. -/
def isSilent (text : String) : Bool := text.toList.all isSpace

end Text

end Orrery
