/-
# White space

`isBlank` is the Unicode property White_Space; `trim` removes it at both ends.

Key definitions: `isBlank`, `trim`.
-/

namespace ViewMarkup

/-- White space, of ASCII and beyond. -/
def isBlank (c : Char) : Bool :=
  let n := c.toNat
  (0x9 ≤ n && n ≤ 0xd) || n == 0x20 || n == 0x85 || n == 0xa0 || n == 0x1680 ||
    (0x2000 ≤ n && n ≤ 0x200a) || n == 0x2028 || n == 0x2029 || n == 0x202f || n == 0x205f ||
    n == 0x3000

def trimStart (cs : List Char) : List Char := cs.dropWhile isBlank

def trimEnd (cs : List Char) : List Char := (cs.reverse.dropWhile isBlank).reverse

/-- The characters without the white space around them. -/
def trim (cs : List Char) : List Char := trimEnd (trimStart cs)

def trimText (text : String) : String := String.ofList (trim text.toList)

end ViewMarkup
