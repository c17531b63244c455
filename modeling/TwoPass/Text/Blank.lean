import TwoPass.Text.Split

/-!
Blank characters and the words between them. `words` cuts a text at every run of
blanks, `trim` removes blanks at both ends.
-/
namespace TwoPass.Text

/-- The characters that separate words: the controls from tab to carriage return,
    the four information separators, and the spaces of every script. -/
def isBlank (c : Char) : Bool :=
  let n := c.toNat
  (9 ≤ n && n ≤ 13) || (28 ≤ n && n ≤ 32) || n == 0x85 || n == 0xa0 || n == 0x1680 ||
    (0x2000 ≤ n && n ≤ 0x200a) || n == 0x2028 || n == 0x2029 || n == 0x202f || n == 0x205f || n == 0x3000

/-- The text without the longest run at its end that satisfies `drop`. -/
def trimEnd (drop : Char → Bool) (text : List Char) : List Char :=
  (text.reverse.dropWhile drop).reverse

/-- The text without blanks at its ends. -/
def trimBlanks (text : List Char) : List Char :=
  trimEnd isBlank (text.dropWhile isBlank)

/-- `trimBlanks` on strings. -/
def trim (text : String) : String :=
  String.ofList (trimBlanks text.toList)

/-- The maximal runs of characters that are no blanks, in order. -/
def words (text : String) : List String :=
  ((pieces isBlank text.toList).filter (!·.isEmpty)).map String.ofList

end TwoPass.Text
