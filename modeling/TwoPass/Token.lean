import TwoPass.Text.Blank

/-!
Tokens of a source line: quoted constants, which may hold blanks, and runs of other
characters. Columns count characters from 1 on.
-/
namespace TwoPass

open Text

structure Token where
  text : String
  column : Nat
  deriving DecidableEq, Repr

namespace Token

/-- The mark around the body of a quoted constant. -/
def mark : Char := '\x27'

/-- The letters that make a quoted text a constant. -/
def isKind (c : Char) : Bool :=
  c == 'C' || c == 'c' || c == 'X' || c == 'x'

/-- The quoted constant that a text begins with. -/
def quotedConstant? : List Char → Option (List Char)
  | kind :: opening :: rest =>
    if isKind kind ∧ opening = mark ∧ mark ∈ rest then
      some (kind :: opening :: (rest.takeWhile (· != mark) ++ [mark]))
    else none
  | _ => none

/-- The token that begins with a character and continues in the text behind it. -/
def leading (c : Char) (rest : List Char) : List Char :=
  (quotedConstant? (c :: rest)).getD (c :: rest.takeWhile (!isBlank ·))

/-- The tokens of a text whose first character stands in `column`. -/
def scanFrom (column : Nat) (text : List Char) : List Token :=
  match text with
  | [] => []
  | c :: rest =>
    if isBlank c then scanFrom (column + 1) rest
    else
      let token := leading c rest
      ⟨String.ofList token, column⟩ :: scanFrom (column + token.length) (rest.drop (token.length - 1))
termination_by text.length
decreasing_by
  all_goals simp only [List.length_drop, List.length_cons]; omega

/-- The tokens of a line, in order. -/
def scan (line : String) : List Token :=
  scanFrom 1 line.toList

end Token

end TwoPass
