/-!
Terminal escape sequences: the escape character, an opening bracket, parameters and a
final letter. `withoutEscapes` removes them from text that no terminal will show.
-/
namespace TwoPass.Text

def isParameter (c : Char) : Bool :=
  c == ';' || c == '?' || ('0' ≤ c && c ≤ '9')

/-- What follows the escape sequence that a text begins with. -/
def afterEscape? : List Char → Option (List Char)
  | '\x1b' :: '[' :: rest =>
    match rest.dropWhile isParameter with
    | final :: after => if final.isAlpha then some after else none
    | [] => none
  | _ => none

/-- An escape sequence is at least three characters long. -/
theorem length_afterEscape {text after : List Char} (found : afterEscape? text = some after) :
    after.length < text.length := by
  unfold afterEscape? at found
  split at found
  · rename_i rest
    have bound := (List.dropWhile_suffix isParameter (l := rest)).length_le
    split at found
    · rename_i final behind same
      rw [same] at bound
      split at found
      · cases found
        simp only [List.length_cons] at bound ⊢
        omega
      · contradiction
    · contradiction
  · contradiction

/-- Removes escape sequences. -/
def removeEscapes (text : List Char) : List Char :=
  match _found : afterEscape? text with
  | some after => removeEscapes after
  | none =>
    match text with
    | [] => []
    | c :: rest => c :: removeEscapes rest
termination_by text.length
decreasing_by
  · exact length_afterEscape ‹_›
  · simp

/-- `removeEscapes` on strings. -/
def withoutEscapes (text : String) : String :=
  String.ofList (removeEscapes text.toList)

end TwoPass.Text
