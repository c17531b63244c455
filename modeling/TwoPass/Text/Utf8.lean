/-!
Texts stored as bytes in UTF-8. Files are read in blocks, so a file that is no text
still gives the text of the blocks before the one that shows it (`textBeforeFault`).
-/
namespace TwoPass.Text

/-- The text that bytes encode. -/
def decode? (bytes : ByteArray) : Option String :=
  String.fromUTF8? bytes

/-- Whether bytes are the beginning of one character: the least or the greatest
    continuation bytes complete them. -/
def isOpening (bytes : ByteArray) : Bool :=
  [1, 2, 3].any fun missing => [0x80, 0xbf].any fun byte =>
    match decode? (bytes ++ ⟨Array.replicate missing byte⟩) with
    | some text => text.length == 1
    | none => false

/-- The complete characters of bytes that a longer text may begin with. -/
def decodeOpen? (bytes : ByteArray) : Option String :=
  match decode? bytes with
  | some text => some text
  | none => [1, 2, 3].findSome? fun cut =>
    let kept := bytes.size - cut
    if cut ≤ bytes.size && isOpening (bytes.extract kept bytes.size) then decode? (bytes.extract 0 kept)
    else none

/-- The number of bytes read at a time. -/
def blockSize : Nat := 8192

/-- The text of the blocks that are read before it shows that bytes are no text; a
    character cut off by the end of the bytes shows only there. -/
def textBeforeFault (bytes : ByteArray) : String :=
  let ends := bytes.size :: ((List.range (bytes.size / blockSize + 1)).map (blockSize * ·)).reverse
  (ends.findSome? fun size => decodeOpen? (bytes.extract 0 size)).getD ""

end TwoPass.Text
