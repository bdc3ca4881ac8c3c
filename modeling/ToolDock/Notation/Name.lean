import ToolDock.Text.Identifier

namespace ToolDock.Notation

structure Name where
  raw : Bool
  text : String
deriving DecidableEq, Repr

namespace Name

/-- The beginnings of quoted texts that look like names. -/
def quotes : List String := ["b\"", "b'", "br\"", "br#", "r\"", "r#\"", "r##"]

def beginsQuote (cs : List Char) : Bool := quotes.any fun q ↦ q.toList.isPrefixOf cs

def readWhile? (raw : Bool) (p : Char → Bool) (cs : List Char) : Option (Name × List Char) :=
  let name := cs.takeWhile p
  if name.isEmpty then none else some (⟨raw, String.ofList name⟩, cs.dropWhile p)

def read? (cs : List Char) : Option (Name × List Char) :=
  if beginsQuote cs then none
  else
    match cs with
    | 'r' :: '#' :: cs => readWhile? true Identifier.isRaw cs
    | c :: _ => if Identifier.isFirst c then readWhile? false Identifier.isNext cs else none
    | [] => none

end Name

end ToolDock.Notation
