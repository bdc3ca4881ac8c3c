/-!
What may stand between the parts of a text in the object notation: blanks, comments to the end of a
line, and block comments, which nest.
-/

namespace ToolDock.Notation.Spacing

def blanks : List Nat := [0x20, 0x09, 0x0a, 0x0b, 0x0c, 0x0d, 0x85, 0x200e, 0x200f, 0x2028, 0x2029]

def isBlank (c : Char) : Bool := blanks.contains c.toNat

inductive Place where
  | between
  | lineComment
  /-- In a block comment, so many levels below the outermost. -/
  | blockComment (depth : Nat)
deriving DecidableEq, Repr

def Place.outside : Nat → Place
  | 0 => between
  | depth + 1 => blockComment depth

/-- What follows spacing that begins at a place. Refuses an open block comment and a lone slash. -/
def skipFrom? : Place → List Char → Option (List Char)
  | .between, [] => some []
  | .between, '/' :: '/' :: cs => skipFrom? .lineComment cs
  | .between, '/' :: '*' :: cs => skipFrom? (.blockComment 0) cs
  | .between, c :: cs =>
    if isBlank c then skipFrom? .between cs else if c = '/' then none else some (c :: cs)
  | .lineComment, [] => some []
  | .lineComment, c :: cs => skipFrom? (if c = '\n' then .between else .lineComment) cs
  | .blockComment depth, '/' :: '*' :: cs => skipFrom? (.blockComment (depth + 1)) cs
  | .blockComment depth, '*' :: '/' :: cs => skipFrom? (.outside depth) cs
  | .blockComment depth, _ :: cs => skipFrom? (.blockComment depth) cs
  | .blockComment _, [] => none

def skip? (cs : List Char) : Option (List Char) := skipFrom? .between cs

def afterMarks? : List (List Char) → List Char → Option (List Char)
  | [], cs => some cs
  | mark :: marks, cs =>
    if mark.isPrefixOf cs then do afterMarks? marks (← skip? (cs.drop mark.length)) else none

end ToolDock.Notation.Spacing
