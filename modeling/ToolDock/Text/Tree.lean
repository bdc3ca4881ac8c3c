namespace ToolDock

inductive Tree where
  | node (title : String) (children : List Tree)
  /-- Several lines on one branch. -/
  | leaf (lines : List String)

namespace Tree

mutual

/-- The lines of a tree whose first line begins with `own`; everything below it begins with
`below`. -/
def linesWith (own below : String) : Tree → List String
  | node title children => (own ++ " " ++ title) :: linesOfChildren below children
  | leaf [] => []
  | leaf (first :: others) => (own ++ " " ++ first) :: others.map fun s ↦ below ++ " " ++ s

def linesOfChildren (below : String) : List Tree → List String
  | [] => []
  | [last] => linesWith (below ++ " └─") (below ++ "   ") last
  | child :: next :: rest =>
    linesWith (below ++ " ├─") (below ++ " │ ") child ++ linesOfChildren below (next :: rest)

end

def text (t : Tree) : String := String.join ((t.linesWith "" "").map (· ++ "\n"))

end Tree

end ToolDock
