namespace ToolDock

structure FileTree where
  files : List (List String × String)
deriving DecidableEq, Repr

namespace FileTree

def names (path : String) : List String :=
  ((path.splitOn "/").filter (!·.isEmpty))

def ofList (files : List (String × String)) : FileTree :=
  ⟨files.map fun f ↦ (names f.1, f.2)⟩

def isDirectory (t : FileTree) (place : List String) : Bool :=
  place.isEmpty || t.files.any fun f ↦ place.isPrefixOf f.1 && f.1 != place

/-- Follows names from a place. Only a directory has anything below it, its own place and the place
above it included; above the root there is nothing. -/
def follow (t : FileTree) (place : List String) : List String → Option (List String)
  | [] => some place
  | name :: rest =>
    if !t.isDirectory place then none
    else if name == "." then t.follow place rest
    else if name == ".." then
      if place.isEmpty then none else t.follow place.dropLast rest
    else t.follow (place ++ [name]) rest

/-- The place that a relative path leads to. A path that ends in a slash leads to a directory. -/
def place? (t : FileTree) (path : String) : Option (List String) :=
  if path.isEmpty || path.startsWith "/" then none
  else do
    let place ← t.follow [] (names path)
    if path.endsWith "/" && !t.isDirectory place then none else some place

def read? (t : FileTree) (path : String) : Option String := do t.files.lookup (← t.place? path)

def isPresent (t : FileTree) (path : String) : Bool :=
  match t.place? path with
  | some place => t.isDirectory place || (t.files.lookup place).isSome
  | none => false

end FileTree

end ToolDock
