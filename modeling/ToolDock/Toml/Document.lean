import ToolDock.Toml.Value.Reader

namespace ToolDock.Toml

structure Document where
  root : Entries
  current : List String

namespace Document

def empty : Document := ⟨[], []⟩

def readHeader? (d : Document) (cs : List Char) : Option (Document × List Char) := do
  let (path, rest) ← readPath? cs
  match rest with
  | ']' :: rest => return (⟨← d.root.declare path, path⟩, ← endLine? rest)
  | _ => none

def readAssignment? (d : Document) (cs : List Char) : Option (Document × List Char) := do
  let (path, rest) ← readPath? cs
  match rest with
  | '=' :: rest =>
    let (v, rest) ← Value.read? (rest.length + 1) (skipBlank rest)
    if Value.maxDepth < v.depth then none
    let root ← Entries.within (·.assign path v) d.root d.current
    return ({ d with root := root }, ← endLine? rest)
  | _ => none

def readFrom? (d : Document) : Nat → List Char → Option Document
  | 0, _ => none
  | fuel + 1, cs => do
    match ← skipLines? cs.length cs with
    | [] => return d
    | '[' :: cs =>
      let (d, rest) ← d.readHeader? cs
      d.readFrom? fuel rest
    | cs =>
      let (d, rest) ← d.readAssignment? cs
      d.readFrom? fuel rest

/-- A byte order mark at the head of a text is no part of it. -/
def skipMark : List Char → List Char
  | '\ufeff' :: cs => cs
  | cs => cs

def read? (s : String) : Option Entries :=
  (empty.readFrom? (s.length + 1) (skipMark s.toList)).map Document.root

end Document

end ToolDock.Toml
