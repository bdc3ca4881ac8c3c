import ToolDock.Notation.Name
import ToolDock.Notation.Spacing

namespace ToolDock.Notation

structure Extensions where
  /-- An option may be written without `Some`, or without parentheses after it. -/
  implicitSome : Bool
  /-- The parentheses of an option are also those of the fields or the values in it. -/
  unwrapVariants : Bool
  /-- Structs have to be written with their names. -/
  explicitNames : Bool
deriving DecidableEq, Repr

namespace Extensions

def none : Extensions := ⟨false, false, false⟩

def enable (e : Extensions) (name : String) : Option Extensions :=
  if name == "implicit_some" then some { e with implicitSome := true }
  else if name == "unwrap_variant_newtypes" then some { e with unwrapVariants := true }
  else if name == "explicit_struct_names" then some { e with explicitNames := true }
  else if name == "unwrap_newtypes" then some e
  else Option.none

def readNames? (e : Extensions) : Nat → List Char → Option (Extensions × List Char)
  | 0, _ => Option.none
  | fuel + 1, cs => do
    let (name, rest) ← Name.read? cs
    let e ← e.enable name.text
    match ← Spacing.skip? rest with
    | ',' :: rest =>
      match ← Spacing.skip? rest with
      | ')' :: rest => return (e, ')' :: rest)
      | rest => readNames? e fuel rest
    | rest => return (e, rest)

def opening : List (List Char) := ["#".toList, "!".toList, "[".toList, "enable".toList, "(".toList]

def read? (e : Extensions) : Nat → List Char → Option (Extensions × List Char)
  | fuel + 1, '#' :: cs => do
    let names ← Spacing.afterMarks? opening ('#' :: cs)
    let (e, rest) ← e.readNames? names.length names
    read? e fuel (← Spacing.afterMarks? [[')'], [']']] rest)
  | _, cs => some (e, cs)

end Extensions

end ToolDock.Notation
