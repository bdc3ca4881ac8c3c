namespace ToolDock.Notation

inductive Value where
  /-- A bare name. A raw one is no keyword. -/
  | ident (raw : Bool) (name : String)
  | number (text : String)
  | text (s : String)
  | character (c : Char)
  /-- One byte or several, of which no field can be made. -/
  | bytes
  /-- Parentheses with nothing between them. -/
  | unit
  | list (items : List Value)
  | map (entries : List (Value × Value))
  /-- Named fields between parentheses. -/
  | record (name : Option String) (fields : List (String × Value))
  /-- Values between parentheses. -/
  | tuple (name : Option String) (items : List Value)
  /-- The value behind `Some`. A wrapped one stands in parentheses that are not its own. -/
  | option (wrapped : Bool) (v : Value)

namespace Value

mutual

/-- How many levels a value takes. A list, a map or a struct takes one, and another for what is in
it; an option takes one. -/
def depth : Value → Nat
  | list items => 1 + depthOfItems items
  | map entries => 1 + depthOfEntries entries
  | record _ fields => 1 + depthOfFields fields
  | tuple _ items => 1 + depthOfItems items
  | option _ v => 1 + depth v
  | _ => 0

def depthOfItems : List Value → Nat
  | [] => 0
  | v :: rest => max (1 + depth v) (depthOfItems rest)

def depthOfEntries : List (Value × Value) → Nat
  | [] => 0
  | (key, v) :: rest => max (1 + max (depth key) (depth v)) (depthOfEntries rest)

def depthOfFields : List (String × Value) → Nat
  | [] => 0
  | (_, v) :: rest => max (1 + depth v) (depthOfFields rest)

end

def maxDepth : Nat := 128

end Value

end ToolDock.Notation
