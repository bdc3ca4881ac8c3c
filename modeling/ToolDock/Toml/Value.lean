import ToolDock.Toml.Moment

/-!
The values of a settings file: texts, integers, fractions, booleans, dates and times, arrays and
tables. A table grows key by key, and no key is given twice.
-/

namespace ToolDock.Toml

/-- How a table came about, which decides what may be added to it later. -/
inductive Origin where
  /-- It has a header of its own. -/
  | header
  /-- It was only named on the way to a header below it. -/
  | implied
  /-- It was named on the way to a dotted key. -/
  | dotted
  | inline
deriving DecidableEq, Repr

inductive Value where
  | text (s : String)
  /-- An integer; some words have the form of one and no value. -/
  | integer (n : Option Int)
  /-- A number with a fraction or an exponent, as it is written. -/
  | fraction (word : String)
  | boolean (b : Bool)
  | moment (m : Moment)
  | array (items : List Value)
  | table (origin : Origin) (entries : List (String × Value))
deriving Inhabited

abbrev Entries := List (String × Value)

namespace Entries

def has (es : Entries) (key : String) : Bool := es.any (·.1 == key)

def replace (es : Entries) (key : String) (v : Value) : Entries :=
  es.map fun e ↦ if e.1 == key then (key, v) else e

/-- Adds a value under a dotted key. A key is given once, and only tables that dotted keys made are
extended. -/
def assign (es : Entries) : List String → Value → Option Entries
  | [], _ => none
  | [key], v => if es.has key then none else some (es ++ [(key, v)])
  | key :: path, v =>
    match es.lookup key with
    | none => (assign [] path v).map fun sub ↦ es ++ [(key, .table .dotted sub)]
    | some (.table .dotted sub) =>
      (assign sub path v).map fun sub ↦ es.replace key (.table .dotted sub)
    | some _ => none

def declare (es : Entries) : List String → Option Entries
  | [] => none
  | [key] =>
    match es.lookup key with
    | none => some (es ++ [(key, .table .header [])])
    | some (.table .implied sub) => some (es.replace key (.table .header sub))
    | some _ => none
  | key :: path =>
    match es.lookup key with
    | none => (declare [] path).map fun sub ↦ es ++ [(key, .table .implied sub)]
    | some (.table .inline _) => none
    | some (.table origin sub) =>
      (declare sub path).map fun sub ↦ es.replace key (.table origin sub)
    | some _ => none

def within (f : Entries → Option Entries) (es : Entries) : List String → Option Entries
  | [] => f es
  | key :: path =>
    match es.lookup key with
    | some (.table origin sub) =>
      (within f sub path).map fun sub ↦ es.replace key (.table origin sub)
    | _ => none

end Entries

namespace Value

mutual

def depth : Value → Nat
  | array items => 1 + depthOfItems items
  | table origin entries => (if origin = .inline then 1 else 0) + depthOfEntries entries
  | _ => 0

def depthOfItems : List Value → Nat
  | [] => 0
  | v :: rest => max (depth v) (depthOfItems rest)

def depthOfEntries : List (String × Value) → Nat
  | [] => 0
  | (_, v) :: rest => max (depth v) (depthOfEntries rest)

end

def maxDepth : Nat := 80

end Value

end ToolDock.Toml
