import ToolDock.Number.Digits

namespace ToolDock

structure Written where
  whole : List Char
  fraction : List Char
  exponent : Int
deriving DecidableEq, Repr

namespace Written

def spanDigits (cs : List Char) : List Char × List Char := cs.span (·.isDigit)

def readExponent? : List Char → Option Int
  | [] => some 0
  | e :: rest =>
    if e = 'e' ∨ e = 'E' then
      match rest with
      | '+' :: ds => (Digits.read? 10 ds).map (↑·)
      | '-' :: ds => (Digits.read? 10 ds).map (-↑·)
      | ds => (Digits.read? 10 ds).map (↑·)
    else none

def read? (cs : List Char) : Option Written := do
  let (whole, rest) := spanDigits cs
  let (fraction, rest) := match rest with
    | '.' :: more => spanDigits more
    | _ => ([], rest)
  if whole.isEmpty && fraction.isEmpty then none
  else return ⟨whole, fraction, ← readExponent? rest⟩

def scaled? (w : Written) : Option (Nat × Int) :=
  (Digits.read? 10 (w.whole ++ w.fraction)).map fun m ↦ (m, w.exponent - w.fraction.length)

end Written

end ToolDock
