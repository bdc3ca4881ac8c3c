namespace ToolDock.Digits

def value? (c : Char) : Option Nat :=
  if '0' ≤ c ∧ c ≤ '9' then some (c.toNat - 48)
  else if 'a' ≤ c ∧ c ≤ 'f' then some (c.toNat - 87)
  else if 'A' ≤ c ∧ c ≤ 'F' then some (c.toNat - 55)
  else none

def readFrom (base acc : Nat) : List Char → Option Nat
  | [] => some acc
  | c :: rest =>
    match value? c with
    | some d => if d < base then readFrom base (acc * base + d) rest else none
    | none => none

def read? (base : Nat) : List Char → Option Nat
  | [] => none
  | c :: rest => readFrom base 0 (c :: rest)

def decimal (n : Nat) : List Char := Nat.toDigits 10 n

def hexadecimal (n : Nat) : List Char := Nat.toDigits 16 n

def integer (n : Int) : String :=
  if n < 0 then String.ofList ('-' :: decimal n.natAbs) else String.ofList (decimal n.natAbs)

end ToolDock.Digits
