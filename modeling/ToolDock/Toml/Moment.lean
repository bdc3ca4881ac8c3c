import ToolDock.Number.Digits

namespace ToolDock.Toml

structure Date where
  year : Nat
  month : Nat
  day : Nat
deriving DecidableEq, Repr

structure Time where
  hour : Nat
  minute : Nat
  second : Nat
deriving DecidableEq, Repr

structure Moment where
  date : Option Date
  time : Option Time
  /-- Minutes that the clock is ahead of universal time. -/
  offset : Option Int
deriving DecidableEq, Repr

def isLeapYear (year : Nat) : Bool := year % 4 == 0 && (year % 100 != 0 || year % 400 == 0)

def daysInMonth (year month : Nat) : Nat :=
  if month = 2 then if isLeapYear year then 29 else 28
  else if month = 4 ∨ month = 6 ∨ month = 9 ∨ month = 11 then 30
  else 31

namespace Moment

def readNumber? (count : Nat) (cs : List Char) : Option (Nat × List Char) :=
  let digits := cs.takeWhile Char.isDigit
  if digits.length = count then
    (Digits.read? 10 digits).map fun n ↦ (n, cs.dropWhile Char.isDigit)
  else none

def after? (mark : Char) : List Char → Option (List Char)
  | c :: cs => if c = mark then some cs else none
  | [] => none

def readDate? (cs : List Char) : Option (Date × List Char) := do
  let (year, cs) ← readNumber? 4 cs
  let (month, cs) ← readNumber? 2 (← after? '-' cs)
  let (day, cs) ← readNumber? 2 (← after? '-' cs)
  if 1 ≤ month ∧ month ≤ 12 ∧ 1 ≤ day ∧ day ≤ daysInMonth year month then
    some (⟨year, month, day⟩, cs)
  else none

/-- Seconds may be left out, and may have a fraction. A minute can have a leap second. -/
def readSeconds? (cs : List Char) : Option (Nat × List Char) :=
  match cs with
  | ':' :: cs => do
    let (second, cs) ← readNumber? 2 cs
    if 60 < second then none
    match cs with
    | '.' :: cs =>
      if (cs.takeWhile Char.isDigit).isEmpty then none
      else some (second, cs.dropWhile Char.isDigit)
    | cs => some (second, cs)
  | cs => some (0, cs)

def readTime? (cs : List Char) : Option (Time × List Char) := do
  let (hour, cs) ← readNumber? 2 cs
  let (minute, cs) ← readNumber? 2 (← after? ':' cs)
  let (second, cs) ← readSeconds? cs
  if hour ≤ 23 ∧ minute ≤ 59 then some (⟨hour, minute, second⟩, cs) else none

def readOffset? : List Char → Option (Option Int)
  | [] => some none
  | ['Z'] | ['z'] => some (some 0)
  | sign :: cs => do
    let (hour, cs) ← readNumber? 2 cs
    let (minute, cs) ← readNumber? 2 (← after? ':' cs)
    if ¬ cs.isEmpty ∨ 23 < hour ∨ 59 < minute then none
    else if sign = '+' then some (some (hour * 60 + minute : Nat))
    else if sign = '-' then some (some (-(hour * 60 + minute : Nat)))
    else none

def isTimeMark (c : Char) : Bool := c == 'T' || c == 't' || c == ' '

def read? (cs : List Char) : Option Moment :=
  match readDate? cs with
  | some (date, []) => some ⟨some date, none, none⟩
  | some (date, c :: cs) => do
    if !isTimeMark c then none
    let (time, cs) ← readTime? cs
    return ⟨some date, some time, ← readOffset? cs⟩
  | none =>
    match readTime? cs with
    | some (time, []) => some ⟨none, some time, none⟩
    | _ => none

end Moment

end ToolDock.Toml
