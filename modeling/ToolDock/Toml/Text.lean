import ToolDock.Number.Digits

/-!
The four written forms of texts: basic ones with escapes and literal ones without, on one line
between single quotation marks or on several between triple ones. `write` chooses the form that
needs no escapes, the shortest marks first.
-/

namespace ToolDock.Toml.Text

def isControl (c : Char) : Bool := (c.toNat < 0x20 && c != '\t') || c.toNat == 0x7f

def readCodePoint? (count : Nat) (cs : List Char) : Option (Char × List Char) := do
  let digits := cs.take count
  if digits.length < count then none
  let n ← Digits.read? 16 digits
  if n.isValidChar then some (Char.ofNat n, cs.drop count) else none

def readEscape? : List Char → Option (Char × List Char)
  | 'b' :: cs => some ('\x08', cs)
  | 't' :: cs => some ('\t', cs)
  | 'n' :: cs => some ('\n', cs)
  | 'f' :: cs => some ('\x0c', cs)
  | 'r' :: cs => some ('\r', cs)
  | 'e' :: cs => some ('\x1b', cs)
  | '"' :: cs => some ('"', cs)
  | '\\' :: cs => some ('\\', cs)
  | 'x' :: cs => readCodePoint? 2 cs
  | 'u' :: cs => readCodePoint? 4 cs
  | 'U' :: cs => readCodePoint? 8 cs
  | _ => none

def readBasic? : Nat → List Char → Option (List Char × List Char)
  | _ + 1, '"' :: cs => some ([], cs)
  | fuel + 1, '\\' :: cs => do
    let (c, cs) ← readEscape? cs
    let (s, rest) ← readBasic? fuel cs
    return (c :: s, rest)
  | fuel + 1, c :: cs =>
    if isControl c then none
    else (readBasic? fuel cs).map fun (s, rest) ↦ (c :: s, rest)
  | _, _ => none

def readLiteral? : List Char → Option (List Char × List Char)
  | [] => none
  | c :: cs =>
    if c = '\'' then some ([], cs)
    else if isControl c then none
    else (readLiteral? cs).map fun (s, rest) ↦ (c :: s, rest)

def afterNewline? : List Char → Option (List Char)
  | '\n' :: cs => some cs
  | '\r' :: '\n' :: cs => some cs
  | _ => none

def skipSpace : List Char → List Char
  | ' ' :: cs | '\t' :: cs | '\n' :: cs | '\r' :: '\n' :: cs => skipSpace cs
  | cs => cs

/-- What follows a backslash at the end of a line: the text goes on with the next character that is
no blank. -/
def afterContinuation? (cs : List Char) : Option (List Char) :=
  (afterNewline? (cs.dropWhile fun c ↦ c == ' ' || c == '\t')).map skipSpace

/-- The end of a text on several lines, at a run of marks: up to two of them belong to the text. -/
def readClosing? (mark : Char) (cs : List Char) : Option (List Char × List Char) :=
  let run := (cs.takeWhile (· == mark)).length
  if run < 3 then none
  else
    let inside := min (run - 3) 2
    some (List.replicate inside mark, cs.drop (3 + inside))

def readLines? (mark : Char) : Nat → List Char → Option (List Char × List Char)
  | 0, _ => none
  | fuel + 1, cs =>
    match readClosing? mark cs with
    | some closed => some closed
    | none =>
      match cs with
      | '\r' :: '\n' :: cs =>
        (readLines? mark fuel cs).map fun (s, rest) ↦ ('\r' :: '\n' :: s, rest)
      | c :: cs =>
        if c = '\\' ∧ mark = '"' then
          match afterContinuation? cs with
          | some cs => readLines? mark fuel cs
          | none => do
            let (c, cs) ← readEscape? cs
            let (s, rest) ← readLines? mark fuel cs
            return (c :: s, rest)
        else if isControl c && c != '\n' then none
        else (readLines? mark fuel cs).map fun (s, rest) ↦ (c :: s, rest)
      | [] => none

def skipFirstNewline (cs : List Char) : List Char := (afterNewline? cs).getD cs

def readLine? : List Char → Option (String × List Char)
  | '"' :: cs => do
    let (s, rest) ← readBasic? (cs.length + 1) cs
    return (String.ofList s, rest)
  | '\'' :: cs => do
    let (s, rest) ← readLiteral? cs
    return (String.ofList s, rest)
  | _ => none

def read? : List Char → Option (String × List Char)
  | '"' :: '"' :: '"' :: cs => do
    let (s, rest) ← readLines? '"' (cs.length + 1) (skipFirstNewline cs)
    return (String.ofList s, rest)
  | '\'' :: '\'' :: '\'' :: cs => do
    let (s, rest) ← readLines? '\'' (cs.length + 1) (skipFirstNewline cs)
    return (String.ofList s, rest)
  | cs => readLine? cs

def longestRun (mark : Char) (run : Nat) : List Char → Nat
  | [] => run
  | c :: cs =>
    if c = mark then max run (longestRun mark (run + 1) cs) else max run (longestRun mark 0 cs)

def codeText (n : Nat) : List Char :=
  let digits := (Digits.hexadecimal n).map Char.toUpper
  List.replicate (4 - digits.length) '0' ++ digits

/-- The escape of a character in a basic text, if it needs one; line ends need none on several
lines. -/
def escape? (severalLines : Bool) (c : Char) : Option (List Char) :=
  match c with
  | '\x08' => some ['\\', 'b']
  | '\t' => some ['\\', 't']
  | '\n' => if severalLines then none else some ['\\', 'n']
  | '\x0c' => some ['\\', 'f']
  | '\r' => some ['\\', 'r']
  | '\\' => some ['\\', '\\']
  | c => if isControl c then some ('\\' :: 'u' :: codeText c.toNat) else none

/-- The content of a basic text, `run` double marks having gone before. On several lines two marks
may stand side by side. -/
def encodeBasic (severalLines : Bool) (run : Nat) : List Char → List Char
  | [] => []
  | c :: cs =>
    if c = '"' then
      if run < (if severalLines then 2 else 0) then c :: encodeBasic severalLines (run + 1) cs
      else '\\' :: c :: encodeBasic severalLines 0 cs
    else (escape? severalLines c).getD [c] ++ encodeBasic severalLines 0 cs

structure Traits where
  hasControls : Bool
  hasBackslash : Bool
  hasNewline : Bool
  singleRun : Nat
  doubleRun : Nat
deriving DecidableEq, Repr

def traits (cs : List Char) : Traits where
  hasControls := cs.any fun c ↦ isControl c && c != '\n'
  hasBackslash := cs.contains '\\'
  hasNewline := cs.contains '\n'
  singleRun := longestRun '\'' 0 cs
  doubleRun := longestRun '"' 0 cs

inductive Form where
  | basic
  | literal
  | basicLines
  | literalLines
deriving DecidableEq, Repr

/-- The first form that writes the content plainly; with escapes if there is none. -/
def Traits.form (t : Traits) : Form :=
  if !t.hasControls && !t.hasBackslash && t.doubleRun == 0 && !t.hasNewline then .basic
  else if !t.hasControls && t.singleRun == 0 && !t.hasNewline then .literal
  else if !t.hasControls && !t.hasBackslash && t.doubleRun ≤ 2 then .basicLines
  else if !t.hasControls && t.singleRun ≤ 2 then .literalLines
  else if t.hasNewline then .basicLines
  else .basic

def writeAs (form : Form) (hasNewline : Bool) (cs : List Char) : List Char :=
  let first := if hasNewline then ['\n'] else []
  match form with
  | .basic => ['"'] ++ encodeBasic false 0 cs ++ ['"']
  | .literal => ['\''] ++ cs ++ ['\'']
  | .basicLines => ['"', '"', '"'] ++ first ++ encodeBasic true 0 cs ++ ['"', '"', '"']
  | .literalLines => ['\'', '\'', '\''] ++ first ++ cs ++ ['\'', '\'', '\'']

def write (s : String) : String :=
  let t := traits s.toList
  String.ofList (writeAs t.form t.hasNewline s.toList)

end ToolDock.Toml.Text
