import ToolDock.Number.Digits
import ToolDock.Text.Combining
import ToolDock.Text.Printable

namespace ToolDock.Quoted

def isPlain (c : Char) : Bool := Printable.isPrintable c && !Combining.isCombining c

/-- The written form of one character; `apostrophes` tells whether those are escaped too. -/
def escape (apostrophes : Bool) (c : Char) : List Char :=
  if c = '"' then ['\\', '"']
  else if c = '\\' then ['\\', '\\']
  else if c = '\n' then ['\\', 'n']
  else if c = '\r' then ['\\', 'r']
  else if c = '\t' then ['\\', 't']
  else if c = '\x00' then ['\\', '0']
  else if c = '\'' ∧ apostrophes then ['\\', '\'']
  else if isPlain c then [c]
  else '\\' :: 'u' :: '{' :: Digits.hexadecimal c.toNat ++ ['}']

def encode (apostrophes : Bool) (s : String) : List Char :=
  '"' :: s.toList.flatMap (escape apostrophes) ++ ['"']

def quote (s : String) : String := String.ofList (encode false s)

def quoteAll (ss : List String) : String := "[" ++ ", ".intercalate (ss.map quote) ++ "]"

end ToolDock.Quoted
