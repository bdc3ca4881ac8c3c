import ToolDock.Notation.Value
import ToolDock.Text.Quoted

namespace ToolDock.Notation.Value

def lines (opening closing indent : String) (entries : List String) : String :=
  match entries with
  | [] => opening ++ closing
  | _ =>
    opening ++ "\n" ++ String.join (entries.map fun e ↦ indent ++ "    " ++ e ++ ",\n") ++ indent
      ++ closing

mutual

def write (indent : String) : Value → String
  | ident raw name => if raw then "r#" ++ name else name
  | number s => s
  | text s => String.ofList (Quoted.encode true s)
  | character c => String.ofList ('\'' :: Quoted.escape true c ++ ['\''])
  | bytes => "b\"\""
  | unit => "()"
  | list items => lines "[" "]" indent (writeItems (indent ++ "    ") items)
  | map entries => lines "\x7b" "\x7d" indent (writeEntries (indent ++ "    ") entries)
  | record name fields =>
    lines (name.getD "" ++ "(") ")" indent (writeFields (indent ++ "    ") fields)
  | tuple name items => name.getD "" ++ "(" ++ ", ".intercalate (writeItems indent items) ++ ")"
  | option _ v => "Some(" ++ write indent v ++ ")"

def writeItems (indent : String) : List Value → List String
  | [] => []
  | v :: rest => write indent v :: writeItems indent rest

def writeEntries (indent : String) : List (Value × Value) → List String
  | [] => []
  | (key, v) :: rest =>
    (write indent key ++ ": " ++ write indent v) :: writeEntries indent rest

def writeFields (indent : String) : List (String × Value) → List String
  | [] => []
  | (name, v) :: rest => (name ++ ": " ++ write indent v) :: writeFields indent rest

end

end ToolDock.Notation.Value
