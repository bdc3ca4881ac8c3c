import ToolDock.Text.Continuing
import ToolDock.Text.Letter

namespace ToolDock.Identifier

def isFirst (c : Char) : Bool := c == '_' || Letter.isLetter c

def isNext (c : Char) : Bool := Letter.isLetter c || Continuing.isContinuing c

def isRaw (c : Char) : Bool := isNext c || c == '.' || c == '+' || c == '-'

end ToolDock.Identifier
