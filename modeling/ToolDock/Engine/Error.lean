import ToolDock.Text.Quoted

namespace ToolDock

inductive OrderConflict where
  | usedBy (id : String)
  | sharedBy (ids : List String)
  | neverAssigned
deriving DecidableEq, Repr

def OrderConflict.message : OrderConflict → String
  | .usedBy id => "already used by " ++ id
  | .sharedBy ids => "shared by " ++ Quoted.quoteAll ids
  | .neverAssigned => "orders below -1 are never assigned"

inductive EngineError where
  | notRegistered (id : String)
  | alreadyRegistered (id : String)
  | conflictingOrder (id : String) (order : Int32) (reason : OrderConflict)
  | alreadyInitialized (registered : Nat)
deriving DecidableEq, Repr

def EngineError.message : EngineError → String
  | .notRegistered id => "tool window " ++ Quoted.quote id ++ " is not registered"
  | .alreadyRegistered id => "tool window " ++ Quoted.quote id ++ " is already registered"
  | .conflictingOrder id order reason =>
    "tool window " ++ Quoted.quote id ++ " cannot take order " ++ Digits.integer order.toInt ++ ": "
      ++ reason.message
  | .alreadyInitialized n =>
    "an initial layout cannot be applied after " ++ Digits.integer n ++ " windows were registered"

end ToolDock
