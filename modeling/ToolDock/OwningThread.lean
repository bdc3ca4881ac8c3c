namespace ToolDock

structure OwningThread where
  thread : Nat
  enforced : Bool
deriving DecidableEq, Repr

namespace OwningThread

def isOwner (o : OwningThread) (current : Nat) : Bool := current == o.thread

def permits (o : OwningThread) (current : Nat) : Bool := !o.enforced || o.isOwner current

end OwningThread

end ToolDock
