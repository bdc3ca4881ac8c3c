namespace ToolDock

structure Settings where
  /-- Windows evicted from a slot come back once the evicting window hides. -/
  stackEnabled : Bool
  /-- Docked windows at one anchor share a single remembered weight. -/
  unifiedWeights : Bool
  /-- Split windows at the left and right anchors sit side by side. -/
  ultrawideLayout : Bool
  checkInvariants : Bool
  requireOwningThread : Bool
deriving DecidableEq, Repr

def Settings.default : Settings := ⟨true, true, false, false, true⟩

end ToolDock
