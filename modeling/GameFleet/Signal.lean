/-!
# Signals

A `Signal` is a flag that one side sets and others wait for. The side that sets it may
go away, after which the flag stays as it is.
-/

namespace GameFleet

/-- A flag that one side sets and another waits for. -/
structure Signal where
  raised : Bool
  /-- The side that sets it is there. -/
  held : Bool
  deriving DecidableEq, Repr

namespace Signal

def new (raised : Bool) : Signal := ⟨raised, true⟩

/-- Sets the flag, if the side that does is there. -/
def set (s : Signal) (raised : Bool) : Signal := if s.held then { s with raised } else s

/-- Gives up the side that sets the flag. -/
def drop (s : Signal) : Signal := { s with held := false }

/-- To wait for shutdown ends when it is signalled or never will be. -/
def isShutdown (s : Signal) : Bool := s.raised || !s.held

end Signal

end GameFleet
