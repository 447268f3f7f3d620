import GameFleet.Actor

/-!
# A counting actor

`Counter.behavior` is an actor that keeps a total and writes a line about everything it
does. It answers questions for the total under the ticket that each comes with.
-/

namespace GameFleet

structure Counter where
  total : Int
  /-- What it did, the oldest first. -/
  trace : List String
  /-- The answers by their tickets, the latest first. -/
  replies : List (Nat × Int)

namespace Counter

def zero : Counter := ⟨0, [], []⟩

/-- What the actor is sent. -/
inductive Order where
  | add (n : Int)
  | fail (text : String)
  | fatal (text : String)
  | quit
  | get (ticket : Nat)
  deriving DecidableEq, Repr

def say (c : Counter) (line : String) : Counter := { c with trace := c.trace ++ [line] }

/-- A number with its sign if it is negative. -/
def signed (n : Int) : String :=
  if n < 0 then "-" ++ toString n.natAbs else toString n.natAbs

def handle (order : Order) (c : Counter) : Counter × Verdict :=
  match order with
  | .add n =>
    let total := c.total + n
    (say { c with total } ("add " ++ signed n ++ " -> " ++ signed total), .handled)
  | .fail text => (c.say "fail", .failed text)
  | .fatal text => (c.say "fatal", .fatal text)
  | .quit => (c.say "quit", .quit)
  | .get ticket => ({ c with replies := (ticket, c.total) :: c.replies }, .handled)

def behavior : Behavior Counter Order := ⟨handle, fun c => c.say ("stopped " ++ signed c.total)⟩

end Counter

end GameFleet
