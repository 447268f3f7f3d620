import GameFleet.Event
import GameFleet.Port.Registry
import GameFleet.Resource.Kind
import GameFleet.Store.Basic

/-!
# Programs of the control plane

What a controller does in one pass is a `Program`: it makes a `Request`, looks at the
answer, and goes on, until it is done. A program owns nothing. Objects, ports, the clock
and the source of names are with whoever serves its requests, one at a time, so other
programs can run between any two requests.

`Program.run` serves a program in any monad.
-/

namespace GameFleet

/-- What a program can ask for. -/
inductive Request where
  /-- An object as a cache has it. -/
  | cached (kind : Kind) (key : Key)
  /-- Objects of a namespace as a cache has them. -/
  | cachedList (kind : Kind) (ns : String) (selector : Selector)
  /-- An object as it is stored. -/
  | get (kind : Kind) (key : Key)
  | list (kind : Kind) (ns : String) (selector : Selector)
  | create (kind : Kind) (object : kind.Obj)
  | update (kind : Kind) (object : kind.Obj)
  | delete (kind : Kind) (key : Key)
  /-- A free host port. -/
  | allocate (owner : Key)
  | release (owner : Key) (ports : List Port)
  | now
  /-- A suffix for a generated name. -/
  | suffix (length : Nat)
  /-- So many different numbers below `total`. -/
  | pick (total count : Nat)
  | record (event : Event)
  /-- A pause before another attempt, after so many earlier failures. -/
  | pause (failures : Nat)

namespace Request

/-- What a request is answered with. -/
@[reducible] def Answer : Request → Type
  | .cached kind _ => Except StoreError (Option kind.Obj)
  | .cachedList kind _ _ => Except StoreError (List kind.Obj)
  | .get kind _ => Except StoreError (Option kind.Obj)
  | .list kind _ _ => Except StoreError (List kind.Obj)
  | .create kind _ => Except StoreError kind.Obj
  | .update kind _ => Except StoreError kind.Obj
  | .delete _ _ => Except StoreError Unit
  | .allocate _ => Except RegistryError Port
  | .release _ _ => Except RegistryError Nat
  | .now => Time.Instant
  | .suffix _ => String
  | .pick _ _ => List Nat
  | .record _ => Unit
  | .pause _ => Unit

end Request

inductive Program (α : Type) where
  | done (a : α)
  | call (request : Request) (next : request.Answer → Program α)

namespace Program

variable {α β : Type}

/-- Goes on with `f` when a program is done. -/
def bind (p : Program α) (f : α → Program β) : Program β :=
  match p with
  | .done a => f a
  | .call request next => .call request fun answer => (next answer).bind f

instance : Monad Program where
  pure := .done
  bind := bind

/-- The program that makes one request. -/
def ask (request : Request) : Program request.Answer := .call request .done

/-- Runs a program whose requests are served by `serve`. -/
def run {m : Type → Type} [Monad m] (serve : (request : Request) → m request.Answer) :
    Program α → m α
  | .done a => pure a
  | .call request next => do
    let answer ← serve request
    run serve (next answer)

theorem bind_done (p : Program α) : p.bind .done = p := by
  induction p with
  | done a => rfl
  | call request next ih => simp [bind, ih]

theorem bind_assoc {γ : Type} (p : Program α) (f : α → Program β) (g : β → Program γ) :
    (p.bind f).bind g = p.bind fun a => (f a).bind g := by
  induction p with
  | done a => rfl
  | call request next ih => simp [bind, ih]

instance : LawfulMonad Program :=
  LawfulMonad.mk' Program bind_done (fun _ _ => rfl) bind_assoc

end Program

end GameFleet
