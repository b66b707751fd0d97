/-!
Plans: requests of some kind, one after the other, each depending on the answers before it, with a
value at the end. A plan is data, so that what it asks for can be carried out and also be accounted
for. It ends after finitely many requests.
-/

set_option autoImplicit false

namespace Gll

/-- Requests of a kind `ε`, with a value at the end. -/
inductive Plan (ε : Type → Type 1) (α : Type) : Type 1 where
  | done (value : α)
  | ask {β : Type} (request : ε β) (next : β → Plan ε α)

namespace Plan

variable {ε : Type → Type 1} {α β κ ω γ : Type}

/-- The plan that makes one request. -/
def request (request : ε α) : Plan ε α := ask request done

/-- One plan after the other. -/
def andThen : Plan ε α → (α → Plan ε β) → Plan ε β
  | done value, next => next value
  | ask request rest, next => ask request fun answer => andThen (rest answer) next

instance : Monad (Plan ε) where
  pure := done
  bind := andThen

/-- Does one thing after the other for the members of a list. -/
def forEach (items : List β) (body : β → Plan ε Unit) : Plan ε Unit :=
  match items with
  | [] => done ()
  | item :: rest => andThen (body item) fun _ => forEach rest body

/-- Carries out a plan, given how each request is carried out. When one breaks off, what was done up
to then stays done. -/
def run (carry : {β : Type} → ε β → EStateM ω κ β) : Plan ε α → EStateM ω κ α
  | done value, world => .ok value world
  | ask request next, world =>
    match carry request world with
    | .ok answer world => run carry (next answer) world
    | .error fault world => .error fault world

/-- What is noted of the requests of a plan while it is carried out. -/
def account (carry : {β : Type} → ε β → EStateM ω κ β) (note : {β : Type} → ε β → κ → List γ) :
    Plan ε α → κ → List γ
  | done _, _ => []
  | ask request next, world =>
    note request world ++
      match carry request world with
      | .ok answer world => account carry note (next answer) world
      | .error _ _ => []

end Plan

end Gll
