/-!
# Loops

A loop goes from one state to the next until there is no next one. It comes with a count of what is left to
do, which every turn makes smaller, so it ends whatever it starts from. `Loop.fold` gathers something from
every state on the way, the first and the last one included.
-/

set_option autoImplicit false

namespace LogHygiene

/-- A loop over states of a type. -/
structure Loop (State : Type) where
  /-- the state after a turn, if there is one -/
  next? : State → Option State
  /-- how much is left to do -/
  remaining : State → Nat
  shrinks : ∀ {s t : State}, next? s = some t → remaining t < remaining s

namespace Loop

variable {State α : Type}

/-- Gather something from the state at hand and from all that come after it. -/
def fold (l : Loop State) (gather : α → State → α) (soFar : α) (s : State) : α :=
  match _h : l.next? s with
  | none => gather soFar s
  | some t => l.fold gather (gather soFar s) t
termination_by l.remaining s
decreasing_by exact l.shrinks _h

/-- The state in which the loop ends. -/
def finish (l : Loop State) (s : State) : State := l.fold (fun _ t => t) s s

end Loop

end LogHygiene
