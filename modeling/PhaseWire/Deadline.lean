import PhaseWire.Fault

/-
# `Deadline` — work under a time limit

Times are in milliseconds.  Work that is ready at the very moment at which
the limit passes is still in time.
-/

namespace PhaseWire.Deadline

/-- Whether work that takes `work` is ready within `limit`. -/
def meets (limit work : Nat) : Bool :=
  work ≤ limit

def within {α : Type} (limit work : Nat) (outcome : Except Fault α) : Except Fault α :=
  if meets limit work then outcome else .error .timeout

end PhaseWire.Deadline
