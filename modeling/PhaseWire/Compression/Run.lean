import PhaseWire.Bytes

/-
# `Step` — decoders as machines that append to an output

Every decompressor is a machine that, step by step, appends bytes to its
output until it is finished, has nothing to go on with or finds its input
malformed.  `run` drives a machine and pauses early once the output is as
long as the caller cares for; since a step only appends, the output then
is the front of what the whole run would give.
-/

namespace PhaseWire.Compression

/-- Why reading cannot go on. -/
inductive Stop
  /-- The input ends too early. -/
  | starved
  /-- The input is malformed. -/
  | corrupt
  deriving DecidableEq, Repr

/-- What one step of a machine leads to. -/
inductive Step (σ : Type)
  | next (state : σ)
  | finished (state : σ)
  /-- There is nothing to go on with: more input is needed, or more room. -/
  | starved (state : σ)
  | failed

/-- Where a run of a machine ends. -/
inductive Halt (σ : Type)
  /-- The state is good enough. -/
  | paused (state : σ)
  | finished (state : σ)
  | starved (state : σ)
  | failed

/-- Drives a machine for at most `fuel` steps, or until its state is good enough. -/
def run {σ : Type} (step : σ → Step σ) (enough : σ → Bool) : (fuel : Nat) → σ → Halt σ
  | 0, _ => .failed
  | fuel + 1, state =>
    if enough state then .paused state
    else match step state with
      | .next state => run step enough fuel state
      | .finished state => .finished state
      | .starved state => .starved state
      | .failed => .failed

/-- A value that is there unless the input ends too early. -/
def need {α : Type} : Option α → Except Stop α
  | some value => .ok value
  | none => .error .starved

/-- A value that is there unless the input is malformed. -/
def demand {α : Type} : Option α → Except Stop α
  | some value => .ok value
  | none => .error .corrupt

/-- The byte that stands `distance` places before the end; before the first byte there are zeros. -/
def byteBack (out : Array UInt8) (distance : Nat) : UInt8 :=
  if out.size < distance then 0 else out.getD (out.size - distance) 0

/-- Appends `count` bytes, each the one that stands `distance` places before its own. -/
def copyBack (out : Array UInt8) (distance : Nat) : (count : Nat) → Array UInt8
  | 0 => out
  | count + 1 => copyBack (out.push (byteBack out distance)) distance count

def appendBytes (out : Array UInt8) (bytes : Bytes) : Array UInt8 :=
  bytes.foldl Array.push out

end PhaseWire.Compression
