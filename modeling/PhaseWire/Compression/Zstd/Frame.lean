import PhaseWire.Compression.Zstd.Stream

/-
# Reading Zstandard data

Frames may follow one another.  The data comes in portions and is read in
rounds, each with room for a piece of output.  A round first asks for what
is left from the rounds before, and ends with the first bytes that it
gets; reading stops after the round that passes the limit, so what stands
behind is not looked at.
-/

namespace PhaseWire.Compression.Zstd

/-- The largest piece of output. -/
def pieceSize : Nat := 8192

def portionSize : Nat := blockLimit + 3

/-- A reader between two calls for output. -/
structure State where
  stage : Stage
  buffers : Buffers
  earlyBuffers : EarlyBuffers
  shelf : Array UInt8
  /-- What is left of the portion at hand. -/
  portion : Bytes
  later : List Bytes
  out : Array UInt8
  /-- Whether the round has just begun. -/
  fresh : Bool
  /-- Whether the data so far ends with a frame. -/
  complete : Bool

namespace State

def start (data : Bytes) : State :=
  ⟨.opening [], .empty, .empty, #[], [], data.pieces portionSize, #[], true, false⟩

/-- Works on some input until a frame ends, or for as long as there is input and room. -/
def call (fuel : Nat) (input : Bytes) (complete : Bool) : State → Step State
  | ⟨stage, buffers, earlyBuffers, shelf, portion, later, out, fresh, _⟩ =>
    let size := out.size
    let after := fun (complete : Bool) (work : Work) =>
      match work with
      | ⟨stage, buffers, earlyBuffers, shelf, input, out, _⟩ =>
        let gained := decide (size < out.size)
        let portion := if fresh then portion else input
        ⟨stage, buffers, earlyBuffers, shelf, portion, later, out, gained, complete⟩
    let work := ⟨stage, buffers, earlyBuffers, shelf, input, out, pieceSize⟩
    match run Work.step (fun _ => false) fuel work with
    | .finished work => .next (after true work)
    | .starved work => .next (after complete work)
    | _ => .failed

/-- A call for output: without input at the start of a round, and then with the portion at hand. -/
def step (fuel : Nat) (state : State) : Step State :=
  if state.fresh then call fuel [] state.complete state
  else match state.portion, state.later with
    | [], [] => if state.complete then .finished state else .failed
    | [], portion :: later => .next { state with portion, later }
    | portion, _ => call fuel portion false state

end State

/-- The data of a sequence of frames, up to the end of the first round that passes `limit`.  A step
of work takes a byte, ends a frame or goes on to the next stage; a byte gives no more than a few
pieces of output. -/
def decompress (data : Bytes) (limit : Nat) : Option Bytes :=
  let fuel := 64 * (data.length + 2)
  match run (State.step fuel) (fun state => limit < state.out.size) fuel (.start data) with
  | .finished state => some state.out.toList
  | .paused state => some state.out.toList
  | _ => none

end PhaseWire.Compression.Zstd
