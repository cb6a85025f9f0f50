import PhaseWire.Bytes
import PhaseWire.Fault

/-
# `Pipe` — a bounded stream of bytes, and two of them as a transport

A pipe holds bytes that were written and not yet read, up to its capacity.
A writer gets rid of as many bytes as there is room for; a reader takes
what there is.  When a pipe has ended, what it holds can still be read,
and nothing can be written.  A writer that got rid of everything still
asks whether it is on its way, which may take time or fail.

A session sees its transport as a `Duplex`: the pipe it reads and the pipe
it writes.  To give up the transport ends both.
-/

namespace PhaseWire

/-- Why a pipe carries nothing more. -/
inductive Ending
  /-- One of its ends was closed. -/
  | closed
  | failed (text : String)
  deriving DecidableEq, Repr

/-- Whether a pipe passes on what it has taken. -/
inductive Passage
  | clear
  /-- Not yet. -/
  | stalled
  | failed (text : String)
  deriving DecidableEq, Repr

/-- A stream of bytes in one direction. -/
structure Pipe where
  /-- The most bytes that it holds. -/
  capacity : Nat
  /-- What was written and not yet read. -/
  held : Bytes
  ending? : Option Ending
  passage : Passage
  deriving DecidableEq, Repr

/-- What a reader meets. -/
inductive Intake
  | bytes (taken : Bytes)
  /-- There is nothing now. -/
  | nothing
  /-- There will never be anything more. -/
  | ended
  | failed (fault : Fault)
  deriving DecidableEq, Repr

namespace Pipe

def new (capacity : Nat) : Pipe :=
  ⟨capacity, [], none, .clear⟩

/-- How many more bytes it can take. -/
def room (pipe : Pipe) : Nat :=
  pipe.capacity - pipe.held.length

/-- Takes as many bytes as there is room for, and says how many. -/
def write (pipe : Pipe) (bytes : Bytes) : Except Fault (Nat × Pipe) :=
  match pipe.ending? with
  | some .closed => .error (.transport "broken pipe")
  | some (.failed text) => .error (.transport text)
  | none =>
    let taken := bytes.take pipe.room
    .ok (taken.length, { pipe with held := pipe.held ++ taken })

/-- Whether all that was written is on its way. -/
def flush (pipe : Pipe) : Except Fault Bool :=
  match pipe.passage with
  | .clear => .ok true
  | .stalled => .ok false
  | .failed text => .error (.transport text)

def read (pipe : Pipe) (most : Nat) : Intake × Pipe :=
  if pipe.held.isEmpty then
    match pipe.ending? with
    | none => (.nothing, pipe)
    | some .closed => (.ended, pipe)
    | some (.failed text) => (.failed (.transport text), pipe)
  else
    let (taken, held) := pipe.held.splitAt most
    (.bytes taken, { pipe with held })

/-- Ends the pipe, unless it has ended. -/
def close (pipe : Pipe) : Pipe :=
  { pipe with ending? := some (pipe.ending?.getD .closed) }

end Pipe

/-- A transport as one of its ends sees it. -/
structure Duplex where
  incoming : Pipe
  outgoing : Pipe
  deriving DecidableEq, Repr

namespace Duplex

def new (capacity : Nat) : Duplex :=
  ⟨.new capacity, .new capacity⟩

/-- The transport as the other end sees it. -/
def flip (duplex : Duplex) : Duplex :=
  ⟨duplex.outgoing, duplex.incoming⟩

/-- Writes as much as there is room for, and says how much. -/
def write (duplex : Duplex) (bytes : Bytes) : Except Fault (Nat × Duplex) :=
  (duplex.outgoing.write bytes).map fun (count, outgoing) => (count, { duplex with outgoing })

/-- Whether all that was written is on its way. -/
def flush (duplex : Duplex) : Except Fault Bool :=
  duplex.outgoing.flush

/-- Writes as much as there is room for, and once that is all asks whether it is on its way.  Says
how much was written as well. -/
def push (duplex : Duplex) (bytes : Bytes) : Except Fault Bool × Nat × Duplex :=
  if bytes.isEmpty then (duplex.flush, 0, duplex)
  else match duplex.write bytes with
    | .error fault => (.error fault, 0, duplex)
    | .ok (count, duplex) =>
      (if count < bytes.length then .ok false else duplex.flush, count, duplex)

def read (duplex : Duplex) (most : Nat) : Intake × Duplex :=
  let (intake, incoming) := duplex.incoming.read most
  (intake, { duplex with incoming })

/-- Says that nothing more will be written. -/
def shutdown (duplex : Duplex) : Duplex :=
  { duplex with outgoing := duplex.outgoing.close }

def close (duplex : Duplex) : Duplex :=
  ⟨duplex.incoming.close, duplex.outgoing.close⟩

@[simp] theorem flip_flip (duplex : Duplex) : duplex.flip.flip = duplex := rfl

/-- To push fails to write, or writes and then has not written everything or asks whether it is on
its way. -/
theorem push_cases {duplex next : Duplex} {bytes : Bytes} {sent : Except Fault Bool} {count : Nat}
    (h : duplex.push bytes = (sent, count, next)) :
    (∃ fault, bytes.isEmpty = false ∧ duplex.write bytes = .error fault
        ∧ sent = .error fault ∧ count = 0 ∧ next = duplex)
      ∨ (bytes.isEmpty = true ∧ count = 0 ∧ next = duplex
          ∨ bytes.isEmpty = false ∧ duplex.write bytes = .ok (count, next))
        ∧ (sent = .ok false ∨ (bytes.drop count).isEmpty = true ∧ sent = next.flush) := by
  rw [push] at h
  cases hbytes : bytes.isEmpty with
  | true =>
      rw [hbytes, if_pos rfl] at h
      cases h
      exact .inr ⟨.inl ⟨rfl, rfl, rfl⟩, .inr ⟨hbytes, rfl⟩⟩
  | false =>
      rw [hbytes, if_neg Bool.false_ne_true] at h
      cases hwrite : duplex.write bytes with
      | error fault =>
          rw [hwrite] at h
          cases h
          exact .inl ⟨fault, rfl, rfl, rfl, rfl, rfl⟩
      | ok written =>
          obtain ⟨taken, after⟩ := written
          rw [hwrite] at h
          cases h
          refine .inr ⟨.inr ⟨rfl, rfl⟩, ?_⟩
          split
          · exact .inl rfl
          · rename_i hall
            exact .inr ⟨List.isEmpty_iff.mpr (List.drop_eq_nil_of_le (Nat.le_of_not_lt hall)), rfl⟩

end Duplex
end PhaseWire
