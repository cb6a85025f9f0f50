import PhaseWire.Compression.Run

/-
# `Lz4` — blocks of literals and copies

A block is a list of sequences: some literals, then a copy of at least
four bytes from up to 65535 bytes back.  The last sequence has literals
only.  A token byte holds both lengths in four bits each; fifteen means
that more bytes follow, up to one that is not 255.  The block carries no
size, so an output that would exceed the limit is malformed.
-/

namespace PhaseWire.Compression.Lz4

/-- The least length of a copy. -/
def minCopy : Nat := 4

/-! ## Decoding -/

/-- Adds bytes to a length up to the first that is not 255. -/
def extend (length : Nat) : Bytes → Option (Nat × Bytes)
  | [] => none
  | byte :: rest =>
    if byte = 255 then extend (length + 255) rest else some (length + byte.toNat, rest)

/-- The length that a half token starts. -/
def takeLength (half : Nat) (input : Bytes) : Option (Nat × Bytes) :=
  if half = 15 then extend 15 input else some (half, input)

/-- The decoder between two sequences. -/
structure State where
  input : Bytes
  out : Array UInt8

/-- Reads the copy behind the literals of a sequence. -/
def copyStep (limit : Nat) (half : Nat) (input : Bytes) (out : Array UInt8) : Step State :=
  match input with
  | low :: high :: rest =>
    let distance := low.toNat + 256 * high.toNat
    match takeLength half rest with
    | none => .failed
    | some (length, rest) =>
      let length := length + minCopy
      if distance = 0 ∨ out.size < distance ∨ limit < out.size + length then .failed
      else .next ⟨rest, copyBack out distance length⟩
  | _ => .failed

/-- Reads a sequence. -/
def step (limit : Nat) : State → Step State
  | ⟨[], _⟩ => .failed
  | ⟨token :: input, out⟩ =>
    match takeLength (token.toNat / 16) input with
    | none => .failed
    | some (length, input) =>
      if input.length < length ∨ limit < out.size + length then .failed
      else
        let out := appendBytes out (input.take length)
        match input.drop length with
        | [] => .finished ⟨[], out⟩
        | rest => copyStep limit (token.toNat % 16) rest out

/-- The data of a block, if it has at most `limit` bytes. -/
def decompress (data : Bytes) (limit : Nat) : Option Bytes :=
  match run (step limit) (fun _ => false) (data.length + 1) ⟨data, #[]⟩ with
  | .finished state => some state.out.toList
  | _ => none

end PhaseWire.Compression.Lz4
