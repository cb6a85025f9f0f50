import PhaseWire.Compression.Zstd.Literals

/-
# `Store` — where a frame's content is kept for copies

The content of a frame goes into a buffer that is written lap after lap.
A copy reaches back over the present lap and, behind its start, over the
lap before.  Bytes are moved in strides, so a copy may write a few bytes
more than it was asked for: they will be overwritten by what follows, but
until then they have taken the place of what the lap before had there.
-/

namespace PhaseWire.Compression.Zstd

/-! ## Strides -/

/-- The bytes that sixteen and then 32 at a time write, to write `count`. -/
def wideReach (count : Nat) : Nat :=
  if count ≤ 16 then 16 else 16 + 32 * ((count + 15) / 32)

/-- The bytes that eight at a time write, to write `count`. -/
def narrowReach (count : Nat) : Nat :=
  8 * max 1 ((count + 7) / 8)

/-- The bytes that strides from a place write, to write `count`, if they may begin only where a
whole stride is left before `bound`; the rest is written one by one. -/
def guardedReach (reach : Nat → Nat) (bound place count : Nat) : Nat :=
  if place + count + stride ≤ bound then reach count
  else if place + stride ≤ bound then max (reach (bound - stride - place)) count
  else count

/-! ## The buffer -/

structure Store where
  /-- The bytes as far as any lap has written. -/
  cells : Array UInt8
  /-- Where the next byte of the lap goes. -/
  place : Nat
  /-- Where the lap before ended. -/
  older : Nat

namespace Store

def empty : Store :=
  ⟨#[], 0, 0⟩

/-- Writes a byte over an older one, or as a new last one. -/
def put (cells : Array UInt8) (place : Nat) (byte : UInt8) : Array UInt8 :=
  if place < cells.size then cells.setIfInBounds place byte else cells.push byte

def putAll (source : Array UInt8) : (count start place : Nat) → Array UInt8 → Array UInt8
  | 0, _, _, cells => cells
  | count + 1, start, place, cells =>
    putAll source count (start + 1) (place + 1) (put cells place (source.getD start 0))

/-- Writes the same byte `count` times. -/
def putRepeated (byte : UInt8) : (count place : Nat) → Array UInt8 → Array UInt8
  | 0, _, cells => cells
  | count + 1, place, cells => putRepeated byte count (place + 1) (put cells place byte)

/-- Writes the bytes that stand `distance` places before, one after the other. -/
def repeatBack (distance : Nat) : (count place : Nat) → Array UInt8 → Array UInt8
  | 0, _, cells => cells
  | count + 1, place, cells =>
    repeatBack distance count (place + 1) (put cells place (cells.getD (place - distance) 0))

/-- Appends the first bytes of a source. -/
def append (source : Array UInt8) (count : Nat) : Store → Store
  | ⟨cells, place, older⟩ => ⟨putAll source count 0 place cells, place + count, older⟩

def appendRepeated (byte : UInt8) (count : Nat) : Store → Store
  | ⟨cells, place, older⟩ => ⟨putRepeated byte count place cells, place + count, older⟩

/-- The next lap. -/
def rewind : Store → Store
  | ⟨cells, place, _⟩ => ⟨cells, 0, place⟩

/-! ## The two halves of a sequence -/

/-- How far the literals of a sequence are written. -/
def literalReach (tight : Bool) (bound place count : Nat) : Nat :=
  if tight then if count < 8 then count else guardedReach wideReach bound place count
  else if count ≤ 16 then 16
  else 16 + wideReach (count - 16)

/-- Appends literals of a source from `start` on.  Near `bound`, where it is tight, none of them are
written beyond it. -/
def takeLiterals (source : Array UInt8) (tight : Bool) (bound start count : Nat) : Store → Store
  | ⟨cells, place, older⟩ =>
    ⟨putAll source (literalReach tight bound place count) start place cells, place + count, older⟩

/-- How far a copy is written. -/
def copyReach (tight : Bool) (bound place distance count : Nat) : Nat :=
  if tight then
    if count < 8 then count
    else
      let reach := if distance < 16 then narrowReach else wideReach
      8 + guardedReach reach bound (place + 8) (count - 8)
  else if 16 ≤ distance then wideReach count
  else if count ≤ 8 then 8
  else 8 + narrowReach (count - 8)

/-- Appends a copy of what stands in the present lap. -/
def copyNear (tight : Bool) (bound distance count : Nat) : Store → Store
  | ⟨cells, place, older⟩ =>
    ⟨repeatBack distance (copyReach tight bound place distance count) place cells, place + count,
      older⟩

/-- Appends a copy that begins in the lap before, and goes on at the start of the present lap. -/
def copyFar (tight : Bool) (bound distance count : Nat) : Store → Store
  | ⟨cells, place, older⟩ =>
    let start := older + place - distance
    let taken := min count (older - start)
    let piece := cells.extract start (start + taken)
    let store := ⟨putAll piece taken 0 place cells, place + taken, older⟩
    if taken = count then store else store.copyNear tight bound distance (count - taken)

/-- Appends a copy, if anything stands that far back. -/
def copy? (tight : Bool) (bound distance count : Nat) (store : Store) : Option Store :=
  if distance ≤ store.place then some (store.copyNear tight bound distance count)
  else if distance ≤ store.place + store.older then some (store.copyFar tight bound distance count)
  else none

end Store
end PhaseWire.Compression.Zstd
