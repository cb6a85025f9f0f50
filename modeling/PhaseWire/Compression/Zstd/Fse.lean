import PhaseWire.Compression.Zstd.Bits

/-
# `Fse` — finite-state entropy tables

A table has a power of two of states.  Each state names a symbol, how many
bits to read and where those bits are added to reach the next state.  A
symbol with a share of `n` states is spread over the table by a fixed
stride; a share written as minus one means a single state at the table's
end.
-/

namespace PhaseWire.Compression.Zstd

/-! ## Number fields -/

/-- A reader of the numbers that describe a distribution: the next bits are those of the four bytes
at `place`, from `shift` up. -/
structure Fields where
  /-- At least eight bytes. -/
  bytes : Array UInt8
  /-- At most four bytes before the end. -/
  place : Nat
  shift : Nat
  deriving Repr

namespace Fields

/-- The bits in sight, at most 32. -/
def view (fields : Fields) : Nat :=
  let byte := fun i => (fields.bytes.getD (fields.place + i) 0).toNat
  (byte 0 + 256 * (byte 1 + 256 * (byte 2 + 256 * byte 3))) >>> fields.shift

/-- Moves up over the bits taken, as far as four bytes are left.  Bits taken beyond the last four
bytes wrap. -/
def move (fields : Fields) : Fields :=
  let whole := fields.shift / 8
  let last := fields.bytes.size - 4
  if fields.place + 3 ≤ last ∨ fields.place + whole ≤ last then
    { fields with place := fields.place + whole, shift := fields.shift % 8 }
  else { fields with place := last, shift := (fields.shift - 8 * (last - fields.place)) % 32 }

/-- Moves up over three bytes, as far as four bytes are left. -/
def moveThree (fields : Fields) : Fields :=
  let last := fields.bytes.size - 4
  if fields.place + 3 ≤ last then { fields with place := fields.place + 3 }
  else
    { fields with place := last, shift := (fields.shift + 8 * (fields.place + 3 - last)) % 32 }

/-- Takes bits without moving. -/
def skip (fields : Fields) (count : Nat) : Fields :=
  { fields with shift := fields.shift + count }

/-- How many pairs of ones stand at the bottom of a number. -/
def threes : (fuel value : Nat) → Nat
  | 0, _ => 0
  | fuel + 1, value => if value % 4 = 3 then threes fuel (value / 4) + 1 else 0

/-- How many symbols without a share follow one without a share: two bits each time, where three
means to go on. -/
def takeZeros : (fuel : Nat) → Fields → Nat × Fields
  | 0, fields => (0, fields)
  | fuel + 1, fields =>
    let count := threes 16 fields.view
    if 12 ≤ count then
      let (more, fields) := takeZeros fuel fields.moveThree
      (36 + more, fields)
    else
      let rest := (fields.view >>> (2 * count)) % 4
      (3 * count + rest, fields.skip (2 * count + 2))

/-- The next number up to `remaining`; the smallest numbers save a bit. -/
def takeNumber (remaining : Nat) (fields : Fields) : Nat × Fields :=
  let width := remaining.log2
  let spare := 1 <<< (width + 1) - 1 - remaining
  let low := fields.view % 1 <<< width
  if low < spare then (low, fields.skip width)
  else
    let whole := fields.view % 1 <<< (width + 1)
    (if 1 <<< width ≤ whole then whole - spare else whole, fields.skip (width + 1))

end Fields

/-! ## Distributions -/

structure Distribution where
  /-- The logarithm of the number of states. -/
  accuracy : Nat
  /-- The share of each symbol; minus one means less than one. -/
  shares : List Int
  deriving Repr

namespace Distribution

/-- The shares of the symbols from `symbol` on, below `room` more symbols.  One less than
`remaining` states are to be shared out. -/
def takeShares : (room remaining : Nat) → (done : List Int) → Fields → Option (List Int × Fields)
  | 0, _, _, _ => none
  | room + 1, remaining, done, fields =>
    let (number, fields) := fields.takeNumber remaining
    let share := (number : Int) - 1
    let rest := remaining - share.natAbs
    if rest ≤ 1 then some ((share :: done).reverse, fields)
    else if share = 0 then
      let (zeros, fields) := fields.move.takeZeros fields.bytes.size
      if room ≤ zeros then none
      else
        takeShares (room - zeros) rest (List.replicate (zeros + 1) 0 ++ done) fields.move
    else takeShares room rest (share :: done) fields.move
termination_by room => room
decreasing_by all_goals omega

/-- Reads a distribution over the symbols up to `maxSymbol`, and gives the bytes behind it. -/
def take? (maxAccuracy maxSymbol : Nat) (input : Bytes) : Option (Distribution × Bytes) := do
  let fields : Fields := ⟨(input ++ List.replicate (8 - input.length) 0).toArray, 0, 0⟩
  let accuracy := fields.view % 16 + 5
  if maxAccuracy < accuracy then none
  else
    let (shares, fields) ← takeShares (maxSymbol + 1) (1 <<< accuracy + 1) [] (fields.skip 4)
    let size := fields.place + (fields.shift + 7) / 8
    if 32 < fields.shift ∨ input.length < size then none
    else return (⟨accuracy, shares⟩, input.drop size)

end Distribution

/-! ## Tables -/

structure Cell where
  symbol : Nat
  /-- How many bits lead to the next state. -/
  bits : Nat
  /-- What these bits are added to. -/
  base : Nat
  deriving Repr, Inhabited

structure Table where
  accuracy : Nat
  cells : Array Cell
  deriving Repr

namespace Table

/-- The table in which one symbol takes no bits. -/
def single (symbol : Nat) : Table :=
  ⟨0, #[⟨symbol, 0, 0⟩]⟩

/-- Gives the symbols of less than one state the last states, from the end backward. -/
def placeRare (shares : List Int) (slots : Array (Option Nat)) : Array (Option Nat) × Nat :=
  shares.zipIdx.foldl
    (fun (slots, high) (share, symbol) =>
      if share = -1 then (slots.setIfInBounds (high - 1) (some symbol), high - 1)
      else (slots, high))
    (slots, slots.size)

def advance (size high : Nat) : (fuel position : Nat) → Nat
  | 0, position => position
  | fuel + 1, position =>
    let next := (position + size / 2 + size / 8 + 3) % size
    if next < high then next else advance size high fuel next

/-- Spreads a symbol over `count` states from a position on, and gives the position after them. -/
def placeSymbol (size high symbol : Nat) : (count : Nat) → Array (Option Nat) × Nat →
    Array (Option Nat) × Nat
  | 0, placed => placed
  | count + 1, (slots, position) =>
    placeSymbol size high symbol count
      (slots.setIfInBounds position (some symbol), advance size high size position)

/-- The symbol of each state. -/
def spread (distribution : Distribution) : Array Nat :=
  let size := 1 <<< distribution.accuracy
  let (slots, high) := placeRare distribution.shares (Array.replicate size none)
  let (slots, _) := distribution.shares.zipIdx.foldl
    (fun placed (share, symbol) => placeSymbol size high symbol share.toNat placed) (slots, 0)
  slots.map (·.getD 0)

/-- The table of a distribution.  The `k`-th state of a symbol with a share of `n` states stands for
the number `n + k`, whose missing high bits are read. -/
def ofDistribution (distribution : Distribution) : Table :=
  let size := 1 <<< distribution.accuracy
  let counters : Array Nat := (distribution.shares.map fun share => share.natAbs).toArray
  let (cells, _) := (spread distribution).foldl
    (fun (cells, counters) symbol =>
      let number := counters.getD symbol 1
      let bits := distribution.accuracy - number.log2
      ((cells.push ⟨symbol, bits, number * 1 <<< bits - size⟩ : Array Cell),
        counters.setIfInBounds symbol (number + 1)))
    ((#[] : Array Cell), counters)
  ⟨distribution.accuracy, cells⟩

def cell (table : Table) (state : Nat) : Cell :=
  table.cells.getD state default

/-- The first state. -/
def start? (table : Table) (source : BackSource) : Option (Nat × BackSource) :=
  source.take? table.accuracy

def next? (table : Table) (state : Nat) (source : BackSource) : Option (Nat × BackSource) := do
  let cell := table.cell state
  let (low, source) ← source.take? cell.bits
  return (cell.base + low, source)

end Table

/-- The symbols of two states that take turns on one stream, at most `room` of them.  When the
stream has too few bits for a state to go on, the other state gives the last symbol. -/
def takeTurns (table : Table) : (room turn other : Nat) → (done : List Nat) → BackSource →
    Option (List Nat)
  | 0, _, _, _, _ => none
  | room + 1, turn, other, done, source =>
    let done := (table.cell turn).symbol :: done
    if room = 0 then none
    else match table.next? turn source with
      | none => some ((table.cell other).symbol :: done).reverse
      | some (next, source) => takeTurns table room other next done source

end PhaseWire.Compression.Zstd
