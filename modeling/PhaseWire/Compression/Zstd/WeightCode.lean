import PhaseWire.Compression.Zstd.Fse
import PhaseWire.Compression.Zstd.Window

/-
# `WeightCode` — the prefix code of literals

A code is described by weights: a weight of `w` gives a symbol a share of
`2 ^ (w - 1)`, and the weight of the last symbol is what is missing to a
power of two.  Symbols are looked up one at a time or, in a code laid out
in pairs, two at a time where both fit the depth of the table.
-/

namespace PhaseWire.Compression.Zstd

/-- The longest codeword in bits. -/
def maxWeight : Nat := 12

/-- The depth of the table of a code whose codewords all fit it. -/
def commonDepth : Nat := 11

structure WeightCode where
  /-- The bits of the longest codeword. -/
  width : Nat
  /-- For the next `width` bits, a symbol and the bits it takes. -/
  entries : Array (UInt8 × Nat)
  /-- Whether two symbols are looked up at once. -/
  paired : Bool
  deriving Repr

/-- What a look-up gives, with the bits it takes. -/
inductive Lookup
  | one (symbol : UInt8) (bits : Nat)
  | two (first second : UInt8) (bits : Nat)
  deriving Repr

namespace WeightCode

/-! ## Descriptions -/

def share (weight : Nat) : Nat :=
  1 <<< weight / 2

/-- The code of the weights of all symbols but the last one. -/
def ofWeights? (weights : List Nat) : Option WeightCode :=
  let total := weights.foldl (fun total weight => total + share weight) 0
  if total = 0 ∨ weights.any (maxWeight < ·) then none
  else
    let width := total.log2 + 1
    let missing := 1 <<< width - total
    if maxWeight < width ∨ missing ≠ 1 <<< missing.log2 then none
    else
      let all := weights ++ [missing.log2 + 1]
      let ones := all.count 1
      if ones < 2 ∨ ones % 2 = 1 then none
      else
        let numbered := all.zipIdx
        let entries := (List.range width).flatMap fun i =>
          (numbered.filter (·.1 = i + 1)).flatMap fun (weight, symbol) =>
            List.replicate (share weight) (symbol.toUInt8, width + 1 - weight)
        some ⟨width, entries.toArray, false⟩

/-- The weights in half bytes, high half first. -/
def halves (input : Bytes) : List Nat :=
  input.flatMap fun byte => [byte.toNat / 16, byte.toNat % 16]

/-- Weights that are themselves entropy-coded. -/
def codedWeights? (input : Bytes) : Option (List Nat) := do
  let (distribution, rest) ← Distribution.take? 6 255 input
  let table := Table.ofDistribution distribution
  let source ← BackSource.ofBytes? rest
  let (first, source) ← table.start? source
  let (second, source) ← table.start? source
  takeTurns table 255 first second [] source

/-- Reads the description of a code, and gives the bytes behind it. -/
def take? (input : Bytes) : Option (WeightCode × Bytes) :=
  match input with
  | [] => none
  | header :: rest =>
    let header := header.toNat
    if header < 128 then
      if rest.length < header then none
      else do
        let weights ← codedWeights? (rest.take header)
        return (← ofWeights? weights, rest.drop header)
    else
      let count := header - 127
      let size := (count + 1) / 2
      if rest.length < size then none
      else do
        return (← ofWeights? ((halves (rest.take size)).take count), rest.drop size)

/-! ## Look-ups -/

/-- How many bits a look-up sees. -/
def depth (code : WeightCode) : Nat :=
  max commonDepth code.width

/-- The symbol at the front of `depth` bits, and the bits it takes. -/
def entry (code : WeightCode) (bits : Nat) : UInt8 × Nat :=
  code.entries.getD (bits >>> (code.depth - code.width)) (0, 0)

def pair (code : WeightCode) (bits : Nat) : Lookup :=
  let (first, taken) := code.entry bits
  let (second, more) := code.entry ((bits <<< taken) % 1 <<< code.depth)
  if taken + more ≤ code.depth then .two first second (taken + more) else .one first taken

/-! ## Streams -/

/-- Appends the next `count` symbols, one at a time. -/
def takeSingles (code : WeightCode) : (count : Nat) → Array UInt8 → BackWindow →
    Array UInt8 × BackWindow
  | 0, out, window => (out, window)
  | count + 1, out, window =>
    let window := window.slide
    let (symbol, bits) := code.entry (window.peek code.depth)
    takeSingles code count (out.push symbol) (window.skip bits)

/-- Appends the next `count` symbols, two at a time where they are looked up so.  Of a pair at the
very end only the first counts. -/
def takePairs (code : WeightCode) : (count : Nat) → Array UInt8 → BackWindow →
    Array UInt8 × BackWindow
  | 0, out, window => (out, window)
  | 1, out, window =>
    let window := window.slide
    match code.pair (window.peek code.depth) with
    | .one symbol bits => (out.push symbol, window.skip bits)
    | .two symbol _ bits => (out.push symbol, window.skipLast bits)
  | count + 2, out, window =>
    let window := window.slide
    match code.pair (window.peek code.depth) with
    | .one symbol bits => takePairs code (count + 1) (out.push symbol) (window.skip bits)
    | .two first second bits =>
      takePairs code count ((out.push first).push second) (window.skip bits)

/-- Appends the next `count` symbols. -/
def takeSymbols (code : WeightCode) (count : Nat) (out : Array UInt8) (window : BackWindow) :
    Array UInt8 × BackWindow :=
  if code.paired then code.takePairs count out window else code.takeSingles count out window

/-- Appends a stream of exactly `count` symbols, which stands from `low` to `high`. -/
def stream? (code : WeightCode) (count : Nat) (out : Array UInt8) (bytes : Array UInt8)
    (low high : Nat) : Option (Array UInt8) := do
  let window ← BackWindow.open? bytes low high
  let (out, window) := code.takeSymbols count out window
  if window.isSpent then return out else none

end WeightCode
end PhaseWire.Compression.Zstd
