import PhaseWire.Compression.Bits
import PhaseWire.Compression.Run

/-
# `PrefixCode` — canonical prefix codes

A canonical code is known from the lengths of its codewords: shorter ones
come first, and codewords of one length are consecutive numbers in the
order of their symbols.  So the number of codewords of each length and the
symbols in that order are enough to decode, one bit at a time.
-/

namespace PhaseWire.Compression

/-- The longest codeword in bits. -/
def maxCodeLength : Nat := 15

structure PrefixCode where
  /-- How many codewords there are of length 1, 2, and so on up to the longest one. -/
  counts : List Nat
  /-- The symbols in the order of their codewords. -/
  symbols : Array Nat
  deriving Repr

namespace PrefixCode

/-- The code in which the `i`-th symbol has a codeword of the `i`-th length; zero means none. -/
def ofLengths (lengths : List Nat) : PrefixCode :=
  let numbered := lengths.zipIdx
  let longest := lengths.foldl max 1
  { counts := (List.range longest).map fun i => lengths.count (i + 1)
    symbols := ((List.range maxCodeLength).flatMap fun i =>
      (numbered.filter (·.1 = i + 1)).map (·.2)).toArray }

/-- The share of all bit sequences that start with a codeword, in units of the longest length. -/
def weight (code : PrefixCode) : Nat :=
  code.counts.zipIdx.foldl
    (fun weight (count, i) => weight + count * 1 <<< (maxCodeLength - 1 - i)) 0

/-- Whether every long enough bit sequence starts with exactly one codeword. -/
def isComplete (code : PrefixCode) : Bool :=
  code.weight = 1 <<< maxCodeLength

/-- Looks for the codeword among those of each length in turn, and gives up behind the longest.
`word` is what was read so far, doubled; `start` is the first codeword of the length at hand and
`index` its place. -/
def search (symbols : Array Nat) :
    (counts : List Nat) → (word start index : Nat) → BitSource → Except Stop (Nat × BitSource)
  | [], _, _, _, _ => .error .corrupt
  | count :: counts, word, start, index, source =>
    match source.next? with
    | none => .error .starved
    | some (bit, source) =>
      let word := word + bit
      if word < start + count then
        demand ((symbols[index + (word - start)]?).map fun symbol => (symbol, source))
      else search symbols counts (2 * word) (2 * (start + count)) (index + count) source

def next (code : PrefixCode) (source : BitSource) : Except Stop (Nat × BitSource) :=
  search code.symbols code.counts 0 0 0 source

end PrefixCode
end PhaseWire.Compression
