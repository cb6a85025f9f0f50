import PhaseWire.Compression.Bits

/-
# Codewords of a canonical code

The other direction of `PrefixCode`: codewords of one length are
consecutive numbers, and the first of a length follows the last shorter
one with a zero behind it.
-/

namespace PhaseWire.Compression

/-- A codeword: its length, zero if there is none, and its bits as a number. -/
structure Codeword where
  length : Nat
  word : Nat
  deriving DecidableEq, Repr, Inhabited

namespace Codeword

/-- The first codewords of length 0, 1, and so on, one for each count of codewords. -/
def firsts : (counts : List Nat) → (first : Nat) → List Nat
  | [], _ => []
  | count :: counts, first => first :: firsts counts (2 * (first + count))

def assign (state : Array Nat × Array Codeword) (length : Nat) : Array Nat × Array Codeword :=
  let (next, words) := state
  if length = 0 then (next, words.push ⟨0, 0⟩)
  else
    let word := next.getD length 0
    (next.setIfInBounds length (word + 1), words.push ⟨length, word⟩)

/-- The codewords of the canonical code in which each symbol has the given length. -/
def ofLengths (lengths : List Nat) : Array Codeword :=
  let longest := lengths.foldl max 0
  let counts := 0 :: (List.range longest).map fun i => lengths.count (i + 1)
  (lengths.foldl assign ((firsts counts 0).toArray, #[])).2

end Codeword

def BitSink.pushSymbol (sink : BitSink) (words : Array Codeword) (symbol : Nat) : BitSink :=
  let codeword := words.getD symbol default
  sink.pushCode codeword.length codeword.word

end PhaseWire.Compression
