import PhaseWire.Compression.Zstd.WeightCode

/-
# `Lanes` — literals in four streams

A table of the sizes of three streams stands in front of four streams,
each of which gives a quarter of the symbols, the last one what is left.
Small streams are read one after the other and must be spent exactly.
Streams of a common depth and of eight bytes or more are read abreast, in
rounds of five look-ups.  The lanes share all bytes, the table of sizes
included: what counts there is where a lane stands when the rounds end,
and not whether it is spent.
-/

namespace PhaseWire.Compression.Zstd

/-! ## One lane -/

/-- A stream that is read beside others. -/
structure Lane where
  window : BackWindow
  /-- Where the stream begins. -/
  start : Nat
  /-- How many symbols it gives. -/
  goal : Nat
  out : Array UInt8

namespace Lane

/-- A lane before its first symbol.  Without a mark at the end, the last byte counts whole. -/
def ofStream (bytes : Array UInt8) (start finish goal : Nat) : Lane :=
  let last := bytes.getD (finish - 1) 0
  let mark := if last = 0 then 0 else 8 - last.toNat.log2
  ⟨.stand bytes 0 bytes.size (finish - 8) mark, start, goal, #[]⟩

/-- The symbols that are still to come. -/
def left (lane : Lane) : Nat :=
  lane.goal - lane.out.size

/-- Appends what the next `count` look-ups give. -/
def lookups (code : WeightCode) : (count : Nat) → Array UInt8 → BackWindow →
    Array UInt8 × BackWindow
  | 0, out, window => (out, window.slide)
  | count + 1, out, window =>
    let window := window.slide
    match code.pair (window.peek code.depth) with
    | .one symbol bits => lookups code count (out.push symbol) (window.skip bits)
    | .two first second bits =>
      lookups code count ((out.push first).push second) (window.skip bits)

/-- The lane after five look-ups. -/
def round (code : WeightCode) : Lane → Lane
  | ⟨window, start, goal, out⟩ =>
    let (out, window) :=
      if code.paired then lookups code 5 out window else code.takeSingles 5 out window
    ⟨window.slide, start, goal, out⟩

/-- Appends the lane's symbols, if the rounds have not led it below its stream. -/
def finish? (code : WeightCode) (out : Array UInt8) : Lane → Option (Array UInt8)
  | ⟨window, start, goal, made⟩ =>
    if window.place + 8 < start then none
    else
      let (made, _) := code.takeSymbols (goal - made.size) made window
      some (out ++ made)

end Lane

/-! ## Four lanes -/

/-- Four lanes, in the order of their streams. -/
structure Lanes where
  first : Lane
  second : Lane
  third : Lane
  fourth : Lane

namespace Lanes

/-- How many rounds can neither pass the lowest byte nor give too many symbols. -/
def safeRounds (code : WeightCode) (lanes : Lanes) : Nat :=
  let most := if code.paired then 10 else 5
  let left := min (min lanes.first.left lanes.second.left) (min lanes.third.left lanes.fourth.left)
  min (lanes.first.window.place / 7) (left / most)

/-- Whether a lane stands below the one before it. -/
def crossed (lanes : Lanes) : Bool :=
  lanes.second.window.place < lanes.first.window.place
    || lanes.third.window.place < lanes.second.window.place
    || lanes.fourth.window.place < lanes.third.window.place

/-- Goes round until the last lane has made `target` symbols. -/
def rounds (code : WeightCode) (target : Nat) : (fuel : Nat) → Lanes → Lanes
  | 0, lanes => lanes
  | fuel + 1, ⟨first, second, third, fourth⟩ =>
    if target ≤ fourth.out.size then ⟨first, second, third, fourth⟩
    else
      rounds code target fuel
        ⟨first.round code, second.round code, third.round code, fourth.round code⟩

/-- Goes round as long as it is safe and no lane has crossed another. -/
def passes (code : WeightCode) : (fuel : Nat) → Lanes → Lanes
  | 0, lanes => lanes
  | fuel + 1, lanes =>
    let count := lanes.safeRounds code
    if count = 0 ∨ lanes.crossed then lanes
    else
      let target := lanes.fourth.out.size + 5 * count
      passes code fuel (lanes.rounds code target count)

end Lanes

/-! ## Both ways of reading -/

/-- Where four streams begin, and where the last one ends. -/
structure Splits where
  first : Nat
  second : Nat
  third : Nat
  fourth : Nat
  finish : Nat

namespace Splits

/-- The places that a table of sizes gives, if the streams fit. -/
def ofBytes? (bytes : Array UInt8) : Option Splits :=
  let size := fun i => (bytes.getD (2 * i) 0).toNat + 256 * (bytes.getD (2 * i + 1) 0).toNat
  let second := 6 + size 0
  let third := second + size 1
  let fourth := third + size 2
  if bytes.size < 10 ∨ bytes.size < fourth then none
  else some ⟨6, second, third, fourth, bytes.size⟩

/-- Whether every stream has eight bytes or more. -/
def areLong (splits : Splits) : Bool :=
  splits.first + 8 ≤ splits.second && splits.second + 8 ≤ splits.third
    && splits.third + 8 ≤ splits.fourth && splits.fourth + 8 ≤ splits.finish

end Splits

namespace WeightCode

/-- Four streams, one after the other. -/
def inTurn? (code : WeightCode) (count : Nat) (bytes : Array UInt8) (splits : Splits) :
    Option (Array UInt8) := do
  let quarter := (count + 3) / 4
  let out ← code.stream? quarter #[] bytes splits.first splits.second
  let out ← code.stream? quarter out bytes splits.second splits.third
  let out ← code.stream? quarter out bytes splits.third splits.fourth
  code.stream? (count - 3 * quarter) out bytes splits.fourth splits.finish

/-- Four streams, abreast. -/
def abreast? (code : WeightCode) (count : Nat) (bytes : Array UInt8) (splits : Splits) :
    Option (Array UInt8) := do
  let quarter := (count + 3) / 4
  let lanes := Lanes.passes code count
    { first := .ofStream bytes splits.first splits.second quarter
      second := .ofStream bytes splits.second splits.third quarter
      third := .ofStream bytes splits.third splits.fourth quarter
      fourth := .ofStream bytes splits.fourth splits.finish (count - 3 * quarter) }
  let out ← lanes.first.finish? code #[]
  let out ← lanes.second.finish? code out
  let out ← lanes.third.finish? code out
  lanes.fourth.finish? code out

/-- Exactly `count` symbols, at least six, in four streams. -/
def fourStreams? (code : WeightCode) (count : Nat) (bytes : Array UInt8) :
    Option (Array UInt8) := do
  let quarter := (count + 3) / 4
  let splits ← Splits.ofBytes? bytes
  if count < 6 ∨ count < 3 * quarter then none
  else if code.depth = commonDepth ∧ splits.areLong ∧ 3 * quarter < count then
    code.abreast? count bytes splits
  else code.inTurn? count bytes splits

end WeightCode
end PhaseWire.Compression.Zstd
