import PhaseWire.Bytes

/-
# `BackWindow` — a backward bit stream seen through 64 bits

Codewords are looked up in a window of eight bytes that slides down the
stream.  The window never goes below the lowest byte, and whoever takes
more bits than there are keeps turning within the last window.  A stream
counts as spent only when the very last of its bits is the last one taken.
-/

namespace PhaseWire.Compression.Zstd

/-- A window on the bytes from `low` to `high`. -/
structure BackWindow where
  bytes : Array UInt8
  /-- The lowest place that the window may take. -/
  low : Nat
  /-- The end of the bytes that the window may show. -/
  high : Nat
  /-- Where the window stands. -/
  place : Nat
  /-- The eight bytes in the window, least significant byte first. -/
  word : UInt64
  /-- The bits taken from the window, from the top down. -/
  used : Nat
  deriving Repr

namespace BackWindow

/-- The `count` bytes from a place on as a number; behind `high` there are zeros. -/
def wordAt (bytes : Array UInt8) (high place : Nat) : (count : Nat) → UInt64
  | 0 => 0
  | count + 1 =>
    let byte : UInt8 := if place < high then bytes.getD place 0 else 0
    (wordAt bytes high (place + 1) count <<< 8) ||| byte.toUInt64

def stand (bytes : Array UInt8) (low high place used : Nat) : BackWindow :=
  ⟨bytes, low, high, place, wordAt bytes high place 8, used⟩

/-- The highest window of a stream of its own, whose last byte marks the end by its highest bit. -/
def open? (bytes : Array UInt8) (low high : Nat) : Option BackWindow :=
  let last := bytes.getD (high - 1) 0
  if high ≤ low ∨ last = 0 then none
  else
    let mark := 8 - last.toNat.log2
    if low + 8 ≤ high then some (stand bytes low high (high - 8) mark)
    else some (stand bytes low high low (mark + 8 * (8 - (high - low))))

/-- Slides down over the bytes that are used up, as far as there are bytes. -/
def slide (window : BackWindow) : BackWindow :=
  let count := min (window.used / 8) (window.place - window.low)
  if count = 0 ∨ 64 < window.used then window
  else stand window.bytes window.low window.high (window.place - count) (window.used - 8 * count)

/-- The next `count` bits, of which there is at least one. -/
def peek (window : BackWindow) (count : Nat) : Nat :=
  ((window.word <<< UInt64.ofNat (window.used % 64)) >>> UInt64.ofNat (64 - count)).toNat

/-- Takes bits. -/
def skip (window : BackWindow) (count : Nat) : BackWindow :=
  { window with used := window.used + count }

/-- Takes the bits of a codeword that holds more than is asked for, as far as there are bits. -/
def skipLast (window : BackWindow) (count : Nat) : BackWindow :=
  if window.used < 64 then { window with used := min 64 (window.used + count) } else window

/-- Whether the last bit taken is the last one of the stream. -/
def isSpent (window : BackWindow) : Bool :=
  window.place == window.low && window.used == 64

end BackWindow
end PhaseWire.Compression.Zstd
