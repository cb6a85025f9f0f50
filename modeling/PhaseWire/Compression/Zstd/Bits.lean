import PhaseWire.Bytes

/-
# `BackSource` — bit streams that are read from their end

Entropy-coded streams of Zstandard are written forward and read backward.
The highest bit that is set in the last byte only marks the end of the
stream; reading starts below it and goes down to the first byte.
-/

namespace PhaseWire.Compression.Zstd

structure BackSource where
  bytes : Bytes
  /-- Bits left in the first of these bytes, from one to eight. -/
  left : Nat
  deriving Repr

namespace BackSource

/-- The stream in the given bytes, if its end is marked. -/
def ofBytes? (bytes : Bytes) : Option BackSource :=
  match bytes.reverse with
  | [] => none
  | last :: rest =>
    if last = 0 then none
    else
      let left := last.toNat.log2
      if left = 0 then some ⟨rest, 8⟩ else some ⟨last :: rest, left⟩

/-- Whether every bit is read. -/
def isEmpty (source : BackSource) : Bool :=
  source.bytes.isEmpty

def next? (source : BackSource) : Option (Nat × BackSource) :=
  match source.bytes with
  | [] => none
  | byte :: rest =>
    let bit := (byte.toNat >>> (source.left - 1)) % 2
    if source.left ≤ 1 then some (bit, ⟨rest, 8⟩) else some (bit, ⟨byte :: rest, source.left - 1⟩)

/-- The number in the next `count` bits, highest bit first. -/
def take? (source : BackSource) (count : Nat) : Option (Nat × BackSource) :=
  go count 0 source
where
  /-- Appends the next bits to a number. -/
  go : (count value : Nat) → BackSource → Option (Nat × BackSource)
    | 0, value, source => some (value, source)
    | count + 1, value, source =>
      match source.next? with
      | none => none
      | some (bit, source) => go count (2 * value + bit) source

end BackSource
end PhaseWire.Compression.Zstd
