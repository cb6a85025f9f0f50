import PhaseWire.Compression.Zstd.Header
import PhaseWire.Compression.Zstd.Sequences

/-
# `Carry` — compressed blocks and what they hand on

A compressed block has literals and sequences.  It hands on the offsets
used last, its prefix code and its tables to the blocks behind it, and its
literals stay on the shelf.
-/

namespace PhaseWire.Compression.Zstd

/-- What the blocks of a frame hand on. -/
structure Carry where
  recent : Recent
  code? : Option WeightCode
  tables? : Option Tables

/-- What the first block of a frame is given. -/
def Carry.start : Carry :=
  ⟨.start, none, none⟩

/-- What a block finds where it is decoded. -/
structure Site where
  /-- The most bytes that the block may take or have as literals. -/
  blockMax : Nat
  /-- The place in the store that the block must not pass. -/
  bound : Nat
  /-- Whether the frame is decoded at once, so that literals may lie behind the block's room. -/
  atOnce : Bool

structure Decoded where
  carry : Carry
  shelf : Array UInt8
  store : Store

/-- Whether literals lie behind the block's room, and the shelf is left alone. -/
def Site.isSpacious (site : Site) (place count : Nat) : Bool :=
  site.atOnce && place + site.blockMax + stride + count + stride < site.bound

/-- Puts a block's literals where copies take them from, and gives the shelf afterwards. -/
def Site.supply (site : Site) (place : Nat) (shelf : Array UInt8) :
    Literals → Supply × Array UInt8
  | ⟨.inPlace, bytes, count, _, _⟩ => (⟨bytes, count, site.bound⟩, shelf)
  | ⟨.shelved, bytes, count, _, _⟩ =>
    if site.isSpacious place count then
      (⟨bytes, count, place + site.blockMax + stride⟩, shelf)
    else
      let shelf := Store.putAll bytes count 0 0 shelf
      (⟨shelf, count, site.bound⟩, shelf)

/-- Decodes a compressed block behind what the store holds. -/
def Site.decode? (site : Site) (block : Bytes) (carry : Carry) (shelf : Array UInt8)
    (store : Store) : Option Decoded := do
  let place := store.place
  if site.blockMax < block.length then none
  else
    let literals ← Literals.take? (min site.blockMax (site.bound - place)) carry.code? block
    let (supply, shelf) := site.supply place shelf literals
    let (progress, tables?) ←
      sequencesSection? carry.tables? supply ⟨store, 0, carry.recent⟩ literals.rest
    let (store, recent) ← progress.finish? supply
    return ⟨⟨recent, literals.code?, tables?⟩, shelf, store⟩

end PhaseWire.Compression.Zstd
