import PhaseWire.Bytes

/-
# `Token` — data as literals and copies

Every compressor first spells its data as literal bytes and copies of
what came before.  The plain way to do so is here: candidates for a copy
come from a table of the places where three bytes with the same hash stood
last.  A candidate counts only for as long as the bytes really agree, so
the tokens always spell the data, however bad the candidates are.
-/

namespace PhaseWire.Compression

/-- A byte, or a number of bytes that stand some distance back. -/
inductive Token
  | literal (byte : UInt8)
  | copy (distance length : Nat)
  deriving DecidableEq, Repr

/-- Which copies a format can express, and which are worth it. -/
structure Reach where
  maxDistance : Nat
  minLength : Nat
  maxLength : Nat

namespace Token

/-- The number of buckets of the table of candidates. -/
def buckets : Nat := 4096

/-- For how many more bytes than `done`, at most `room`, the data at two places agree, and `done`
with it. -/
def agreementFrom (data : Array UInt8) : (room left right done : Nat) → Nat
  | 0, _, _, done => done
  | room + 1, left, right, done =>
    match data[left]?, data[right]? with
    | some a, some b =>
      if a = b then agreementFrom data room (left + 1) (right + 1) (done + 1) else done
    | _, _ => done

/-- For how many bytes, at most `room`, the data at two places agree. -/
def agreement (data : Array UInt8) (room left right : Nat) : Nat :=
  agreementFrom data room left right 0

def bucket (data : Array UInt8) (place : Nat) : Nat :=
  let byte := fun i => (data.getD (place + i) 0).toNat
  (byte 0 * 289 + byte 1 * 17 + byte 2) % buckets

/-- The length of the copy that a place allows from an earlier one, or zero. -/
def copyLength (reach : Reach) (data : Array UInt8) (earlier? : Option Nat) (place : Nat) : Nat :=
  match earlier? with
  | none => 0
  | some earlier =>
    if place - earlier ≤ reach.maxDistance ∧ earlier < place then
      agreement data reach.maxLength earlier place
    else 0

def spell (reach : Reach) (data : Array UInt8) : (fuel place : Nat) →
    (table : Array (Option Nat)) → (done : Array Token) → Array Token
  | 0, _, _, done => done
  | fuel + 1, place, table, done =>
    match data[place]? with
    | none => done
    | some byte =>
      let key := bucket data place
      let earlier := (table.getD key none).getD place
      let length := copyLength reach data (some earlier) place
      let table := table.setIfInBounds key (some place)
      if reach.minLength ≤ length ∧ 0 < length then
        spell reach data fuel (place + length) table (done.push (.copy (place - earlier) length))
      else spell reach data fuel (place + 1) table (done.push (.literal byte))

/-- Data as literals and copies. -/
def ofBytes (reach : Reach) (data : Bytes) : Array Token :=
  let data := data.toArray
  spell reach data data.size 0 (Array.replicate buckets none) #[]

def literals (data : Bytes) : Array Token :=
  (data.map Token.literal).toArray

end Token
end PhaseWire.Compression
