import PhaseWire.Compression.Match

/-
# Copies for deflate

Places with the same hash of three bytes are linked, each to the one
before it.  A copy is looked for along the links, up to a number of steps
that depends on the level, and the nearest of the longest ones counts.

A short copy waits: if the next place has a longer one, the byte at the
first place becomes a literal.  The very first place of the data is never
copied from, because a link to it is no link.
-/

namespace PhaseWire.Compression.Deflate

/-- How much work goes into copies. -/
structure Effort where
  /-- How many groups of three links are followed. -/
  groups : Nat
  /-- How many once there is a copy that is long enough. -/
  fewGroups : Nat
  /-- Whether a copy waits for a longer one. -/
  patient : Bool
  deriving DecidableEq, Repr

/-- How many places are looked at on each level. -/
def probes : List Nat :=
  [0, 1, 6, 32, 16, 32, 128, 256, 512, 768]

def Effort.ofLevel (level : Nat) : Effort :=
  let probes := probes.getD level 0
  ⟨(probes + 2) / 3, (probes / 4 + 2) / 3, 3 < level⟩

/-- The longest copy. -/
def maxLength : Nat := 258

/-- The size of the window, of which a little is kept free. -/
def window : Nat := 32768

/-- A copy of this length does not wait, and one of a quarter of it is long enough. -/
def plenty : Nat := 128

/-- A copy of the least length is not worth it from this distance on. -/
def tooFar : Nat := 8192

/-! ## Links -/

def hash (data : Array UInt8) (place : Nat) : Nat :=
  let byte := fun i => (data.getD (place + i) 0).toNat
  (byte 0 <<< 10 ^^^ byte 1 <<< 5 ^^^ byte 2) % window

/-- Links the next place to the last one with its hash. -/
def link (data : Array UInt8) (state : Array Nat × Array Nat) : Array Nat × Array Nat :=
  let (links, heads) := state
  let place := links.size
  let key := hash data place
  (links.push (heads.getD key 0), heads.setIfInBounds key place)

/-- For each place the one before it with the same hash, or zero. -/
def links (data : Array UInt8) : Array Nat :=
  (Nat.repeat (link data) (data.size - 2)
    (Array.emptyWithCapacity data.size, Array.replicate window 0)).1

/-! ## Looking for a copy -/

structure Copy where
  distance : Nat
  length : Nat
  deriving DecidableEq, Repr

structure Linked where
  data : Array UInt8
  links : Array Nat

/-- Whether the two bytes about the end of a copy agree, so that it could be longer. -/
def mayGrow (data : Array UInt8) (earlier place length : Nat) : Bool :=
  data[earlier + length - 1]? = data[place + length - 1]?
    && data[earlier + length]? = data[place + length]?

/-- Follows the links from a place for so many steps and gives a copy that is longer than `best`,
if there is one.  A candidate that is looked at closely ends its group. -/
def follow (linked : Linked) (place reach room : Nat) (steps current : Nat) (best : Copy) : Copy :=
  if h : steps = 0 then best
  else
    let earlier := linked.links.getD current 0
    if earlier = 0 ∨ reach < place - earlier then best
    else if mayGrow linked.data earlier place best.length then
      let length := Token.agreement linked.data room earlier place
      let left := (steps - 1) / 3 * 3
      if best.length < length then
        if length = room then ⟨place - earlier, length⟩
        else follow linked place reach room left earlier ⟨place - earlier, length⟩
      else follow linked place reach room left earlier best
    else follow linked place reach room (steps - 1) earlier best
termination_by steps
decreasing_by all_goals omega

def unwanted (place : Nat) (copy : Copy) : Bool :=
  (copy.length = 3 && tooFar ≤ copy.distance) || place % window = copy.distance

/-- The best copy at a place that is longer than `least`; otherwise one of distance zero. -/
def copyAt (linked : Linked) (effort : Effort) (place least : Nat) : Copy :=
  let room := min maxLength (linked.data.size - place)
  let reach := min place (window - room)
  let groups := if 4 * least < plenty then effort.groups else effort.fewGroups
  if room ≤ least then ⟨0, least⟩
  else
    let copy := follow linked place reach room (3 * groups) place ⟨0, least⟩
    if unwanted place copy then ⟨0, 0⟩ else copy

/-! ## Tokens -/

structure Waiting where
  byte : UInt8
  copy : Copy

def Copy.token (copy : Copy) : Token :=
  .copy copy.distance copy.length

/-- What a copy at the next place makes of one that waits: the tokens that are settled, how many
bytes to go on, and the copy that waits now. -/
def settle (byte : UInt8) (copy : Copy) (waiting : Waiting) :
    List Token × Nat × Option Waiting :=
  if waiting.copy.length < copy.length then
    if plenty ≤ copy.length then ([.literal waiting.byte, copy.token], copy.length, none)
    else ([.literal waiting.byte], 1, some ⟨byte, copy⟩)
  else ([waiting.copy.token], waiting.copy.length - 1, none)

def start (patient : Bool) (byte : UInt8) (copy : Copy) : List Token × Nat × Option Waiting :=
  if copy.distance = 0 then ([.literal byte], 1, none)
  else if !patient || plenty ≤ copy.length then ([copy.token], copy.length, none)
  else ([], 1, some ⟨byte, copy⟩)

def parseFrom (linked : Linked) (effort : Effort) : (fuel place : Nat) →
    (waiting? : Option Waiting) → (done : Array Token) → Array Token
  | 0, _, _, done => done
  | fuel + 1, place, waiting?, done =>
    match linked.data[place]? with
    | none => done
    | some byte =>
      let (tokens, advance, waiting?) :=
        match waiting? with
        | some waiting => settle byte (copyAt linked effort place waiting.copy.length) waiting
        | none => start effort.patient byte (copyAt linked effort place 2)
      parseFrom linked effort fuel (place + advance) waiting?
        (tokens.foldl Array.push done)

/-- Data as literals and copies. -/
def parse (effort : Effort) (data : Array UInt8) : Array Token :=
  parseFrom ⟨data, links data⟩ effort data.size 0 none #[]

end PhaseWire.Compression.Deflate
