import PhaseWire.Bytes

/-
# Codeword lengths for given frequencies

The shortest code for symbols of known frequencies comes from joining the
two lightest groups of symbols until one group is left: a symbol's
codeword grows by a bit with each join of its group.  Only how many
codewords there are of each length is taken from there.  The rarer symbols
get the longer codewords; of two equally frequent ones the first does.

A group is known by its weight and by how many of its codewords have each
length.  To keep a limit, all longer codewords are cut to it, and then
shorter ones are lengthened until every codeword has a place again.
-/

namespace PhaseWire.Compression.CodeLengths

/-- Symbols that were joined. -/
structure Group where
  weight : Nat
  /-- How many codewords have length 0, 1, and so on. -/
  profile : List Nat
  deriving Repr

namespace Group

/-- A symbol alone. -/
def single (weight : Nat) : Group :=
  ⟨weight, [1]⟩

/-- Sums place by place. -/
def add : List Nat → List Nat → List Nat
  | [], ys => ys
  | xs, [] => xs
  | x :: xs, y :: ys => (x + y) :: add xs ys

def join (a b : Group) : Group :=
  ⟨a.weight + b.weight, 0 :: add a.profile b.profile⟩

end Group

/-- Takes the lightest group from the single symbols or from those that were joined, both in order
of weight.  Of equal weights the symbol comes first. -/
def lightest? : (symbols joined : List Group) → Option (Group × List Group × List Group)
  | [], [] => none
  | symbol :: symbols, [] => some (symbol, symbols, [])
  | [], group :: joined => some (group, [], joined)
  | symbol :: symbols, group :: joined =>
    if group.weight < symbol.weight then some (group, symbol :: symbols, joined)
    else some (symbol, symbols, group :: joined)

/-- Joins groups until one is left, and gives its profile.  Each join takes away a group. -/
def joinAll : (fuel : Nat) → (symbols joined : List Group) → List Nat
  | 0, _, _ => []
  | fuel + 1, symbols, joined =>
    match lightest? symbols joined with
    | none => []
    | some (first, symbols, joined) =>
      match lightest? symbols joined with
      | none => first.profile
      | some (second, symbols, joined) =>
        joinAll fuel symbols (joined ++ [first.join second])

/-- How many codewords of length 1, 2, and so on serve weights that are in order best.  A single
symbol takes a bit. -/
def countsFor (weights : List Nat) : List Nat :=
  if weights.length = 1 then [1]
  else (joinAll weights.length (weights.map Group.single) []).drop 1

/-! ## The limit -/

/-- The counts of the lengths up to the limit, with all longer ones cut to it. -/
def cut (limit : Nat) (counts : List Nat) : List Nat :=
  let short := counts.take (limit - 1)
  short ++ List.replicate (limit - 1 - short.length) 0 ++ [(counts.drop (limit - 1)).foldl (· + ·) 0]

/-- The share of all bit sequences of the greatest length that the codewords take. -/
def share (counts : List Nat) : Nat :=
  counts.foldl (fun share count => 2 * share + count) 0

/-- Lengthens one of the longest codewords that can be, and gives it a neighbour.  The counts start
at the greatest length. -/
def lengthen : List Nat → List Nat
  | longer :: 0 :: counts => longer :: lengthen (0 :: counts)
  | longer :: (count + 1) :: counts => (longer + 2) :: count :: counts
  | counts => counts

/-- Makes room for one codeword of the greatest length, which it takes from there. -/
def relieve : List Nat → List Nat
  | [] => []
  | longest :: counts => lengthen ((longest - 1) :: counts)

/-- The counts with no length above the limit and room for every codeword. -/
def limited (limit : Nat) (counts : List Nat) : List Nat :=
  let counts := cut limit counts
  (Nat.repeat relieve (share counts - 1 <<< limit) counts.reverse).reverse

/-! ## Symbols -/

/-- The lengths that counts stand for, from the shortest on. -/
def expand (counts : List Nat) : List Nat :=
  (counts.zipIdx 1).flatMap fun (count, length) => List.replicate count length

/-- The symbols that occur, from the rarest on, with their frequencies. -/
def ranked (frequencies : List Nat) : List (Nat × Nat) :=
  (frequencies.zipIdx.filter (0 < ·.1)).mergeSort fun a b => a.1 ≤ b.1

/-- The codeword length of each symbol, none above the limit.  A symbol that does not occur has
length zero. -/
def ofFrequencies (limit : Nat) (frequencies : List Nat) : List Nat :=
  let ranked := ranked frequencies
  let lengths := expand (limited limit (countsFor (ranked.map (·.1))))
  let assigned := ((ranked.reverse.map (·.2)).zip lengths).foldl
    (fun lengths (symbol, length) => lengths.setIfInBounds symbol length)
    (Array.replicate frequencies.length 0)
  assigned.toList

end PhaseWire.Compression.CodeLengths
