import CallGate.FixedBytes

/-!
# Keccak-256

The sponge over the permutation Keccak-f[1600] with a rate of 136 bytes, the padding bytes `0x01`
to `0x80` and an output of 32 bytes. It gives accounts the hash of their code.

The state is a list of 25 lanes of 64 bits; lane `x + 5 * y` stands in column `x` of row `y`.
-/

namespace CallGate.Keccak

/-- The state: 25 lanes, row by row. -/
abbrev State := List UInt64

/-- Number of bytes absorbed before each permutation. -/
def rate : Nat := 136

/-- The constants that are added to the first lane, one a round. -/
def roundConstants : List UInt64 :=
  [0x0000000000000001, 0x0000000000008082, 0x800000000000808A, 0x8000000080008000,
    0x000000000000808B, 0x0000000080000001, 0x8000000080008081, 0x8000000000008009,
    0x000000000000008A, 0x0000000000000088, 0x0000000080008009, 0x000000008000000A,
    0x000000008000808B, 0x800000000000008B, 0x8000000000008089, 0x8000000000008003,
    0x8000000000008002, 0x8000000000000080, 0x000000000000800A, 0x800000008000000A,
    0x8000000080008081, 0x8000000000008080, 0x0000000080000001, 0x8000000080008008]

/-- How far each lane is rotated. -/
def rotations : List UInt64 :=
  [0, 1, 62, 28, 27,
    36, 44, 6, 55, 20,
    3, 10, 43, 25, 39,
    41, 45, 15, 21, 8,
    18, 2, 61, 56, 14]

/-- The lane that moves to each place: the one at column `x + 3 * y` of row `x`. -/
def sources : List Nat :=
  [0, 6, 12, 18, 24,
    3, 9, 10, 16, 22,
    1, 7, 13, 19, 20,
    4, 5, 11, 17, 23,
    2, 8, 14, 15, 21]

/-- A lane rotated towards its high bits. -/
def rotate (lane amount : UInt64) : UInt64 :=
  -- A shift by 64 bits would shift by none.
  if amount = 0 then lane else lane <<< amount ||| lane >>> (64 - amount)

/-- The rows of a state. -/
def rows : State → List State
  | a :: b :: c :: d :: e :: rest => [a, b, c, d, e] :: rows rest
  | _ => []

/-- Lane by lane exclusive or. -/
def add (first second : State) : State :=
  List.zipWith (· ^^^ ·) first second

/-- Add to each lane the parities of the column before it and of the rotated column after it. -/
def theta (state : State) : State :=
  match (rows state).foldl add [0, 0, 0, 0, 0] with
  | [a, b, c, d, e] =>
    let change :=
      [e ^^^ rotate b 1, a ^^^ rotate c 1, b ^^^ rotate d 1, c ^^^ rotate e 1, d ^^^ rotate a 1]
    (rows state).flatMap (add change)
  | _ => state

/-- Rotate every lane by its own amount and move it to its new place. -/
def rhoPi (state : State) : State :=
  let rotated := List.zipWith rotate state rotations
  sources.map fun i => rotated.getD i 0

/-- Combine each lane of a row with the two lanes after it. -/
def chiRow : State → State
  | [a, b, c, d, e] =>
    [a ^^^ (~~~b &&& c), b ^^^ (~~~c &&& d), c ^^^ (~~~d &&& e), d ^^^ (~~~e &&& a),
      e ^^^ (~~~a &&& b)]
  | row => row

/-- One round with its constant. -/
def round (state : State) (constant : UInt64) : State :=
  match (rows (rhoPi (theta state))).flatMap chiRow with
  | first :: rest => (first ^^^ constant) :: rest
  | [] => []

/-- The permutation of 24 rounds. -/
def permute (state : State) : State :=
  roundConstants.foldl round state

/-- The lanes of a byte string, eight bytes each, least significant byte first. -/
def lanes : Bytes → State
  | a :: b :: c :: d :: e :: f :: g :: h :: rest =>
    UInt64.ofNat (Bytes.toNatLE [a, b, c, d, e, f, g, h]) :: lanes rest
  | _ => []

/-- The input followed by the padding that fills its last block. -/
def pad (input : Bytes) : Bytes :=
  match rate - input.length % rate with
  -- The first and the last byte of the padding are one byte.
  | 1 => input ++ [0x81]
  | missing => input ++ 0x01 :: List.replicate (missing - 2) 0 ++ [0x80]

/-- Absorb whole blocks, `count` of them. -/
def absorb (state : State) (input : Bytes) : (count : Nat) → State
  | 0 => state
  | count + 1 =>
    -- A block reaches seventeen lanes; the other eight are left as they are.
    let block := lanes (input.take rate) ++ List.replicate 8 0
    absorb (permute (add state block)) (input.drop rate) count

/-- The hash of a byte string. -/
def hash (input : Bytes) : Word :=
  let padded := pad input
  let final := absorb (List.replicate 25 0) padded (padded.length / rate)
  let output := (final.take 4).flatMap fun lane => Bytes.ofNatLE 8 lane.toNat
  FixedBytes.ofNat (Bytes.toNatBE output)

end CallGate.Keccak
