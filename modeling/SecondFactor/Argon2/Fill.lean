import SecondFactor.Argon2.Block
import SecondFactor.Digest.Blake2b

/-!
# Argon2

A password is stretched by filling a memory of blocks, lane by lane in four slices a pass: each
block is the compression of its predecessor and of an earlier block, which the predecessor names
(variant d), a counter names (variant i), or the counter in the first half of the first pass and
the predecessor after it (variant id). The tag is a digest of the last column.
-/

namespace SecondFactor.Argon2

/-- How a block finds the earlier block that it is mixed with. -/
inductive Variant where
  | dependent
  | independent
  | hybrid
  deriving DecidableEq

/-- The number that stands for a variant in what is hashed. -/
def Variant.number : Variant → Nat
  | .dependent => 0
  | .independent => 1
  | .hybrid => 2

/-- Whether later passes replace a block or are added to it. -/
inductive Version where
  | replacing
  | adding
  deriving DecidableEq

def Version.number : Version → Nat
  | .replacing => 16
  | .adding => 19

/-- What a computation costs and what it yields. -/
structure Params where
  variant : Variant := .hybrid
  version : Version := .adding
  /-- Memory in blocks of 1024 bytes. -/
  memory : Nat := 19456
  passes : Nat := 2
  lanes : Nat := 1
  size : Nat := 32
  /-- Further bytes that the tag depends on. -/
  associated : Bytes := []

/-- The costs that can be computed: at least one lane and one pass, eight blocks a lane, and no more
lanes than fit in 24 bits. -/
def Params.Valid (p : Params) : Prop :=
  8 ≤ p.memory ∧ p.lanes * 8 ≤ p.memory ∧ 1 ≤ p.passes ∧ 1 ≤ p.lanes ∧ p.lanes ≤ 0xffffff ∧
    4 ≤ p.size

instance (p : Params) : Decidable p.Valid := inferInstanceAs (Decidable (_ ∧ _))

/-- Costs whose least memory can be counted: eight blocks a lane are below the bound on a count. The
count is not taken when there is not even the memory for one lane. -/
def Params.Countable (p : Params) : Prop := p.memory < 8 ∨ p.lanes * 8 < UInt32.size

instance (p : Params) : Decidable p.Countable := inferInstanceAs (Decidable (_ ∨ _))

/-- Blocks in one slice of one lane. -/
def Params.segment (p : Params) : Nat := p.memory / (4 * p.lanes)

def Params.laneLength (p : Params) : Nat := 4 * p.segment

/-! ## Digests of any length -/

/-- A number in four bytes, least significant first. -/
def word (n : Nat) : Bytes := Bytes.ofWord32Low (UInt32.ofNat n)

/-- The first halves of `count` successive digests, then the last digest of `size` bytes. -/
def chain (size : Nat) : (count : Nat) → (link : Bytes) → Bytes
  | 0, link => Digest.blake2b size link
  | count + 1, link => link.take 32 ++
    (match count with
     | 0 => Digest.blake2b size link
     | _ => chain size count (Digest.blake2b 64 link))

/-- A digest of `size` bytes, which may be more than BLAKE2b gives at once. -/
def longDigest (size : Nat) (message : Bytes) : Bytes :=
  let whole := word size ++ message
  if size ≤ 64 then Digest.blake2b size whole
  else
    let count := (size + 31) / 32 - 2
    chain (size - 32 * count) count (Digest.blake2b 64 whole)

def seed (p : Params) (password salt : Bytes) : Bytes :=
  Digest.blake2b 64 <|
    word p.lanes ++ word p.size ++ word p.memory ++ word p.passes ++ word p.version.number ++
    word p.variant.number ++ word password.length ++ password ++ word salt.length ++ salt ++
    word 0 ++ word p.associated.length ++ p.associated

/-! ## Filling the memory -/

/-- The memory, lane after lane. -/
abbrev Memory := Array Block

/-- The memory with the first two blocks of each lane. -/
def start (p : Params) (seed : Bytes) : Memory :=
  (List.range p.lanes).foldl (fun memory lane =>
    let block (column : Nat) := Block.ofBytes (longDigest 1024 (seed ++ word column ++ word lane))
    let first := lane * p.laneLength
    (memory.setIfInBounds first (block 0)).setIfInBounds (first + 1) (block 1))
    (Array.replicate (p.lanes * p.laneLength) Block.zero)

structure Segment where
  pass : Nat
  slice : Nat
  lane : Nat

/-- Whether a counter names the earlier blocks of the segment. -/
def Segment.counted (s : Segment) : Variant → Bool
  | .dependent => false
  | .independent => true
  | .hybrid => s.pass == 0 && decide (s.slice < 2)

/-- The next 128 names of earlier blocks that the counter gives. -/
def Segment.names (s : Segment) (p : Params) (counter : Nat) : Array UInt64 :=
  let input := Block.ofWords <| [s.pass, s.lane, s.slice, p.lanes * p.laneLength, p.passes,
    p.variant.number, counter].map UInt64.ofNat
  (Block.zero.compress (Block.zero.compress input)).words.toArray

/-- The index in memory of the earlier block that a name stands for, seen from column `i` of the
segment. Its high half chooses the lane; its low half chooses, with a preference for recent blocks,
among the blocks of that lane that are already there. -/
def Segment.reference (s : Segment) (p : Params) (i : Nat) (name : UInt64) : Nat :=
  let segment := p.segment
  let laneLength := p.laneLength
  let lane := if s.pass = 0 ∧ s.slice = 0 then s.lane else (name >>> 32).toNat % p.lanes
  let finished := if s.pass = 0 then s.slice * segment else laneLength - segment
  let area := if lane = s.lane then finished + i - 1 else if i = 0 then finished - 1 else finished
  let low := name &&& 0xffffffff
  let square := (low * low) >>> 32
  let back := ((UInt64.ofNat area * square) >>> 32).toNat
  let base := if s.pass = 0 ∨ s.slice = 3 then 0 else (s.slice + 1) * segment
  lane * laneLength + (base + (area - 1 - back)) % laneLength

/-- Fills `count` blocks of a segment from column `i` on. -/
def Segment.fillFrom (s : Segment) (p : Params) : (count : Nat) → (i : Nat) →
    (names : Array UInt64) → Memory → Memory
  | 0, _, _, memory => memory
  | count + 1, i, names, memory =>
    let column := s.slice * p.segment + i
    let first := s.lane * p.laneLength
    let before := memory.getD (first + (if column = 0 then p.laneLength - 1 else column - 1))
      Block.zero
    let counted := s.counted p.variant
    let names := if counted && i % 128 == 0 then s.names p (i / 128 + 1) else names
    let name := if counted then names.getD (i % 128) 0 else before.head
    let earlier := memory.getD (s.reference p i name) Block.zero
    let mixed := before.compress earlier
    let new := if s.pass = 0 ∨ p.version = .replacing then mixed
      else mixed.xor (memory.getD (first + column) Block.zero)
    s.fillFrom p count (i + 1) names (memory.setIfInBounds (first + column) new)

/-- Fills a segment. The first two blocks of each lane are there from the start. -/
def Segment.fill (s : Segment) (p : Params) (memory : Memory) : Memory :=
  if s.pass = 0 ∧ s.slice = 0 then
    let names := if s.counted p.variant then s.names p 1 else #[]
    s.fillFrom p (p.segment - 2) 2 names memory
  else s.fillFrom p p.segment 0 #[] memory

def segments (p : Params) : List Segment :=
  (List.range p.passes).flatMap fun pass =>
    (List.range 4).flatMap fun slice =>
      (List.range p.lanes).map fun lane => ⟨pass, slice, lane⟩

def tag (p : Params) (password salt : Bytes) : Bytes :=
  let first := start p (seed p password salt)
  let memory := (segments p).foldl (fun memory s => s.fill p memory) first
  let last := (List.range p.lanes).foldl (fun block lane =>
    block.xor (memory.getD (lane * p.laneLength + p.laneLength - 1) Block.zero)) Block.zero
  longDigest p.size last.bytes

end SecondFactor.Argon2
