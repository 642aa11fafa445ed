import SecondFactor.Qr.Codewords

/-!
# QR symbols

A symbol is a square of dark and light modules. Some modules are fixed by the version (finder,
alignment and timing patterns, version information) or by level and mask (format information); the
others take the codewords in a zigzag of column pairs from the lower right corner, and are then
inverted under one of eight masks. The mask with the least penalty wins, the first of equals.
-/

namespace SecondFactor.Qr

/-- A square of modules, row by row. `fixed` marks the modules that no mask touches. -/
structure Canvas where
  side : Nat
  dark : Array Bool
  fixed : Array Bool

namespace Canvas

@[inline] def isDark (c : Canvas) (x y : Nat) : Bool := c.dark.getD (y * c.side + x) false

@[inline] def isFixed (c : Canvas) (x y : Nat) : Bool := c.fixed.getD (y * c.side + x) true

def fix (c : Canvas) (x y : Nat) (dark : Bool) : Canvas :=
  let i := y * c.side + x
  { c with dark := c.dark.setIfInBounds i dark, fixed := c.fixed.setIfInBounds i true }

def colour (c : Canvas) (x y : Nat) (dark : Bool) : Canvas :=
  { c with dark := c.dark.setIfInBounds (y * c.side + x) dark }

/-- The light square with nothing fixed. -/
def blank (side : Nat) : Canvas :=
  ⟨side, Array.replicate (side * side) false, Array.replicate (side * side) false⟩

def fixAll (c : Canvas) (modules : List (Nat × Nat × Bool)) : Canvas :=
  modules.foldl (fun c (x, y, dark) => c.fix x y dark) c

end Canvas

/-! ## Fixed patterns -/

/-- The greater distance of two coordinates. -/
def distance (x y cx cy : Nat) : Nat := max (max (x - cx) (cx - x)) (max (y - cy) (cy - y))

def around (side reach cx cy : Nat) : List (Nat × Nat) :=
  (List.range (2 * reach + 1)).flatMap fun dy =>
    (List.range (2 * reach + 1)).filterMap fun dx =>
      if reach ≤ cx + dx ∧ reach ≤ cy + dy ∧ cx + dx - reach < side ∧ cy + dy - reach < side then
        some (cx + dx - reach, cy + dy - reach)
      else none

/-- A finder pattern with its light border. -/
def finder (side cx cy : Nat) : List (Nat × Nat × Bool) :=
  (around side 4 cx cy).map fun (x, y) =>
    let d := distance x y cx cy
    (x, y, d != 2 && d != 4)

def alignment (side cx cy : Nat) : List (Nat × Nat × Bool) :=
  (around side 2 cx cy).map fun (x, y) => (x, y, distance x y cx cy != 1)

/-- Row and column of alternating modules. -/
def timing (side : Nat) : List (Nat × Nat × Bool) :=
  (List.range side).flatMap fun i => [(6, i, i % 2 == 0), (i, 6, i % 2 == 0)]

/-- A number followed by the remainder of its shift by `bits` under the given generator. -/
def withRemainder (bits generator n : Nat) : Nat :=
  let top := 1 <<< (bits - 1)
  let rest := (List.range bits).foldl (fun rest _ =>
    (rest * 2) ^^^ (if rest / top % 2 = 1 then generator else 0)) n
  (n <<< bits) + rest % (1 <<< bits)

/-- The version information, from version 7 on. -/
def versionInfo (version : Nat) : List (Nat × Nat × Bool) :=
  if version < 7 then []
  else
    let bits := withRemainder 12 0x1f25 version
    (List.range 18).flatMap fun i =>
      let a := side version - 11 + i % 3
      [(a, i / 3, bits.testBit i), (i / 3, a, bits.testBit i)]

/-- The format information of a level and a mask. -/
def formatInfo (side : Nat) (level : Level) (mask : Nat) : List (Nat × Nat × Bool) :=
  let bits := withRemainder 10 0x537 (level.bits * 8 + mask) ^^^ 0x5412
  let bit (i : Nat) := bits.testBit i
  (List.range 6).map (fun i => (8, i, bit i)) ++
    [(8, 7, bit 6), (8, 8, bit 7), (7, 8, bit 8)] ++
    (List.range 6).map (fun i => (5 - i, 8, bit (i + 9))) ++
    (List.range 8).map (fun i => (side - 1 - i, 8, bit i)) ++
    (List.range 7).map (fun i => (8, side - 7 + i, bit (i + 8))) ++
    [(8, side - 8, true)]

/-- The square of a version with its fixed modules; the format information is that of the first
mask. -/
def template (version : Nat) (level : Level) : Canvas :=
  let n := side version
  let centres := alignments version
  let last := centres.getLastD 6
  let aligned := centres.flatMap fun cx => centres.flatMap fun cy =>
    if (cx = 6 ∧ (cy = 6 ∨ cy = last)) ∨ (cx = last ∧ cy = 6) then [] else alignment n cx cy
  (Canvas.blank n).fixAll <|
    timing n ++ finder n 3 3 ++ finder n (n - 4) 3 ++ finder n 3 (n - 4) ++ aligned ++
      formatInfo n level 0 ++ versionInfo version

/-! ## Codewords -/

/-- The right columns of the column pairs, from the right; the column of the timing pattern is
passed over. -/
def pairs (side : Nat) : List Nat :=
  (List.range (side / 2)).map fun i =>
    let right := side - 1 - 2 * i
    if right ≤ 6 then right - 1 else right

/-- The modules in the order in which codewords are placed. -/
def zigzag (side : Nat) : List (Nat × Nat) :=
  (pairs side).flatMap fun right =>
    (List.range side).flatMap fun i =>
      let y := if (right + 1) / 2 % 2 = 0 then side - 1 - i else i
      [(right, y), (right - 1, y)]

/-- Colours the modules that are not fixed with the bits of the codewords. -/
def place (c : Canvas) (bytes : Bytes) : Canvas :=
  let free := (zigzag c.side).filter fun (x, y) => !c.isFixed x y
  (free.zip (bytes.flatMap fun b => bitsOf 8 b.toNat)).foldl
    (fun c ((x, y), dark) => c.colour x y dark) c

/-! ## Masks -/

/-- Whether a mask inverts the module in column `x` and row `y`. -/
def inverts (mask x y : Nat) : Bool :=
  match mask with
  | 0 => (x + y) % 2 == 0
  | 1 => y % 2 == 0
  | 2 => x % 3 == 0
  | 3 => (x + y) % 3 == 0
  | 4 => (x / 3 + y / 2) % 2 == 0
  | 5 => x * y % 2 + x * y % 3 == 0
  | 6 => (x * y % 2 + x * y % 3) % 2 == 0
  | _ => ((x + y) % 2 + x * y % 3) % 2 == 0

/-- The square under a mask, with the format information that names it. -/
def masked (c : Canvas) (level : Level) (mask : Nat) : Canvas :=
  let dark := c.dark.mapIdx fun i dark =>
    if c.fixed.getD i true then dark else dark != inverts mask (i % c.side) (i / c.side)
  { c with dark }.fixAll (formatInfo c.side level mask)

/-! ## Penalties -/

/-- Lengths of the runs of equal colour in a line, the first run being light and possibly empty. -/
def runs (line : List Bool) : List Nat :=
  go false 0 line
where
  go (colour : Bool) (length : Nat) : List Bool → List Nat
    | [] => [length]
    | b :: rest => if b == colour then go colour (length + 1) rest else length :: go b 1 rest

/-- A run of five costs three, every further module one. -/
def runPenalty (lengths : List Nat) : Nat :=
  lengths.foldl (fun cost n => cost + (if n < 5 then 0 else n - 2)) 0

/-- How often the seven runs at the front of a list, which start with a light one, look like a
finder pattern with a wide light border before or after it. -/
def finderLike : List Nat → Nat
  | a :: n :: b :: c :: d :: e :: f :: _ =>
    if 0 < n ∧ b = n ∧ c = 3 * n ∧ d = n ∧ e = n then
      (if 4 * n ≤ a ∧ n ≤ f then 1 else 0) + (if 4 * n ≤ f ∧ n ≤ a then 1 else 0)
    else 0
  | _ => 0

/-- Finder-like patterns in the runs of a line that start with a light one. -/
def countFinderLike : List Nat → Nat
  | a :: b :: rest => finderLike (a :: b :: rest) + countFinderLike rest
  | _ => 0

/-- The runs of a line with the light border, which is as wide as the square, on both sides. -/
def borderedRuns (side : Nat) (lengths : List Nat) : List Nat :=
  let closed := if lengths.length % 2 = 0 then lengths ++ [0] else lengths
  match closed with
  | [] => []
  | [only] => [only + 2 * side]
  | first :: rest => (first + side) :: (rest.dropLast ++ [rest.getLastD 0 + side])

def linePenalty (side : Nat) (line : List Bool) : Nat :=
  let lengths := runs line
  runPenalty lengths + 40 * countFinderLike (borderedRuns side lengths)

/-- Squares of four modules of one colour in two neighbouring lines. -/
def squareCount : List Bool → List Bool → Nat
  | a :: b :: upper, c :: d :: lower =>
    (if a == b && a == c && a == d then 1 else 0) + squareCount (b :: upper) (d :: lower)
  | _, _ => 0

def squaresIn : List (List Bool) → Nat
  | upper :: lower :: rest => squareCount upper lower + squaresIn (lower :: rest)
  | _ => 0

/-- Steps of five percent by which the share of dark modules is away from one half, beyond the
first. -/
def imbalance (dark total : Nat) : Nat :=
  let away := max (dark * 20 - total * 10) (total * 10 - dark * 20)
  (away + total - 1) / total - 1

def Canvas.rows (c : Canvas) : List (List Bool) := Bytes.pieces c.side c.side c.dark.toList

def penalty (c : Canvas) : Nat :=
  let rows := c.rows
  let columns := (List.range c.side).map fun x => (List.range c.side).map fun y => c.isDark x y
  let lines := (rows ++ columns).foldl (fun cost line => cost + linePenalty c.side line) 0
  lines + 3 * squaresIn rows + 10 * imbalance (c.dark.count true) (c.side * c.side)

/-- The candidate with the least penalty, the first of equals. -/
def leastPenalty : (best : Canvas) → (cost : Nat) → List Canvas → Canvas
  | best, _, [] => best
  | best, cost, c :: rest =>
    let own := penalty c
    if own < cost then leastPenalty c own rest else leastPenalty best cost rest

/-! ## Symbols -/

/-- A QR symbol: its rows of modules from the top, a dark module being true. -/
structure Symbol where
  rows : List (List Bool)

def Symbol.side (s : Symbol) : Nat := s.rows.length

/-- The symbol of a text as one byte segment, in the least version that holds it at medium level,
at the highest level that this version allows; nothing if no version holds it. -/
def symbol? (text : Bytes) : Option Symbol := do
  let version ← versionFor? text.length
  let level := levelFor version text.length
  let base := place (template version level) (codewordsOf version level text)
  let candidates := (List.range 8).map (masked base level)
  match candidates with
  | [] => none
  | first :: rest => return ⟨(leastPenalty first (penalty first) rest).rows⟩

end SecondFactor.Qr
