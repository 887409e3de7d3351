import DracVms.Library.Binary64
import DracVms.Library.FirstBest
import DracVms.Library.IndexPairs

namespace DracVms.RegionProposal

open Binary64 (double)

@[ext] structure Box where
  x1 : ℤ
  y1 : ℤ
  x2 : ℤ
  y2 : ℤ
  deriving DecidableEq

/-- The height and the width of a frame. -/
structure FrameShape where
  h : ℤ
  w : ℤ

/-! The configuration. -/

/-- The environment: the stripped text of a variable, empty where it is unset, and what Python's
`int` and `float` read in a text, the finite numbers only. -/
structure Env where
  text : String → String
  int : String → Option ℤ
  float : String → Option ℚ

def envBool (env : Env) (name : String) (default : Bool) : Bool :=
  let raw := (env.text name).toLower
  if raw ∈ ["1", "true", "yes", "on"] then true
  else if raw ∈ ["0", "false", "no", "off"] then false
  else default

def clamp {α : Type} [LinearOrder α] (value minimum maximum : α) : α :=
  min maximum (max minimum value)

def envInt (env : Env) (name : String) (default minimum maximum : ℤ) : ℤ :=
  if env.text name = "" then default
  else match env.int (env.text name) with
    | none => default
    | some value => clamp value minimum maximum

def envFloat (env : Env) (name : String) (default minimum maximum : ℚ) : ℚ :=
  if env.text name = "" then default
  else match env.float (env.text name) with
    | none => default
    | some value => clamp value minimum maximum

structure RegionConfig where
  enabled : Bool := false
  minSize : ℤ := 320
  margin : ℚ := double (135 / 100)
  maxRegions : ℤ := 4
  sweepEvery : ℤ := 20
  idleFullFrame : Bool := true
  stationarySkip : Bool := true
  stationaryThreshold : ℤ := 3
  stationaryInterval : ℤ := 10
  stationaryIou : ℚ := double (85 / 100)
  stationaryMaxAge : ℤ := 45
  matchIou : ℚ := double (45 / 100)
  mergeIou : ℚ := double (6 / 10)
  deriving DecidableEq

def fromEnv (env : Env) : RegionConfig where
  enabled := envBool env "GENERAL_REGION_DETECTION" false
  minSize := envInt env "GENERAL_REGION_MIN_SIZE" 320 32 4096
  margin := envFloat env "GENERAL_REGION_MARGIN" (double (135 / 100)) 1 4
  maxRegions := envInt env "GENERAL_REGION_MAX" 4 1 32
  sweepEvery := envInt env "GENERAL_REGION_SWEEP_EVERY" 20 0 100000
  idleFullFrame := envBool env "GENERAL_REGION_IDLE_FULL_FRAME" true
  stationarySkip := envBool env "GENERAL_REGION_STATIONARY_SKIP" true
  stationaryThreshold := envInt env "GENERAL_REGION_STATIONARY_THRESHOLD" 3 1 1000
  stationaryInterval := envInt env "GENERAL_REGION_STATIONARY_INTERVAL" 10 1 100000
  stationaryIou := envFloat env "GENERAL_REGION_STATIONARY_IOU" (double (85 / 100)) 0 1
  stationaryMaxAge := envInt env "GENERAL_REGION_STATIONARY_MAX_AGE" 45 1 100000
  matchIou := envFloat env "GENERAL_REGION_MATCH_IOU" (double (45 / 100)) 0 1
  mergeIou := envFloat env "GENERAL_REGION_MERGE_IOU" (double (6 / 10)) 0 1

theorem envInt_bounds (env : Env) (name : String) {default minimum maximum : ℤ}
    (low : minimum ≤ default) (high : default ≤ maximum) :
    minimum ≤ envInt env name default minimum maximum ∧
      envInt env name default minimum maximum ≤ maximum := by
  have ordered := low.trans high
  unfold envInt
  split
  · exact ⟨low, high⟩
  · split
    · exact ⟨low, high⟩
    · unfold clamp
      exact ⟨le_min ordered (le_max_left _ _), min_le_left _ _⟩

/-! Geometry. -/

def area (b : Box) : ℤ := max 0 (b.x2 - b.x1) * max 0 (b.y2 - b.y1)

def boxesIntersect (a b : Box) : Bool :=
  !(decide (a.x2 < b.x1) || decide (b.x2 < a.x1) || decide (b.y2 < a.y1) || decide (a.y2 < b.y1))

def boxInside (outer inner : Box) : Bool :=
  decide (outer.x1 ≤ inner.x1) && decide (outer.y1 ≤ inner.y1) && decide (inner.x2 ≤ outer.x2) &&
    decide (inner.y2 ≤ outer.y2)

def intersectionOverUnion (a b : Box) : ℚ :=
  let inter := max 0 (min a.x2 b.x2 - max a.x1 b.x1) * max 0 (min a.y2 b.y2 - max a.y1 b.y1)
  if inter ≤ 0 then 0
  else
    let union := area a + area b - inter
    if union ≤ 0 then 0 else double (inter / union)

/-- Python's `round`: to the nearest, a half to the even one. -/
def pyRound (q : ℚ) : ℤ :=
  if q - ⌊q⌋ < 1 / 2 then ⌊q⌋
  else if 1 / 2 < q - ⌊q⌋ then ⌊q⌋ + 1
  else if ⌊q⌋ % 2 = 0 then ⌊q⌋
  else ⌊q⌋ + 1

/-- A box as it comes: a `none` is a value that has no nearest integer. -/
def clipBox (box : List (Option ℚ)) (frame : FrameShape) : Option Box :=
  match box with
  | some x1 :: some y1 :: some x2 :: some y2 :: _ =>
    let clipped : Box := ⟨max 0 (min frame.w (pyRound x1)), max 0 (min frame.h (pyRound y1)),
      max 0 (min frame.w (pyRound x2)), max 0 (min frame.h (pyRound y2))⟩
    if clipped.x2 ≤ clipped.x1 ∨ clipped.y2 ≤ clipped.y1 then none else some clipped
  | _ => none

def Box.values (b : Box) : List (Option ℚ) :=
  [some (b.x1 : ℚ), some (b.y1 : ℚ), some (b.x2 : ℚ), some (b.y2 : ℚ)]

def unionBox (a b : Box) : Box := ⟨min a.x1 b.x1, min a.y1 b.y1, max a.x2 b.x2, max a.y2 b.y2⟩

/-- The side of a region, a multiple of four where it is above the least one. -/
def side (b : Box) (minSize : ℤ) (multiplier : ℚ) : ℤ :=
  let size := ⌊double ((max (b.x2 - b.x1) (b.y2 - b.y1) : ℤ) * multiplier) / 4⌋ * 4
  if size < minSize then minSize else size

/-- A square of the side around the middle of the box, as far as the frame has room for it. -/
def square (frame : FrameShape) (b : Box) (size : ℤ) : Box :=
  let width := max 4 (min size frame.w)
  let height := max 4 (min size frame.h)
  let xOffset := max 0 (min ((b.x1 + b.x2 - width).tdiv 2) (frame.w - width))
  let yOffset := max 0 (min ((b.y1 + b.y2 - height).tdiv 2) (frame.h - height))
  ⟨xOffset, yOffset, xOffset + width, yOffset + height⟩

def calculateRegion (frame : FrameShape) (b : Box) (minSize : ℤ) (multiplier : ℚ) : Box :=
  let region := square frame b (side b minSize multiplier)
  match clipBox b.values frame with
  | some source => if !boxInside region source then unionBox region source else region
  | none => region

/-- Python's `int` of a number with a fraction. -/
def trunc (q : ℚ) : ℤ := if 0 ≤ q then ⌊q⌋ else ⌈q⌉

/-- The root is the whole part of what `math.sqrt` gives for an area below 2^52. -/
def clusterBoundary (b : Box) (minSize : ℤ) : Box :=
  let width := b.x2 - b.x1
  let height := b.y2 - b.y1
  let maxRegionArea := double ((width * height).natAbs / double (1 / 10))
  let maxRegionSize := max minSize (Nat.sqrt ⌊maxRegionArea⌋.toNat : ℤ)
  let x := double (double ((width : ℚ) / 2) + b.x1)
  let y := double (double ((height : ℚ) / 2) + b.y1)
  let reach (length : ℤ) : ℤ :=
    trunc (double (maxRegionSize - double (double ((length : ℚ) / 2) * double (11 / 10))))
  ⟨trunc (double (x - reach width)), trunc (double (y - reach height)),
    trunc (double (x + reach width)), trunc (double (y + reach height))⟩

/-- Boxes that are inferred together, the one the cluster was opened for first. -/
structure Cluster where
  first : Box
  others : List Box

def Cluster.boxes (c : Cluster) : List Box := c.first :: c.others

def regionForCluster (frame : FrameShape) (config : RegionConfig) (c : Cluster) : Box :=
  calculateRegion frame (c.others.foldl unionBox c.first) config.minSize config.margin

/-- No box is dust in the region that they would make. -/
def shouldCluster (frame : FrameShape) (config : RegionConfig) (candidate : Cluster) : Bool :=
  let region := regionForCluster frame config candidate
  if config.minSize < region.x2 - region.x1 then
    candidate.boxes.all fun b =>
      !decide (double ((area b : ℚ) / (max 1 (area region) : ℤ)) < double (5 / 100))
  else true

/-- One box, with its index, for a cluster and the indexes used so far. -/
def tryBox (frame : FrameShape) (config : RegionConfig) (boundary : Box)
    (s : Cluster × List ℕ) (compare : Box × ℕ) : Cluster × List ℕ :=
  if compare.2 ∈ s.2 then s
  else if !boxInside boundary compare.1 then s
  else
    let candidate : Cluster := ⟨s.1.first, s.1.others ++ [compare.1]⟩
    if shouldCluster frame config candidate then (candidate, s.2 ++ [compare.2]) else s

def openCluster (frame : FrameShape) (config : RegionConfig) (boxes : List Box)
    (s : List Cluster × List ℕ) (current : Box × ℕ) : List Cluster × List ℕ :=
  if current.2 ∈ s.2 then s
  else
    let boundary := clusterBoundary current.1 config.minSize
    let found := boxes.zipIdx.foldl (tryBox frame config boundary)
      (⟨current.1, []⟩, s.2 ++ [current.2])
    (s.1 ++ [found.1], found.2)

def clusterBoxes (frame : FrameShape) (boxes : List Box) (config : RegionConfig) : List Cluster :=
  (boxes.zipIdx.foldl (openCluster frame config boxes) ([], [])).1

def dedupeRegions (regions : List Box) : List Box :=
  let unique := regions.eraseDups
  unique.filter fun region =>
    !unique.any fun other => decide (other ≠ region) && boxInside other region

/-- Two regions by their positions, with the box around them and its area. -/
structure Fusao where
  area : ℤ
  i : ℕ
  j : ℕ
  merged : Box

def fusoes (current : List Box) : List Fusao :=
  (IndexPairs.below current.length).filterMap fun (i, j) =>
    match current[i]?, current[j]? with
    | some a, some b => some ⟨area (unionBox a b), i, j, unionBox a b⟩
    | _, _ => none

def smaller (a b : Fusao) : Prop := a.area < b.area

instance : DecidableRel smaller := fun a b => inferInstanceAs (Decidable (a.area < b.area))

def mergeAt (frame : FrameShape) (config : RegionConfig) (current : List Box) (f : Fusao) :
    List Box :=
  let rest := current.zipIdx.filter fun (_, index) => decide (index ≠ f.i) && decide (index ≠ f.j)
  rest.map Prod.fst ++ [calculateRegion frame f.merged config.minSize 1]

/-- The loop of `cap_regions`; the number is what is left to the guard. -/
def capLoop (frame : FrameShape) (config : RegionConfig) : ℕ → List Box → List Box
  | 0, current => current
  | guard + 1, current =>
    if (current.length : ℤ) ≤ max 1 config.maxRegions then current
    else match FirstBest.best smaller (fusoes current) with
      | none => current
      | some f => capLoop frame config guard (mergeAt frame config current f)

def capRegions (frame : FrameShape) (regions : List Box) (config : RegionConfig) : List Box :=
  capLoop frame config 1000 regions

/-- The order of Python's tuples. -/
def tupleLe (a b : Box) : Prop :=
  a.x1 < b.x1 ∨ a.x1 = b.x1 ∧
    (a.y1 < b.y1 ∨ a.y1 = b.y1 ∧ (a.x2 < b.x2 ∨ a.x2 = b.x2 ∧ a.y2 ≤ b.y2))

instance : DecidableRel tupleLe := fun a b => inferInstanceAs (Decidable (a.x1 < b.x1 ∨
  a.x1 = b.x1 ∧ (a.y1 < b.y1 ∨ a.y1 = b.y1 ∧ (a.x2 < b.x2 ∨ a.x2 = b.x2 ∧ a.y2 ≤ b.y2))))

/-- The regions of the clusters, before they are capped. -/
def proposed (frame : FrameShape) (valid : List Box) (config : RegionConfig) : List Box :=
  dedupeRegions ((clusterBoxes frame valid config).map (regionForCluster frame config))

def buildRegions (frame : FrameShape) (boxes : List (List (Option ℚ))) (config : RegionConfig) :
    List Box :=
  let valid := boxes.filterMap fun box => clipBox box frame
  if valid.isEmpty then []
  else (capRegions frame (proposed frame valid config) config).insertionSort tupleLe

end DracVms.RegionProposal
