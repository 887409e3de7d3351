import DracVms.Detectors.RegionProposal

namespace DracVms.RegionProposal

/-- A detection with what the planner reads of it and what it writes into `extra`. -/
structure Deteccao where
  confidence : ℚ
  bbox : Box
  classId : ℤ
  stationary : Bool := false
  stationaryFrames : ℕ := 0
  stationaryReused : Bool := false
  deriving DecidableEq

/-- The same object: of one class, and the boxes overlap as much as that. -/
def mesmoObjeto (threshold : ℚ) (other item : Deteccao) : Bool :=
  decide (other.classId = item.classId) &&
    decide (threshold ≤ intersectionOverUnion other.bbox item.bbox)

def keepNew (threshold : ℚ) (kept : List (Deteccao × ℕ)) (next : Deteccao × ℕ) :
    List (Deteccao × ℕ) :=
  if kept.any fun other => mesmoObjeto threshold other.1 next.1 then kept else kept ++ [next]

def dedupeByIou (items : List Deteccao) (threshold : ℚ) : List Deteccao :=
  let indexed := items.zipIdx.insertionSort fun a b => b.1.confidence ≤ a.1.confidence
  let kept := indexed.foldl (keepNew threshold) []
  (kept.insertionSort fun a b => a.2 ≤ b.2).map Prod.fst

structure RegionPlan where
  regions : List Box := []
  carried : List Deteccao := []
  sweep : Bool := false
  idle : Bool := false
  skipped : ℕ := 0

structure Entry where
  payload : Deteccao
  box : Box
  classId : ℤ
  motionless : ℕ := 0
  lastSeen : ℕ := 0
  lastInfer : ℕ := 0
  skips : ℕ := 0
  deriving DecidableEq

structure Planner where
  entries : List Entry := []
  frameIndex : ℕ := 0
  sweeps : ℕ := 0
  skippedTotal : ℕ := 0

def carry (e : Entry) : Deteccao :=
  { e.payload with stationary := true, stationaryFrames := e.skips, stationaryReused := true }

/-- What becomes of an entry in a plan. -/
inductive Destino
  | coberto
  | pulado
  | forcado
  deriving DecidableEq

variable (config : RegionConfig)

def destino (regions boxes : List Box) (frameIndex : ℕ) (e : Entry) : Destino :=
  if regions.any fun region => boxInside region e.box then .coberto
  else
    let moving := boxes.any fun box => boxesIntersect e.box box
    let due := decide (config.stationaryInterval ≤ (frameIndex : ℤ) - e.lastInfer)
    let stationary := config.stationarySkip && decide (config.stationaryThreshold ≤ e.motionless)
    if stationary && !moving && !due then .pulado else .forcado

def Entry.skip (e : Entry) : Entry := { e with skips := e.skips + 1 }

def fullFrame (frame : FrameShape) : Box := ⟨0, 0, frame.w, frame.h⟩

/-- What becomes of an entry in the plan of a frame. -/
def goes (p : Planner) (frame : FrameShape) (boxes : List Box) : Entry → Destino :=
  destino config (buildRegions frame (boxes.map Box.values) config) boxes (p.frameIndex + 1)

/-- The regions of the motion with those that entries force. -/
def planned (frame : FrameShape) (built forced : List Box) : List Box :=
  if forced.isEmpty then built
  else (capRegions frame (dedupeRegions (built ++ forced)) config).insertionSort tupleLe

/-- Now and then the whole frame is added. -/
def swept (frame : FrameShape) (sweep : Bool) (regions : List Box) : List Box :=
  if sweep && !decide (fullFrame frame ∈ regions) then regions ++ [fullFrame frame] else regions

def plan (p : Planner) (frame : FrameShape) (motionBoxes : List (List (Option ℚ))) :
    Planner × RegionPlan :=
  let frameIndex := p.frameIndex + 1
  let boxes := motionBoxes.filterMap fun box => clipBox box frame
  let goes := goes config p frame boxes
  let skipped := p.entries.filter fun e => decide (goes e = .pulado)
  let forced := (p.entries.filter fun e => decide (goes e = .forcado)).map fun e =>
    calculateRegion frame e.box config.minSize config.margin
  let sweep := decide (0 < config.sweepEvery) &&
    decide (((frameIndex : ℤ) - 1) % config.sweepEvery = 0)
  let regions := swept frame sweep
    (planned config frame (buildRegions frame (boxes.map Box.values) config) forced)
  let idle := regions.isEmpty && skipped.isEmpty && config.idleFullFrame
  ({ entries := p.entries.map fun e => if goes e = .pulado then e.skip else e
     frameIndex := frameIndex
     sweeps := p.sweeps + if sweep then 1 else 0
     skippedTotal := p.skippedTotal + skipped.length },
   { regions := if idle then [fullFrame frame] else regions
     carried := skipped.map fun e => carry e.skip
     sweep := sweep
     idle := idle
     skipped := skipped.length })

/-- Detections that are matched to entries, with the entries' indexes. -/
structure Pareamento where
  entries : List Entry
  matched : List (ℕ × Deteccao) := []

/-- The entries that an item may be matched to, with the overlap. -/
def candidates (s : Pareamento) (item : Deteccao) : List (ℕ × ℚ) :=
  s.entries.zipIdx.filterMap fun (e, index) =>
    let iou := intersectionOverUnion e.box item.bbox
    if index ∈ s.matched.map Prod.fst ∨ e.classId ≠ item.classId then none
    else if config.matchIou ≤ iou ∧ 0 < iou then some (index, iou)
    else none

def overlapsMore (a b : ℕ × ℚ) : Prop := b.2 < a.2

instance : DecidableRel overlapsMore := fun a b => inferInstanceAs (Decidable (b.2 < a.2))

def Entry.seen (frameIndex : ℕ) (item : Deteccao) (iou : ℚ) (e : Entry) : Entry :=
  { e with
    motionless := if config.stationaryIou ≤ iou then e.motionless + 1 else 0
    payload := item
    box := item.bbox
    lastSeen := frameIndex
    lastInfer := frameIndex }

def matchItem (frameIndex : ℕ) (s : Pareamento) (item : Deteccao) : Pareamento :=
  match FirstBest.best overlapsMore (candidates config s item) with
  | some (index, iou) =>
    { entries := s.entries.modify index (Entry.seen config frameIndex item iou)
      matched := s.matched ++ [(index, item)] }
  | none =>
    { entries := s.entries ++ [⟨item, item.bbox, item.classId, 0, frameIndex, frameIndex, 0⟩]
      matched := s.matched ++ [(s.entries.length, item)] }

def matchAll (frameIndex : ℕ) (entries : List Entry) (fresh : List Deteccao) : Pareamento :=
  fresh.foldl (matchItem config frameIndex) ⟨entries, []⟩

def survives (executed : List Box) (frameIndex : ℕ) (matched : List (ℕ × Deteccao)) (e : Entry)
    (index : ℕ) : Bool :=
  if index ∈ matched.map Prod.fst then true
  else if executed.any fun region => boxInside region e.box then false
  else !decide (config.stationaryMaxAge ≤ (frameIndex : ℤ) - e.lastSeen)

def commit (p : Planner) (detections : List Deteccao) (chosen : RegionPlan)
    (executed : List Box) : Planner × List Deteccao :=
  let fresh := dedupeByIou detections config.mergeIou
  let pairs := matchAll config p.frameIndex p.entries fresh
  let survivors := (pairs.entries.zipIdx.filter fun (e, index) =>
    survives config executed p.frameIndex pairs.matched e index).map Prod.fst
  ({ p with entries := survivors },
   if chosen.carried.isEmpty then fresh
   else dedupeByIou (fresh ++ chosen.carried) config.mergeIou)

/-- A frame: its size, the motion in it, and what is detected in the planned regions. -/
structure Quadro where
  frame : FrameShape
  motionBoxes : List (List (Option ℚ))
  detections : List Deteccao

/-- The plan and its commit, with all the regions of the plan executed. -/
def rodar (p : Planner) (q : Quadro) : Planner × List Deteccao :=
  let chosen := plan config p q.frame q.motionBoxes
  commit config chosen.1 q.detections chosen.2 chosen.2.regions

/-- The matching of a frame's detections, that the commit makes. -/
def pareados (p : Planner) (q : Quadro) : Pareamento :=
  let after := (plan config p q.frame q.motionBoxes).1
  matchAll config after.frameIndex after.entries (dedupeByIou q.detections config.mergeIou)

def depois (p : Planner) (quadros : List Quadro) : Planner :=
  quadros.foldl (fun p q => (rodar config p q).1) p

end DracVms.RegionProposal
