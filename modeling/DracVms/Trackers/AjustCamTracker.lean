import DracVms.Trackers.SwapCorrection

namespace DracVms.AjustCamTracker

structure Bbox where
  x1 : ℚ
  y1 : ℚ
  x2 : ℚ
  y2 : ℚ

/-- The bottom centre of a box, its width and its height. -/
structure Medida where
  x : ℚ
  y : ℚ
  w : ℚ
  h : ℚ

def iou (a b : Bbox) : ℚ :=
  let iw := max 0 (min a.x2 b.x2 - max a.x1 b.x1)
  let ih := max 0 (min a.y2 b.y2 - max a.y1 b.y1)
  let inter := iw * ih
  if inter ≤ 0 then 0
  else
    let areaA := max 0 (a.x2 - a.x1) * max 0 (a.y2 - a.y1)
    let areaB := max 0 (b.x2 - b.x1) * max 0 (b.y2 - b.y1)
    let union := areaA + areaB - inter
    if 0 < union then inter / union else 0

def toZ (b : Bbox) : Medida := ⟨(b.x1 + b.x2) / 2, b.y2, max 1 (b.x2 - b.x1), max 1 (b.y2 - b.y1)⟩

def toBbox (z : Medida) : Bbox :=
  let w := max 1 z.w
  let h := max 1 z.h
  ⟨z.x - w / 2, z.y - h, z.x + w / 2, z.y⟩

/-- `_distance` in exact arithmetic. -/
def distance (prediction z : Medida) : ℚ :=
  let w := max (max prediction.w z.w) 1
  let h := max (max prediction.h z.h) 1
  let dPos := max (|prediction.x - z.x| / w) (|prediction.y - z.y| / h)
  let dSize := max (|prediction.w - z.w| / max prediction.w 1)
    (|prediction.h - z.h| / max prediction.h 1)
  dPos + 1 / 2 * dSize

def median (values : List ℚ) : ℚ :=
  let sorted := values.insertionSort (· ≤ ·)
  let n := sorted.length
  if n % 2 = 1 then sorted.getD (n / 2) 0
  else (sorted.getD (n / 2 - 1) 0 + sorted.getD (n / 2) 0) / 2

def medianBox (history : List Bbox) : Bbox :=
  ⟨median (history.map Bbox.x1), median (history.map Bbox.y1), median (history.map Bbox.x2),
    median (history.map Bbox.y2)⟩

/-- What numpy and OpenCV compute: the Kalman filter `K` of a track, its distance to a detection
and the histogram `S` of a box in a frame `F`. -/
structure Visao (K S F : Type) where
  kalman : Medida → K
  predict : K → K
  position : K → Medida
  correct : K → Medida → K
  /-- `x[4:] *= 0.9` -/
  damp : K → K
  /-- `x[4:] = 0.0` -/
  stop : K → K
  shift : ℚ → ℚ → ℚ → K → K
  distance : Medida → Medida → ℚ
  signature : F → Bbox → Option S
  /-- `np.minimum(a, b).sum()` -/
  overlap : S → S → ℚ
  mix : S → S → S

structure Ajustes where
  classId : ℤ
  activationThreshold : ℚ
  maxActiveMisses : ℕ
  lowConfFloor : ℚ := 1 / 10
  recoveryGraceS : ℚ := 2
  stationaryFrames : ℕ := 10
  stationaryIou : ℚ := 88 / 100
  stationaryOutIou : ℚ := 7 / 10
  matchGate : ℚ := 1
  recoveryGate : ℚ := 18 / 10
  appearance : Bool := true
  appearanceVeto : ℚ := 1 / 10
  appearanceWeight : ℚ := 1 / 4
  minHits : ℕ := 1
  stationaryCoast : Bool := true

structure Track (K S : Type) where
  kf : K
  trackId : ℕ
  confidence : ℚ
  hits : ℕ := 1
  misses : ℕ := 0
  lostAt : ℚ := 0
  history : List Bbox
  stationary : Bool := false
  stationaryBreak : ℕ := 0
  recovered : Bool := false
  lastZ : Medida
  signature : Option S := none

structure Stats where
  recoveries : ℕ := 0
  created : ℕ := 0
  dropped : ℕ := 0
  stationaryNow : ℕ := 0
  lowConfMatches : ℕ := 0
  appearanceSwaps : ℕ := 0

structure Tracker (K S : Type) where
  tracks : List (Track K S) := []
  nextId : ℕ := 1
  stats : Stats := {}

structure TrackedBox where
  bbox : Bbox
  confidence : ℚ
  classId : ℤ
  trackId : ℕ
  stationary : Bool
  recovered : Bool
  misses : ℕ
  coasted : Bool

structure Deteccao where
  bbox : Bbox
  score : ℚ

/-- The arguments of `update` and what `time.monotonic()` says. -/
structure Quadro (F : Type) where
  now : ℚ
  deteccoes : List Deteccao
  frame : Option F

/-- A track as `_associate` sees it, by its place in the list of tracks. -/
structure Linha (K S : Type) where
  place : ℕ
  track : Track K S
  prediction : Medida

structure Coluna (S : Type) where
  index : ℕ
  z : Medida
  score : ℚ
  signature : Option S

/-- The tracker in the middle of an update; `given` are the detections that tracks have received,
by the tracks' places, and `created` the ids of the new tracks with theirs. -/
structure Passo (K S : Type) where
  tracks : List (Track K S)
  nextId : ℕ
  stats : Stats
  given : List (ℕ × ℕ) := []
  created : List (ℕ × ℕ) := []

def Passo.matchedTracks {K S : Type} (s : Passo K S) : Finset ℕ := (s.given.map Prod.fst).toFinset

def Passo.matchedDets {K S : Type} (s : Passo K S) : Finset ℕ := (s.given.map Prod.snd).toFinset

def Track.lost {K S : Type} (t : Track K S) : Bool := decide (0 < t.lostAt)

section Association

variable {K S F : Type} (v : Visao K S F) (cfg : Ajustes)

def similarity : Option S → Option S → Option ℚ
  | some a, some b => some (v.overlap a b)
  | _, _ => none

def blend : Option S → Option S → Option S
  | old, none => old
  | none, some new => some new
  | some old, some new => some (v.mix old new)

/-- The gate opens with the frames that the track was not seen. -/
def gateOf (gate : ℚ) (t : Track K S) : ℚ := gate * (1 + 12 / 100 * (min t.misses 10 : ℕ))

/-- The nearer of where the track should be and where it was seen. -/
def anchored (l : Linha K S) (c : Coluna S) : ℚ :=
  min (v.distance l.prediction c.z) (v.distance l.track.lastZ c.z)

def cost (gate : ℚ) (recovering : Bool) (l : Linha K S) (c : Coluna S) : ℚ :=
  let d := anchored v l c
  if gateOf gate l.track ≤ d then 1000000
  else match similarity v l.track.signature c.signature with
    | none => d
    | some sim =>
      if recovering && decide (sim < cfg.appearanceVeto) then 1000000
      else d + cfg.appearanceWeight * (1 - sim)

def entry (costs : List (List ℚ)) (r c : ℕ) : ℚ := (costs[r]?.bind fun row => row[c]?).getD 1000000

/-- The order of Python's tuples. -/
def tupleLe (a b : ℚ × ℕ × ℕ) : Prop :=
  a.1 < b.1 ∨ a.1 = b.1 ∧ (a.2.1 < b.2.1 ∨ a.2.1 = b.2.1 ∧ a.2.2 ≤ b.2.2)

instance : DecidableRel tupleLe := fun a b => inferInstanceAs (Decidable
  (a.1 < b.1 ∨ a.1 = b.1 ∧ (a.2.1 < b.2.1 ∨ a.2.1 = b.2.1 ∧ a.2.2 ≤ b.2.2)))

def takeFree (pairs : List (ℕ × ℕ)) (candidate : ℚ × ℕ × ℕ) : List (ℕ × ℕ) :=
  if candidate.2.1 ∈ pairs.map Prod.fst ∨ candidate.2.2 ∈ pairs.map Prod.snd then pairs
  else pairs ++ [candidate.2]

def greedy (costs : List (List ℚ)) : List (ℕ × ℕ) :=
  let flat := costs.zipIdx.flatMap fun (row, r) => row.zipIdx.filterMap fun (value, c) =>
    if value < 100000 then some (value, r, c) else none
  (flat.insertionSort tupleLe).foldl takeFree []

/-- `hungarian` is scipy's `linear_sum_assignment`, where it is installed. -/
def assigned (hungarian : Option (List (List ℚ) → List (ℕ × ℕ))) (costs : List (List ℚ)) :
    List (ℕ × ℕ) :=
  match hungarian with
  | some solve => (solve costs).filter fun p => decide (entry costs p.1 p.2 < 100000)
  | none => greedy costs

def remember (history : List Bbox) (b : Bbox) : List Bbox :=
  (history ++ [b]).drop (history.length + 1 - cfg.stationaryFrames)

def born (id : ℕ) (c : Coluna S) : Track K S where
  kf := v.kalman c.z
  trackId := id
  confidence := c.score
  history := remember cfg [] (toBbox c.z)
  lastZ := c.z
  signature := c.signature

def observe (recovering reset : Bool) (c : Coluna S) (t : Track K S) : Track K S :=
  let wasLost := recovering || t.lost
  { t with
    kf := v.correct (if reset then v.stop t.kf else t.kf) c.z
    lastZ := c.z
    signature := blend v t.signature c.signature
    confidence := min (max (6 / 10 * t.confidence + 4 / 10 * c.score) 0) 1
    hits := t.hits + 1
    misses := 0
    history := remember cfg t.history (toBbox c.z)
    recovered := wasLost
    lostAt := if wasLost then 0 else t.lostAt }

/-- One pair of the association, with the rows whose velocity is reset. -/
def give (recovering : Bool) (rows : List (Linha K S)) (cols : List (Coluna S)) (reset : List ℕ)
    (s : Passo K S) (p : ℕ × ℕ) : Passo K S :=
  match rows[p.1]?, cols[p.2]? with
  | some l, some c =>
    { s with
      tracks := s.tracks.modify l.place (observe v cfg recovering (decide (p.1 ∈ reset)) c)
      given := s.given ++ [(l.place, c.index)] }
  | _, _ => s

/-- The similarity of a row and a column, for the swaps. -/
def alike (rows : List (Linha K S)) (cols : List (Coluna S)) (r c : ℕ) : Option ℚ :=
  match rows[r]?, cols[c]? with
  | some l, some k => similarity v l.track.signature k.signature
  | _, _ => none

def within (gate : ℚ) (rows : List (Linha K S)) (cols : List (Coluna S)) (r c : ℕ) : Bool :=
  match rows[r]?, cols[c]? with
  | some l, some k => decide (anchored v l k < gateOf gate l.track)
  | _, _ => false

/-- The pairs are given out; with how many tracks came back by them. -/
def deliver (recovering : Bool) (rows : List (Linha K S)) (cols : List (Coluna S)) (s : Passo K S)
    (c : Correcao) : Passo K S × ℕ :=
  let swaps := { s.stats with appearanceSwaps := s.stats.appearanceSwaps + c.appearanceSwaps }
  (c.pairs.foldl (give v cfg recovering rows cols c.velocityReset) { s with stats := swaps },
    c.pairs.countP fun p => (rows[p.1]?).any fun l => recovering || l.track.lost)

variable (hungarian : Option (List (List ℚ) → List (ℕ × ℕ))) (fuel : ℕ)

/-- The pairs of `_associate` after the swaps; the `fuel` is for the loop of the swaps. -/
def settled (gate : ℚ) (recovering : Bool) (rows : List (Linha K S)) (cols : List (Coluna S)) :
    Option Correcao :=
  let pairs := assigned hungarian (rows.map fun l => cols.map (cost v cfg gate recovering l))
  if !recovering && decide (2 ≤ pairs.length) then
    corrigirTrocas (alike v rows cols) (within v gate rows cols) fuel ⟨pairs, [], 0⟩
  else some ⟨pairs, [], 0⟩

/-- The tracker after an association and how many tracks it recovered. -/
def associate (gate : ℚ) (recovering : Bool) (rows : List (Linha K S)) (cols : List (Coluna S))
    (s : Passo K S) : Option (Passo K S × ℕ) :=
  if rows.isEmpty || cols.isEmpty then some (s, 0)
  else
    (settled v cfg hungarian fuel gate recovering rows cols).map
      (deliver v cfg recovering rows cols s)

end Association

section Update

variable {K S F : Type} (v : Visao K S F) (cfg : Ajustes)

/-- Boxes that overlap too much have no signature. -/
def detSig (q : Quadro F) (i : ℕ) (b : Bbox) : Option S :=
  match cfg.appearance, q.frame with
  | true, some frame =>
    if (q.deteccoes.zipIdx).any fun (d, j) =>
      (decide (i < j) && decide (3 / 10 < iou b d.bbox)) ||
        (decide (j < i) && decide (3 / 10 < iou d.bbox b))
    then none
    else v.signature frame b
  | _, _ => none

def colunas (q : Quadro F) : List (Coluna S) :=
  q.deteccoes.zipIdx.map fun (d, i) => ⟨i, toZ d.bbox, d.score, detSig v cfg q i d.bbox⟩

def high (q : Quadro F) : List (Coluna S) :=
  (colunas v cfg q).filter fun c => decide (cfg.activationThreshold ≤ c.score)

def low (q : Quadro F) : List (Coluna S) :=
  (colunas v cfg q).filter fun c =>
    decide (cfg.lowConfFloor ≤ c.score) && decide (c.score < cfg.activationThreshold)

def linhas (tracks : List (Track K S)) : List (Linha K S) :=
  tracks.zipIdx.map fun (t, i) => ⟨i, t, v.position t.kf⟩

def miss (now : ℚ) (t : Track K S) : Track K S :=
  let misses := t.misses + 1
  let missBudget := cfg.maxActiveMisses * if t.stationary then 3 else 1
  { t with
    misses := misses
    recovered := false
    kf := v.damp t.kf
    lostAt := if !t.lost && decide (missBudget < misses) then now else t.lostAt }

def missAll (now : ℚ) (s : Passo K S) : Passo K S :=
  { s with tracks := s.tracks.zipIdx.map fun (t, i) =>
      if i ∈ s.matchedTracks then t else miss v cfg now t }

def create (s : Passo K S) (c : Coluna S) : Passo K S :=
  if c.index ∈ s.matchedDets then s
  else
    { s with
      tracks := s.tracks ++ [born v cfg s.nextId c]
      given := s.given ++ [(s.tracks.length, c.index)]
      created := s.created ++ [(s.nextId, c.index)]
      nextId := s.nextId + 1
      stats := { s.stats with created := s.stats.created + 1 } }

def updateStationary (t : Track K S) : Track K S :=
  if t.history.length < cfg.stationaryFrames then
    { t with stationary := false, stationaryBreak := 0 }
  else
    let box := medianBox t.history
    let value := iou (t.history.getLastD box) box
    if t.stationary then
      if value < cfg.stationaryOutIou then
        if 3 ≤ t.stationaryBreak + 1 then { t with stationary := false, stationaryBreak := 0 }
        else { t with stationaryBreak := t.stationaryBreak + 1 }
      else { t with stationaryBreak := 0 }
    else { t with stationary := decide (cfg.stationaryIou ≤ value) }

def expired (now : ℚ) (t : Track K S) : Bool :=
  t.lost && decide (cfg.recoveryGraceS < now - t.lostAt)

/-- A track after the update and the box that is put out for it. -/
def emit (matched : Finset ℕ) (t : Track K S) (i : ℕ) : Track K S × Option TrackedBox :=
  let observed := !t.lost && decide (i ∈ matched)
  let coasting :=
    cfg.stationaryCoast && t.stationary && !t.lost && !observed && decide (0 < t.misses)
  if !observed && !coasting then (t, none)
  else if t.hits < cfg.minHits then (t, none)
  else
    let after := if observed then updateStationary cfg t else t
    (after, some ⟨toBbox (v.position after.kf), after.confidence, cfg.classId, after.trackId,
      after.stationary, after.recovered, after.misses, coasting⟩)

/-- What an update leaves: the tracker and the boxes put out, with all the tracks there were before
the expired ones were dropped, what was given to them and which were new. -/
structure Atualizacao (K S : Type) where
  tracker : Tracker K S
  output : List TrackedBox
  tracks : List (Track K S)
  given : List (ℕ × ℕ)
  created : List (ℕ × ℕ)

def finish (now : ℚ) (s : Passo K S) : Atualizacao K S :=
  let kept := s.tracks.zipIdx.filter fun (t, _) => !expired cfg now t
  let emitted := kept.map fun (t, i) => emit v cfg s.matchedTracks t i
  let output := emitted.filterMap Prod.snd
  { tracker :=
      { tracks := emitted.map Prod.fst
        nextId := s.nextId
        stats := { s.stats with
          dropped := s.stats.dropped + (s.tracks.length - kept.length)
          stationaryNow := output.countP TrackedBox.stationary } }
    output := output
    tracks := s.tracks
    given := s.given
    created := s.created }

variable (hungarian : Option (List (List ℚ) → List (ℕ × ℕ))) (fuel : ℕ)

/-- The three associations. -/
def associations (q : Quadro F) (s : Passo K S) : Option (Passo K S) := do
  let rows := linhas v s.tracks
  let active := rows.filter fun l => !l.track.lost
  let lost := rows.filter fun l => l.track.lost
  let (s1, _) ← associate v cfg hungarian fuel cfg.matchGate false active (high v cfg q) s
  let (s2, _) ← associate v cfg hungarian fuel cfg.matchGate false
    (active.filter fun l => decide (l.place ∉ s1.matchedTracks)) (low v cfg q) s1
  let held := s2.matchedDets.card - s1.matchedDets.card
  let (s3, recovered) ← associate v cfg hungarian fuel cfg.recoveryGate true
    (lost.filter fun l => decide (l.place ∉ s2.matchedTracks))
    ((high v cfg q).filter fun c => decide (c.index ∉ s2.matchedDets)) s2
  return { s3 with stats := { s3.stats with
    lowConfMatches := s3.stats.lowConfMatches + held
    recoveries := s3.stats.recoveries + recovered } }

def update (t : Tracker K S) (q : Quadro F) : Option (Atualizacao K S) :=
  let predicted := t.tracks.map fun k => { k with kf := v.predict k.kf }
  (associations v cfg hungarian fuel q ⟨predicted, t.nextId, t.stats, [], []⟩).map fun s =>
    finish v cfg q.now ((high v cfg q).foldl (create v cfg) (missAll v cfg q.now s))

def applyGlobalShift (dx dy scale : ℚ) (t : Tracker K S) : Tracker K S :=
  if dx = 0 ∧ dy = 0 ∧ scale = 1 then t
  else { t with tracks := t.tracks.map fun k => { k with kf := v.shift dx dy scale k.kf } }

/-- What the detector asks of a tracker. -/
inductive Chamada (F : Type)
  | applyGlobalShift (dx dy scale : ℚ)
  | update (q : Quadro F)

/-- A tracker with the updates that it has made. -/
structure Rastreio (K S F : Type) where
  tracker : Tracker K S := {}
  feitas : List (Quadro F × Atualizacao K S) := []

def chamar (r : Rastreio K S F) : Chamada F → Option (Rastreio K S F)
  | .applyGlobalShift dx dy scale =>
    some { r with tracker := applyGlobalShift v dx dy scale r.tracker }
  | .update q =>
    (update v cfg hungarian fuel r.tracker q).map fun u => ⟨u.tracker, r.feitas ++ [(q, u)]⟩

end Update

end DracVms.AjustCamTracker
