import DracVms.CameraStream.PathTeardown

namespace DracVms.PathTeardown

open List KeyedList

open Json (Text)
open KeyedList (lookup updateAt)

/-! What a camera delivers. -/

/-- The delivery paths of a camera, and the sources behind them. -/
def pathNames (cameraId : Text) : List Text :=
  LiveViewMode.all.flatMap fun mode =>
    let pathName := pathNameFromCameraId cameraId mode
    [pathName, privateSourcePathName pathName]

structure Silent (s : System) (cameraId : Text) : Prop where
  paths : ∀ pathName ∈ pathNames cameraId, pathName ∉ s.paths
  cached : ∀ mode now, s.cached cameraId mode now = none

/-- The request that switched the camera off is over, and so are the preparations that started
before. -/
structure Finished (s : System) (camera : Camera) : Prop where
  request : ∀ request ∈ s.requests, request.token ≠ camera.disabledBy
  preparations : ∀ preparation ∈ s.preparations, preparation.cameraId = camera.id →
    ¬preparation.token < camera.since

def DeliversNothing (steps : List Step) : Prop :=
  ∀ n s, Runs.run step .empty (steps.take n) = some s → ∀ camera ∈ s.cameras,
    camera.status ≠ .enabled → Finished s camera → Silent s camera.id

/-! The condition on the steps. -/

/-- The paths that a preparation may still add. -/
def Preparation.ahead (preparation : Preparation) : List Text :=
  let pathName := pathNameFromCameraId preparation.cameraId preparation.mode
  match preparation.phase with
  | .reading | .refused _ | .settling => []
  | .looking | .deleting | .adding => [pathName]
  | .resolving | .lookingSource | .deletingSource | .addingSource =>
    [pathName, privateSourcePathName pathName]

/-- The preparation has seen the camera switched on. -/
def Preparation.isUnderWay (preparation : Preparation) : Bool :=
  match preparation.phase with
  | .reading | .refused _ => false
  | _ => true

/-- The request has switched off the camera as it is. -/
def SwitchedOff (s : System) (request : Request) : Prop :=
  ∃ camera ∈ s.cameras, camera.id = request.cameraId ∧ camera.status ≠ .enabled ∧
    camera.disabledBy = request.token

/-- A camera that is switched off has its paths taken down, no delete fails, and a path is deleted
when no preparation may still add it, as the results are forgotten when none may still come. A camera
that is deleted is switched off. -/
def Timely (s : System) (ok : Bool) (request : Request) : Prop :=
  match request.work with
  | .write dto wasEnabled existing => s.isEnabled request.cameraId = true →
      dto.getD existing = false → dto = some false ∧ wasEnabled = true
  | .tear _ (.delete pathName :: _) => SwitchedOff s request →
      (ok = true ∨ pathName ∉ s.paths) ∧
        ∀ preparation ∈ s.preparations, pathName ∉ preparation.ahead
  | .tear _ (.invalidate :: _) => SwitchedOff s request →
      ∀ preparation ∈ s.preparations, preparation.cameraId = request.cameraId →
        preparation.isUnderWay = false
  | .erase => s.isEnabled request.cameraId = false
  | _ => True

def Orderly (s : System) : Step → Prop
  | .perform index ok => ∀ request ∈ s.requests[index]?, Timely s ok request
  | _ => True

/-! The names of paths. -/

theorem stem_of_path (cameraId tail : Text) (outside : ∀ c ∈ tail.head?, isAlphanumeric c = false) :
    ((legacyPath cameraId ++ tail).drop 4).takeWhile isAlphanumeric =
      cameraId.filter isAlphanumeric := by
  have front : (legacyPath cameraId ++ tail).drop 4 = cameraId.filter isAlphanumeric ++ tail := rfl
  have inside : ∀ c ∈ cameraId.filter isAlphanumeric, isAlphanumeric c = true := by
    intro c listed
    exact (mem_filter.mp listed).2
  have stops : tail.takeWhile isAlphanumeric = [] := by
    cases tail with
    | nil => rfl
    | cons c rest =>
      apply takeWhile_cons_of_neg
      rw [outside c rfl]
      exact Bool.false_ne_true
  rw [front, takeWhile_append_of_pos inside, stops, append_nil]

theorem mem_pathNames (cameraId pathName : Text) : pathName ∈ pathNames cameraId ↔ ∃ mode,
      pathName = pathNameFromCameraId cameraId mode ∨
        pathName = privateSourcePathName (pathNameFromCameraId cameraId mode) := by
  have every : ∀ mode, mode ∈ LiveViewMode.all := by
    intro mode
    cases mode <;> decide
  simp only [pathNames, mem_flatMap, mem_cons, not_mem_nil, or_false]
  constructor
  · rintro ⟨mode, -, which⟩
    exact ⟨mode, which⟩
  · rintro ⟨mode, which⟩
    exact ⟨mode, every mode, which⟩

theorem pathNames_stem {cameraId pathName : Text} (listed : pathName ∈ pathNames cameraId) :
    (pathName.drop 4).takeWhile isAlphanumeric = cameraId.filter isAlphanumeric := by
  obtain ⟨mode, rfl | rfl⟩ := (mem_pathNames _ _).mp listed
  · apply stem_of_path
    intro c first
    cases mode <;> cases first <;> rfl
  · rw [privateSourcePathName, pathNameFromCameraId, append_assoc]
    apply stem_of_path
    intro c first
    cases mode <;> cases first <;> rfl

theorem teardown_deletes {cameraId pathName : Text} (listed : pathName ∈ pathNames cameraId) :
    Order.delete pathName ∈ teardownPathsForCamera cameraId := by
  obtain ⟨mode, here, which⟩ := mem_flatMap.mp listed
  apply mem_append_left
  apply mem_flatMap.mpr
  refine ⟨mode, here, ?_⟩
  simp only [mem_cons, not_mem_nil, or_false, Order.delete.injEq, reduceCtorEq, false_or] at which ⊢
  exact which

theorem teardown_invalidates (cameraId : Text) :
    Order.invalidate ∈ teardownPathsForCamera cameraId := by
  apply mem_append_right
  simp

theorem ahead_names {preparation : Preparation} {pathName : Text}
    (listed : pathName ∈ preparation.ahead) : pathName ∈ pathNames preparation.cameraId := by
  apply (mem_pathNames _ _).mpr
  refine ⟨preparation.mode, ?_⟩
  unfold Preparation.ahead at listed
  cases phase : preparation.phase <;>
    simp only [phase, mem_cons, not_mem_nil, or_false] at listed
  all_goals
    first
    | exact listed
    | exact Or.inl listed

/-! What is known in every state. -/

/-- The path is there or may still come. -/
def Live (s : System) (pathName : Text) : Prop :=
  pathName ∈ s.paths ∨ ∃ preparation ∈ s.preparations, pathName ∈ preparation.ahead

/-- A result is there or may still come. -/
def Answering (s : System) (cameraId : Text) : Prop :=
  (∃ entry ∈ s.pathEnsureCache, entry.cameraId = cameraId) ∨
    ∃ preparation ∈ s.preparations, preparation.cameraId = cameraId ∧ preparation.isUnderWay = true

/-- What the request has still to take down. -/
def Request.remaining (request : Request) : List Order :=
  match request.work with
  | .stop _ => teardownPathsForCamera request.cameraId
  | .tear _ orders => orders
  | _ => []

/-- The request that switched the camera off has this order before it. -/
def Pending (s : System) (camera : Camera) (order : Order) : Prop :=
  ∃ request ∈ s.requests, request.token = camera.disabledBy ∧ request.cameraId = camera.id ∧
    order ∈ request.remaining

structure Known (s : System) : Prop where
  apart : (s.cameras.map fun camera => camera.id.filter isAlphanumeric).Nodup
  tokens : (s.requests.map Request.token).Nodup
  issued : ∀ request ∈ s.requests, request.token < s.next
  seen : ∀ preparation ∈ s.preparations, preparation.isUnderWay = true →
    ∃ camera ∈ s.cameras, camera.id = preparation.cameraId
  paths : ∀ camera ∈ s.cameras, camera.status ≠ .enabled → ∀ pathName ∈ pathNames camera.id,
    Live s pathName → Pending s camera (.delete pathName)
  answers : ∀ camera ∈ s.cameras, camera.status ≠ .enabled → Answering s camera.id →
    Pending s camera .invalidate

theorem known_empty : Known System.empty := by
  constructor
  · exact nodup_nil
  · exact nodup_nil
  all_goals
    intro _ listed
    cases listed

variable {s : System}

theorem Known.silent (known : Known s) {camera : Camera} (listed : camera ∈ s.cameras)
    (off : camera.status ≠ .enabled)
    (idle : ∀ request ∈ s.requests, request.token ≠ camera.disabledBy) : Silent s camera.id := by
  constructor
  · intro pathName named there
    obtain ⟨request, here, token, -⟩ := known.paths camera listed off pathName named (Or.inl there)
    exact idle request here token
  · intro mode now
    cases found : s.cached camera.id mode now with
    | none => rfl
    | some entry =>
      obtain ⟨first, -⟩ := Option.filter_eq_some_iff.mp found
      have named := List.find?_some first
      simp only [Entry.isFor, Bool.and_eq_true, decide_eq_true_eq] at named
      obtain ⟨request, here, token, -⟩ := known.answers camera listed off
        (Or.inl ⟨entry, List.mem_of_find?_eq_some first, named.1⟩)
      exact absurd token (idle request here)

/-! The preparations. -/

variable {t : System}

section Preparations

variable {s t : System}

theorem isEnabled_row {cameraId : Text} (on : s.isEnabled cameraId = true) :
    ∃ camera ∈ s.cameras, camera.id = cameraId ∧ camera.status = .enabled := by
  obtain ⟨camera, found, status⟩ := Option.any_eq_true _ _ |>.mp on
  obtain ⟨located, -⟩ := Option.filter_eq_some_iff.mp found
  obtain ⟨listed, named⟩ := lookup_mem located
  exact ⟨camera, listed, named, of_decide_eq_true status⟩

theorem Known.same_camera (known : Known s) {a b : Camera} (first : a ∈ s.cameras)
    (second : b ∈ s.cameras)
    (same : a.id.filter isAlphanumeric = b.id.filter isAlphanumeric) : a = b :=
  eq_of_key known.apart first second same

/-- What an await of a preparation may bring: no path but those before it, and an answer only from a
camera that it saw switched on. -/
structure Narrows (s t : System) (preparation : Preparation) : Prop where
  cameras : t.cameras = s.cameras
  requests : t.requests = s.requests
  next : t.next = s.next
  paths : ∀ pathName ∈ t.paths, pathName ∈ s.paths ∨ pathName ∈ preparation.ahead
  cache : ∀ entry ∈ t.pathEnsureCache, entry ∈ s.pathEnsureCache ∨
    entry.cameraId = preparation.cameraId ∧ preparation.isUnderWay = true
  preparations : ∀ other ∈ t.preparations, other ∈ s.preparations ∨
    other.cameraId = preparation.cameraId ∧ other.mode = preparation.mode ∧
      ((∀ pathName ∈ other.ahead, pathName ∈ preparation.ahead) ∧
        (other.isUnderWay = true → preparation.isUnderWay = true) ∨
        s.isEnabled preparation.cameraId = true)

theorem narrows_move (index : ℕ) (preparation : Preparation) (phase : Phase)
    (same : t.cameras = s.cameras ∧ t.requests = s.requests ∧ t.next = s.next ∧ t.preparations =
      s.preparations)
    (paths : ∀ pathName ∈ t.paths, pathName ∈ s.paths ∨ pathName ∈ preparation.ahead)
    (cache : ∀ entry ∈ t.pathEnsureCache, entry ∈ s.pathEnsureCache)
    (moves : (∀ pathName ∈ { preparation with phase := phase }.ahead, pathName ∈ preparation.ahead)
      ∧ ({ preparation with phase := phase }.isUnderWay = true → preparation.isUnderWay = true) ∨
      s.isEnabled preparation.cameraId = true) :
    Narrows s (moveTo t index preparation phase) preparation := by
  obtain ⟨cameras, requests, next, preparations⟩ := same
  refine ⟨cameras, requests, next, paths, ?_, ?_⟩
  · intro entry listed
    exact Or.inl (cache entry listed)
  · intro other listed
    rcases mem_or_eq_of_mem_set listed with old | rfl
    · left
      rw [← preparations]
      exact old
    · exact Or.inr ⟨rfl, rfl, moves⟩

theorem narrows_finish (index : ℕ) (preparation : Preparation)
    (same : t.cameras = s.cameras ∧ t.requests = s.requests ∧ t.next = s.next ∧ t.preparations =
      s.preparations)
    (paths : ∀ pathName ∈ t.paths, pathName ∈ s.paths ∨ pathName ∈ preparation.ahead)
    (cache : ∀ entry ∈ t.pathEnsureCache, entry ∈ s.pathEnsureCache ∨ entry.cameraId =
      preparation.cameraId ∧ preparation.isUnderWay = true) :
    Narrows s (finishPreparation t index preparation) preparation := by
  obtain ⟨cameras, requests, next, preparations⟩ := same
  refine ⟨cameras, requests, next, paths, cache, ?_⟩
  intro other listed
  left
  rw [← preparations]
  exact mem_of_mem_eraseIdx listed

theorem obey_same (s : System) (cameraId : Text) (order : Order) (ok : Bool) :
    (obey s cameraId order ok).cameras = s.cameras ∧
      (obey s cameraId order ok).requests = s.requests ∧
      (obey s cameraId order ok).next = s.next ∧
      (obey s cameraId order ok).preparations = s.preparations := by
  unfold obey
  split
  · exact ⟨rfl, rfl, rfl, rfl⟩
  · split <;> exact ⟨rfl, rfl, rfl, rfl⟩
  · exact ⟨rfl, rfl, rfl, rfl⟩

theorem obey_fewer (s : System) (cameraId : Text) (order : Order) (ok : Bool) :
    (∀ pathName ∈ (obey s cameraId order ok).paths, pathName ∈ s.paths) ∧
      ∀ entry ∈ (obey s cameraId order ok).pathEnsureCache, entry ∈ s.pathEnsureCache := by
  unfold obey
  split
  · exact ⟨fun _ listed => listed, fun _ listed => (mem_filter.mp listed).1⟩
  · split
    · exact ⟨fun _ listed => (mem_filter.mp listed).1, fun _ listed => listed⟩
    · exact ⟨fun _ listed => listed, fun _ listed => listed⟩
  · exact ⟨fun _ listed => listed, fun _ listed => (mem_filter.mp listed).1⟩

theorem mem_addPath {pathName added : Text} (listed : pathName ∈ (addPath s added).paths) :
    pathName ∈ s.paths ∨ pathName = added := by
  rcases mem_cons.mp listed with rfl | old
  · exact Or.inr rfl
  · exact Or.inl (mem_filter.mp old).1

theorem prepare_narrows (s : System) (index : ℕ) (preparation : Preparation) (reply : Reply)
    (now : ℕ) : Narrows s (prepare s index preparation reply now) preparation := by
  have same : s.cameras = s.cameras ∧ s.requests = s.requests ∧ s.next = s.next ∧
      s.preparations = s.preparations := ⟨rfl, rfl, rfl, rfl⟩
  have paths : ∀ pathName ∈ s.paths, pathName ∈ s.paths ∨ pathName ∈ preparation.ahead :=
    fun _ listed => Or.inl listed
  have cache : ∀ entry ∈ s.pathEnsureCache, entry ∈ s.pathEnsureCache := fun _ listed => listed
  have cache' : ∀ entry ∈ s.pathEnsureCache, entry ∈ s.pathEnsureCache ∨
      entry.cameraId = preparation.cameraId ∧ preparation.isUnderWay = true :=
    fun _ listed => Or.inl listed
  have filtered : ∀ removed : Text, ∀ pathName ∈ s.paths.filter (· ≠ removed),
      pathName ∈ s.paths ∨ pathName ∈ preparation.ahead :=
    fun _ _ listed => Or.inl (mem_filter.mp listed).1
  obtain ⟨token, cameraId, mode, phase⟩ := preparation
  cases phase with
  | reading =>
    cases reply
    case thrown => exact narrows_finish index _ same paths cache'
    all_goals
      unfold prepare
      cases found : s.row cameraId with
      | none => exact narrows_finish index _ same paths cache'
      | some camera =>
        dsimp only
        split
        · apply narrows_move index _ _ same paths cache
          exact Or.inl ⟨fun _ listed => (not_mem_nil listed).elim, id⟩
        · rename_i on
          apply narrows_move index _ _ same paths cache
          right
          have status : camera.status = .enabled := by
            have present := (Option.filter_eq_some_iff.mp found).2
            cases kind : camera.status with
            | enabled => rfl
            | disabled => exact absurd kind on
            | deleted => exact absurd kind (of_decide_eq_true present)
          show (s.row cameraId).any _ = true
          rw [found]
          exact decide_eq_true status
  | refused orders =>
    cases orders with
    | nil => exact narrows_finish index _ same paths cache'
    | cons order orders =>
      obtain ⟨fewerPaths, fewerCache⟩ := obey_fewer s cameraId order (reply ≠ .thrown)
      apply narrows_move index _ _ (obey_same s cameraId order (reply ≠ .thrown))
      · intro pathName listed
        exact Or.inl (fewerPaths pathName listed)
      · exact fewerCache
      · exact Or.inl ⟨fun _ listed => (not_mem_nil listed).elim, id⟩
  | resolving =>
    cases reply with
    | thrown => exact narrows_finish index _ same paths cache'
    | settled =>
      apply narrows_move index _ _ same paths cache
      exact Or.inl ⟨fun _ listed => mem_cons.mpr (Or.inl (mem_singleton.mp listed)), fun _ => rfl⟩
    | done =>
      apply narrows_move index _ _ same paths cache
      exact Or.inl ⟨fun _ listed => listed, fun _ => rfl⟩
  | lookingSource =>
    cases reply with
    | thrown =>
      apply narrows_move index _ _ same paths cache
      exact Or.inl ⟨fun _ listed => listed, fun _ => rfl⟩
    | settled =>
      apply narrows_move index _ _ same paths cache
      exact Or.inl ⟨fun _ listed => mem_cons.mpr (Or.inl (mem_singleton.mp listed)), fun _ => rfl⟩
    | done =>
      apply narrows_move index _ _ same paths cache
      exact Or.inl ⟨fun _ listed => listed, fun _ => rfl⟩
  | deletingSource =>
    have moves : (∀ pathName ∈ Preparation.ahead ⟨token, cameraId, mode, .addingSource⟩,
        pathName ∈ Preparation.ahead ⟨token, cameraId, mode, .deletingSource⟩) ∧
        (Preparation.isUnderWay ⟨token, cameraId, mode, .addingSource⟩ = true →
          Preparation.isUnderWay ⟨token, cameraId, mode, .deletingSource⟩ = true) :=
      ⟨fun _ listed => listed, fun _ => rfl⟩
    cases reply with
    | thrown => exact narrows_move index _ _ same paths cache (Or.inl moves)
    | settled | done =>
      exact narrows_move index _ _ ⟨rfl, rfl, rfl, rfl⟩ (filtered _) cache (Or.inl moves)
  | addingSource =>
    cases reply
    case thrown => exact narrows_finish index _ same paths cache'
    all_goals
      apply narrows_move index _ _
      · exact ⟨rfl, rfl, rfl, rfl⟩
      · intro pathName listed
        rcases mem_addPath listed with old | rfl
        · exact Or.inl old
        · exact Or.inr (mem_cons_of_mem _ (mem_singleton_self _))
      · exact cache
      · exact Or.inl ⟨fun _ listed => mem_cons.mpr (Or.inl (mem_singleton.mp listed)), fun _ => rfl⟩
  | looking =>
    cases reply with
    | thrown => exact narrows_finish index _ same paths cache'
    | settled =>
      apply narrows_move index _ _ same paths cache
      exact Or.inl ⟨fun _ listed => (not_mem_nil listed).elim, fun _ => rfl⟩
    | done =>
      apply narrows_move index _ _ same paths cache
      exact Or.inl ⟨fun _ listed => listed, fun _ => rfl⟩
  | deleting =>
    have moves : (∀ pathName ∈ Preparation.ahead ⟨token, cameraId, mode, .adding⟩,
        pathName ∈ Preparation.ahead ⟨token, cameraId, mode, .deleting⟩) ∧
        (Preparation.isUnderWay ⟨token, cameraId, mode, .adding⟩ = true →
          Preparation.isUnderWay ⟨token, cameraId, mode, .deleting⟩ = true) :=
      ⟨fun _ listed => listed, fun _ => rfl⟩
    cases reply with
    | thrown => exact narrows_move index _ _ same paths cache (Or.inl moves)
    | settled | done =>
      exact narrows_move index _ _ ⟨rfl, rfl, rfl, rfl⟩ (filtered _) cache (Or.inl moves)
  | adding =>
    cases reply
    case thrown => exact narrows_finish index _ same paths cache'
    all_goals
      apply narrows_move index _ _
      · exact ⟨rfl, rfl, rfl, rfl⟩
      · intro pathName listed
        rcases mem_addPath listed with old | rfl
        · exact Or.inl old
        · exact Or.inr (mem_singleton_self _)
      · exact cache
      · exact Or.inl ⟨fun _ listed => (not_mem_nil listed).elim, fun _ => rfl⟩
  | settling =>
    cases reply
    case thrown => exact narrows_finish index _ same paths cache'
    all_goals
      apply narrows_finish (s := s) (t := remember s cameraId mode now) index _
        ⟨rfl, rfl, rfl, rfl⟩ paths
      intro entry listed
      rcases mem_cons.mp listed with rfl | old
      · exact Or.inr ⟨rfl, rfl⟩
      · exact Or.inl (mem_filter.mp old).1

theorem Known.frame (known : Known s) (cameras : t.cameras = s.cameras)
    (tokens : (t.requests.map Request.token).Nodup)
    (issued : ∀ request ∈ t.requests, request.token < t.next)
    (seen : ∀ preparation ∈ t.preparations, preparation.isUnderWay = true → ∃ camera ∈ s.cameras,
      camera.id = preparation.cameraId)
    (paths : ∀ camera ∈ s.cameras, camera.status ≠ .enabled → ∀ pathName ∈ pathNames camera.id,
      Live t pathName → Live s pathName ∧
      (Pending s camera (.delete pathName) → Pending t camera (.delete pathName)))
    (answers : ∀ camera ∈ s.cameras, camera.status ≠ .enabled → Answering t camera.id →
      Answering s camera.id ∧ (Pending s camera .invalidate → Pending t camera .invalidate)) :
    Known t := by
  refine ⟨?_, tokens, issued, ?_, ?_, ?_⟩
  · rw [cameras]
    exact known.apart
  · rw [cameras]
    exact seen
  · intro camera listed off pathName named live
    rw [cameras] at listed
    obtain ⟨before, kept⟩ := paths camera listed off pathName named live
    exact kept (known.paths camera listed off pathName named before)
  · intro camera listed off answering
    rw [cameras] at listed
    obtain ⟨before, kept⟩ := answers camera listed off answering
    exact kept (known.answers camera listed off before)

theorem Known.prepare (known : Known s) {preparation : Preparation}
    (present : preparation ∈ s.preparations) (narrows : Narrows s t preparation) : Known t := by
  -- A camera whose paths come to be under way is not switched off.
  have other : ∀ camera ∈ s.cameras, camera.status ≠ .enabled →
      s.isEnabled preparation.cameraId = true →
      camera.id.filter isAlphanumeric ≠ preparation.cameraId.filter isAlphanumeric := by
    intro camera listed off on same
    obtain ⟨enabled, here, named, status⟩ := isEnabled_row on
    rw [← named] at same
    rw [known.same_camera listed here same] at off
    exact off status
  have pending : ∀ camera order, Pending s camera order → Pending t camera order := by
    intro camera order before
    unfold Pending
    rw [narrows.requests]
    exact before
  apply known.frame narrows.cameras
  · rw [narrows.requests]
    exact known.tokens
  · rw [narrows.requests, narrows.next]
    exact known.issued
  · intro another listed underWay
    rcases narrows.preparations another listed with old | ⟨camera, -, ⟨-, fewer⟩ | on⟩
    · exact known.seen another old underWay
    · rw [camera]
      exact known.seen preparation present (fewer underWay)
    · obtain ⟨row, here, named, -⟩ := isEnabled_row on
      rw [camera]
      exact ⟨row, here, named⟩
  · intro camera listed off pathName named live
    refine ⟨?_, pending camera _⟩
    rcases live with there | ⟨another, here, ahead⟩
    · rcases narrows.paths pathName there with old | before
      · exact Or.inl old
      · exact Or.inr ⟨preparation, present, before⟩
    · rcases narrows.preparations another here with old | ⟨same, -, ⟨fewer, -⟩ | on⟩
      · exact Or.inr ⟨another, old, ahead⟩
      · exact Or.inr ⟨preparation, present, fewer pathName ahead⟩
      · have mine := ahead_names ahead
        rw [same] at mine
        exact absurd ((pathNames_stem named).symm.trans (pathNames_stem mine))
          (other camera listed off on)
  · intro camera listed off answering
    refine ⟨?_, pending camera _⟩
    rcases answering with ⟨entry, there, named⟩ | ⟨another, here, named, underWay⟩
    · rcases narrows.cache entry there with old | ⟨same, before⟩
      · exact Or.inl ⟨entry, old, named⟩
      · exact Or.inr ⟨preparation, present, same.symm.trans named, before⟩
    · rcases narrows.preparations another here with old | ⟨same, -, ⟨-, fewer⟩ | on⟩
      · exact Or.inr ⟨another, old, named, underWay⟩
      · exact Or.inr ⟨preparation, present, same.symm.trans named, fewer underWay⟩
      · have equal : camera.id = preparation.cameraId := named.symm.trans same
        exact absurd (by rw [equal]) (other camera listed off on)

end Preparations

/-! The requests. -/

section Requests

variable {s t : System}

/-- What every other step leaves alone. -/
theorem Known.fewer (known : Known s) (cameras : t.cameras = s.cameras)
    (requests : t.requests = s.requests) (next : s.next ≤ t.next)
    (paths : ∀ pathName ∈ t.paths, pathName ∈ s.paths)
    (cache : ∀ entry ∈ t.pathEnsureCache, entry ∈ s.pathEnsureCache)
    (preparations : ∀ preparation ∈ t.preparations, preparation ∈ s.preparations ∨
      preparation.phase = .reading) :
    Known t := by
  have reading : ∀ {preparation : Preparation}, preparation.phase = .reading →
      preparation.ahead = [] ∧ preparation.isUnderWay = false := by
    intro preparation phase
    simp only [Preparation.ahead, Preparation.isUnderWay, phase, and_self]
  have pending : ∀ camera order, Pending s camera order → Pending t camera order := by
    intro camera order before
    unfold Pending
    rw [requests]
    exact before
  apply known.frame cameras
  · rw [requests]
    exact known.tokens
  · intro request listed
    rw [requests] at listed
    exact Nat.lt_of_lt_of_le (known.issued request listed) next
  · intro preparation listed underWay
    rcases preparations preparation listed with old | new
    · exact known.seen preparation old underWay
    · rw [(reading new).2] at underWay
      cases underWay
  · intro camera _ _ pathName _ live
    refine ⟨?_, pending camera _⟩
    rcases live with there | ⟨preparation, here, ahead⟩
    · exact Or.inl (paths pathName there)
    · rcases preparations preparation here with old | new
      · exact Or.inr ⟨preparation, old, ahead⟩
      · rw [(reading new).1] at ahead
        cases ahead
  · intro camera _ _ answering
    refine ⟨?_, pending camera _⟩
    rcases answering with ⟨entry, there, named⟩ | ⟨preparation, here, named, underWay⟩
    · exact Or.inl ⟨entry, cache entry there, named⟩
    · rcases preparations preparation here with old | new
      · exact Or.inr ⟨preparation, old, named, underWay⟩
      · rw [(reading new).2] at underWay
        cases underWay

variable {request : Request} {index : ℕ}

theorem goOn_tokens (s : System) (located : s.requests[index]? = some request) (work : Work) :
    (goOn s index request work).requests.map Request.token = s.requests.map Request.token := by
  apply List.ext_getElem?
  intro i
  show ((s.requests.set index { request with work := work }).map Request.token)[i]? = _
  rw [List.getElem?_map, List.getElem?_map, List.getElem?_set]
  split
  · rename_i same
    subst same
    rw [located]
    split
    · rfl
    · rename_i outside
      exact absurd (List.getElem?_eq_some_iff.mp located).1 outside
  · rfl

theorem mem_goOn {request other : Request} {work : Work}
    (listed : other ∈ (goOn s index request work).requests) :
    other ∈ s.requests ∨ other = { request with work := work } :=
  mem_or_eq_of_mem_set listed

variable {camera : Camera}

theorem Pending.goesOn {order : Order} (pending : Pending s camera order)
    (located : s.requests[index]? = some request) (work : Work) (same : t.requests = s.requests)
    (keeps : request.token = camera.disabledBy → request.cameraId = camera.id →
      order ∈ request.remaining → order ∈ { request with work := work }.remaining) :
    Pending (goOn t index request work) camera order := by
  obtain ⟨other, here, token, named, listed⟩ := pending
  obtain ⟨j, place⟩ := List.mem_iff_getElem?.mp here
  have inside := (List.getElem?_eq_some_iff.mp located).1
  by_cases this : index = j
  · subst this
    rw [located] at place
    cases place
    refine ⟨{ request with work := work }, ?_, token, named, keeps token named listed⟩
    apply List.mem_iff_getElem?.mpr
    refine ⟨index, ?_⟩
    show (t.requests.set index { request with work := work })[index]? = _
    rw [same, List.getElem?_set_self inside]
  · refine ⟨other, ?_, token, named, listed⟩
    apply List.mem_iff_getElem?.mpr
    refine ⟨j, ?_⟩
    show (t.requests.set index { request with work := work })[j]? = _
    rw [same, List.getElem?_set_ne this, place]

theorem Pending.finish {order : Order} (pending : Pending s camera order)
    (located : s.requests[index]? = some request) (same : t.requests = s.requests)
    (nothing : order ∉ request.remaining) : Pending (finishRequest t index) camera order := by
  obtain ⟨other, here, token, named, listed⟩ := pending
  obtain ⟨j, place⟩ := List.mem_iff_getElem?.mp here
  refine ⟨other, ?_, token, named, listed⟩
  show other ∈ t.requests.eraseIdx index
  rw [same, List.mem_eraseIdx_iff_getElem?]
  refine ⟨j, ?_, place⟩
  rintro rfl
  rw [located] at place
  cases place
  exact nothing listed

section

variable (known : Known s)

include known

theorem goOn_issued (located : s.requests[index]? = some request) (work : Work)
    (same : t.requests = s.requests) (next : t.next = s.next) :
    ((goOn t index request work).requests.map Request.token).Nodup ∧
      ∀ other ∈ (goOn t index request work).requests, other.token <
        (goOn t index request work).next := by
  rw [← same] at located
  constructor
  · rw [goOn_tokens t located work, same]
    exact known.tokens
  · intro other listed
    show other.token < t.next
    rw [next]
    rcases mem_goOn listed with old | rfl
    · rw [same] at old
      exact known.issued other old
    · rw [same] at located
      exact known.issued request (List.mem_of_getElem? located)

theorem finish_issued (index : ℕ) (same : t.requests = s.requests) (next : t.next = s.next) :
    ((finishRequest t index).requests.map Request.token).Nodup ∧
      ∀ other ∈ (finishRequest t index).requests, other.token < (finishRequest t index).next := by
  have fewer : (finishRequest t index).requests.Sublist s.requests := by
    rw [← same]
    exact eraseIdx_sublist t.requests index
  constructor
  · exact known.tokens.sublist (fewer.map Request.token)
  · intro other listed
    show other.token < t.next
    rw [next]
    exact known.issued other (fewer.subset listed)

theorem Known.goesOn (located : s.requests[index]? = some request) (work : Work)
    (keeps : ∀ order ∈ request.remaining, order ∈ { request with work := work }.remaining) :
    Known (goOn s index request work) := by
  obtain ⟨tokens, issued⟩ := goOn_issued known located work rfl rfl
  apply known.frame (t := goOn s index request work) rfl tokens issued known.seen
  · intro camera _ _ pathName _ live
    exact ⟨live, fun pending => pending.goesOn located work rfl fun _ _ => keeps _⟩
  · intro camera _ _ answering
    exact ⟨answering, fun pending => pending.goesOn located work rfl fun _ _ => keeps _⟩

theorem Known.finish (located : s.requests[index]? = some request)
    (nothing : request.remaining = []) : Known (finishRequest s index) := by
  obtain ⟨tokens, issued⟩ := finish_issued known index rfl rfl
  have none_ : ∀ order, order ∉ request.remaining := by
    intro order
    rw [nothing]
    exact not_mem_nil
  apply known.frame (t := finishRequest s index) rfl tokens issued known.seen
  · intro camera _ _ pathName _ live
    exact ⟨live, fun pending => pending.finish located rfl (none_ _)⟩
  · intro camera _ _ answering
    exact ⟨answering, fun pending => pending.finish located rfl (none_ _)⟩

theorem Known.tear (located : s.requests[index]? = some request) {removing : Bool} {order : Order}
    {orders : List Order} (work : request.work = .tear removing (order :: orders)) (ok : Bool)
    (deletes : ∀ pathName, order = .delete pathName → SwitchedOff s request →
      (ok = true ∨ pathName ∉ s.paths) ∧ ∀ preparation ∈ s.preparations,
      pathName ∉ preparation.ahead)
    (forgets : order = .invalidate → SwitchedOff s request → ∀ preparation ∈ s.preparations,
      preparation.cameraId = request.cameraId → preparation.isUnderWay = false) :
    Known (goOn (obey s request.cameraId order ok) index request (.tear removing orders)) := by
  obtain ⟨cameras, requests, next, preparations⟩ := obey_same s request.cameraId order ok
  obtain ⟨fewerPaths, fewerCache⟩ := obey_fewer s request.cameraId order ok
  obtain ⟨tokens, issued⟩ := goOn_issued known located (.tear removing orders) requests next
  have left : request.remaining = order :: orders := by
    simp only [Request.remaining, work]
  have seen : ∀ preparation ∈ (obey s request.cameraId order ok).preparations,
      preparation.isUnderWay = true → ∃ camera ∈ s.cameras, camera.id = preparation.cameraId := by
    rw [preparations]
    exact known.seen
  apply known.frame (t := goOn (obey s request.cameraId order ok) index request
    (.tear removing orders)) cameras tokens issued seen
  · intro camera listed off pathName _ live
    have live' : Live (obey s request.cameraId order ok) pathName := live
    rw [Live, preparations] at live'
    refine ⟨live'.imp_left (fewerPaths pathName), ?_⟩
    intro pending
    apply pending.goesOn located (.tear removing orders) requests
    intro token named before
    rw [left] at before
    rcases mem_cons.mp before with now | later
    · subst now
      obtain ⟨succeeds, nobody⟩ := deletes pathName rfl
        ⟨camera, listed, named.symm, off, token.symm⟩
      rcases live' with there | ⟨preparation, here, ahead⟩
      · rcases succeeds with rfl | absent
        · exact absurd rfl (of_decide_eq_true (mem_filter.mp there).2)
        · exact absurd (fewerPaths pathName there) absent
      · exact absurd ahead (nobody preparation here)
    · exact later
  · intro camera listed off answering
    have answering' : Answering (obey s request.cameraId order ok) camera.id := answering
    rw [Answering, preparations] at answering'
    constructor
    · rcases answering' with ⟨entry, there, named⟩ | preparing
      · exact Or.inl ⟨entry, fewerCache entry there, named⟩
      · exact Or.inr preparing
    · intro pending
      apply pending.goesOn located (.tear removing orders) requests
      intro token named before
      rw [left] at before
      rcases mem_cons.mp before with now | later
      · subst now
        have nobody := forgets rfl ⟨camera, listed, named.symm, off, token.symm⟩
        rcases answering' with ⟨entry, there, same⟩ | ⟨preparation, here, same, underWay⟩
        · exact absurd (same.trans named.symm) (of_decide_eq_true (mem_filter.mp there).2)
        · rw [nobody preparation here (same.trans named.symm)] at underWay
          cases underWay
      · exact later

theorem Known.ids : (s.cameras.map Camera.id).Nodup := by
  apply List.Nodup.of_map (fun id => id.filter isAlphanumeric)
  rw [map_map]
  exact known.apart

theorem Known.isEnabled (listed : camera ∈ s.cameras) (on : camera.status = .enabled) :
    s.isEnabled camera.id = true := by
  have found : s.row camera.id = some camera := by
    rw [System.row, lookup_eq_some known.ids listed, Option.filter_some, if_pos]
    rw [on]
    decide
  rw [System.isEnabled, found]
  exact decide_eq_true on

end

theorem turn_id (token now : ℕ) (enabled : Bool) (camera : Camera) :
    (camera.turn token now enabled).id = camera.id := by
  unfold Camera.turn
  split
  · rfl
  · split <;> rfl

theorem turn_off {token now : ℕ} {enabled : Bool}
    (off : (camera.turn token now enabled).status ≠ .enabled) :
    camera.status ≠ .enabled ∧ camera.turn token now enabled = camera ∨
      camera.status = .enabled ∧ enabled = false ∧
        (camera.turn token now enabled).disabledBy = token := by
  cases enabled with
  | true => exact absurd rfl off
  | false =>
    by_cases on : camera.status = .enabled
    · right
      refine ⟨on, rfl, ?_⟩
      show (if camera.status = .enabled then _ else _ : Camera).disabledBy = token
      rw [if_pos on]
    · left
      refine ⟨on, ?_⟩
      show (if camera.status = .enabled then _ else _ : Camera) = camera
      rw [if_neg on]

section

variable (known : Known s) (located : s.requests[index]? = some request)
  (nothing : request.remaining = [])

include known located nothing

omit located nothing in
theorem Known.write (enabled : Bool)
    (cameras : t.cameras = (writeEnabled s request enabled).cameras)
    (tokens : (t.requests.map Request.token).Nodup)
    (issued : ∀ request ∈ t.requests, request.token < t.next) (paths : t.paths = s.paths)
    (cache : t.pathEnsureCache = s.pathEnsureCache) (preparations : t.preparations = s.preparations)
    (kept : ∀ {camera : Camera} {order : Order}, Pending s camera order → Pending t camera order)
    (follows : s.isEnabled request.cameraId = true → enabled = false → ∃ other ∈ t.requests,
      other.token = request.token ∧ other.cameraId = request.cameraId ∧ other.remaining =
      teardownPathsForCamera request.cameraId) : Known t := by
  have rows : ∀ camera ∈ t.cameras, ∃ old ∈ s.cameras, old.id = camera.id ∧
      (camera.status ≠ .enabled → old.status ≠ .enabled ∧ camera = old ∨
        old.status = .enabled ∧ old.id = request.cameraId ∧ enabled = false ∧
          camera.disabledBy = request.token) := by
    intro camera listed
    rw [cameras] at listed
    obtain ⟨old, here, ⟨-, rfl⟩ | ⟨named, rfl⟩⟩ := of_mem_updateAt listed
    · exact ⟨camera, here, rfl, fun off => Or.inl ⟨off, rfl⟩⟩
    · refine ⟨old, here, (turn_id _ _ _ old).symm, ?_⟩
      intro off
      rcases turn_off off with same | ⟨on, falls, token⟩
      · exact Or.inl same
      · exact Or.inr ⟨on, named, falls, token⟩
  have started : ∀ {camera old : Camera} {order : Order}, old ∈ s.cameras → old.id = camera.id →
      old.status = .enabled → old.id = request.cameraId → enabled = false →
      camera.disabledBy = request.token → order ∈ teardownPathsForCamera camera.id →
      Pending t camera order := by
    intro camera old order here same on named falls token listed
    have isOn := known.isEnabled here on
    rw [named] at isOn
    obtain ⟨other, there, equal, cameraId, remaining⟩ := follows isOn falls
    refine ⟨other, there, equal.trans token.symm, cameraId.trans (named.symm.trans same), ?_⟩
    rw [remaining, ← named, same]
    exact listed
  constructor
  · rw [cameras]
    show ((updateAt Camera.id s.cameras request.cameraId _).map _).Nodup
    rw [map_updateAt Camera.id s.cameras _ _ _ fun camera => by rw [turn_id]]
    exact known.apart
  · exact tokens
  · exact issued
  · rw [preparations]
    intro preparation listed underWay
    obtain ⟨camera, here, named⟩ := known.seen preparation listed underWay
    have again : camera.id ∈ t.cameras.map Camera.id := by
      rw [cameras]
      show camera.id ∈ (updateAt Camera.id s.cameras request.cameraId _).map Camera.id
      rw [map_updateAt Camera.id s.cameras _ _ _ (turn_id _ _ _)]
      exact mem_map_of_mem here
    obtain ⟨row, there, same⟩ := mem_map.mp again
    exact ⟨row, there, same.trans named⟩
  · intro camera listed off pathName named live
    rw [Live, paths, preparations] at live
    obtain ⟨old, here, same, which⟩ := rows camera listed
    rcases which off with ⟨wasOff, rfl⟩ | ⟨on, this, falls, token⟩
    · exact kept (known.paths camera here wasOff pathName named live)
    · exact started here same on this falls token (teardown_deletes named)
  · intro camera listed off answering
    rw [Answering, cache, preparations] at answering
    obtain ⟨old, here, same, which⟩ := rows camera listed
    rcases which off with ⟨wasOff, rfl⟩ | ⟨on, this, falls, token⟩
    · exact kept (known.answers camera here wasOff answering)
    · exact started here same on this falls token (teardown_invalidates camera.id)

theorem Known.write_goesOn (enabled removing : Bool) :
    Known (goOn (writeEnabled s request enabled) index request (.stop removing)) := by
  obtain ⟨tokens, issued⟩ := goOn_issued known located (.stop removing)
    (t := writeEnabled s request enabled) rfl rfl
  have inside := (List.getElem?_eq_some_iff.mp located).1
  refine known.write enabled rfl tokens issued rfl rfl rfl ?_ ?_
  · intro camera order pending
    apply pending.goesOn located (.stop removing) rfl
    intro _ _ before
    rw [nothing] at before
    cases before
  · intro _ _
    refine ⟨{ request with work := .stop removing }, ?_, rfl, rfl, rfl⟩
    apply List.mem_iff_getElem?.mpr
    refine ⟨index, ?_⟩
    show (s.requests.set index { request with work := .stop removing })[index]? = _
    rw [List.getElem?_set_self inside]

theorem Known.write_finish (enabled : Bool)
    (stays : s.isEnabled request.cameraId = true → enabled = true) :
    Known (finishRequest (writeEnabled s request enabled) index) := by
  obtain ⟨tokens, issued⟩ := finish_issued known index (t := writeEnabled s request enabled) rfl rfl
  refine known.write enabled rfl tokens issued rfl rfl rfl ?_ ?_
  · intro camera order pending
    apply pending.finish located rfl
    rw [nothing]
    exact not_mem_nil
  · intro on falls
    exact absurd (falls.symm.trans (stays on)) (by decide)

theorem Known.erase (off : s.isEnabled request.cameraId = false) : Known (finishRequest
      { s with cameras := updateAt Camera.id s.cameras request.cameraId Camera.erased } index) := by
  obtain ⟨tokens, issued⟩ := finish_issued known index
    (t := { s with
      cameras := updateAt Camera.id s.cameras request.cameraId Camera.erased }) rfl rfl
  have rows : ∀ camera ∈ updateAt Camera.id s.cameras request.cameraId Camera.erased,
      ∃ old ∈ s.cameras, old.id = camera.id ∧ old.disabledBy = camera.disabledBy ∧
        (camera.status ≠ .enabled → old.status ≠ .enabled) := by
    intro camera listed
    obtain ⟨old, here, ⟨-, rfl⟩ | ⟨named, rfl⟩⟩ := of_mem_updateAt listed
    · exact ⟨camera, here, rfl, rfl, id⟩
    · refine ⟨old, here, rfl, rfl, ?_⟩
      intro _ on
      have found := known.isEnabled here on
      rw [named, off] at found
      cases found
  have pending : ∀ {camera old : Camera} {order : Order}, old.id = camera.id →
      old.disabledBy = camera.disabledBy → Pending s old order →
      Pending (finishRequest
        { s with cameras := updateAt Camera.id s.cameras request.cameraId Camera.erased } index)
        camera order := by
    intro camera old order same token before
    have none_ : order ∉ request.remaining := by
      rw [nothing]
      exact not_mem_nil
    obtain ⟨other, here, equal, named, listed⟩ := before.finish located
      (t := { s with cameras := updateAt Camera.id s.cameras request.cameraId Camera.erased }) rfl
      none_
    exact ⟨other, here, equal.trans token, named.trans same, listed⟩
  refine ⟨?_, tokens, issued, ?_, ?_, ?_⟩
  · show ((updateAt Camera.id s.cameras request.cameraId _).map _).Nodup
    rw [map_updateAt Camera.id s.cameras _ Camera.erased _ fun camera => rfl]
    exact known.apart
  · intro preparation listed underWay
    obtain ⟨camera, here, named⟩ := known.seen preparation listed underWay
    have again : camera.id ∈ (updateAt Camera.id s.cameras request.cameraId
        Camera.erased).map Camera.id := by
      rw [map_updateAt Camera.id s.cameras _ Camera.erased Camera.id fun camera => rfl]
      exact mem_map_of_mem here
    obtain ⟨row, there, same⟩ := mem_map.mp again
    exact ⟨row, there, same.trans named⟩
  · intro camera listed isOff pathName named live
    obtain ⟨old, here, same, token, wasOff⟩ := rows camera listed
    rw [← same] at named
    exact pending same token (known.paths old here (wasOff isOff) pathName named live)
  · intro camera listed isOff answering
    obtain ⟨old, here, same, token, wasOff⟩ := rows camera listed
    have answering' : Answering s camera.id := answering
    rw [← same] at answering'
    exact pending same token (known.answers old here (wasOff isOff) answering')

end

theorem Known.perform (known : Known s) {ok : Bool} (located : s.requests[index]? = some request)
    (orderly : Orderly s (.perform index ok)) : Known (perform s index request ok) := by
  have guard := orderly request located
  obtain ⟨token, cameraId, work⟩ := request
  have idle : ∀ {next : Work}, Request.remaining ⟨token, cameraId, work⟩ = [] →
      ∀ order ∈ Request.remaining ⟨token, cameraId, work⟩,
        order ∈ Request.remaining ⟨token, cameraId, next⟩ := by
    intro next nothing order listed
    rw [nothing] at listed
    cases listed
  cases work with
  | look dto | load dto wasEnabled =>
    simp only [PathTeardown.perform]
    split
    · exact known.goesOn located _ (idle rfl)
    · exact known.finish located rfl
  | write dto wasEnabled existing =>
    simp only [PathTeardown.perform]
    split
    · split
      · exact known.write_goesOn located rfl _ _
      · rename_i stays
        apply known.write_finish located rfl
        intro on
        by_contra falls
        exact stays (guard on (Bool.eq_false_of_not_eq_true falls))
    · exact known.finish located rfl
  | loadRemoval => exact known.goesOn located _ (idle rfl)
  | writeRemoval =>
    simp only [PathTeardown.perform]
    split
    · exact known.write_goesOn located rfl _ _
    · exact known.goesOn located _ (idle rfl)
  | stop removing => exact known.goesOn located _ fun _ listed => listed
  | tear removing orders =>
    cases orders with
    | nil =>
      simp only [PathTeardown.perform]
      split
      · exact known.goesOn located _ (idle rfl)
      · exact known.finish located rfl
    | cons order orders =>
      apply known.tear located rfl ok
      · rintro pathName rfl
        exact guard
      · rintro rfl
        exact guard
  | clean =>
    simp only [PathTeardown.perform]
    split
    · exact known.goesOn located _ (idle rfl)
    · exact known.finish located rfl
  | erase =>
    simp only [PathTeardown.perform]
    split
    · exact known.erase located rfl guard
    · exact known.finish located rfl

theorem Known.openRequest (known : Known s) (id : Text) (work : Work) :
    Known (openRequest s id work) := by
  have pending : ∀ camera order, Pending s camera order →
      Pending (PathTeardown.openRequest s id work) camera order := by
    rintro camera order ⟨request, here, token, named, listed⟩
    exact ⟨request, mem_append_left _ here, token, named, listed⟩
  apply known.frame (t := PathTeardown.openRequest s id work) rfl
  · show ((s.requests ++ [_]).map Request.token).Nodup
    rw [map_append]
    apply nodup_append.mpr
    refine ⟨known.tokens, nodup_singleton _, ?_⟩
    intro a first b second same
    obtain ⟨request, listed, rfl⟩ := mem_map.mp first
    rw [map_singleton, mem_singleton] at second
    exact absurd (same.trans second) (Nat.ne_of_lt (known.issued request listed))
  · intro request listed
    show request.token < s.next + 1
    rcases mem_append.mp listed with old | new
    · exact Nat.lt_succ_of_lt (known.issued request old)
    · rw [mem_singleton.mp new]
      exact Nat.lt_succ_self _
  · exact known.seen
  · intro camera _ _ pathName _ live
    exact ⟨live, pending camera _⟩
  · intro camera _ _ answering
    exact ⟨answering, pending camera _⟩

theorem Known.create (known : Known s) {id : Text} (new : isNewId s id = true) : Known { s with
      cameras := s.cameras ++ [⟨id, .enabled, s.next, s.next⟩]
      next := s.next + 1 } := by
  have old : ∀ camera ∈ s.cameras ++ [⟨id, .enabled, s.next, s.next⟩],
      camera.status ≠ .enabled → camera ∈ s.cameras := by
    intro camera listed off
    rcases mem_append.mp listed with here | added
    · exact here
    · rw [mem_singleton.mp added] at off
      exact absurd rfl off
  constructor
  · rw [map_append]
    apply nodup_append.mpr
    refine ⟨known.apart, nodup_singleton _, ?_⟩
    intro a first b second same
    obtain ⟨camera, listed, rfl⟩ := mem_map.mp first
    rw [map_singleton, mem_singleton] at second
    exact absurd (same.trans second) (of_decide_eq_true (all_eq_true.mp new camera listed))
  · exact known.tokens
  · intro request listed
    exact Nat.lt_succ_of_lt (known.issued request listed)
  · intro preparation listed underWay
    obtain ⟨camera, here, named⟩ := known.seen preparation listed underWay
    exact ⟨camera, mem_append_left _ here, named⟩
  · intro camera listed off pathName named live
    exact known.paths camera (old camera listed off) off pathName named live
  · intro camera listed off answering
    exact known.answers camera (old camera listed off) off answering

theorem Known.step (known : Known s) {a : Step} (orderly : Orderly s a)
    (taken : step s a = some t) : Known t := by
  have all : ∀ {α : Type} (list : List α), ∀ a ∈ list, a ∈ list := fun _ _ listed => listed
  cases a with
  | createCamera id =>
    simp only [PathTeardown.step] at taken
    split at taken
    · rename_i new
      cases taken
      exact known.create new
    · cases taken
  | update id enabled | remove id =>
    cases taken
    exact known.openRequest id _
  | perform index ok =>
    obtain ⟨request, located, rfl⟩ := Option.map_eq_some_iff.mp taken
    exact known.perform located orderly
  | ensurePathForCamera id mode now =>
    cases taken
    unfold ensurePathForCamera
    split
    · exact known
    · refine known.fewer ?_ ?_ (Nat.le_succ _) (all _) (all _) ?_
      · rfl
      · rfl
      intro preparation listed
      rcases mem_append.mp listed with old | new
      · exact Or.inl old
      · right
        rw [mem_singleton.mp new]
  | prepare index reply now =>
    obtain ⟨preparation, located, rfl⟩ := Option.map_eq_some_iff.mp taken
    exact known.prepare (List.mem_of_getElem? located) (prepare_narrows s index preparation reply now)
  | invalidateMainCodecCache id =>
    cases taken
    exact known.fewer rfl rfl (Nat.le_refl _) (all _) (fun _ listed => (mem_filter.mp listed).1)
      fun _ listed => Or.inl listed
  | reconcileMissingPaths =>
    cases taken
    exact known.fewer rfl rfl (Nat.le_refl _) (all _) (fun _ listed => (not_mem_nil listed).elim)
      fun _ listed => Or.inl listed
  | losePath pathName =>
    cases taken
    exact known.fewer rfl rfl (Nat.le_refl _) (fun _ listed => (mem_filter.mp listed).1) (all _)
      fun _ listed => Or.inl listed

end Requests

/-- All along the runs whose steps are orderly, a camera that is switched off or deleted delivers
nothing. -/
theorem disabled_delivers_nothing (steps : List Step)
    (orderly : Runs.Allowed step Orderly .empty steps) : DeliversNothing steps := by
  intro n s reached camera listed off finished
  have preserves : Runs.Preserves step Orderly Known := by
    intro u a v allowed holds taken
    exact holds.step allowed taken
  have known := Runs.invariant_along step preserves .empty s steps n orderly known_empty reached
  exact known.silent listed off finished.request

/-! A camera that is opened while it is switched off. -/

instance (s : System) (request : Request) : Decidable (SwitchedOff s request) :=
  inferInstanceAs (Decidable (∃ camera ∈ s.cameras, _))

instance (s : System) (ok : Bool) : ∀ request, Decidable (Timely s ok request)
  | ⟨_, _, .look _⟩ | ⟨_, _, .load _ _⟩ | ⟨_, _, .loadRemoval⟩ | ⟨_, _, .writeRemoval⟩
  | ⟨_, _, .stop _⟩ | ⟨_, _, .tear _ []⟩ | ⟨_, _, .tear _ (.forget _ :: _)⟩
  | ⟨_, _, .clean⟩ => isTrue trivial
  | ⟨_, _, .write _ _ _⟩ => inferInstanceAs (Decidable (_ = true → _ = false → _ ∧ _))
  | ⟨_, _, .tear _ (.delete _ :: _)⟩ => inferInstanceAs (Decidable
      (SwitchedOff s _ → (_ ∨ _) ∧ ∀ preparation ∈ s.preparations, _ ∉ _))
  | ⟨_, _, .tear _ (.invalidate :: _)⟩ => inferInstanceAs (Decidable
      (SwitchedOff s _ → ∀ preparation ∈ s.preparations, _ → _ = false))
  | ⟨_, _, .erase⟩ => inferInstanceAs (Decidable (_ = false))

instance (s : System) : ∀ a, Decidable (Orderly s a)
  | .perform index _ => inferInstanceAs (Decidable (∀ request ∈ s.requests[index]?, _))
  | .createCamera _ | .update _ _ | .remove _ | .ensurePathForCamera _ _ _ | .prepare _ _ _
  | .invalidateMainCodecCache _ | .reconcileMissingPaths | .losePath _ => isTrue trivial

def systemAfter (steps : List Step) : System := (Runs.run step .empty steps).getD .empty

theorem systemAfter_reached {steps : List Step} (taken : (Runs.run step .empty steps).isSome = true) :
    Runs.run step .empty steps = some (systemAfter steps) := by
  obtain ⟨s, reached⟩ := Option.isSome_iff_exists.mp taken
  rw [systemAfter, reached]
  rfl

def firstCamera : Text := "5f0c7a1e-4b1d-4c55-9b0e-2f8f7c6d1a01".toList

/-- The grid of the camera is opened, and the path is there when the preparation is over. -/
def opened : List Step := [.prepare 0 .settled 0, .prepare 0 .done 0, .prepare 0 .done 0,
  .prepare 0 .done 0, .prepare 0 .done 0]

/-- The camera is switched off and its paths are taken down. -/
def switchedOff : List Step := .update firstCamera (some false) :: List.replicate 23 (.perform 0 true)

/-- The camera is opened before it is switched off, and once more afterwards. -/
theorem openedBefore_silent : DeliversNothing
    (.createCamera firstCamera :: .ensurePathForCamera firstCamera .grid 0 ::
      .prepare 0 .done 0 :: (opened ++ switchedOff ++
        [.ensurePathForCamera firstCamera .grid 1, .prepare 0 .done 1])) :=
  disabled_delivers_nothing _ (Runs.allowedBy_allowed step Orderly _ _ (by decide +kernel))

def openedMeanwhile : List Step :=
  .createCamera firstCamera :: .ensurePathForCamera firstCamera .grid 0 :: .prepare 0 .done 0 ::
    (switchedOff ++ opened)

/-- The preparation saw the camera switched on, and ends after the paths were taken down. -/
theorem openedMeanwhile_delivers : ¬DeliversNothing openedMeanwhile := by
  intro silent
  have reached : Runs.run step .empty (openedMeanwhile.take 32) = some _ :=
    systemAfter_reached (by decide +kernel)
  have last : ∃ camera ∈ (systemAfter (openedMeanwhile.take 32)).cameras,
      camera.id = firstCamera ∧ camera.status ≠ .enabled ∧
      (systemAfter (openedMeanwhile.take 32)).requests = [] ∧
      (systemAfter (openedMeanwhile.take 32)).preparations = [] ∧
      pathNameFromCameraId firstCamera .grid ∈ (systemAfter (openedMeanwhile.take 32)).paths := by
    decide +kernel
  obtain ⟨camera, listed, named, off, requests, preparations, there⟩ := last
  have finished : Finished (systemAfter (openedMeanwhile.take 32)) camera := by
    constructor
    · intro _ nothing
      cases nothing
    · intro _ nothing
      cases nothing
  have quiet := silent 32 _ reached camera listed off finished
  rw [named] at quiet
  apply quiet.paths _ _ there
  exact (mem_pathNames _ _).mpr ⟨.grid, Or.inl rfl⟩

end DracVms.PathTeardown
