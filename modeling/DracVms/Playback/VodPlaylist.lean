import DracVms.Library.JsString
import DracVms.Library.JsonText
import DracVms.Library.KeyedList

namespace DracVms.VodContinuous

open List

open Json (Text Value Scalar field)
open JsString (trim)

abbrev Raw := Value (Scalar ℚ)

/-- What the player gets without knowing its type. The time of a date is none when the date is
invalid. -/
inductive Unknown where
  | undefined
  | date (time : Option ℤ)
  | json (value : Raw)

/-- The parts of the language that the module leans on. -/
structure Runtime where
  /-- `new Date(text).getTime()` -/
  dateOf : Text → Option ℤ
  /-- `Number(value)` of what is neither a number, a boolean nor null, when it is finite. -/
  numberOf : Raw → Option ℚ
  localeCompare : Text → Text → Int
  decodeURIComponent : Text → Option Text
  atob : Text → Option Text
  parseJson : Text → Option Raw

def Unknown.ofField (fields : List (Text × Raw)) (key : String) : Unknown :=
  match field fields key.toList with
  | some value => .json value
  | none => .undefined

def Unknown.text : Unknown → Option Text
  | .json (.atom (.string text)) => some text
  | _ => none

def Unknown.truthy : Unknown → Bool
  | .undefined => false
  | .json (.atom .null) => false
  | .json (.atom (.bool b)) => b
  | .json (.atom (.number n)) => n ≠ 0
  | .json (.atom (.string text)) => text ≠ []
  | _ => true

/-- `Math.round` -/
def round (x : ℚ) : ℤ := ⌊x + 1 / 2⌋

def roundSeconds (seconds : ℚ) : ℚ := round (seconds * 1000) / 1000

/-- The value of the first parameter `token` of the address, as far as the next mark. -/
def tokenIn : Text → Option Text
  | [] => none
  | c :: rest =>
    if (c = '?' ∨ c = '&') ∧ "token=".toList <+: rest then
      some ((rest.drop 6).takeWhile fun c => c ≠ '&' ∧ c ≠ '#')
    else tokenIn rest

structure VodPlaylistSegment where
  recordingId : Text
  startedAtMs : ℚ
  endedAtMs : ℚ
  durationSeconds : ℚ
  offsetSeconds : ℚ
  discontinuity : Bool
  playUrl : Text
  token : Option Text

structure VodPlaylist where
  cameraId : Text
  fromMs : ℚ
  toMs : ℚ
  segments : List VodPlaylistSegment
  totalDurationSeconds : ℚ
  startOffsetSeconds : ℚ
  truncated : Bool
  fetchedAtMs : ℚ
  tokenExpiresAtMs : Option ℚ

section Normalize

variable (runtime : Runtime)

def toMs : Unknown → Option ℚ
  | .date time => time.map fun ms : ℤ => (ms : ℚ)
  | .json (.atom (.number n)) => some n
  | .json (.atom (.string text)) =>
    if trim text = [] then none else (runtime.dateOf text).map fun ms : ℤ => (ms : ℚ)
  | _ => none

/-- `Number(value)`, when it is finite. -/
def toNumber : Unknown → Option ℚ
  | .undefined => none
  | .date time => time.map fun ms : ℤ => (ms : ℚ)
  | .json (.atom .null) => some 0
  | .json (.atom (.bool b)) => some (if b then 1 else 0)
  | .json (.atom (.number n)) => some n
  | .json value => runtime.numberOf value

def readTokenFromUrl (url : Text) : Option Text :=
  (tokenIn url).bind fun found =>
    let token := (runtime.decodeURIComponent found).getD found
    if token = [] then none else some token

def decodeJwtExpiryMs (token : Option Text) : Option ℚ :=
  match (token.getD []).splitOn '.' with
  | _ :: part :: _ =>
    if part = [] then none
    else
      let base64 := part.map fun c => if c = '-' then '+' else if c = '_' then '/' else c
      let padded := base64 ++ List.replicate ((4 - base64.length % 4) % 4) '='
      match (runtime.atob padded).bind runtime.parseJson with
      | some (.object fields) =>
        match toNumber runtime (.ofField fields "exp") with
        | some exp => if 0 < exp then some (exp * 1000) else none
        | none => none
      | _ => none
  | _ => none

/-- The duration that is declared, or else what lies between the two instants. -/
def durationOf (startedAtMs : ℚ) (endedAt durationSeconds : Unknown) : ℚ :=
  let measured := match toMs runtime endedAt with
    | some endedAtMs => if startedAtMs < endedAtMs then (endedAtMs - startedAtMs) / 1000 else 0
    | none => 0
  match toNumber runtime durationSeconds with
  | some declared => if 0 < declared then declared else measured
  | none => measured

/-- A segment before it has its place; its offset is not known yet. -/
def parseSegment : Raw → Option VodPlaylistSegment
  | .object fields =>
    let recordingId := trim ((Unknown.ofField fields "recordingId").text.getD [])
    let playUrl := trim ((Unknown.ofField fields "playUrl").text.getD [])
    if recordingId = [] ∨ playUrl = [] then none
    else
      let playUrl :=
        if playUrl.head? = some '/' then playUrl else "/recordings/".toList ++ playUrl
      match toMs runtime (.ofField fields "startedAt") with
      | none => none
      | some startedAtMs =>
        let durationSeconds := durationOf runtime startedAtMs (.ofField fields "endedAt")
          (.ofField fields "durationSeconds")
        if 0 < durationSeconds then
          some
            { recordingId := recordingId
              startedAtMs := startedAtMs
              endedAtMs := startedAtMs + durationSeconds * 1000
              durationSeconds := roundSeconds durationSeconds
              offsetSeconds := 0
              discontinuity := (Unknown.ofField fields "discontinuity").truthy
              playUrl := playUrl
              token := readTokenFromUrl runtime playUrl }
        else none
  | _ => none

/-- By start, then by id as the locale orders them. -/
def startsBefore (a b : VodPlaylistSegment) : Prop :=
  a.startedAtMs < b.startedAtMs ∨
    a.startedAtMs = b.startedAtMs ∧ runtime.localeCompare a.recordingId b.recordingId ≤ 0

instance (a b : VodPlaylistSegment) : Decidable (startsBefore runtime a b) :=
  inferInstanceAs (Decidable (_ ∨ _))

/-- Each segment gets the offset at which the ones before it end. -/
def lay : ℚ → List VodPlaylistSegment → List VodPlaylistSegment
  | _, [] => []
  | cursor, item :: rest =>
    { item with offsetSeconds := roundSeconds cursor } ::
      lay (cursor + item.durationSeconds) rest

def laidUntil : ℚ → List VodPlaylistSegment → ℚ
  | cursor, [] => cursor
  | cursor, item :: rest => laidUntil (cursor + item.durationSeconds) rest

def earliestExpiry : Option ℚ → List VodPlaylistSegment → Option ℚ
  | earliest, [] => earliest
  | earliest, item :: rest =>
    match decodeJwtExpiryMs runtime item.token, earliest with
    | some expiry, some known =>
      earliestExpiry (if expiry < known then some expiry else some known) rest
    | some expiry, none => earliestExpiry (some expiry) rest
    | none, _ => earliestExpiry earliest rest

def normalizeVodPlaylist (raw : Unknown) (fetchedAtMs : ℚ) : Option VodPlaylist :=
  match raw with
  | .json (.object fields) =>
    match field fields "segments".toList with
    | some (.array items) =>
      let parsed := (items.filterMap (parseSegment runtime)).insertionSort (startsBefore runtime)
      let segments := lay 0 parsed
      let totalDurationSeconds := roundSeconds (laidUntil 0 parsed)
      match segments.head?, segments.getLast? with
      | some first, some last =>
        some
          { cameraId := (Unknown.ofField fields "cameraId").text.getD []
            fromMs := (toMs runtime (.ofField fields "from")).getD first.startedAtMs
            toMs := (toMs runtime (.ofField fields "to")).getD last.endedAtMs
            segments := segments
            totalDurationSeconds := totalDurationSeconds
            startOffsetSeconds :=
              match toNumber runtime (.ofField fields "startOffsetSeconds") with
              | some declared =>
                if 0 < declared then min declared totalDurationSeconds else 0
              | none => 0
            truncated := (Unknown.ofField fields "truncated").truthy
            fetchedAtMs := fetchedAtMs
            tokenExpiresAtMs := earliestExpiry runtime none parsed }
      | _, _ => none
    | _ => none
  | _ => none

end Normalize

inductive VodPlacement where
  | inside
  | gap
  | before
  | after

structure VodPosition where
  seconds : ℚ
  placement : VodPlacement
  segment : VodPlaylistSegment
  segmentIndex : ℕ
  offsetInSegmentSeconds : ℚ

/-- The loop from a segment on. -/
def placeFrom (ms : ℚ) : ℕ → List VodPlaylistSegment → Option VodPosition
  | _, [] => none
  | index, segment :: rest =>
    if ms < segment.startedAtMs then some ⟨segment.offsetSeconds, .gap, segment, index, 0⟩
    else if ms < segment.endedAtMs then
      let offset := roundSeconds ((ms - segment.startedAtMs) / 1000)
      some ⟨roundSeconds (segment.offsetSeconds + offset), .inside, segment, index, offset⟩
    else placeFrom ms (index + 1) rest

def absoluteToVodPosition (runtime : Runtime) (playlist : Option VodPlaylist) (instant : Unknown) :
    Option VodPosition :=
  match playlist with
  | none => none
  | some playlist =>
    match playlist.segments.head?, playlist.segments.getLast? with
    | some first, some last =>
      match toMs runtime instant with
      | none => none
      | some ms =>
        if ms < first.startedAtMs then some ⟨0, .before, first, 0, 0⟩
        else
          match placeFrom ms 0 playlist.segments with
          | some position => some position
          | none =>
            some ⟨playlist.totalDurationSeconds, .after, last,
              playlist.segments.length - 1, last.durationSeconds⟩
    | _, _ => none

theorem round_mono {x y : ℚ} (below : x ≤ y) : round x ≤ round y :=
  Int.floor_mono (by linarith)

theorem round_int (n : ℤ) : round n = n := by
  unfold round
  rw [Int.floor_eq_iff]
  constructor <;> linarith

theorem roundSeconds_ms (n : ℤ) : roundSeconds (n / 1000) = n / 1000 := by
  have ms : (n : ℚ) / 1000 * 1000 = n := by ring
  rw [roundSeconds, ms, round_int]

/-! What holds of every playlist that comes out of the normalization. -/

structure VodPlaylist.Sound (playlist : VodPlaylist) : Prop where
  nonempty : playlist.segments ≠ []
  sorted : playlist.segments.Pairwise fun a b => a.startedAtMs ≤ b.startedAtMs

variable {segment : VodPlaylistSegment}

section Sound

variable (runtime : Runtime)

theorem mem_lay {cursor : ℚ} {items : List VodPlaylistSegment} (laid : segment ∈ lay cursor items) :
    ∃ item ∈ items, segment = { item with offsetSeconds := segment.offsetSeconds } := by
  induction items generalizing cursor with
  | nil => cases laid
  | cons item rest ih =>
    rw [lay, mem_cons] at laid
    rcases laid with rfl | later
    · exact ⟨item, mem_cons_self, rfl⟩
    · obtain ⟨item', listed, same⟩ := ih later
      exact ⟨item', mem_cons_of_mem _ listed, same⟩

theorem lay_sorted (cursor : ℚ) (items : List VodPlaylistSegment)
    (sorted : items.Pairwise fun a b => a.startedAtMs ≤ b.startedAtMs) :
    (lay cursor items).Pairwise fun a b => a.startedAtMs ≤ b.startedAtMs := by
  induction items generalizing cursor with
  | nil => exact List.Pairwise.nil
  | cons item rest ih =>
    obtain ⟨first, sorted'⟩ := pairwise_cons.mp sorted
    refine pairwise_cons.mpr ⟨?_, ih _ sorted'⟩
    intro segment later
    obtain ⟨item', listed, same⟩ := mem_lay later
    rw [same]
    exact first item' listed

theorem parsed_sorted (items : List VodPlaylistSegment) :
    (items.insertionSort (startsBefore runtime)).Pairwise fun a b =>
      a.startedAtMs ≤ b.startedAtMs := by
  apply KeyedList.insertionSort_byKey (startsBefore runtime) VodPlaylistSegment.startedAtMs
  · intro a b before
    rcases before with earlier | ⟨same, -⟩
    · exact earlier.le
    · exact same.le
  · intro a b after
    apply not_lt.mp
    intro earlier
    exact after (Or.inl earlier)

theorem normalizeVodPlaylist_sound {raw : Unknown} {fetchedAtMs : ℚ} {playlist : VodPlaylist}
    (normalized : normalizeVodPlaylist runtime raw fetchedAtMs = some playlist) :
    playlist.Sound := by
  unfold normalizeVodPlaylist at normalized
  split at normalized
  case h_2 => cases normalized
  split at normalized
  case h_2 => cases normalized
  rename_i fields _ items _
  dsimp only at normalized
  split at normalized
  case h_2 => cases normalized
  rename_i first last heads lasts
  obtain rfl := Option.some.inj normalized
  constructor
  · intro empty
    dsimp only at empty
    rw [empty] at heads
    cases heads
  · exact lay_sorted 0 _ (parsed_sorted runtime _)

end Sound

/-! The loops, up to the segment at which they stop. -/

theorem placeFrom_skip (ms : ℚ) (index : ℕ) (before rest : List VodPlaylistSegment)
    (passed : ∀ s ∈ before, s.startedAtMs ≤ ms ∧ s.endedAtMs ≤ ms) :
    placeFrom ms index (before ++ rest) = placeFrom ms (index + before.length) rest := by
  induction before generalizing index with
  | nil => rfl
  | cons s before ih =>
    obtain ⟨started, ended⟩ := passed s mem_cons_self
    rw [cons_append, placeFrom, if_neg (not_lt.mpr started), if_neg (not_lt.mpr ended),
      ih (index + 1) (fun s listed => passed s (mem_cons_of_mem _ listed)),
      length_cons]
    congr 1
    omega

theorem placeFrom_stops (ms : ℚ) (segments : List VodPlaylistSegment) :
    (∀ s ∈ segments, s.startedAtMs ≤ ms ∧ s.endedAtMs ≤ ms) ∨
      ∃ before segment after, segments = before ++ segment :: after ∧
        (∀ s ∈ before, s.startedAtMs ≤ ms ∧ s.endedAtMs ≤ ms) ∧
        (ms < segment.startedAtMs ∨ segment.startedAtMs ≤ ms ∧ ms < segment.endedAtMs) := by
  induction segments with
  | nil =>
    left
    intro s listed
    cases listed
  | cons s rest ih =>
    by_cases started : ms < s.startedAtMs
    · exact Or.inr ⟨[], s, rest, rfl, fun s listed => absurd listed not_mem_nil, Or.inl started⟩
    by_cases ended : ms < s.endedAtMs
    · exact Or.inr ⟨[], s, rest, rfl, fun s listed => absurd listed not_mem_nil,
        Or.inr ⟨not_lt.mp started, ended⟩⟩
    have own : s.startedAtMs ≤ ms ∧ s.endedAtMs ≤ ms := ⟨not_lt.mp started, not_lt.mp ended⟩
    rcases ih with all | ⟨before, segment, after, rfl, passed, stops⟩
    · left
      intro s' listed
      rcases mem_cons.mp listed with rfl | later
      · exact own
      · exact all s' later
    · right
      refine ⟨s :: before, segment, after, rfl, ?_, stops⟩
      intro s' listed
      rcases mem_cons.mp listed with rfl | later
      · exact own
      · exact passed s' later

/-! The position of an instant within the playlist `before ++ segment :: after`. -/

section Positions

variable {runtime : Runtime} {playlist : VodPlaylist} {instant : Unknown} {ms : ℚ}
  {before after : List VodPlaylistSegment} {segment : VodPlaylistSegment}

theorem absolute_placed (named : toMs runtime instant = some ms) (nonempty : playlist.segments ≠ [])
    (begun : ∀ s ∈ playlist.segments.head?, s.startedAtMs ≤ ms) {position : VodPosition}
    (placed : placeFrom ms 0 playlist.segments = some position) :
    absoluteToVodPosition runtime (some playlist) instant = some position := by
  obtain ⟨first, rest, split⟩ := exists_cons_of_ne_nil nonempty
  have last : playlist.segments.getLast? = some (playlist.segments.getLast nonempty) :=
    List.getLast?_eq_some_getLast nonempty
  have head : playlist.segments.head? = some first := by rw [split]; rfl
  unfold absoluteToVodPosition
  simp only [head, last, named, placed, if_neg (not_lt.mpr (begun first head))]

theorem absolute_inside (sound : playlist.Sound) (named : toMs runtime instant = some ms)
    (held : ∃ s ∈ playlist.segments, s.startedAtMs ≤ ms ∧ ms < s.endedAtMs) :
    ∃ position, absoluteToVodPosition runtime (some playlist) instant = some position ∧
      position.placement = .inside ∧ position.segment ∈ playlist.segments ∧
      (position.segment.startedAtMs ≤ ms ∧ ms < position.segment.endedAtMs) ∧
      position.offsetInSegmentSeconds = roundSeconds ((ms - position.segment.startedAtMs) / 1000) ∧
      ∀ s ∈ playlist.segments, s.startedAtMs ≤ ms → ms < s.endedAtMs →
        position.segment.startedAtMs ≤ s.startedAtMs := by
  obtain ⟨s, listed, started, ended⟩ := held
  have sorted := sound.sorted
  rcases placeFrom_stops ms playlist.segments with
    all | ⟨before, segment, after, split, passed, stops⟩
  · exact absurd ended (not_lt.mpr (all s listed).2)
  have later : ∀ s ∈ playlist.segments, s.startedAtMs ≤ ms → ms < s.endedAtMs →
      segment.startedAtMs ≤ s.startedAtMs := by
    intro s listed _ ended
    rw [split] at listed sorted
    rcases mem_append.mp listed with front | back
    · exact absurd ended (not_lt.mpr (passed s front).2)
    · rcases mem_cons.mp back with rfl | behind
      · exact le_refl _
      · exact (pairwise_cons.mp (pairwise_append.mp sorted).2.1).1 s behind
  rcases stops with early | ⟨started', ended'⟩
  · exact absurd ((later s listed started ended).trans started) (not_le.mpr early)
  have begun : ∀ first ∈ playlist.segments.head?, first.startedAtMs ≤ ms := by
    intro first head
    rw [split] at head
    cases before with
    | nil =>
      obtain rfl := Option.some.inj head
      exact started'
    | cons first' before =>
      obtain rfl := Option.some.inj head
      exact (passed _ mem_cons_self).1
  refine ⟨⟨roundSeconds (segment.offsetSeconds + roundSeconds ((ms - segment.startedAtMs) / 1000)),
    .inside, segment, before.length, roundSeconds ((ms - segment.startedAtMs) / 1000)⟩, ?_, rfl,
    ?_, ⟨started', ended'⟩, rfl, later⟩
  · apply absolute_placed named sound.nonempty begun
    rw [split, placeFrom_skip ms 0 before _ passed, Nat.zero_add, placeFrom,
      if_neg (not_lt.mpr started'), if_pos ended']
  · rw [split]
    exact mem_append_right _ mem_cons_self

end Positions

/-- Two dates can be read, eleven seconds apart. -/
def twoDates : Runtime where
  dateOf text :=
    if text = "2026-07-27T08:00:00.000Z".toList then some 1785139200000
    else if text = "2026-07-27T08:00:11.000Z".toList then some 1785139211000
    else none
  numberOf _ := none
  localeCompare _ _ := 0
  decodeURIComponent text := some text
  atob _ := none
  parseJson _ := none

def segmentItem (id startedAt : String) (durationSeconds : ℚ) : Raw :=
  .object [("recordingId".toList, .atom (.string id.toList)),
    ("startedAt".toList, .atom (.string startedAt.toList)),
    ("durationSeconds".toList, .atom (.number durationSeconds)),
    ("playUrl".toList, .atom (.string (id.toList ++ "/play.mp4?token=t".toList)))]

/-- The answer of the endpoint with two segments, of which the second lasts ten seconds. -/
def twoSegments (durationSeconds : ℚ) : Unknown :=
  .json (.object [("segments".toList, .array
    [segmentItem "rec-1" "2026-07-27T08:00:00.000Z" durationSeconds,
      segmentItem "rec-2" "2026-07-27T08:00:11.000Z" 10])])

end DracVms.VodContinuous
