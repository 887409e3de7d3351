import DracVms.Library.Binary64
import DracVms.Library.KeyedList
import DracVms.Library.IntervalSweep
import DracVms.Playback.VisibleSpans

namespace DracVms.TimelineWindow

open List JsNumber IntervalSweep

open Binary64 (double)
open JsNumeral (lastBit)

/-! Ranges of the day in minutes; the number that is none stands for all that are not finite. -/

def finite (value : Number ℚ) (fallback : ℚ) : ℚ := value.getD fallback

def clamp (value lower upper : ℚ) : ℚ := max lower (min upper value)

def timelineTotalMinutes : ℚ := 24 * 60

/-- The two finite ends of a range, when it has them in their order. -/
def wellFormed (range : TimeRange ℚ) : Option (ℚ × ℚ) :=
  match range.start, range.stop with
  | some start, some stop => if start < stop then some (start, stop) else none
  | _, _ => none

def startsFirst (a b : ℚ × ℚ) : Prop := a.1 ≤ b.1

instance : DecidableRel startsFirst := fun a b => inferInstanceAs (Decidable (a.1 ≤ b.1))

/-- The last of the merged ranges grows as long as the next one touches it. -/
def fuse : ℚ × ℚ → List (ℚ × ℚ) → List (ℚ × ℚ)
  | last, [] => [last]
  | last, range :: rest =>
    if last.2 < range.1 then last :: fuse range rest
    else fuse (last.1, max last.2 range.2) rest

def mergeRanges (ranges : List (TimeRange ℚ)) : List (ℚ × ℚ) :=
  match (ranges.filterMap wellFormed).insertionSort startsFirst with
  | [] => []
  | first :: rest => fuse first rest

/-- The hole that is left when no range is. -/
def lastHole (cursor stop : ℚ) : List (ℚ × ℚ) :=
  if cursor < stop then [(cursor, stop)] else []

def holes (stop : ℚ) : ℚ → List (ℚ × ℚ) → List (ℚ × ℚ)
  | cursor, [] => lastHole cursor stop
  | cursor, range :: rest =>
    if range.2 ≤ cursor then holes stop cursor rest
    else if stop ≤ range.1 then lastHole cursor stop
    else
      (if cursor < range.1 then [(cursor, min range.1 stop)] else []) ++
        if stop ≤ max cursor range.2 then lastHole (max cursor range.2) stop
        else holes stop (max cursor range.2) rest

def subtractRanges (base : ℚ × ℚ) (taken : List (TimeRange ℚ)) : List (ℚ × ℚ) :=
  (holes base.2 base.1 (mergeRanges taken)).filter fun hole => hole.1 < hole.2

structure WindowFetch where
  window : TimeRange ℚ
  loaded : List (TimeRange ℚ)
  padMinutes : Number ℚ
  lookbackMinutes : Number ℚ
  totalMins : Number ℚ

namespace WindowFetch

variable (input : WindowFetch)

def total : ℚ := max 1 (finite input.totalMins timelineTotalMinutes)

def pad : ℚ := max 0 (finite input.padMinutes 0)

def lookback : ℚ := max 0 (finite input.lookbackMinutes 0)

/-- The window with its margins, of which the day may not have everything. -/
def padded : ℚ × ℚ :=
  (double (double (finite input.window.start 0 - input.pad) - input.lookback),
    double (finite input.window.stop input.total + input.pad))

end WindowFetch

def planWindowFetch (input : WindowFetch) : List (ℚ × ℚ) :=
  let start := clamp input.padded.1 0 input.total
  let stop := clamp input.padded.2 0 input.total
  if stop ≤ start then [] else subtractRanges (start, stop) input.loaded

/-- The loop over one range, if it comes to an end in so many turns. -/
def pieces (size stop : ℚ) : ℕ → ℚ → Option (List (ℚ × ℚ))
  | 0, start => if start < stop then none else some []
  | turns + 1, start =>
    if start < stop then
      (pieces size stop turns (double (start + size))).map fun rest =>
        (start, min (double (start + size)) stop) :: rest
    else some []

def chunkRanges (turns : ℕ) (ranges : List (ℚ × ℚ)) (maxMinutes : Number ℚ) :
    Option (List (ℚ × ℚ)) :=
  let size := finite maxMinutes 0
  if 0 < size then
    (ranges.mapM fun range => pieces size range.2 turns range.1).map List.flatten
  else some ranges

/-! Merging keeps what the ranges hold. -/

def Holds (range : ℚ × ℚ) (instant : ℚ) : Prop := range.1 ≤ instant ∧ instant < range.2

section

variable (last : ℚ × ℚ) (ranges : List (ℚ × ℚ))

theorem fuse_from (after : ∀ r ∈ ranges, last.1 ≤ r.1) (ordered : Ordered ranges) :
    ∀ m ∈ fuse last ranges, last.1 ≤ m.1 := by
  induction ranges generalizing last with
  | nil =>
    intro m listed
    rw [mem_singleton.mp listed]
  | cons range rest ih =>
    obtain ⟨first, ordered'⟩ := pairwise_cons.mp ordered
    rw [fuse]
    split
    · intro m listed
      rcases mem_cons.mp listed with same | deeper
      · rw [same]
      · exact (after range mem_cons_self).trans (ih range first ordered' m deeper)
    · exact ih _ (fun r present => after r (mem_cons_of_mem _ present)) ordered'

theorem fuse_ordered (after : ∀ r ∈ ranges, last.1 ≤ r.1) (ordered : Ordered ranges) :
    Ordered (fuse last ranges) := by
  induction ranges generalizing last with
  | nil => exact pairwise_singleton _ _
  | cons range rest ih =>
    obtain ⟨first, ordered'⟩ := pairwise_cons.mp ordered
    rw [fuse]
    split
    · refine pairwise_cons.mpr ⟨?_, ih range first ordered'⟩
      intro m listed
      exact (after range mem_cons_self).trans (fuse_from range rest first ordered' m listed)
    · exact ih _ (fun r present => after r (mem_cons_of_mem _ present)) ordered'

theorem fuse_proper (own : last.1 < last.2) (proper : ∀ r ∈ ranges, r.1 < r.2) :
    ∀ m ∈ fuse last ranges, m.1 < m.2 := by
  induction ranges generalizing last with
  | nil =>
    intro m listed
    rw [mem_singleton.mp listed]
    exact own
  | cons range rest ih =>
    have later : ∀ r ∈ rest, r.1 < r.2 := fun r present =>
      proper r (mem_cons_of_mem _ present)
    rw [fuse]
    split
    · intro m listed
      rcases mem_cons.mp listed with same | deeper
      · rw [same]
        exact own
      · exact ih range (proper range mem_cons_self) later m deeper
    · exact ih _ (own.trans_le (le_max_left _ _)) later

/-- Every range lies in one of the merged ones. -/
theorem fuse_contains (after : ∀ r ∈ ranges, last.1 ≤ r.1) (ordered : Ordered ranges) :
    ∀ r ∈ last :: ranges, ∃ m ∈ fuse last ranges, m.1 ≤ r.1 ∧ r.2 ≤ m.2 := by
  induction ranges generalizing last with
  | nil =>
    intro r listed
    rw [mem_singleton.mp listed]
    exact ⟨last, mem_singleton_self _, le_refl _, le_refl _⟩
  | cons range rest ih =>
    obtain ⟨first, ordered'⟩ := pairwise_cons.mp ordered
    intro r listed
    rw [fuse]
    split
    · rcases mem_cons.mp listed with same | deeper
      · rw [same]
        exact ⟨last, mem_cons_self, le_refl _, le_refl _⟩
      · obtain ⟨m, found, within⟩ := ih range first ordered' r deeper
        exact ⟨m, mem_cons_of_mem _ found, within⟩
    · have wide := ih (last.1, max last.2 range.2)
        (fun r present => after r (mem_cons_of_mem _ present)) ordered'
      obtain ⟨m, found, starts, ends⟩ := wide _ mem_cons_self
      rcases mem_cons.mp listed with same | deeper
      · rw [same]
        exact ⟨m, found, starts, (le_max_left _ _).trans ends⟩
      · rcases mem_cons.mp deeper with same | deepest
        · rw [same]
          exact ⟨m, found, starts.trans (after range mem_cons_self), (le_max_right _ _).trans ends⟩
        · exact wide r (mem_cons_of_mem _ deepest)

theorem fuse_holds (instant : ℚ) :
    ∀ m ∈ fuse last ranges, Holds m instant → ∃ r ∈ last :: ranges, Holds r instant := by
  induction ranges generalizing last with
  | nil =>
    intro m listed held
    exact ⟨m, listed, held⟩
  | cons range rest ih =>
    intro m listed held
    rw [fuse] at listed
    split at listed
    · rcases mem_cons.mp listed with same | deeper
      · exact ⟨m, by rw [same]; exact mem_cons_self, held⟩
      · obtain ⟨r, found, inside⟩ := ih range m deeper held
        exact ⟨r, mem_cons_of_mem _ found, inside⟩
    · rename_i touching
      obtain ⟨r, found, inside⟩ := ih (last.1, max last.2 range.2) m listed held
      rcases mem_cons.mp found with same | deeper
      · rw [same] at inside
        by_cases early : instant < last.2
        · exact ⟨last, mem_cons_self, inside.1, early⟩
        · have late : instant < range.2 := (lt_max_iff.mp inside.2).resolve_left early
          refine ⟨range, mem_cons_of_mem _ mem_cons_self, ?_, late⟩
          exact (not_lt.mp touching).trans (not_lt.mp early)
      · exact ⟨r, mem_cons_of_mem _ (mem_cons_of_mem _ deeper), inside⟩

end

theorem wellFormed_iff (range : TimeRange ℚ) (r : ℚ × ℚ) : wellFormed range = some r ↔
      range.start = some r.1 ∧ range.stop = some r.2 ∧ r.1 < r.2 := by
  obtain ⟨start, stop⟩ := range
  obtain ⟨first, last⟩ := r
  cases start <;> cases stop <;> simp [wellFormed]
  constructor
  · rintro ⟨before, rfl, rfl⟩
    exact ⟨rfl, rfl, before⟩
  · rintro ⟨rfl, rfl, before⟩
    exact ⟨before, rfl, rfl⟩

/-- What merging is for: the same instants, in ranges that come one after another. -/
structure Merged (ranges : List (TimeRange ℚ)) (merged : List (ℚ × ℚ)) : Prop where
  ordered : Ordered merged
  proper : ∀ m ∈ merged, m.1 < m.2
  contains : ∀ range ∈ ranges, ∀ r, wellFormed range = some r →
    ∃ m ∈ merged, m.1 ≤ r.1 ∧ r.2 ≤ m.2
  holds : ∀ m ∈ merged, ∀ instant, Holds m instant →
    ∃ range ∈ ranges, ∃ r, wellFormed range = some r ∧ Holds r instant

theorem mergeRanges_merged (ranges : List (TimeRange ℚ)) : Merged ranges (mergeRanges ranges) := by
  have sorted : ((ranges.filterMap wellFormed).insertionSort startsFirst).Pairwise
      fun a b => a.1 ≤ b.1 :=
    KeyedList.insertionSort_byKey startsFirst Prod.fst (fun _ _ first => first)
      (fun _ _ later => le_of_not_ge later) _
  have same : ∀ r, r ∈ (ranges.filterMap wellFormed).insertionSort startsFirst ↔
      ∃ range ∈ ranges, wellFormed range = some r := by
    intro r
    rw [mem_insertionSort, mem_filterMap]
  unfold mergeRanges
  cases listed : (ranges.filterMap wellFormed).insertionSort startsFirst with
  | nil =>
    rw [listed] at same
    refine ⟨List.Pairwise.nil, ?_, ?_, ?_⟩
    · intro m here
      cases here
    · intro range present r formed
      cases (same r).mpr ⟨range, present, formed⟩
    · intro m here
      cases here
  | cons first rest =>
    rw [listed] at same sorted
    obtain ⟨after, ordered⟩ := pairwise_cons.mp sorted
    have proper : ∀ r ∈ first :: rest, r.1 < r.2 := by
      intro r present
      obtain ⟨range, -, formed⟩ := (same r).mp present
      exact ((wellFormed_iff range r).mp formed).2.2
    refine ⟨fuse_ordered first rest after ordered,
      fuse_proper first rest (proper first mem_cons_self)
        (fun r present => proper r (mem_cons_of_mem _ present)), ?_, ?_⟩
    · intro range present r formed
      exact fuse_contains first rest after ordered r ((same r).mpr ⟨range, present, formed⟩)
    · intro m found instant held
      obtain ⟨r, listed', inside⟩ := fuse_holds first rest instant m found held
      obtain ⟨range, present, formed⟩ := (same r).mp listed'
      exact ⟨range, present, r, formed, inside⟩

/-! The holes of a base are those of one sweep over the merged ranges. -/

def before (source target : ℚ) : Bool := source < target

def cut (stop : ℚ) (range : ℚ × ℚ) : ℚ × ℚ := (min range.1 stop, range.2)

theorem lastHole_beyond {cursor stop : ℚ} (beyond : stop ≤ cursor) : lastHole cursor stop = [] :=
  if_neg (not_lt.mpr beyond)

theorem hole_before (cursor target : ℚ) : hole before cursor target = lastHole cursor target := by
  unfold hole lastHole before
  by_cases more : cursor < target <;> simp [more]

theorem sweep_beyond (cursor stop : ℚ) (ranges : List (ℚ × ℚ)) (beyond : stop ≤ cursor) :
    (sweep before cursor (ranges.map (cut stop))).1 = [] := by
  induction ranges generalizing cursor with
  | nil => rfl
  | cons range rest ih =>
    have none_ : hole before cursor (cut stop range).1 = [] := by
      rw [hole_before]
      exact lastHole_beyond ((min_le_right _ _).trans beyond)
    rw [map_cons, sweep, none_, ih _ (beyond.trans (le_max_left _ _))]
    rfl

theorem end_beyond (cursor stop : ℚ) (ranges : List (ℚ × ℚ)) (beyond : stop ≤ cursor) :
    lastHole (sweep before cursor (ranges.map (cut stop))).2 stop = [] :=
  lastHole_beyond (beyond.trans (cursor_le_end before cursor _))

theorem holes_sweep (stop cursor : ℚ) (ranges : List (ℚ × ℚ)) (proper : ∀ r ∈ ranges, r.1 < r.2) :
    holes stop cursor ranges =
      (sweep before cursor (ranges.map (cut stop))).1 ++
        lastHole (sweep before cursor (ranges.map (cut stop))).2 stop := by
  induction ranges generalizing cursor with
  | nil => rfl
  | cons range rest ih =>
    have own : range.1 < range.2 := proper range mem_cons_self
    have later : ∀ r ∈ rest, r.1 < r.2 := fun r present =>
      proper r (mem_cons_of_mem _ present)
    rw [holes, map_cons, sweep, hole_before]
    dsimp only [cut]
    by_cases passed : range.2 ≤ cursor
    · have none_ : lastHole cursor (min range.1 stop) = [] :=
        lastHole_beyond ((min_le_left _ _).trans (own.le.trans passed))
      rw [if_pos passed, none_, max_eq_left passed, nil_append]
      exact ih cursor later
    · rw [if_neg passed]
      by_cases outside : stop ≤ range.1
      · have beyond : stop ≤ max cursor range.2 :=
          (outside.trans own.le).trans (le_max_right _ _)
        rw [if_pos outside, min_eq_right outside, sweep_beyond _ _ _ beyond,
          end_beyond _ _ _ beyond, append_nil, append_nil]
      · rw [if_neg outside, min_eq_left (not_le.mp outside).le, append_assoc]
        congr 1
        by_cases done : stop ≤ max cursor range.2
        · rw [if_pos done, sweep_beyond _ _ _ done, end_beyond _ _ _ done]
          exact lastHole_beyond done
        · rw [if_neg done]
          exact ih _ later

/-- The holes of a base beside what is taken. -/
structure Complement (base : ℚ × ℚ) (taken : List (TimeRange ℚ)) (left : List (ℚ × ℚ)) : Prop where
  covers : ∀ instant, Holds base instant →
    (∃ hole ∈ left, Holds hole instant) ∨
      ∃ range ∈ taken, ∃ r, wellFormed range = some r ∧ Holds r instant
  apart : left.Pairwise fun earlier later => earlier.2 ≤ later.1
  spares : ∀ hole ∈ left, ∀ range ∈ taken, ∀ r, wellFormed range = some r →
    hole.2 ≤ r.1 ∨ r.2 ≤ hole.1
  proper : ∀ hole ∈ left, hole.1 < hole.2
  within : ∀ hole ∈ left, base.1 ≤ hole.1 ∧ hole.2 ≤ base.2

theorem cut_ordered {stop : ℚ} {ranges : List (ℚ × ℚ)} (ordered : Ordered ranges) :
    Ordered (ranges.map (cut stop)) :=
  pairwise_map.mpr (ordered.imp fun first => min_le_min_right stop first)

theorem mem_lastHole {cursor stop : ℚ} {hole : ℚ × ℚ} (left : hole ∈ lastHole cursor stop) :
    hole = (cursor, stop) ∧ cursor < stop := by
  unfold lastHole at left
  split at left
  · rename_i more
    exact ⟨mem_singleton.mp left, more⟩
  · cases left

theorem holes_complement (base : ℚ × ℚ) (taken : List (TimeRange ℚ)) (merged : List (ℚ × ℚ))
    (same : Merged taken merged) : Complement base taken (holes base.2 base.1 merged) := by
  obtain ⟨start, stop⟩ := base
  have ordered : Ordered (merged.map (cut stop)) := cut_ordered same.ordered
  rw [holes_sweep stop start merged same.proper]
  constructor
  · intro instant inside
    by_cases passed : instant < (sweep before start (merged.map (cut stop))).2
    · rcases passed_cases before start _ ordered instant inside.1 passed with
        ⟨range, present, held⟩ | ⟨gap, found, held⟩ | ⟨source, target, -, from', to', short, -⟩
      · obtain ⟨m, listed, rfl⟩ := mem_map.mp present
        have begun : m.1 ≤ instant := by
          rcases min_le_iff.mp held.1 with begun | ended
          · exact begun
          · exact absurd (ended.trans_lt inside.2) (lt_irrefl stop)
        exact Or.inr (same.holds m listed instant ⟨begun, held.2⟩)
      · exact Or.inl ⟨gap, mem_append_left _ found, held⟩
      · exact absurd (from'.trans_lt to') (of_decide_eq_false short)
    · have after := not_lt.mp passed
      have more : (sweep before start (merged.map (cut stop))).2 < stop := after.trans_lt inside.2
      refine Or.inl ⟨((sweep before start (merged.map (cut stop))).2, stop),
        mem_append_right _ ?_, after, inside.2⟩
      rw [lastHole, if_pos more]
      exact mem_singleton_self _
  · refine pairwise_append.mpr ⟨gaps_apart before start _ ?_, ?_, ?_⟩
    · intro range present
      obtain ⟨m, listed, rfl⟩ := mem_map.mp present
      exact (min_le_left _ _).trans (same.proper m listed).le
    · unfold lastHole
      split
      · exact pairwise_singleton _ _
      · exact List.Pairwise.nil
    · intro gap found hole left
      obtain ⟨-, -, range, present, ends⟩ := gap_bounds before start _ gap found
      obtain ⟨m, listed, rfl⟩ := mem_map.mp present
      calc
        gap.2 = min m.1 stop := ends
        _ ≤ m.1 := min_le_left _ _
        _ ≤ m.2 := (same.proper m listed).le
        _ ≤ (sweep before start (merged.map (cut stop))).2 :=
          interval_le_end before start _ (cut stop m) present
        _ = hole.1 := by rw [(mem_lastHole left).1]
  · intro hole listed range present r formed
    obtain ⟨m, found, starts, ends⟩ := same.contains range present r formed
    have there : cut stop m ∈ merged.map (cut stop) := mem_map_of_mem found
    rcases mem_append.mp listed with gap | last
    · rcases gap_empty before start _ ordered hole gap _ there with passed | ahead
      · exact Or.inr (ends.trans passed)
      · left
        calc
          hole.2 ≤ min m.1 stop := ahead
          _ ≤ m.1 := min_le_left _ _
          _ ≤ r.1 := starts
    · right
      rw [(mem_lastHole last).1]
      exact ends.trans (interval_le_end before start _ (cut stop m) there)
  · intro hole listed
    rcases mem_append.mp listed with gap | last
    · exact of_decide_eq_true (gap_bounds before start _ hole gap).1
    · rw [(mem_lastHole last).1]
      exact (mem_lastHole last).2
  · intro hole listed
    rcases mem_append.mp listed with gap | last
    · obtain ⟨-, from', range, present, ends⟩ := gap_bounds before start _ hole gap
      obtain ⟨m, -, rfl⟩ := mem_map.mp present
      exact ⟨from', ends.trans_le (min_le_right _ _)⟩
    · rw [(mem_lastHole last).1]
      exact ⟨cursor_le_end before start _, le_refl _⟩

theorem subtractRanges_complement (base : ℚ × ℚ) (taken : List (TimeRange ℚ)) :
    Complement base taken (subtractRanges base taken) := by
  have complement := holes_complement base taken _ (mergeRanges_merged taken)
  have all : subtractRanges base taken = holes base.2 base.1 (mergeRanges taken) :=
    filter_eq_self.mpr fun hole listed => decide_eq_true (complement.proper hole listed)
  rw [all]
  exact complement

/-! The pieces of a range. -/

/-- The pieces lie end to end from the start to the stop. -/
def Tiles (stop : ℚ) : ℚ → List (ℚ × ℚ) → Prop
  | start, [] => start = stop
  | start, piece :: rest => piece.1 = start ∧ piece.1 < piece.2 ∧ Tiles stop piece.2 rest

/-- The parts of one range, end to end; none of them ends beyond the double next to its start and
the limit. -/
def Divides (limit : ℚ) (range : ℚ × ℚ) (parts : List (ℚ × ℚ)) : Prop :=
  Tiles range.2 range.1 parts ∧ ∀ part ∈ parts, part.2 ≤ double (part.1 + limit)

section

variable {size stop total : ℚ}

/-- A turn goes on by half of the last bit of the day, or to the end of it. -/
theorem turn_advances (whole : double total = total) (enough : (2 : ℚ) ^ lastBit total ≤ size)
    {start : ℚ} (nonneg : 0 ≤ start) :
    start + 2 ^ lastBit total / 2 ≤ double (start + size) ∨ total ≤ double (start + size) := by
  by_cases last : total ≤ start + size
  · right
    rw [← whole]
    exact Binary64.double_mono last
  · exact Or.inl (Binary64.double_add_far nonneg (not_le.mp last).le enough)

theorem pieces_divide (whole : double total = total) (enough : (2 : ℚ) ^ lastBit total ≤ size)
    (within : stop ≤ total) (turns : ℕ) (start : ℚ) (nonneg : 0 ≤ start)
    (left : total - start ≤ turns * (2 ^ lastBit total / 2)) :
    ∃ parts, (∀ more, turns ≤ more → pieces size stop more start = some parts) ∧
      (start < stop → Tiles stop start parts) ∧
      (stop ≤ start → parts = []) ∧
      ∀ part ∈ parts, part.2 ≤ double (part.1 + size) := by
  have done : ∀ start, stop ≤ start → ∀ more, pieces size stop more start = some [] := by
    intro start passed more
    cases more with
    | zero | succ => exact if_neg (not_lt.mpr passed)
  have bit := Binary64.bit_pos (lastBit total)
  induction turns generalizing start with
  | zero =>
    have passed : stop ≤ start := by
      linarith
    exact ⟨[], fun more _ => done start passed more, fun more => absurd passed (not_le.mpr more),
      fun _ => rfl, by simp⟩
  | succ turns ih =>
    by_cases more : start < stop
    swap
    · have passed := not_lt.mp more
      exact ⟨[], fun more _ => done start passed more, fun more => absurd passed (not_le.mpr more),
        fun _ => rfl, by simp⟩
    have advances := turn_advances whole enough nonneg
    have ahead : start < double (start + size) := by
      rcases advances with on | end_
      · linarith
      · exact (more.trans_le within).trans_le end_
    have fewer : total - double (start + size) ≤ turns * (2 ^ lastBit total / 2) := by
      rcases advances with on | end_
      · rw [Nat.cast_succ] at left
        linarith
      · have none_ : (0 : ℚ) ≤ turns * (2 ^ lastBit total / 2) := by positivity
        linarith
    obtain ⟨parts, loops, tiles, empty, short⟩ := ih _ (nonneg.trans ahead.le) fewer
    refine ⟨(start, min (double (start + size)) stop) :: parts, ?_, fun _ => ⟨rfl, ?_, ?_⟩,
      fun passed => absurd passed (not_le.mpr more), ?_⟩
    · intro later enough
      obtain ⟨n, rfl⟩ : ∃ n, later = n + 1 := ⟨later - 1, by omega⟩
      rw [pieces, if_pos more, loops n (by omega), Option.map_some]
    · exact lt_min ahead more
    · by_cases last : stop ≤ double (start + size)
      · rw [empty last, min_eq_right last]
        exact rfl
      · rw [min_eq_left (not_le.mp last).le]
        exact tiles (not_le.mp last)
    · intro part listed
      rcases mem_cons.mp listed with rfl | deeper
      · exact min_le_left _ _
      · exact short part deeper

/-- Within the day the loop comes to an end over every range, in as many turns as the day has. -/
theorem chunkRanges_divides (whole : double total = total) (limit : ℚ)
    (enough : (2 : ℚ) ^ lastBit total ≤ limit) (ranges : List (ℚ × ℚ))
    (within : ∀ range ∈ ranges, 0 ≤ range.1 ∧ range.1 < range.2 ∧ range.2 ≤ total) :
    ∃ turns parts, (∀ more, turns ≤ more →
        chunkRanges more ranges (some limit) = some parts.flatten) ∧
      List.Forall₂ (Divides limit) ranges parts := by
  have bit := Binary64.bit_pos (lastBit total)
  have positive : 0 < limit := bit.trans_le enough
  obtain ⟨turns, enoughTurns⟩ := exists_nat_ge (total / (2 ^ lastBit total / 2))
  have all : total ≤ turns * (2 ^ lastBit total / 2) := (div_le_iff₀ (by positivity)).mp enoughTurns
  refine ⟨turns, ?_⟩
  have gathered : ∃ parts, (∀ more, turns ≤ more →
      (ranges.mapM fun range => pieces limit range.2 more range.1) = some parts) ∧
        List.Forall₂ (Divides limit) ranges parts := by
    induction ranges with
    | nil => exact ⟨[], fun _ _ => rfl, List.Forall₂.nil⟩
    | cons range rest ih =>
      obtain ⟨parts, loops, divides⟩ := ih fun r listed => within r (mem_cons_of_mem _ listed)
      obtain ⟨nonneg, proper, inside⟩ := within range mem_cons_self
      obtain ⟨own, loop, tiles, -, short⟩ := pieces_divide whole enough inside turns range.1 nonneg
        (by linarith)
      refine ⟨own :: parts, ?_, List.Forall₂.cons ⟨tiles proper, short⟩ divides⟩
      intro more later
      rw [mapM_cons, loop more later, loops more later]
      rfl
  obtain ⟨parts, loops, divides⟩ := gathered
  refine ⟨parts, ?_, divides⟩
  intro more later
  unfold chunkRanges finite
  simp only [Option.getD_some, if_pos positive, loops more later, Option.map_some]

end

/-! What is planned for a window. -/

theorem mem_clamped {range : ℚ × ℚ} {total instant : ℚ} (held : Holds range instant)
    (day : Holds (0, total) instant) :
    Holds (clamp range.1 0 total, clamp range.2 0 total) instant := by
  have start : clamp range.1 0 total ≤ instant := max_le day.1 ((min_le_right _ _).trans held.1)
  have stop : instant < clamp range.2 0 total :=
    (lt_min day.2 held.2).trans_le (le_max_right _ _)
  exact ⟨start, stop⟩

/-- What the plan adds to the loaded ranges covers the window with its margins, as far as the day
goes, and nothing is loaded twice; a limit of at least the last bit of the day divides it. -/
theorem planWindowFetch_covers (input : WindowFetch) (whole : double input.total = input.total)
    (limit : ℚ) (enough : (2 : ℚ) ^ lastBit input.total ≤ limit) :
    (∀ instant, Holds input.padded instant → Holds (0, input.total) instant →
      (∃ range ∈ planWindowFetch input, Holds range instant) ∨
        ∃ range ∈ input.loaded, ∃ r, wellFormed range = some r ∧ Holds r instant) ∧
    ((planWindowFetch input).Pairwise fun earlier later => earlier.2 ≤ later.1) ∧
    (∀ range ∈ planWindowFetch input, ∀ loaded ∈ input.loaded, ∀ r, wellFormed loaded = some r →
      ∀ instant, Holds range instant → ¬(r.1 < instant ∧ instant < r.2)) ∧
    ∃ turns parts, (∀ more, turns ≤ more →
        chunkRanges more (planWindowFetch input) (some limit) = some parts.flatten) ∧
      List.Forall₂ (Divides limit) (planWindowFetch input) parts := by
  have complement := subtractRanges_complement
    (clamp input.padded.1 0 input.total, clamp input.padded.2 0 input.total) input.loaded
  by_cases empty : clamp input.padded.2 0 input.total ≤ clamp input.padded.1 0 input.total
  · have none_ : planWindowFetch input = [] := if_pos empty
    rw [none_]
    refine ⟨?_, List.Pairwise.nil, by simp, chunkRanges_divides whole limit enough [] (by simp)⟩
    intro instant held day
    have inside := mem_clamped held day
    exact absurd (inside.1.trans_lt inside.2) (not_lt.mpr empty)
  · have planned : planWindowFetch input = subtractRanges
        (clamp input.padded.1 0 input.total, clamp input.padded.2 0 input.total) input.loaded :=
      if_neg empty
    rw [planned]
    refine ⟨?_, complement.apart, ?_, chunkRanges_divides whole limit enough _ ?_⟩
    · intro instant held day
      exact complement.covers instant (mem_clamped held day)
    · intro range listed loaded present r formed instant held inside
      rcases complement.spares range listed loaded present r formed with ahead | passed
      · exact absurd (held.2.trans_le ahead) (not_lt.mpr inside.1.le)
      · exact absurd (inside.2.trans_le passed) (not_lt.mpr held.1)
    · intro range listed
      obtain ⟨from', to'⟩ := complement.within range listed
      have day : 0 ≤ input.total := zero_le_one.trans (le_max_left _ _)
      refine ⟨(le_max_left _ _).trans from', complement.proper range listed, ?_⟩
      exact to'.trans (max_le day (min_le_left _ _))

/-- The first hour of the day with half an hour of margin. -/
def firstHour : WindowFetch where
  window := ⟨some 0, some 60⟩
  loaded := [⟨some 50, some 70⟩, ⟨none, some 10⟩, ⟨some 20, some 5⟩]
  padMinutes := some 30
  lookbackMinutes := none
  totalMins := none

theorem firstHour_planned : planWindowFetch firstHour = [(0, 50), (70, 90)] := by decide +kernel

/-- The margin of the first hour lies before the day; from 76.1 on, three hours are more than 180
minutes; and a limit of 10^-17 moves no start. -/
theorem nightMargin_uncovered : (¬∀ (input : WindowFetch) (instant : ℚ), Holds input.padded instant →
      (∃ range ∈ planWindowFetch input, Holds range instant) ∨
        ∃ range ∈ input.loaded, ∃ r, wellFormed range = some r ∧ Holds r instant) ∧
    (∃ parts, chunkRanges 2 [(double (761 / 10), 300)] (some 180) = some parts ∧
      ∃ part ∈ parts, 180 < part.2 - part.1) ∧
    ∀ turns, chunkRanges turns [(1, 2)] (some (double (1 / 10 ^ 17))) = none := by
  refine ⟨?_, ?_, ?_⟩
  · intro always
    have night : Holds firstHour.padded (-1) := by
      unfold Holds
      decide +kernel
    rcases always firstHour (-1) night with ⟨range, listed, held⟩ | ⟨range, listed, r, formed, held⟩
    · rw [firstHour_planned] at listed
      have none_ : ∀ range ∈ [((0 : ℚ), (50 : ℚ)), (70, 90)], ¬range.1 ≤ -1 := by decide +kernel
      exact none_ range listed held.1
    · have none_ : ∀ range ∈ firstHour.loaded, ∀ r ∈ wellFormed range, ¬r.1 ≤ -1 := by
        decide +kernel
      exact none_ range listed r formed held.1
  · refine ⟨[(double (761 / 10), double (double (761 / 10) + 180)),
      (double (double (761 / 10) + 180), 300)], by decide +kernel, ?_⟩
    exact ⟨_, mem_cons_self, by decide +kernel⟩
  · intro turns
    have still : double (1 + double (1 / 10 ^ 17)) = 1 := by decide +kernel
    have never : ∀ turns, pieces (double (1 / 10 ^ 17)) 2 turns 1 = none := by
      intro turns
      induction turns with
      | zero => rfl
      | succ turns ih =>
        rw [pieces, still, ih]
        rfl
    have positive : 0 < double (1 / 10 ^ 17) := by decide +kernel
    unfold chunkRanges finite
    simp only [Option.getD_some, if_pos positive, mapM_cons, never turns]
    rfl

theorem firstHour_covered : ∃ turns parts, (∀ more, turns ≤ more →
        chunkRanges more [(0, 50), (70, 90)] (some 15) = some parts.flatten) ∧
      List.Forall₂ (Divides 15) [(0, 50), (70, 90)] parts := by
  have covers := (planWindowFetch_covers firstHour (by decide +kernel) 15 (by decide +kernel)).2.2.2
  rwa [firstHour_planned] at covers

end DracVms.TimelineWindow
