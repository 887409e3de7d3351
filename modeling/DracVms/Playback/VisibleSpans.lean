import DracVms.Library.JsNumber

namespace DracVms.TimelineWindow

open List JsNumber

structure TimeRange (Value : Type) where
  start : Number Value
  stop : Number Value

section Spans

variable {Value Span : Type} [LinearOrder Value] (range : Span → TimeRange Value)

/-- A span that is visible in part counts. -/
def overlaps (window : TimeRange Value) (span : Span) : Bool :=
  le window.start (range span).stop && le (range span).start window.stop

def endsInReach (window : TimeRange Value) (span : Span) : Bool :=
  le window.start (range span).stop

def startsAfter (window : TimeRange Value) (span : Span) : Bool :=
  lt window.stop (range span).start

/-- The halving loop of the search. -/
def searchStart (window : TimeRange Value) (spans : List Span) (low high : ℕ)
    (bound : high ≤ spans.length) : ℕ :=
  if open' : low < high then
    have inside : (low + high) >>> 1 < high := by
      rw [Nat.shiftRight_one]
      omega
    have within : (low + high) >>> 1 < spans.length := Nat.lt_of_lt_of_le inside bound
    if startsAfter range window spans[(low + high) >>> 1] then
      searchStart window spans low ((low + high) >>> 1) (Nat.le_of_lt within)
    else searchStart window spans ((low + high) >>> 1 + 1) high bound
  else low
termination_by high - low
decreasing_by
  all_goals
    rw [Nat.shiftRight_one] at *
    omega

/-- The indexes from the first span that ends in reach to the first that starts after. -/
def visibleSpanRange (window : TimeRange Value) (spans : List Span) : ℕ × ℕ :=
  let startIndex := spans.findIdx (endsInReach range window)
  if startIndex = spans.length then (spans.length, spans.length)
  else (startIndex, searchStart range window spans startIndex spans.length (Nat.le_refl _))

structure Slice (Span : Type) where
  items : List Span
  indices : List ℕ
  startIndex : ℕ
  endIndex : ℕ

def sliceVisibleSpans (window : TimeRange Value) (spans : List Span) : Slice Span :=
  let found := visibleSpanRange range window spans
  let scanned := (spans.zipIdx.drop found.1).take (found.2 - found.1)
  let visible := scanned.filter fun entry => overlaps range window entry.1
  ⟨visible.map Prod.fst, visible.map Prod.snd, found.1, found.2⟩

/-- The order that the search rests on: the starts, whatever the ends are. -/
def SortedByStart (spans : List Span) : Prop :=
  spans.Pairwise fun earlier later => le (range earlier).start (range later).start = true

variable (window : TimeRange Value) {spans : List Span}

theorem searchStart_after (sorted : SortedByStart range spans) (low high : ℕ)
    (bound : high ≤ spans.length)
    (after : ∀ i (within : i < spans.length), high ≤ i → startsAfter range window spans[i] = true) :
    ∀ i (within : i < spans.length), searchStart range window spans low high bound ≤ i →
      startsAfter range window spans[i] = true := by
  induction low, high, bound using searchStart.induct range window spans with
  | case1 low high bound open' inside within starts ih =>
    rw [searchStart, dif_pos open', if_pos starts]
    apply ih
    intro i inside' from'
    by_cases same : (low + high) >>> 1 = i
    · subst same
      exact starts
    · have ordered := pairwise_iff_getElem.mp sorted _ _ within inside' (by omega)
      exact lt_trans_le starts ordered
  | case2 low high bound open' inside within starts ih =>
    rw [searchStart, dif_pos open', if_neg starts]
    exact ih after
  | case3 low high bound closed =>
    rw [searchStart, dif_neg closed]
    intro i within from'
    exact after i within (by omega)

theorem before_hidden {i : ℕ} (within : i < spans.length)
    (before : i < (visibleSpanRange range window spans).1) :
    overlaps range window spans[i] = false := by
  have early : i < spans.findIdx (endsInReach range window) := by
    unfold visibleSpanRange at before
    dsimp only at before
    split at before
    · rename_i none_
      rw [none_]
      exact within
    · exact before
  have short : endsInReach range window spans[i] = false :=
    not_of_lt_findIdx early
  rw [overlaps, Bool.and_eq_false_iff]
  exact Or.inl short

theorem after_hidden (sorted : SortedByStart range spans) {i : ℕ} (within : i < spans.length)
    (after : (visibleSpanRange range window spans).2 ≤ i) :
    overlaps range window spans[i] = false := by
  unfold visibleSpanRange at after
  dsimp only at after
  split at after
  · exact absurd within (Nat.not_lt.mpr after)
  · have late := searchStart_after range window sorted _ _ (Nat.le_refl _)
      (fun j inside outside => absurd inside (Nat.not_lt.mpr outside)) i within after
    rw [overlaps, Bool.and_eq_false_iff]
    exact Or.inr (not_le_of_lt late)

theorem filter_middle {Entry : Type} (keep : Entry → Bool) (entries : List Entry) (first last : ℕ)
    (before : ∀ i (within : i < entries.length), i < first → keep entries[i] = false)
    (after : ∀ i (within : i < entries.length), last ≤ i → keep entries[i] = false) :
    ((entries.drop first).take (last - first)).filter keep = entries.filter keep := by
  have front : (entries.take first).filter keep = [] := by
    rw [filter_eq_nil_iff]
    intro entry listed
    obtain ⟨i, within, rfl⟩ := mem_take_iff_getElem.mp listed
    rw [before i (by omega) (by omega)]
    exact Bool.false_ne_true
  have back : ((entries.drop first).drop (last - first)).filter keep = [] := by
    rw [filter_eq_nil_iff]
    intro entry listed
    rw [drop_drop] at listed
    obtain ⟨i, within, rfl⟩ := mem_drop_iff_getElem.mp listed
    rw [after _ (by omega) (by omega)]
    exact Bool.false_ne_true
  calc
    _ = ((entries.drop first).take (last - first)).filter keep ++
        ((entries.drop first).drop (last - first)).filter keep := by
      rw [back, append_nil]
    _ = (entries.drop first).filter keep := by
      rw [← filter_append, take_append_drop]
    _ = (entries.take first).filter keep ++ (entries.drop first).filter keep := by
      rw [front, nil_append]
    _ = entries.filter keep := by
      rw [← filter_append, take_append_drop]

theorem zipIdx_filter_items (keep : Span → Bool) (spans : List Span) (n : ℕ) :
    ((spans.zipIdx n).filter fun entry => keep entry.1).map Prod.fst = spans.filter keep := by
  induction spans generalizing n with
  | nil => rfl
  | cons span rest ih =>
    rw [zipIdx_cons, filter_cons, filter_cons]
    split
    · rw [map_cons, ih]
    · exact ih (n + 1)

/-- The slice is what a walk over all the spans would show, in their order. -/
theorem sliceVisibleSpans_complete (sorted : SortedByStart range spans) :
    (sliceVisibleSpans range window spans).items = spans.filter (overlaps range window) ∧
      (sliceVisibleSpans range window spans).indices =
        (spans.zipIdx.filter fun entry => overlaps range window entry.1).map Prod.snd := by
  have scanned : ((spans.zipIdx.drop (visibleSpanRange range window spans).1).take
      ((visibleSpanRange range window spans).2 - (visibleSpanRange range window spans).1)).filter
        (fun entry => overlaps range window entry.1) =
      spans.zipIdx.filter fun entry => overlaps range window entry.1 := by
    apply filter_middle
    · intro i within before
      rw [getElem_zipIdx]
      exact before_hidden range window (by rwa [length_zipIdx] at within) before
    · intro i within after
      rw [getElem_zipIdx]
      exact after_hidden range window sorted (by rwa [length_zipIdx] at within) after
  constructor
  · exact (congrArg (List.map Prod.fst) scanned).trans
      (zipIdx_filter_items (overlaps range window) spans 0)
  · exact congrArg (List.map Prod.snd) scanned

/-- The last span begins before the window and ends after it, behind a shorter one. -/
theorem nestedSpans_sliced : (sliceVisibleSpans id ⟨some 10, some 12⟩
      [⟨some 0, some 20⟩, ⟨some 1, some 2⟩, ⟨some 3, some 40⟩, ⟨some 13, some 14⟩]).items =
        ([⟨some 0, some 20⟩, ⟨some 3, some 40⟩] : List (TimeRange ℕ)) :=
  (sliceVisibleSpans_complete id ⟨some 10, some 12⟩ (by unfold SortedByStart; decide)).1.trans rfl

end Spans

end DracVms.TimelineWindow
