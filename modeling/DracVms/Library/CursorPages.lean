import DracVms.Library.Json

/-! A sorted list read page by page. The cursor is the time of the last row that was read, and counts
the rows of that time only when a page has no other. -/
namespace DracVms.CursorPages

open List

open Json (Text setField)

structure Cursor (Time : Type) where
  boundary : Option Time
  offset : ℕ

section Reading

variable {Time Row : Type} [LinearOrder Time] (time : Row → Time)

def reaches (boundary : Option Time) (row : Row) : Bool :=
  boundary.all fun (bound : Time) => bound ≤ time row

/-- One page from the cursor on. -/
def fetch (rows : List Row) (size : ℕ) (cursor : Cursor Time) : List Row :=
  ((rows.filter (reaches time cursor.boundary)).drop cursor.offset).take size

/-- Where the reading goes on after a page; a page that is not full is the last one. -/
def next (size : ℕ) (cursor : Cursor Time) (page : List Row) : Option (Cursor Time) :=
  if page.length < size then none
  else page.getLast?.map fun last =>
    if cursor.boundary = some (time last) then ⟨cursor.boundary, cursor.offset + page.length⟩
    else ⟨some (time last), 0⟩

/-- The pages of at most so many turns, if the last of them comes. -/
def readPages (rows : List Row) (size : ℕ) : ℕ → Cursor Time → Option (List (List Row))
  | 0, _ => none
  | turns + 1, cursor =>
    let page := fetch time rows size cursor
    match next time size cursor page with
    | none => some [page]
    | some later => (readPages rows size turns later).map fun pages => page :: pages

def Sorted (rows : List Row) : Prop := rows.Pairwise fun a b => time a ≤ time b

/-- From the first row on, the pages go on where the rows are known to, or before, and reach the
end. -/
inductive Gathers (rows : List Row) (size first : ℕ) : ℕ → List (List Row) → Prop
  | done {known : ℕ} : rows.length ≤ known → Gathers rows size first known []
  | page {known i : ℕ} {pages : List (List Row)} : first ≤ i → i ≤ known →
      Gathers rows size first (max known (i + size)) pages →
      Gathers rows size first known ((rows.drop i).take size :: pages)

variable {time} {rows : List Row} {size : ℕ} {pages : List (List Row)}

theorem Gathers.mono {first first' known known' : ℕ} (low : first ≤ first') (wide : known ≤ known')
    (gathers : Gathers rows size first' known pages) : Gathers rows size first known' pages := by
  induction gathers generalizing known' with
  | done end_ => exact .done (end_.trans wide)
  | page after before _ ih =>
    exact .page (low.trans after) (before.trans wide) (ih (max_le_max_right _ wide))

theorem Gathers.shift {first known : ℕ} (low : first ≤ known)
    (gathers : Gathers rows size first known pages) :
    Gathers (rows.drop first) size 0 (known - first) pages := by
  induction gathers with
  | done end_ =>
    refine .done ?_
    rw [length_drop]
    omega
  | @page known i pages after before _ ih =>
    have same : ((rows.drop first).drop (i - first)).take size = (rows.drop i).take size := by
      rw [drop_drop]
      congr 2
      omega
    rw [← same]
    refine .page (Nat.zero_le _) (by omega) ((ih (by omega)).mono (le_refl _) ?_)
    omega

variable (time rows) in
/-- The first row that the boundary lets through. -/
def firstAt (boundary : Option Time) : ℕ := rows.findIdx (reaches time boundary)

theorem time_mono (sorted : Sorted time rows) {i j : ℕ} (first : i < rows.length)
    (second : j < rows.length) (le : i ≤ j) : time rows[i] ≤ time rows[j] := by
  by_cases same : i = j
  · subst same
    exact le_refl _
  · exact pairwise_iff_getElem.mp sorted i j first second (by omega)

theorem reaches_iff (bound : Time) (row : Row) :
    reaches time (some bound) row = true ↔ bound ≤ time row := by
  rw [reaches, Option.all_some, decide_eq_true_iff]

theorem reaches_mono {boundary : Option Time} {row later : Row} (le : time row ≤ time later)
    (reached : reaches time boundary row = true) : reaches time boundary later = true := by
  cases boundary with
  | none => rfl
  | some bound => exact (reaches_iff bound later).mpr (((reaches_iff bound row).mp reached).trans le)

theorem filter_reaches (sorted : Sorted time rows) (boundary : Option Time) :
    rows.filter (reaches time boundary) = rows.drop (firstAt time rows boundary) := by
  unfold firstAt
  induction rows with
  | nil => rfl
  | cons row rest ih =>
    obtain ⟨first, sorted'⟩ := pairwise_cons.mp sorted
    by_cases reached : reaches time boundary row = true
    · rw [findIdx_cons, reached, filter_cons_of_pos reached]
      exact congrArg (row :: ·) (filter_eq_self.mpr fun later listed =>
        reaches_mono (first later listed) reached)
    · rw [findIdx_cons, Bool.not_eq_true _ |>.mp reached, filter_cons_of_neg reached, ih sorted']
      rfl

/-- The cursor stands before row `i`, having passed only rows of its own time by counting. -/
structure Stands (time : Row → Time) (rows : List Row) (cursor : Cursor Time) (i : ℕ) : Prop where
  place : i = firstAt time rows cursor.boundary + cursor.offset
  passed : ∀ k (within : k < rows.length), firstAt time rows cursor.boundary ≤ k → k < i →
    cursor.boundary = some (time rows[k])

variable {cursor : Cursor Time}

theorem fetch_stands (sorted : Sorted time rows) {i : ℕ} (stands : Stands time rows cursor i) :
    fetch time rows size cursor = (rows.drop i).take size := by
  rw [fetch, filter_reaches sorted, drop_drop, stands.place]

theorem lt_firstAt_iff (sorted : Sorted time rows) (bound : Time) {k : ℕ} (within : k < rows.length) :
    k < firstAt time rows (some bound) ↔ time rows[k] < bound := by
  constructor
  · intro before
    have short : reaches time (some bound) rows[k] = false := not_of_lt_findIdx before
    rw [← not_le, ← reaches_iff, short]
    exact Bool.false_ne_true
  · intro early
    by_contra after
    have start : firstAt time rows (some bound) < rows.length := (not_lt.mp after).trans_lt within
    have reached : reaches time (some bound) rows[firstAt time rows (some bound)] = true :=
      findIdx_getElem
    have le := time_mono sorted start within (not_lt.mp after)
    exact absurd early (not_lt.mpr (((reaches_iff bound _).mp reached).trans le))

theorem Stands.turn (sorted : Sorted time rows) {i last : ℕ} (stands : Stands time rows cursor i)
    (within : last < rows.length) (le : i ≤ last) (other : cursor.boundary ≠ some (time rows[last])) :
    i ≤ firstAt time rows (some (time rows[last])) ∧
      firstAt time rows (some (time rows[last])) ≤ last := by
  constructor
  · by_contra before
    have start := not_le.mp before
    have inside : firstAt time rows (some (time rows[last])) < rows.length :=
      start.trans_le (le.trans within.le)
    have late : ¬time rows[firstAt time rows (some (time rows[last]))] < time rows[last] := by
      rw [← lt_firstAt_iff sorted _ inside]
      exact lt_irrefl _
    have same : time rows[firstAt time rows (some (time rows[last]))] = time rows[last] :=
      le_antisymm (time_mono sorted inside within (start.le.trans le)) (not_lt.mp late)
    by_cases counted : firstAt time rows cursor.boundary ≤ firstAt time rows (some (time rows[last]))
    · have own := stands.passed _ inside counted start
      rw [same] at own
      exact other own
    · have short : reaches time cursor.boundary
          rows[firstAt time rows (some (time rows[last]))] = false :=
        not_of_lt_findIdx (not_le.mp counted)
      have place := stands.place
      have begun : firstAt time rows cursor.boundary < rows.length := by omega
      have first : reaches time cursor.boundary rows[firstAt time rows cursor.boundary] = true :=
        findIdx_getElem
      have after := time_mono sorted begun within (by omega)
      rw [← same] at after
      rw [reaches_mono after first] at short
      cases short
  · by_contra after
    have early := (lt_firstAt_iff sorted (time rows[last]) within).mp (not_le.mp after)
    exact lt_irrefl _ early

theorem Stands.begins (bound : Option Time) :
    Stands time rows ⟨bound, 0⟩ (firstAt time rows bound) := by
  constructor
  · rfl
  · intro k _ from' before
    exact absurd before (not_lt.mpr from')

theorem Stands.count (sorted : Sorted time rows) {i last : ℕ} (stands : Stands time rows cursor i)
    (within : last < rows.length) (full : i + size = last + 1)
    (own : cursor.boundary = some (time rows[last])) :
    Stands time rows ⟨cursor.boundary, cursor.offset + size⟩ (i + size) := by
  constructor
  · rw [stands.place, Nat.add_assoc]
  · intro k inside from' before
    have reached : ¬time rows[k] < time rows[last] := by
      rw [← lt_firstAt_iff sorted _ inside, ← own]
      exact not_lt.mpr from'
    have le := time_mono sorted inside within (by omega)
    exact own.trans (congrArg some (le_antisymm (not_lt.mp reached) le))

/-- What is left to read, and whether the first page may have to be read twice. -/
def work (time : Row → Time) (rows : List Row) (cursor : Cursor Time) (i : ℕ) : ℕ :=
  2 * (rows.length - i) + if cursor.boundary = (rows[i]?).map time then 0 else 1

theorem work_lt_of_lt {cursor later : Cursor Time} {i j : ℕ} (further : i < j)
    (inside : i < rows.length) : work time rows later j < work time rows cursor i := by
  unfold work
  split <;> split <;> omega

theorem work_turn (sorted : Sorted time rows) {i last : ℕ} (within : last < rows.length)
    (le : i ≤ last) (other : cursor.boundary ≠ some (time rows[last]))
    (after : i ≤ firstAt time rows (some (time rows[last]))) :
    work time rows ⟨some (time rows[last]), 0⟩ (firstAt time rows (some (time rows[last]))) <
      work time rows cursor i := by
  rcases Nat.lt_or_eq_of_le after with further | same
  · exact work_lt_of_lt further (le.trans_lt within)
  · have here : i < rows.length := le.trans_lt within
    have late : ¬time rows[i] < time rows[last] := by
      rw [← lt_firstAt_iff sorted _ here, ← same]
      exact lt_irrefl i
    have own : time rows[i] = time rows[last] :=
      le_antisymm (time_mono sorted here within le) (not_lt.mp late)
    have found : (rows[i]?).map time = some (time rows[last]) := by
      rw [List.getElem?_eq_getElem here, Option.map_some, own]
    unfold work
    rw [← same, found, if_pos rfl, if_neg other]
    exact Nat.lt_succ_self _

theorem getLast_page {i : ℕ} (positive : 0 < size) (full : i + size ≤ rows.length) :
    ((rows.drop i).take size).getLast? = rows[i + size - 1]? := by
  rw [List.getLast?_eq_getElem?, length_take, length_drop,
    Nat.min_eq_left (by omega), List.getElem?_take_of_lt (by omega), List.getElem?_drop]
  congr 1
  omega

theorem read_gathers (sorted : Sorted time rows) (positive : 0 < size) (cursor : Cursor Time)
    (i : ℕ) (stands : Stands time rows cursor i) :
    ∃ turns pages, (∀ more, turns ≤ more → readPages time rows size more cursor = some pages) ∧
      Gathers rows size i i pages := by
  generalize amount : work time rows cursor i = n
  induction n using Nat.strongRecOn generalizing cursor i with
  | ind n ih =>
    subst amount
    have page : fetch time rows size cursor = (rows.drop i).take size :=
      fetch_stands sorted stands
    by_cases short : ((rows.drop i).take size).length < size
    · have ends : next time size cursor ((rows.drop i).take size) = none := if_pos short
      refine ⟨1, [(rows.drop i).take size], ?_, .page (le_refl i) (le_refl i) (.done ?_)⟩
      · intro more enough
        obtain ⟨turns, rfl⟩ : ∃ turns, more = turns + 1 := ⟨more - 1, by omega⟩
        rw [readPages]
        simp only [page, ends]
      · rw [length_take, length_drop] at short
        omega
    · have full : i + size ≤ rows.length := by
        rw [length_take, length_drop] at short
        omega
      have within : i + size - 1 < rows.length := by omega
      have length : ((rows.drop i).take size).length = size := by
        rw [length_take, length_drop]
        omega
      have last : ((rows.drop i).take size).getLast? = some rows[i + size - 1] :=
        (getLast_page positive full).trans (List.getElem?_eq_getElem within)
      have goes : ∃ later j, next time size cursor ((rows.drop i).take size) = some later ∧
          Stands time rows later j ∧ i ≤ j ∧ j ≤ i + size ∧
          work time rows later j < work time rows cursor i := by
        unfold next
        rw [if_neg short, last, Option.map_some, length]
        by_cases own : cursor.boundary = some (time rows[i + size - 1])
        · rw [if_pos own]
          exact ⟨_, i + size, rfl, stands.count sorted within (by omega) own, by omega, le_refl _,
            work_lt_of_lt (by omega) (by omega)⟩
        · rw [if_neg own]
          obtain ⟨after, before⟩ := stands.turn sorted within (by omega) own
          exact ⟨_, _, rfl, Stands.begins _, after, by omega,
            work_turn sorted within (by omega) own after⟩
      obtain ⟨later, j, found, stands', after, before, less⟩ := goes
      obtain ⟨turns, pages, reads, gathers⟩ := ih _ less later j stands' rfl
      refine ⟨turns + 1, (rows.drop i).take size :: pages, ?_, .page (le_refl i) (le_refl i) ?_⟩
      · intro more enough
        obtain ⟨turns', rfl⟩ : ∃ turns', more = turns' + 1 := ⟨more - 1, by omega⟩
        rw [readPages]
        simp only [page, found, reads turns' (by omega), Option.map_some]
      · exact gathers.mono after (before.trans (le_max_right _ _))

/-! The rows of the pages, kept by their keys. -/

variable (key : Row → Text)

def entry (row : Row) : Text × Row := (key row, row)

theorem setField_known (distinct : (rows.map key).Nodup) {i known : ℕ} (within : i < rows.length)
    (le : i ≤ known) : setField ((rows.take known).map (entry key)) (entry key rows[i]) =
      (rows.take (max known (i + 1))).map (entry key) := by
  have keys : ((rows.take known).map (entry key)).map Prod.fst = (rows.take known).map key := by
    rw [map_map]
    rfl
  have own : (entry key rows[i]).1 = key rows[i] := rfl
  unfold setField
  rw [keys, own]
  by_cases seen : i < known
  · have listed : rows[i] ∈ rows.take known := mem_take_iff_getElem.mpr ⟨i, by omega, rfl⟩
    rw [if_pos (mem_map_of_mem listed), max_eq_left (by omega), map_map]
    apply map_congr_left
    intro row present
    show (if key row = key rows[i] then entry key rows[i] else entry key row) = entry key row
    split
    · rename_i same
      rw [inj_on_of_nodup_map distinct (mem_of_mem_take present) (mem_of_mem_take listed) same]
    · rfl
  · have at_ : known = i := by omega
    subst at_
    have fresh : key rows[known] ∉ (rows.take known).map key := by
      rw [← take_append_drop known rows, map_append, drop_eq_getElem_cons within,
        map_cons] at distinct
      intro listed
      exact (nodup_append.mp distinct).2.2 _ listed _ mem_cons_self rfl
    rw [if_neg fresh, max_eq_right (by omega), take_succ_eq_append_getElem within, map_append]
    rfl

theorem segment_known (distinct : (rows.map key).Nodup) (size : ℕ) {i known : ℕ} (le : i ≤ known) :
    (((rows.drop i).take size).map (entry key)).foldl setField
        ((rows.take known).map (entry key)) =
      (rows.take (max known (i + size))).map (entry key) := by
  induction size generalizing i known with
  | zero => rw [take_zero, max_eq_left (by omega)]; rfl
  | succ size ih =>
    by_cases within : i < rows.length
    · rw [drop_eq_getElem_cons within, take_succ_cons, map_cons, foldl_cons,
        setField_known key distinct within le, ih (le_max_right _ _)]
      congr 2
      omega
    · rw [drop_eq_nil_of_le (not_lt.mp within), take_nil, map_nil, foldl_nil,
        take_of_length_le (by omega), take_of_length_le (by omega)]

theorem gathers_fold (distinct : (rows.map key).Nodup) {first known : ℕ}
    (gathers : Gathers rows size first known pages) :
    (pages.flatten.map (entry key)).foldl setField ((rows.take known).map (entry key)) =
      rows.map (entry key) := by
  induction gathers with
  | done end_ => rw [take_of_length_le end_]; rfl
  | page _ le _ ih =>
    rw [flatten_cons, map_append, foldl_append, segment_known key distinct size le]
    exact ih

theorem readPages_complete (sorted : Sorted time rows) (distinct : (rows.map key).Nodup)
    (positive : 0 < size) (boundary : Option Time) : ∃ turns pages, (∀ more, turns ≤ more →
      readPages time rows size more ⟨boundary, 0⟩ = some pages) ∧
      (pages.flatten.map (entry key)).foldl setField [] =
        (rows.filter (reaches time boundary)).map (entry key) := by
  obtain ⟨turns, pages, reads, gathers⟩ :=
    read_gathers sorted positive ⟨boundary, 0⟩ _ (Stands.begins boundary)
  refine ⟨turns, pages, reads, ?_⟩
  have shifted := gathers.shift (le_refl _)
  rw [Nat.sub_self] at shifted
  rw [filter_reaches sorted]
  have distinct' : ((rows.drop (firstAt time rows boundary)).map key).Nodup :=
    distinct.sublist ((drop_sublist _ _).map key)
  exact gathers_fold key distinct' shifted

end Reading

end DracVms.CursorPages
