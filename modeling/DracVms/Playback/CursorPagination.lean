import DracVms.Library.CursorPages
import DracVms.Library.KeyedList

namespace DracVms.TimelineWindow

open List hiding next

open Json (Text setField)
open CursorPages

inductive Direction where
  | asc
  | desc
  deriving DecidableEq

/-- The bounds of a page, both inclusive, and how many rows it leaves out. -/
structure PagePlan (Stamp : Type) where
  fromStamp : Option Stamp
  toStamp : Option Stamp
  offset : ℕ

section Pages

variable {Stamp Item : Type} [LinearOrder Stamp] (stamp : Item → Stamp)

def planNextPage (plan : PagePlan Stamp) (pageLength pageSize : ℕ) (lastTimestamp : Option Stamp)
    (direction : Direction) : Option (PagePlan Stamp) :=
  if pageLength = 0 ∨ pageLength < pageSize then none
  else
    match lastTimestamp with
    | none => none
    | some last =>
      let boundary := match direction with
        | .desc => plan.toStamp
        | .asc => plan.fromStamp
      if boundary = some last then some { plan with offset := plan.offset + pageLength }
      else
        match direction with
        | .desc => some ⟨plan.fromStamp, some last, 0⟩
        | .asc => some ⟨some last, plan.toStamp, 0⟩

def inRange (plan : PagePlan Stamp) (item : Item) : Bool :=
  (plan.fromStamp.all fun (bound : Stamp) => bound ≤ stamp item) &&
    plan.toStamp.all fun (bound : Stamp) => stamp item ≤ bound

/-- What the server answers: the rows of the range in their fixed order, from the offset on. -/
def fetchPage (items : List Item) (pageSize : ℕ) (plan : PagePlan Stamp) : List Item :=
  ((items.filter (inRange stamp plan)).drop plan.offset).take pageSize

/-- The pages of at most so many turns, if the plan comes to an end in them. -/
def fetchRangeItems (items : List Item) (pageSize : ℕ) (direction : Direction) :
    ℕ → PagePlan Stamp → Option (List (List Item))
  | 0, _ => none
  | turns + 1, plan =>
    let page := fetchPage stamp items pageSize plan
    match planNextPage plan page.length pageSize (page.getLast?.map stamp) direction with
    | none => some [page]
    | some later =>
      (fetchRangeItems items pageSize direction turns later).map fun pages => page :: pages

def mergeByIdSorted (current incoming : List Item) (getId : Item → Text)
    (getSortKey : Item → Stamp) : List Item :=
  let byId := (incoming.map fun item => (getId item, item)).foldl setField
    ((current.map fun item => (getId item, item)).foldl setField [])
  (byId.map Prod.snd).insertionSort fun a b => getSortKey a ≤ getSortKey b

/-! The plans are cursors over the rows that the other bound leaves. -/

variable {stamp} {items : List Item} {pageSize : ℕ} {direction : Direction}

theorem fetchRangeItems_read {Time : Type} [LinearOrder Time] {time : Item → Time}
    {rows : List Item} (cursor : PagePlan Stamp → Cursor Time) (Fixed : PagePlan Stamp → Prop)
    (fetches : ∀ plan, Fixed plan → fetchPage stamp items pageSize plan = fetch time rows pageSize
      (cursor plan))
    (goes : ∀ plan, Fixed plan → ∀ page : List Item, (planNextPage plan page.length pageSize
      (page.getLast?.map stamp) direction).map cursor = next time pageSize (cursor plan) page)
    (keeps : ∀ plan, Fixed plan → ∀ length last, ∀ later ∈ planNextPage plan length pageSize last
      direction, Fixed later)
    (turns : ℕ) (plan : PagePlan Stamp) (fixed : Fixed plan) :
    fetchRangeItems stamp items pageSize direction turns plan =
      readPages time rows pageSize turns (cursor plan) := by
  induction turns generalizing plan with
  | zero => rfl
  | succ turns ih =>
    have same := goes plan fixed (fetchPage stamp items pageSize plan)
    rw [fetchRangeItems, readPages]
    rw [← fetches plan fixed, ← same]
    cases planned : planNextPage plan (fetchPage stamp items pageSize plan).length pageSize
        ((fetchPage stamp items pageSize plan).getLast?.map stamp) direction with
    | none => rfl
    | some later =>
      rw [Option.map_some]
      dsimp only
      rw [ih later (keeps plan fixed _ _ later planned)]

theorem short_iff (positive : 0 < pageSize) (length : ℕ) :
    (length = 0 ∨ length < pageSize) ↔ length < pageSize := by omega

theorem planNextPage_asc (positive : 0 < pageSize) (plan : PagePlan Stamp) (page : List Item) :
    (planNextPage plan page.length pageSize (page.getLast?.map stamp) .asc).map
        (fun plan => (⟨plan.fromStamp, plan.offset⟩ : Cursor Stamp)) =
      next stamp pageSize ⟨plan.fromStamp, plan.offset⟩ page := by
  unfold planNextPage next
  simp only [short_iff positive]
  split
  · rfl
  · cases page.getLast? with
    | none => rfl
    | some last =>
      simp only [Option.map_some]
      split <;> rfl

theorem planNextPage_desc (positive : 0 < pageSize) (plan : PagePlan Stamp) (page : List Item) :
    (planNextPage plan page.length pageSize (page.getLast?.map stamp) .desc).map
        (fun plan => (⟨plan.toStamp, plan.offset⟩ : Cursor Stampᵒᵈ)) =
      next (fun item => OrderDual.toDual (stamp item)) pageSize ⟨plan.toStamp, plan.offset⟩ page := by
  unfold planNextPage next
  simp only [short_iff positive]
  split
  · rfl
  · cases page.getLast? with
    | none => rfl
    | some last =>
      simp only [Option.map_some]
      split
      · rename_i own
        exact congrArg some (if_pos own).symm
      · rename_i other
        exact congrArg some (if_neg other).symm

variable (plan : PagePlan Stamp)

theorem planNextPage_toStamp (length : ℕ) (last : Option Stamp) :
    ∀ later ∈ planNextPage plan length pageSize last .asc, later.toStamp = plan.toStamp := by
  intro later planned
  unfold planNextPage at planned
  split at planned
  · cases planned
  · cases last with
    | none => cases planned
    | some last =>
      dsimp only at planned
      split at planned <;> cases planned <;> rfl

theorem planNextPage_fromStamp (length : ℕ) (last : Option Stamp) :
    ∀ later ∈ planNextPage plan length pageSize last .desc, later.fromStamp = plan.fromStamp := by
  intro later planned
  unfold planNextPage at planned
  split at planned
  · cases planned
  · cases last with
    | none => cases planned
    | some last =>
      dsimp only at planned
      split at planned <;> cases planned <;> rfl

theorem fetchPage_asc : fetchPage stamp items pageSize plan =
      fetch stamp (items.filter fun item => plan.toStamp.all fun (bound : Stamp) => stamp item ≤ bound)
        pageSize ⟨plan.fromStamp, plan.offset⟩ := by
  unfold fetchPage fetch
  rw [filter_filter]
  rfl

theorem fetchPage_desc : fetchPage stamp items pageSize plan =
      fetch (fun item => OrderDual.toDual (stamp item))
        (items.filter fun item => plan.fromStamp.all fun (bound : Stamp) => bound ≤ stamp item)
        pageSize ⟨plan.toStamp, plan.offset⟩ := by
  unfold fetchPage fetch
  rw [filter_filter]
  congr 2
  apply filter_congr
  intro item _
  exact Bool.and_comm _ _

variable (stamp) in
/-- The rows come in the order of the direction, those of one time in any fixed order. -/
def Listed (direction : Direction) (items : List Item) : Prop :=
  match direction with
  | .asc => items.Pairwise fun a b => stamp a ≤ stamp b
  | .desc => items.Pairwise fun a b => stamp b ≤ stamp a

theorem fetchRangeItems_gathers (getId : Item → Text) (listed : Listed stamp direction items)
    (distinct : (items.map getId).Nodup) (positive : 0 < pageSize) (fromStamp toStamp : Option Stamp) :
    ∃ turns pages, (∀ more, turns ≤ more →
      fetchRangeItems stamp items pageSize direction more ⟨fromStamp, toStamp, 0⟩ = some pages) ∧
      (pages.flatten.map (entry getId)).foldl setField [] =
        (items.filter (inRange stamp ⟨fromStamp, toStamp, 0⟩)).map (entry getId) := by
  cases direction with
  | asc =>
    have within : Sorted stamp
        (items.filter fun item => toStamp.all fun (bound : Stamp) => stamp item ≤ bound) :=
      List.Pairwise.filter _ listed
    obtain ⟨turns, pages, reads, gathered⟩ := readPages_complete getId within
      (distinct.sublist (filter_sublist.map getId)) positive fromStamp
    refine ⟨turns, pages, ?_, ?_⟩
    · intro more enough
      rw [← reads more enough]
      apply fetchRangeItems_read (fun plan => ⟨plan.fromStamp, plan.offset⟩)
        (fun plan => plan.toStamp = toStamp)
      · intro plan fixed
        rw [fetchPage_asc, fixed]
      · intro plan _ page
        exact planNextPage_asc positive plan page
      · intro plan fixed length last later planned
        exact (planNextPage_toStamp plan length last later planned).trans fixed
      · rfl
    · rw [gathered, filter_filter]
      rfl
  | desc =>
    have within : Sorted (fun item => OrderDual.toDual (stamp item))
        (items.filter fun item => fromStamp.all fun (bound : Stamp) => bound ≤ stamp item) :=
      List.Pairwise.filter _ listed
    obtain ⟨turns, pages, reads, gathered⟩ := readPages_complete getId within
      (distinct.sublist (filter_sublist.map getId)) positive toStamp
    refine ⟨turns, pages, ?_, ?_⟩
    · intro more enough
      rw [← reads more enough]
      apply fetchRangeItems_read
        (fun plan : PagePlan Stamp => (⟨plan.toStamp, plan.offset⟩ : Cursor Stampᵒᵈ))
        (fun plan => plan.fromStamp = fromStamp)
      · intro plan fixed
        rw [fetchPage_desc, fixed]
      · intro plan _ page
        exact planNextPage_desc positive plan page
      · intro plan fixed length last later planned
        exact (planNextPage_fromStamp plan length last later planned).trans fixed
      · rfl
    · rw [gathered, filter_filter]
      congr 1
      apply filter_congr
      intro item _
      exact Bool.and_comm _ _

theorem ascending_total : ∀ a b : Item, stamp a ≤ stamp b ∨ stamp b ≤ stamp a :=
  fun a b => le_total (stamp a) (stamp b)

theorem ascending_trans : ∀ a b c : Item, stamp a ≤ stamp b → stamp b ≤ stamp c →
    stamp a ≤ stamp c :=
  fun _ _ _ => le_trans

/-- Turn after turn comes to an end, and merged the pages are the items of the range, each of them
once, in the order of their times, with those of one time as the server lists them. -/
theorem pages_complete (getId : Item → Text) (listed : Listed stamp direction items)
    (distinct : (items.map getId).Nodup) (positive : 1 ≤ pageSize) (fromStamp toStamp : Option Stamp) :
    ∃ turns pages, (∀ more, turns ≤ more →
      fetchRangeItems stamp items pageSize direction more ⟨fromStamp, toStamp, 0⟩ = some pages) ∧
      let merged := mergeByIdSorted [] pages.flatten getId stamp
      let range := items.filter (inRange stamp ⟨fromStamp, toStamp, 0⟩)
      merged.Perm range ∧ (merged.Pairwise fun a b => stamp a ≤ stamp b) ∧
        (∀ t, (merged.filter fun item => stamp item = t) = range.filter fun item => stamp item = t) ∧
        (direction = .asc → merged = range) := by
  obtain ⟨turns, pages, reads, gathered⟩ :=
    fetchRangeItems_gathers getId listed distinct positive fromStamp toStamp
  refine ⟨turns, pages, reads, ?_⟩
  intro merged range
  have sorts : merged = range.insertionSort fun a b => stamp a ≤ stamp b := by
    have kept : ((pages.flatten.map (entry getId)).foldl setField []).map Prod.snd = range := by
      rw [gathered, map_map]
      exact map_id _
    exact congrArg (List.insertionSort fun a b => stamp a ≤ stamp b) kept
  rw [sorts]
  refine ⟨perm_insertionSort _ _, ?_, ?_, ?_⟩
  · exact KeyedList.insertionSort_byKey _ stamp (fun _ _ le => le) (fun _ _ lt => le_of_not_ge lt) _
  · intro t
    have alone : (range.filter fun item => stamp item = t).Pairwise fun a b => stamp a ≤ stamp b := by
      rw [pairwise_filter]
      apply pairwise_of_forall
      intro a b ofA ofB
      exact le_of_eq ((of_decide_eq_true ofA).trans (of_decide_eq_true ofB).symm)
    rw [← KeyedList.insertionSort_filter _ ascending_total ascending_trans, alone.insertionSort_eq]
  · rintro rfl
    have ordered : range.Pairwise fun a b => stamp a ≤ stamp b := List.Pairwise.filter _ listed
    exact ordered.insertionSort_eq

/-- Two items of one time straddle the pages. -/
theorem threeItems_complete : ∃ turns pages, (∀ more, turns ≤ more →
      fetchRangeItems Prod.snd [(['a'], 1), (['b'], 2), (['c'], 2), (['d'], 3)] 1 .asc more
        ⟨some 2, none, 0⟩ = some pages) ∧
      mergeByIdSorted [] pages.flatten Prod.fst Prod.snd = [(['b'], 2), (['c'], 2), (['d'], 3)] := by
  have listed : Listed Prod.snd .asc [(['a'], 1), (['b'], 2), (['c'], 2), (['d'], 3)] := by
    unfold Listed
    decide
  obtain ⟨turns, pages, reads, -, -, -, merged⟩ :=
    pages_complete Prod.fst listed (by decide) (le_refl 1) (some 2) none
  exact ⟨turns, pages, reads, (merged rfl).trans (by decide)⟩

end Pages

end DracVms.TimelineWindow
