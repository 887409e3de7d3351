import Mathlib

/-! The loop that keeps an item until a later one beats it. -/
namespace DracVms.FirstBest

open List

section Best

variable {Item Row Answer : Type} (beats : Item → Item → Prop) [DecidableRel beats]

def best (items : List Item) : Option Item := items.foldl (List.argAux beats) none

def Unbeaten (items : List Item) (item : Item) : Prop :=
  item ∈ items ∧ ∀ other ∈ items, ¬beats other item

theorem best_eq_none {items : List Item} : best beats items = none ↔ items = [] := by
  rw [best, foldl_argAux_eq_none, and_iff_left rfl]

theorem foldl_mem (items : List Item) (kept : Option Item) (item : Item)
    (found : items.foldl (List.argAux beats) kept = some item) :
    item ∈ items ∨ kept = some item := by
  induction items generalizing kept with
  | nil => exact Or.inr found
  | cons next rest ih =>
    rcases ih _ found with later | now
    · exact Or.inl (mem_cons_of_mem _ later)
    cases kept with
    | none =>
      obtain rfl := Option.some.inj now
      exact Or.inl mem_cons_self
    | some old =>
      simp only [List.argAux] at now
      split at now
      · obtain rfl := Option.some.inj now
        exact Or.inl mem_cons_self
      · exact Or.inr now

theorem foldl_unbeaten (items : List Item) (item : Item)
    (unbeaten : ∀ other ∈ items, ¬beats other item) :
    items.foldl (List.argAux beats) (some item) = some item := by
  induction items with
  | nil => rfl
  | cons next rest ih =>
    have kept : List.argAux beats (some item) next = some item :=
      if_neg (unbeaten next mem_cons_self)
    rw [foldl_cons, kept]
    exact ih fun other listed => unbeaten other (mem_cons_of_mem _ listed)

theorem best_first {items : List Item} {item : Item}
    (unbeaten : ∀ other ∈ items, ¬beats other item) : best beats (item :: items) = some item :=
  foldl_unbeaten beats items item unbeaten

variable [irreflexive : Std.Irrefl beats] [transitive : IsTrans Item beats]

theorem best_unbeaten {items : List Item} {item : Item} (found : best beats items = some item) :
    Unbeaten beats items item := by
  constructor
  · rcases foldl_mem beats items none item found with listed | none_
    · exact listed
    · cases none_
  · intro other listed
    exact not_of_mem_foldl_argAux beats irreflexive transitive listed found

theorem answer_perm_iff (entry : Row → Option Item) (answer : Option Item → Answer)
    (rows : List Row) : (∀ listed : List Row, listed.Perm rows →
      answer (best beats (listed.filterMap entry)) = answer (best beats (rows.filterMap entry))) ↔
      ∀ u v, Unbeaten beats (rows.filterMap entry) u → Unbeaten beats (rows.filterMap entry) v →
        answer (some u) = answer (some v) := by
  constructor
  · intro same u v first second
    have kept : ∀ w, Unbeaten beats (rows.filterMap entry) w →
        answer (some w) = answer (best beats (rows.filterMap entry)) := by
      intro w unbeaten
      obtain ⟨row, listed, given⟩ := mem_filterMap.mp unbeaten.1
      obtain ⟨before, after, rfl⟩ := append_of_mem listed
      have perm : (row :: (before ++ after)).Perm (before ++ row :: after) :=
        perm_middle.symm
      have entries : (row :: (before ++ after)).filterMap entry =
          w :: (before ++ after).filterMap entry := filterMap_cons_some given
      rw [← same _ perm, entries, best_first beats]
      intro other listed'
      apply unbeaten.2
      rw [← (perm.filterMap entry).mem_iff, entries]
      exact mem_cons_of_mem _ listed'
    exact (kept u first).trans (kept v second).symm
  · intro same listed perm
    have entries := perm.filterMap entry
    cases found : best beats (rows.filterMap entry) with
    | none =>
      rw [best_eq_none] at found
      rw [found] at entries
      rw [(best_eq_none beats).mpr entries.eq_nil]
    | some v =>
      cases found' : best beats (listed.filterMap entry) with
      | none =>
        rw [best_eq_none] at found'
        rw [found'] at entries
        have some_ := (best_eq_none beats).mpr entries.nil_eq.symm
        rw [found] at some_
        cases some_
      | some u =>
        have first := best_unbeaten beats found'
        have moved : Unbeaten beats (rows.filterMap entry) u :=
          ⟨entries.mem_iff.mp first.1, fun other listed' =>
            first.2 other (entries.mem_iff.mpr listed')⟩
        exact same u v moved (best_unbeaten beats found)

end Best

end DracVms.FirstBest
