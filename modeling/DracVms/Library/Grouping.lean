import Mathlib

/-! Items put into groups by a key, each group where its key was met first. -/
namespace DracVms.Grouping

open List

variable {κ α : Type} [DecidableEq κ]

def push (groups : List (κ × List α)) (k : κ) (a : α) : List (κ × List α) :=
  if k ∈ groups.map Prod.fst then
    groups.map fun group => if group.1 = k then (group.1, group.2 ++ [a]) else group
  else groups ++ [(k, [a])]

def group (items : List (κ × α)) : List (κ × List α) :=
  items.foldl (fun groups item => push groups item.1 item.2) []

/-- The items of a key, in their order. -/
def values (k : κ) (items : List (κ × α)) : List α :=
  (items.filter fun item => item.1 = k).map Prod.snd

theorem mem_values {k : κ} {a : α} {items : List (κ × α)} :
    a ∈ values k items ↔ (k, a) ∈ items := by
  simp [values]

theorem values_append_self (k : κ) (a : α) (items : List (κ × α)) :
    values k (items ++ [(k, a)]) = values k items ++ [a] := by
  simp [values]

theorem values_append_other {k k' : κ} (a : α) (items : List (κ × α)) (apart : k ≠ k') :
    values k' (items ++ [(k, a)]) = values k' items := by
  simp [values, apart]

/-- Each key that was met has one group, of its items, and no item is in two. -/
structure Groups (groups : List (κ × List α)) (items : List (κ × α)) : Prop where
  keys : (groups.map Prod.fst).Nodup
  listed : ∀ group ∈ groups, group.2 = values group.1 items
  met : ∀ k, k ∈ groups.map Prod.fst ↔ k ∈ items.map Prod.fst
  size : (groups.map fun group => group.2.length).sum = items.length

theorem map_push (groups : List (κ × List α)) (k : κ) (a : α) :
    (groups.map fun group => if group.1 = k then (group.1, group.2 ++ [a]) else group).map Prod.fst =
      groups.map Prod.fst := by
  rw [map_map]
  apply map_congr_left
  intro group _
  simp only [Function.comp_apply]
  split <;> rfl

theorem sum_push (groups : List (κ × List α)) (k : κ) (a : α) (keys : (groups.map Prod.fst).Nodup) :
    ((push groups k a).map fun group => group.2.length).sum =
      (groups.map fun group => group.2.length).sum + 1 := by
  unfold push
  split
  · rename_i known
    induction groups with
    | nil => exact absurd known not_mem_nil
    | cons group rest ih =>
      rw [map_cons, nodup_cons] at keys
      by_cases here : group.1 = k
      · have others : (rest.map fun other =>
            if other.1 = k then (other.1, other.2 ++ [a]) else other) = rest := by
          rw [map_congr_left, map_id']
          intro other later
          apply if_neg
          rintro rfl
          exact keys.1 (here ▸ mem_map_of_mem later)
        rw [map_cons, if_pos here, others]
        simp only [map_cons, sum_cons, length_append, length_singleton]
        omega
      · have later : k ∈ rest.map Prod.fst := by
          rcases mem_cons.mp known with front | later
          · exact absurd front.symm here
          · exact later
        rw [map_cons, if_neg here, map_cons, sum_cons, ih keys.2 later, map_cons, sum_cons,
          Nat.add_assoc]
  · simp

theorem Groups.push {groups : List (κ × List α)} {items : List (κ × α)} (grouped : Groups groups items)
    (k : κ) (a : α) : Groups (push groups k a) (items ++ [(k, a)]) := by
  have size : ((Grouping.push groups k a).map fun group => group.2.length).sum =
      (items ++ [(k, a)]).length := by
    rw [sum_push groups k a grouped.keys, grouped.size, length_append, length_singleton]
  unfold Grouping.push at size ⊢
  by_cases known : k ∈ groups.map Prod.fst
  · rw [if_pos known] at size ⊢
    refine ⟨?_, ?_, ?_, size⟩
    · rw [map_push]
      exact grouped.keys
    · intro updated present
      obtain ⟨group, older, same⟩ := mem_map.mp present
      rw [← same]
      split
      · rename_i here
        rw [grouped.listed group older, here, values_append_self]
      · rename_i apart
        rw [grouped.listed group older, values_append_other _ _ (Ne.symm apart)]
    · intro k'
      rw [map_push, grouped.met, map_append, mem_append]
      refine ⟨Or.inl, ?_⟩
      rintro (older | new)
      · exact older
      · rw [mem_singleton.mp new]
        exact (grouped.met k).mp known
  · rename' known => fresh
    rw [if_neg fresh] at size ⊢
    have unmet : k ∉ items.map Prod.fst := fun met => fresh ((grouped.met k).mpr met)
    refine ⟨?_, ?_, ?_, size⟩
    · rw [map_append]
      exact grouped.keys.append (nodup_singleton _) (disjoint_singleton.mpr fresh)
    · intro group present
      rcases mem_append.mp present with older | new
      · have apart : k ≠ group.1 := fun same => fresh (same ▸ mem_map_of_mem older)
        rw [grouped.listed group older, values_append_other _ _ apart]
      · have none : values k items = [] := by
          rw [eq_nil_iff_forall_not_mem]
          intro b valued
          exact unmet (mem_map_of_mem (f := Prod.fst) (mem_values.mp valued))
        rw [mem_singleton.mp new, values_append_self, none, nil_append]
    · intro k'
      rw [map_append, mem_append, grouped.met, map_append, mem_append]
      rfl

theorem groups_group (items : List (κ × α)) : Groups (group items) items := by
  have onward : ∀ (rest front : List (κ × α)) (groups : List (κ × List α)), Groups groups front →
      Groups (rest.foldl (fun groups item => push groups item.1 item.2) groups) (front ++ rest) := by
    intro rest
    induction rest with
    | nil =>
      intro front groups grouped
      rw [append_nil]
      exact grouped
    | cons item rest ih =>
      intro front groups grouped
      have later := ih _ _ (grouped.push item.1 item.2)
      rw [append_assoc] at later
      exact later
  exact onward items [] [] ⟨nodup_nil, nofun, fun _ => Iff.rfl, rfl⟩

end DracVms.Grouping
