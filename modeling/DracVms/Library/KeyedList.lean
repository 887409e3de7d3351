import Mathlib

namespace DracVms.KeyedList

open List

section Keyed

variable {α κ : Type} {list : List α}

theorem eq_of_key {key : α → κ} (distinct : (list.map key).Nodup) {a b : α} (first : a ∈ list)
    (second : b ∈ list) (same : key a = key b) : a = b :=
  inj_on_of_nodup_map distinct first second same

theorem map_filter_eq_iff {key : α → κ} (distinct : (list.map key).Nodup) (first second : α → Bool) :
    (list.filter first).map key = (list.filter second).map key ↔
      ∀ a ∈ list, first a = second a := by
  have shown : ∀ (choice : α → Bool), ∀ a ∈ list,
      key a ∈ (list.filter choice).map key ↔ choice a = true := by
    intro choice a listed
    constructor
    · intro present
      obtain ⟨b, chosen, same⟩ := mem_map.mp present
      obtain ⟨known, yes⟩ := mem_filter.mp chosen
      rw [← eq_of_key distinct known listed same]
      exact yes
    · intro yes
      exact mem_map_of_mem (mem_filter.mpr ⟨listed, yes⟩)
  constructor
  · intro same a listed
    apply Bool.eq_iff_iff.mpr
    rw [← shown first a listed, same, shown second a listed]
  · intro same
    rw [filter_congr same]

variable [DecidableEq κ] (key : α → κ)

/-- Changes the entries with this key. -/
def updateAt (list : List α) (k : κ) (change : α → α) : List α :=
  list.map fun a => if key a = k then change a else a

/-- The first entry with this key. -/
def lookup (list : List α) (k : κ) : Option α := list.find? fun a => key a = k

theorem map_updateAt {β : Type} (list : List α) (k : κ) (change : α → α) (view : α → β)
    (keeps : ∀ a, view (change a) = view a) :
    (updateAt key list k change).map view = list.map view := by
  rw [updateAt, map_map]
  apply map_congr_left
  intro a _
  show view (if key a = k then change a else a) = view a
  split
  · exact keeps a
  · rfl

variable {key} {a : α} {k : κ}

theorem lookup_mem (found : lookup key list k = some a) : a ∈ list ∧ key a = k := by
  have named := List.find?_some found
  exact ⟨List.mem_of_find?_eq_some found, of_decide_eq_true named⟩

theorem lookup_eq_none (absent : lookup key list k = none) : ∀ a ∈ list, key a ≠ k := by
  intro a member same
  have other := List.find?_eq_none.mp absent a member
  exact other (decide_eq_true same)

theorem lookup_eq_some (distinct : (list.map key).Nodup) (member : a ∈ list) :
    lookup key list (key a) = some a := by
  cases found : lookup key list (key a) with
  | none => exact absurd rfl (lookup_eq_none found a member)
  | some b =>
    obtain ⟨inList, same⟩ := lookup_mem found
    rw [eq_of_key distinct inList member same]

theorem of_mem_updateAt {change : α → α} {x : α} (updated : x ∈ updateAt key list k change) :
    ∃ a ∈ list, (key a ≠ k ∧ x = a) ∨ (key a = k ∧ x = change a) := by
  obtain ⟨a, here, same⟩ := mem_map.mp updated
  refine ⟨a, here, ?_⟩
  split at same
  · rename_i named
    exact Or.inr ⟨named, same.symm⟩
  · rename_i other
    exact Or.inl ⟨other, same.symm⟩

theorem mem_updateAt (distinct : (list.map key).Nodup) (member : a ∈ list) (change : α → α) (x : α) :
    x ∈ updateAt key list (key a) change ↔ x = change a ∨ x ∈ list ∧ key x ≠ key a := by
  constructor
  · intro updated
    obtain ⟨b, inList, rfl⟩ := mem_map.mp updated
    by_cases same : key b = key a
    · left
      rw [if_pos same, eq_of_key distinct inList member same]
    · right
      rw [if_neg same]
      exact ⟨inList, same⟩
  · rintro (rfl | ⟨inList, other⟩)
    · exact mem_map.mpr ⟨a, member, if_pos rfl⟩
    · exact mem_map.mpr ⟨x, inList, if_neg other⟩

/-- Only the place of the one entry differs. -/
theorem updateAt_split (distinct : (list.map key).Nodup) (member : a ∈ list) (change : α → α) :
    ∃ earlier later, list = earlier ++ a :: later ∧
      updateAt key list (key a) change = earlier ++ change a :: later := by
  obtain ⟨earlier, later, rfl⟩ := append_of_mem member
  refine ⟨earlier, later, rfl, ?_⟩
  rw [map_append, map_cons] at distinct
  obtain ⟨-, tail, apart⟩ := nodup_append.mp distinct
  have before : ∀ b ∈ earlier, (if key b = key a then change b else b) = b := by
    intro b inEarlier
    apply if_neg
    exact apart (key b) (mem_map_of_mem inEarlier) (key a) mem_cons_self
  have behind : ∀ b ∈ later, (if key b = key a then change b else b) = b := by
    intro b inLater
    apply if_neg
    intro same
    apply (nodup_cons.mp tail).1
    rw [← same]
    exact mem_map_of_mem inLater
  rw [updateAt, map_append, map_cons, if_pos rfl, map_congr_left before,
    map_congr_left behind, map_id', map_id']

theorem lookup_updateAt_other (list : List α) {k' : κ} (change : α → α)
    (keeps : ∀ a, key (change a) = key a) (apart : k' ≠ k) :
    lookup key (updateAt key list k change) k' = lookup key list k' := by
  unfold lookup updateAt
  induction list with
  | nil => rfl
  | cons a rest ih =>
    rw [map_cons, List.find?_cons, List.find?_cons, ih]
    by_cases same : key a = k
    · simp [same, keeps, apart.symm]
    · simp [same]

theorem lookup_updateAt_self (list : List α) (k : κ) (change : α → α)
    (keeps : ∀ a, key (change a) = key a) :
    lookup key (updateAt key list k change) k = (lookup key list k).map change := by
  unfold lookup updateAt
  induction list with
  | nil => rfl
  | cons a rest ih =>
    rw [map_cons, List.find?_cons, List.find?_cons, ih]
    by_cases same : key a = k
    · simp [same, keeps]
    · simp [same]

theorem lookup_filter_other (list : List α) {k' : κ} (apart : k ≠ k') :
    lookup key (list.filter fun a => key a ≠ k') k = lookup key list k := by
  unfold lookup
  rw [List.find?_filter]
  congr 1
  funext a
  by_cases same : key a = k
  · simp [same, apart]
  · simp [same]

theorem lookup_filter_self (list : List α) (k : κ) :
    lookup key (list.filter fun a => key a ≠ k) k = none := by
  apply List.find?_eq_none.mpr
  intro a kept same
  have other := (mem_filter.mp kept).2
  simp only [decide_eq_true_eq] at same other
  exact other same

theorem updateAt_absent (change : α → α) (absent : ∀ a ∈ list, key a ≠ k) :
    updateAt key list k change = list := by
  have fixed : ∀ a ∈ list, (if key a = k then change a else a) = a := fun a member =>
    if_neg (absent a member)
  rw [updateAt, map_congr_left fixed, map_id']

theorem sum_updateAt {G : Type} [AddCommGroup G] (distinct : (list.map key).Nodup)
    (member : a ∈ list) (change : α → α) (value : α → G) :
    ((updateAt key list (key a) change).map value).sum =
      (list.map value).sum - value a + value (change a) := by
  induction list with
  | nil => cases member
  | cons b rest ih =>
    obtain ⟨fresh, others⟩ := nodup_cons.mp distinct
    rcases mem_cons.mp member with rfl | later
    · have absent : ∀ c ∈ rest, key c ≠ key a := by
        intro c inRest same
        apply fresh
        rw [← same]
        exact mem_map_of_mem inRest
      have unchanged := updateAt_absent change absent
      unfold updateAt at unchanged ⊢
      rw [map_cons, if_pos rfl, unchanged, map_cons, map_cons, sum_cons, sum_cons]
      abel
    · have apart : key b ≠ key a := by
        intro same
        apply fresh
        rw [same]
        exact mem_map_of_mem later
      have rest_sum := ih others later
      unfold updateAt at rest_sum ⊢
      rw [map_cons, if_neg apart, map_cons, map_cons, sum_cons, sum_cons, rest_sum]
      abel

end Keyed

section Sorting

variable {Item : Type} (before : Item → Item → Prop) [DecidableRel before]

theorem orderedInsert_least (item : Item) (items : List Item)
    (least : ∀ other ∈ items, before item other) :
    items.orderedInsert before item = item :: items := by
  cases items with
  | nil => rfl
  | cons head rest =>
    rw [orderedInsert_cons, if_pos (least head mem_cons_self)]

theorem orderedInsert_ahead (item : Item) (first second : List Item)
    (ahead : ∀ other ∈ second, before item other) :
    (first ++ second).orderedInsert before item = first.orderedInsert before item ++ second := by
  induction first with
  | nil => exact orderedInsert_least before item second ahead
  | cons head rest ih =>
    rw [cons_append, orderedInsert_cons, orderedInsert_cons, ih]
    split <;> rfl

theorem orderedInsert_behind (item : Item) (first second : List Item)
    (behind : ∀ other ∈ first, ¬ before item other) :
    (first ++ second).orderedInsert before item = first ++ second.orderedInsert before item := by
  induction first with
  | nil => rfl
  | cons head rest ih =>
    rw [cons_append, orderedInsert_cons, if_neg (behind head mem_cons_self),
      ih fun other inside => behind other (mem_cons_of_mem head inside), cons_append]

theorem orderedInsert_filter (transitive : ∀ a b c, before a b → before b c → before a c)
    (keep : Item → Bool) (item : Item) (items : List Item) (sorted : items.Pairwise before) :
    (items.orderedInsert before item).filter keep =
      if keep item then (items.filter keep).orderedInsert before item else items.filter keep := by
  induction items with
  | nil =>
    by_cases kept : keep item = true
    all_goals simp [kept]
  | cons head rest ih =>
    obtain ⟨first, sorted'⟩ := pairwise_cons.mp sorted
    rw [orderedInsert_cons]
    by_cases earlier : before item head
    · rw [if_pos earlier]
      by_cases kept : keep item = true
      · have least : ∀ other ∈ (head :: rest).filter keep, before item other := by
          intro other present
          rcases mem_cons.mp (mem_of_mem_filter present) with same | deeper
          · rw [same]
            exact earlier
          · exact transitive item head other earlier (first other deeper)
        rw [if_pos kept, orderedInsert_least before item _ least, filter_cons, if_pos kept]
      · rw [if_neg kept, filter_cons, if_neg kept]
    · rw [if_neg earlier, filter_cons, ih sorted', filter_cons]
      by_cases kept : keep item = true
      · rw [if_pos kept, if_pos kept]
        by_cases keptHead : keep head = true
        · rw [if_pos keptHead, if_pos keptHead, orderedInsert_cons, if_neg earlier]
        · rw [if_neg keptHead, if_neg keptHead]
      · rw [if_neg kept, if_neg kept]

theorem insertionSort_filter (total : ∀ a b, before a b ∨ before b a)
    (transitive : ∀ a b c, before a b → before b c → before a c) (keep : Item → Bool)
    (items : List Item) :
    (items.filter keep).insertionSort before = (items.insertionSort before).filter keep := by
  have total' : Std.Total before := ⟨total⟩
  have transitive' : IsTrans Item before := ⟨transitive⟩
  induction items with
  | nil => rfl
  | cons head rest ih =>
    rw [insertionSort_cons, orderedInsert_filter before transitive keep head _
      (pairwise_insertionSort before rest), filter_cons]
    by_cases kept : keep head = true
    · rw [if_pos kept, if_pos kept, insertionSort_cons, ih]
    · rw [if_neg kept, if_neg kept, ih]

variable {Key : Type} [LinearOrder Key] (key : Item → Key)

theorem orderedInsert_byKey (below : ∀ a b, before a b → key a ≤ key b)
    (above : ∀ a b, ¬before a b → key b ≤ key a) (item : Item) (items : List Item)
    (sorted : items.Pairwise fun a b => key a ≤ key b) :
    (items.orderedInsert before item).Pairwise fun a b => key a ≤ key b := by
  induction items with
  | nil => simp
  | cons head rest ih =>
    obtain ⟨first, sorted'⟩ := pairwise_cons.mp sorted
    rw [orderedInsert_cons]
    split
    · rename_i earlier
      apply pairwise_cons.mpr
      refine ⟨?_, sorted⟩
      intro other present
      rcases mem_cons.mp present with same | deeper
      · rw [same]
        exact below item head earlier
      · exact le_trans (below item head earlier) (first other deeper)
    · rename_i later
      apply pairwise_cons.mpr
      refine ⟨?_, ih sorted'⟩
      intro other present
      rcases mem_cons.mp ((perm_orderedInsert before item rest).mem_iff.mp present) with
        same | deeper
      · rw [same]
        exact above item head later
      · exact first other deeper

theorem insertionSort_byKey (below : ∀ a b, before a b → key a ≤ key b)
    (above : ∀ a b, ¬before a b → key b ≤ key a) (items : List Item) :
    (items.insertionSort before).Pairwise fun a b => key a ≤ key b := by
  induction items with
  | nil => simp
  | cons head rest ih => exact orderedInsert_byKey before key below above head _ ih

theorem mem_take_of_sorted {items : List Item} (sorted : items.Pairwise fun a b => key b ≤ key a)
    {bound : Key} {n : ℕ} (few : (items.filter fun a => bound ≤ key a).length ≤ n) {item : Item}
    (present : item ∈ items) (reaches : bound ≤ key item) : item ∈ items.take n := by
  induction items generalizing n with
  | nil => cases present
  | cons head rest ih =>
    obtain ⟨first, sorted'⟩ := pairwise_cons.mp sorted
    have headReaches : bound ≤ key head := by
      rcases mem_cons.mp present with same | deeper
      · rw [← same]
        exact reaches
      · exact le_trans reaches (first item deeper)
    rw [filter_cons, if_pos (decide_eq_true headReaches), length_cons] at few
    cases n with
    | zero => omega
    | succ n =>
      rcases mem_cons.mp present with same | deeper
      · rw [same]
        exact mem_cons_self
      · have fewer : (rest.filter fun a => bound ≤ key a).length ≤ n := by omega
        exact mem_cons_of_mem head (ih sorted' fewer deeper)

end Sorting

theorem eraseDups_nodup {α : Type} [BEq α] [LawfulBEq α] (items : List α) :
    items.eraseDups.Nodup := by
  generalize bound : items.length = n
  induction n using Nat.strongRecOn generalizing items with
  | ind n ih =>
    cases items with
    | nil => exact nodup_nil
    | cons item rest =>
      have shorter : (rest.filter fun other => !other == item).length < n := by
        have filtered := length_filter_le (fun other => !other == item) rest
        rw [length_cons] at bound
        omega
      rw [eraseDups_cons]
      refine nodup_cons.mpr ⟨?_, ih _ shorter _ rfl⟩
      intro member
      have kept := mem_eraseDups.mp member
      simp at kept

end DracVms.KeyedList
