import DracVms.Library.KeyedList

namespace DracVms

open List KeyedList

/-- Rows under distinct keys, in the order in which the keys came in. -/
structure KeyedTable (κ α : Type) where
  rows : List (κ × α)
  distinct : (rows.map Prod.fst).Nodup

namespace KeyedTable

section Table

variable {κ α β : Type}

def empty : KeyedTable κ α := ⟨[], nodup_nil⟩

def keys (t : KeyedTable κ α) : List κ := t.rows.map Prod.fst

theorem eq_of_rows {t u : KeyedTable κ α} (same : t.rows = u.rows) : t = u := by
  cases t
  cases u
  cases same
  rfl

/-- The rows again, each with another value. -/
def mapValues (change : κ → α → β) (t : KeyedTable κ α) : KeyedTable κ β where
  rows := t.rows.map fun row => (row.1, change row.1 row.2)
  distinct := by
    rw [map_map]
    exact t.distinct

/-- The rows whose keys are kept. -/
def keep (t : KeyedTable κ α) (kept : κ → Bool) : KeyedTable κ α where
  rows := t.rows.filter fun row => kept row.1
  distinct := (List.Sublist.map Prod.fst filter_sublist).nodup t.distinct

theorem keys_keep (t : KeyedTable κ α) (kept : κ → Bool) :
    (t.keep kept).keys = t.keys.filter kept := by
  unfold keys keep
  rw [filter_map]
  rfl

variable [DecidableEq κ]

/-- The keys that are among the others, and those that are not. -/
def among (keys others : List κ) : List κ := keys.filter (· ∈ others)

def apart (keys others : List κ) : List κ := keys.filter (· ∉ others)

/-- The rows under these keys. -/
def keepOnly (t : KeyedTable κ α) (keys : List κ) : KeyedTable κ α := t.keep (· ∈ keys)

def get (t : KeyedTable κ α) (k : κ) : Option α := (KeyedList.lookup Prod.fst t.rows k).map Prod.snd

variable {t : KeyedTable κ α}

theorem get_eq_some {k : κ} {a : α} : t.get k = some a ↔ (k, a) ∈ t.rows := by
  constructor
  · intro found
    obtain ⟨row, here, same⟩ := Option.map_eq_some_iff.mp found
    obtain ⟨listed, named⟩ := lookup_mem here
    rw [← named, ← same]
    exact listed
  · intro listed
    have here := lookup_eq_some t.distinct listed
    unfold get
    rw [here]
    rfl

theorem get_eq_none {k : κ} : t.get k = none ↔ k ∉ t.keys := by
  constructor
  · intro absent listed
    obtain ⟨row, here, same⟩ := mem_map.mp listed
    have found : t.get k = some row.2 := by
      apply get_eq_some.mpr
      rw [← same]
      exact here
    rw [absent] at found
    cases found
  · intro fresh
    cases found : t.get k with
    | none => rfl
    | some a => exact absurd (mem_map_of_mem (get_eq_some.mp found)) fresh

theorem isSome_get {k : κ} : (t.get k).isSome = true ↔ k ∈ t.keys := by
  cases found : t.get k with
  | none => simp [get_eq_none.mp found]
  | some a =>
    have listed : k ∈ t.keys := mem_map_of_mem (get_eq_some.mp found)
    simp [listed]

theorem eq_of_get {t u : KeyedTable κ α} (sameKeys : t.keys = u.keys)
    (same : ∀ k, t.get k = u.get k) : t = u := by
  have rows_of : ∀ v : KeyedTable κ α, v.rows = v.keys.filterMap fun k => (v.get k).map (k, ·) := by
    intro v
    unfold keys
    rw [filterMap_map]
    have each : ∀ row ∈ v.rows, ((v.get row.1).map (row.1, ·)) = some row := by
      intro row listed
      rw [get_eq_some.mpr listed]
      rfl
    symm
    calc v.rows.filterMap (fun row => (v.get row.1).map (row.1, ·))
        = v.rows.filterMap some := filterMap_congr each
      _ = v.rows := filterMap_some
  apply eq_of_rows
  rw [rows_of t, rows_of u, sameKeys]
  apply filterMap_congr
  intro k _
  rw [same k]

theorem get_mapValues (change : κ → α → β) (t : KeyedTable κ α) (k : κ) :
    (t.mapValues change).get k = (t.get k).map (change k) := by
  cases found : t.get k with
  | none =>
    apply get_eq_none.mpr
    have fresh := get_eq_none.mp found
    unfold keys mapValues
    rw [map_map]
    exact fresh
  | some a =>
    apply get_eq_some.mpr
    exact mem_map.mpr ⟨(k, a), get_eq_some.mp found, rfl⟩

theorem get_keep (t : KeyedTable κ α) (kept : κ → Bool) (k : κ) :
    (t.keep kept).get k = if kept k then t.get k else none := by
  split
  · rename_i yes
    cases found : t.get k with
    | none =>
      apply get_eq_none.mpr
      rw [keys_keep]
      intro listed
      exact get_eq_none.mp found (mem_of_mem_filter listed)
    | some a => exact get_eq_some.mpr (mem_filter.mpr ⟨get_eq_some.mp found, yes⟩)
  · rename_i no
    apply get_eq_none.mpr
    rw [keys_keep]
    intro listed
    exact no (mem_filter.mp listed).2

/-- A row takes the place of the one under its key, or else it comes last. -/
def putRow (rows : List (κ × α)) (row : κ × α) : List (κ × α) :=
  if row.1 ∈ rows.map Prod.fst then
    KeyedList.updateAt Prod.fst rows row.1 fun old => (old.1, row.2)
  else rows ++ [row]

theorem keys_putRow (rows : List (κ × α)) (row : κ × α) : (putRow rows row).map Prod.fst =
      if row.1 ∈ rows.map Prod.fst then rows.map Prod.fst else rows.map Prod.fst ++ [row.1] := by
  have keeps : ∀ old : κ × α, Prod.fst ((old.1, row.2) : κ × α) = Prod.fst old := fun _ => rfl
  unfold putRow
  split
  · exact map_updateAt Prod.fst rows row.1 _ Prod.fst keeps
  · exact map_append

def put (t : KeyedTable κ α) (row : κ × α) : KeyedTable κ α where
  rows := putRow t.rows row
  distinct := by
    rw [keys_putRow]
    split
    · exact t.distinct
    · rename_i fresh
      apply nodup_append.mpr
      refine ⟨t.distinct, nodup_singleton _, ?_⟩
      intro k known other last same
      rw [mem_singleton] at last
      rw [same, last] at known
      exact fresh known

theorem keys_put (t : KeyedTable κ α) (row : κ × α) :
    (t.put row).keys = if row.1 ∈ t.keys then t.keys else t.keys ++ [row.1] :=
  keys_putRow t.rows row

theorem get_put (t : KeyedTable κ α) (row : κ × α) (k : κ) :
    (t.put row).get k = if k = row.1 then some row.2 else t.get k := by
  have keeps : ∀ old : κ × α, ((old.1, row.2) : κ × α).1 = old.1 := fun _ => rfl
  show (KeyedList.lookup Prod.fst (putRow t.rows row) k).map Prod.snd = _
  unfold putRow get
  by_cases known : row.1 ∈ t.rows.map Prod.fst
  · rw [if_pos known]
    by_cases same : k = row.1
    · rw [if_pos same, same, lookup_updateAt_self t.rows row.1 _ keeps]
      obtain ⟨old, here, named⟩ := mem_map.mp known
      have found := lookup_eq_some t.distinct here
      rw [named] at found
      rw [found]
      rfl
    · rw [if_neg same, lookup_updateAt_other t.rows _ keeps same]
  · rw [if_neg known]
    unfold KeyedList.lookup
    rw [List.find?_append]
    by_cases same : k = row.1
    · have absent : t.rows.find? (fun old => old.1 = k) = none := by
        apply List.find?_eq_none.mpr
        intro old listed named
        apply known
        rw [← same, ← of_decide_eq_true named]
        exact mem_map_of_mem listed
      rw [if_pos same, absent]
      simp [same]
    · have last : [row].find? (fun old => old.1 = k) = none := by
        simp [Ne.symm same]
      rw [if_neg same, last, Option.or_none]

/-- The rows one after the other. -/
def putAll (t : KeyedTable κ α) (rows : List (κ × α)) : KeyedTable κ α := rows.foldl put t

variable (u : KeyedTable κ α)

theorem get_putAll (t : KeyedTable κ α) (k : κ) :
    (t.putAll u.rows).get k = (u.get k).or (t.get k) := by
  obtain ⟨rows, distinct⟩ := u
  induction rows generalizing t with
  | nil => rfl
  | cons row rest ih =>
    obtain ⟨fresh, distinct'⟩ := nodup_cons.mp distinct
    have later := ih (t.put row) distinct'
    rw [get_put] at later
    show ((t.put row).putAll rest).get k = _
    rw [later]
    unfold get KeyedList.lookup
    rw [List.find?_cons]
    by_cases same : k = row.1
    · have absent : rest.find? (fun old => old.1 = k) = none := by
        apply List.find?_eq_none.mpr
        intro old listed named
        apply fresh
        rw [← same, ← of_decide_eq_true named]
        exact mem_map_of_mem listed
      rw [if_pos same, absent]
      simp [same]
    · rw [if_neg same]
      simp [Ne.symm same]

theorem keys_putAll (t : KeyedTable κ α) :
    (t.putAll u.rows).keys = t.keys ++ apart u.keys t.keys := by
  obtain ⟨rows, distinct⟩ := u
  induction rows generalizing t with
  | nil => simp [putAll, keys, apart]
  | cons row rest ih =>
    obtain ⟨fresh, distinct'⟩ := nodup_cons.mp distinct
    have later := ih (t.put row) distinct'
    show ((t.put row).putAll rest).keys = _
    rw [later]
    show _ ++ apart (rest.map Prod.fst) (t.put row).keys =
      t.keys ++ apart (row.1 :: rest.map Prod.fst) t.keys
    unfold apart
    rw [keys_put, filter_cons]
    by_cases known : row.1 ∈ t.keys
    · have skipped : ¬decide (row.1 ∉ t.keys) = true := by
        rw [decide_eq_true_eq]
        exact fun other => other known
      rw [if_pos known, if_neg skipped]
    · have others : (rest.map Prod.fst).filter (· ∉ t.keys ++ [row.1]) =
          (rest.map Prod.fst).filter (· ∉ t.keys) := by
        apply filter_congr
        intro k listed
        have other : k ≠ row.1 := by
          intro same
          rw [same] at listed
          exact fresh listed
        simp [other]
      have chosen : decide (row.1 ∉ t.keys) = true := decide_eq_true known
      rw [if_neg known, if_pos chosen, append_assoc, others]
      rfl

theorem empty_putAll : (empty : KeyedTable κ α).putAll u.rows = u := by
  apply eq_of_get
  · rw [keys_putAll]
    simp [empty, keys, apart]
  · intro k
    rw [get_putAll]
    have absent : (empty : KeyedTable κ α).get k = none := rfl
    rw [absent, Option.or_none]

theorem get_replaced (t : KeyedTable κ α) (k : κ) :
    ((t.putAll u.rows).keepOnly u.keys).get k = u.get k := by
  unfold keepOnly
  rw [get_keep, get_putAll]
  cases found : u.get k with
  | none => simp [get_eq_none.mp found]
  | some a =>
    have listed : k ∈ u.keys := mem_map_of_mem (get_eq_some.mp found)
    simp [listed]

theorem keys_replaced (t : KeyedTable κ α) :
    ((t.putAll u.rows).keepOnly u.keys).keys = among t.keys u.keys ++ apart u.keys t.keys := by
  unfold keepOnly
  rw [keys_keep, keys_putAll, filter_append]
  congr 1
  apply filter_eq_self.mpr
  intro k listed
  exact decide_eq_true (mem_of_mem_filter listed)

end Table

end KeyedTable

end DracVms
