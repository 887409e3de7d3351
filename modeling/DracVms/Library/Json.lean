import Mathlib
import DracVms.Library.Text

namespace DracVms.Json

open List

abbrev Text := List Char

/-- The length JavaScript counts, in UTF-16 units. -/
def utf16Length (text : Text) : Nat :=
  (text.map fun c => if c.toNat < 0x10000 then 1 else 2).sum

/-- A tree of arrays and objects over some kind of leaf. An object lists its fields in the order
in which they are enumerated. -/
inductive Value (α : Type) where
  | atom (a : α)
  | array (items : List (Value α))
  | object (fields : List (Text × Value α))

/-- A decimal key without leading zeros, small enough to be an array index. -/
def indexOf (key : Text) : Option Nat :=
  if key ≠ [] ∧ key.all Char.isDigit ∧ (key.head? = some '0' → key = ['0']) then
    let n := key.foldl (fun acc c => acc * 10 + (c.toNat - 48)) 0
    if n < 4294967295 then some n else none
  else none

def isIndex {β : Type} (field : Text × β) : Bool := (indexOf field.1).isSome

/-- Objects enumerate their index keys first, in ascending order, then the others as inserted. -/
def propertyOrder {β : Type} (fields : List (Text × β)) : List (Text × β) :=
  (fields.filter isIndex).insertionSort (fun a b => (indexOf a.1).getD 0 ≤ (indexOf b.1).getD 0) ++
    fields.filter (fun field => !isIndex field)

/-- A later value of a key replaces the earlier one in its place. -/
def setField {β : Type} (fields : List (Text × β)) (field : Text × β) : List (Text × β) :=
  if field.1 ∈ fields.map Prod.fst then
    fields.map fun old => if old.1 = field.1 then field else old
  else fields ++ [field]

/-- The object that the fields build when they are set one after the other. -/
def buildFields {β : Type} (fields : List (Text × β)) : List (Text × β) :=
  propertyOrder (fields.foldl setField [])

def field {β : Type} (fields : List (Text × β)) (key : Text) : Option β :=
  (fields.find? fun entry => entry.1 = key).map Prod.snd

variable {β : Type} (fields : List (Text × β))

theorem propertyOrder_perm : (propertyOrder fields).Perm fields := by
  have sorted := perm_insertionSort
    (fun a b : Text × β => (indexOf a.1).getD 0 ≤ (indexOf b.1).getD 0) (fields.filter isIndex)
  exact (sorted.append_right _).trans (filter_append_perm isIndex fields)

theorem foldl_setField (fields done : List (Text × β))
    (distinct : ((done ++ fields).map Prod.fst).Nodup) :
    fields.foldl setField done = done ++ fields := by
  induction fields generalizing done with
  | nil => rw [foldl_nil, append_nil]
  | cons next rest ih =>
    have fresh : next.1 ∉ done.map Prod.fst := by
      rw [map_append, map_cons] at distinct
      intro member
      have apart := (nodup_append.mp distinct).2.2 next.1 member next.1 mem_cons_self
      exact apart rfl
    rw [foldl_cons, setField, if_neg fresh, ih (done ++ [next])]
    · rw [append_assoc, singleton_append]
    · rwa [append_assoc, singleton_append]

theorem buildFields_perm (distinct : (fields.map Prod.fst).Nodup) :
    (buildFields fields).Perm fields := by
  rw [buildFields, foldl_setField fields [] distinct]
  exact propertyOrder_perm fields

theorem buildFields_of_ordered (distinct : (fields.map Prod.fst).Nodup)
    (ordered : propertyOrder fields = fields) : buildFields fields = fields := by
  rw [buildFields, foldl_setField fields [] distinct]
  exact ordered

mutual

/-- Every object of the tree lists distinct keys in enumeration order. -/
def Value.IsLive {α : Type} : Value α → Prop
  | .atom _ => True
  | .array items => itemsLive items
  | .object fields =>
    (fields.map Prod.fst).Nodup ∧ propertyOrder fields = fields ∧ fieldsLive fields

def itemsLive {α : Type} : List (Value α) → Prop
  | [] => True
  | value :: rest => value.IsLive ∧ itemsLive rest

def fieldsLive {α : Type} : List (Text × Value α) → Prop
  | [] => True
  | (_, value) :: rest => value.IsLive ∧ fieldsLive rest

end

mutual

def Value.mapLeaves {α β : Type} (f : α → Value β) : Value α → Value β
  | .atom a => f a
  | .array items => .array (mapItems f items)
  | .object fields => .object (mapFields f fields)

def mapItems {α β : Type} (f : α → Value β) : List (Value α) → List (Value β)
  | [] => []
  | value :: rest => value.mapLeaves f :: mapItems f rest

def mapFields {α β : Type} (f : α → Value β) : List (Text × Value α) → List (Text × Value β)
  | [] => []
  | (key, value) :: rest => (key, value.mapLeaves f) :: mapFields f rest

end

mutual

/-- The tree whose objects are all rearranged, from the leaves up. -/
def Value.rearrange {α : Type} (arrange : List (Text × Value α) → List (Text × Value α)) :
    Value α → Value α
  | .atom a => .atom a
  | .array items => .array (rearrangeItems arrange items)
  | .object fields => .object (arrange (rearrangeFields arrange fields))

def rearrangeItems {α : Type} (arrange : List (Text × Value α) → List (Text × Value α)) :
    List (Value α) → List (Value α)
  | [] => []
  | value :: rest => value.rearrange arrange :: rearrangeItems arrange rest

def rearrangeFields {α : Type} (arrange : List (Text × Value α) → List (Text × Value α)) :
    List (Text × Value α) → List (Text × Value α)
  | [] => []
  | (key, value) :: rest => (key, value.rearrange arrange) :: rearrangeFields arrange rest

end

variable {α : Type}

/-- What holds of the leaves, and of a tree as soon as of its parts, holds of every tree. -/
theorem Value.induction {property : Value α → Prop} (atom : ∀ a, property (.atom a))
    (array : ∀ items, (∀ item ∈ items, property item) → property (.array items))
    (object : ∀ fields, (∀ entry ∈ fields, property entry.2) → property (.object fields)) :
    ∀ value, property value
  | .atom a => atom a
  | .array items => array items fun item _ => Value.induction atom array object item
  | .object fields => object fields fun entry _ => Value.induction atom array object entry.2
termination_by value => sizeOf value
decreasing_by
  · rename_i member
    have smaller := sizeOf_lt_of_mem member
    simp only [Value.array.sizeOf_spec]
    omega
  · rename_i member
    have smaller := sizeOf_lt_of_mem member
    simp only [Value.object.sizeOf_spec]
    cases entry
    simp only [Prod.mk.sizeOf_spec] at smaller ⊢
    omega

theorem itemsLive_iff (items : List (Value α)) : itemsLive items ↔ ∀ item ∈ items, item.IsLive := by
  induction items with
  | nil => exact ⟨fun _ _ member => absurd member not_mem_nil, fun _ => trivial⟩
  | cons item rest ih => rw [itemsLive, ih, forall_mem_cons]

theorem fieldsLive_iff (fields : List (Text × Value α)) :
    fieldsLive fields ↔ ∀ entry ∈ fields, entry.2.IsLive := by
  induction fields with
  | nil => exact ⟨fun _ _ member => absurd member not_mem_nil, fun _ => trivial⟩
  | cons entry rest ih => rw [fieldsLive, ih, forall_mem_cons]

theorem mapItems_map (f : α → Value β) (items : List (Value α)) :
    mapItems f items = items.map fun item => item.mapLeaves f := by
  induction items with
  | nil => rfl
  | cons item rest ih => rw [mapItems, ih, map_cons]

theorem mapFields_map {α β : Type} (f : α → Value β) (fields : List (Text × Value α)) :
    mapFields f fields = fields.map fun entry => (entry.1, entry.2.mapLeaves f) := by
  induction fields with
  | nil => rfl
  | cons entry rest ih => rw [mapFields, ih, map_cons]

variable (arrange : List (Text × Value α) → List (Text × Value α))

theorem rearrangeItems_map (items : List (Value α)) :
    rearrangeItems arrange items = items.map fun item => item.rearrange arrange := by
  induction items with
  | nil => rfl
  | cons item rest ih => rw [rearrangeItems, ih, map_cons]

theorem rearrangeFields_map (fields : List (Text × Value α)) :
    rearrangeFields arrange fields = fields.map fun field => (field.1, field.2.rearrange arrange) := by
  induction fields with
  | nil => rfl
  | cons field rest ih => rw [rearrangeFields, ih, map_cons]

theorem rearrangeFields_keys (fields : List (Text × Value α)) :
    (rearrangeFields arrange fields).map Prod.fst = fields.map Prod.fst := by
  rw [rearrangeFields_map, map_map]
  rfl

variable (value : Value α)

/-- A tree whose objects are in enumeration order is built as it stands. -/
theorem rearrange_live (live : value.IsLive) : value.rearrange buildFields = value := by
  induction value using Value.induction with
  | atom a => rfl
  | array items ih =>
    have parts := (itemsLive_iff items).mp live
    have same := map_congr_left fun item member => ih item member (parts item member)
    rw [Value.rearrange, rearrangeItems_map, same, map_id']
  | object fields ih =>
    have parts := (fieldsLive_iff fields).mp live.2.2
    have same : ∀ entry ∈ fields, (entry.1, entry.2.rearrange buildFields) = entry :=
      fun entry member => Prod.ext rfl (ih entry member (parts entry member))
    rw [Value.rearrange, rearrangeFields_map, map_congr_left same, map_id',
      buildFields_of_ordered fields live.1 live.2.1]

/-- Fields in the order of their keys. -/
def sortFields {β : Type} (fields : List (Text × β)) : List (Text × β) :=
  fields.insertionSort fun a b => a.1 ≤ b.1

def sortKeys {α : Type} (value : Value α) : Value α := value.rearrange sortFields

/-- Equal as JSON values: the order in which an object lists its fields does not count. -/
def SameJson {α : Type} (first second : Value α) : Prop := sortKeys first = sortKeys second

theorem sortFields_of_perm (first second : List (Text × β)) (perm : first.Perm second)
    (distinct : (first.map Prod.fst).Nodup) : sortFields first = sortFields second := by
  let byKey : Text × β → Text × β → Prop := fun a b => a.1 ≤ b.1
  have left := perm_insertionSort byKey first
  have right := perm_insertionSort byKey second
  have oneOfKey : ∀ a ∈ first, ∀ b ∈ first, a.1 = b.1 → a = b := by
    intro a inFirst b inSecond same
    exact inj_on_of_nodup_map distinct inFirst inSecond same
  have antisymmetric : ∀ a b, a ∈ sortFields first → b ∈ sortFields second → byKey a b →
      byKey b a → a = b := by
    intro a b inLeft inRight ab ba
    exact oneOfKey a (left.mem_iff.mp inLeft) b (perm.mem_iff.mpr (right.mem_iff.mp inRight))
      (le_antisymm ab ba)
  exact List.Perm.eq_of_pairwise antisymmetric (pairwise_insertionSort byKey first)
    (pairwise_insertionSort byKey second) (left.trans (perm.trans right.symm))

section

variable (arrange : List (Text × Value α) → List (Text × Value α))
  (permutes : ∀ fields, (fields.map Prod.fst).Nodup → (arrange fields).Perm fields)

include permutes

/-- Rearranging objects in any way changes nothing about the JSON value. -/
theorem sortKeys_rearrange (live : value.IsLive) :
    (value.rearrange arrange).rearrange sortFields = value.rearrange sortFields := by
  induction value using Value.induction with
  | atom a => rfl
  | array items ih =>
    have parts := (itemsLive_iff items).mp live
    rw [Value.rearrange, Value.rearrange, Value.rearrange, rearrangeItems_map, rearrangeItems_map,
      rearrangeItems_map, map_map]
    exact congrArg Value.array
      (map_congr_left fun item member => ih item member (parts item member))
  | object fields ih =>
    have parts := (fieldsLive_iff fields).mp live.2.2
    have distinct : ((rearrangeFields arrange fields).map Prod.fst).Nodup := by
      rw [rearrangeFields_keys]
      exact live.1
    have perm : (rearrangeFields sortFields (arrange (rearrangeFields arrange fields))).Perm
        (rearrangeFields sortFields (rearrangeFields arrange fields)) := by
      rw [rearrangeFields_map sortFields, rearrangeFields_map sortFields]
      exact (permutes _ distinct).map _
    have keys : ((rearrangeFields sortFields (arrange (rearrangeFields arrange fields))).map
        Prod.fst).Nodup := by
      rw [rearrangeFields_keys]
      exact ((permutes _ distinct).map Prod.fst).nodup_iff.mpr distinct
    have same : rearrangeFields sortFields (rearrangeFields arrange fields) =
        rearrangeFields sortFields fields := by
      rw [rearrangeFields_map, rearrangeFields_map, rearrangeFields_map, map_map]
      exact map_congr_left fun entry member =>
        Prod.ext rfl (ih entry member (parts entry member))
    rw [Value.rearrange, Value.rearrange, Value.rearrange, sortFields_of_perm _ _ perm keys, same]

end

theorem propertyOrder_map {β γ : Type} (f : Text × β → Text × γ) (keeps : ∀ entry,
    (f entry).1 = entry.1)
    (fields : List (Text × β)) : propertyOrder (fields.map f) = (propertyOrder fields).map f := by
  have index : ∀ entry, isIndex (f entry) = isIndex entry := by
    intro entry
    rw [isIndex, isIndex, keeps]
  have selected : ∀ keep : Bool → Bool, (fields.map f).filter (fun entry => keep (isIndex entry)) =
      (fields.filter fun entry => keep (isIndex entry)).map f := by
    intro keep
    rw [filter_map]
    congr 1
    apply filter_congr
    intro entry _
    simp only [Function.comp_apply, index]
  have sorted := map_insertionSort
    (fun a b : Text × β => (indexOf a.1).getD 0 ≤ (indexOf b.1).getD 0)
    (fun a b : Text × γ => (indexOf a.1).getD 0 ≤ (indexOf b.1).getD 0) f (fields.filter isIndex)
    (by
      intro a _ b _
      rw [keeps, keeps])
  have indexed := selected id
  have others := selected not
  simp only [id_eq] at indexed
  rw [propertyOrder, propertyOrder, map_append, indexed, others, sorted]

mutual

/-- The sum of the weights of the leaves. -/
def Value.weight {α : Type} (w : α → Nat) : Value α → Nat
  | .atom a => w a
  | .array items => itemsWeight w items
  | .object fields => fieldsWeight w fields

def itemsWeight {α : Type} (w : α → Nat) : List (Value α) → Nat
  | [] => 0
  | value :: rest => value.weight w + itemsWeight w rest

def fieldsWeight {α : Type} (w : α → Nat) : List (Text × Value α) → Nat
  | [] => 0
  | (_, value) :: rest => value.weight w + fieldsWeight w rest

end

theorem itemsWeight_sum (w : α → Nat) (items : List (Value α)) :
    itemsWeight w items = (items.map fun item => item.weight w).sum := by
  induction items with
  | nil => rfl
  | cons item rest ih => rw [itemsWeight, ih, map_cons, sum_cons]

theorem fieldsWeight_sum (w : α → Nat) (fields : List (Text × Value α)) :
    fieldsWeight w fields = (fields.map fun entry => entry.2.weight w).sum := by
  induction fields with
  | nil => rfl
  | cons entry rest ih => rw [fieldsWeight, ih, map_cons, sum_cons]

theorem weight_mapLeaves (f : α → Value β) (w : β → Nat) (value : Value α) :
    (value.mapLeaves f).weight w = value.weight fun a => (f a).weight w := by
  induction value using Value.induction with
  | atom a => rfl
  | array items ih =>
    rw [Value.mapLeaves, Value.weight, Value.weight, itemsWeight_sum, itemsWeight_sum, mapItems_map,
      map_map]
    exact congrArg List.sum (map_congr_left ih)
  | object fields ih =>
    rw [Value.mapLeaves, Value.weight, Value.weight, fieldsWeight_sum, fieldsWeight_sum,
      mapFields_map, map_map]
    exact congrArg List.sum (map_congr_left ih)

theorem weight_add (u w : α → Nat) (value : Value α) :
    (value.weight fun a => u a + w a) = value.weight u + value.weight w := by
  induction value using Value.induction with
  | atom a => rfl
  | array items ih =>
    rw [Value.weight, Value.weight, Value.weight, itemsWeight_sum, itemsWeight_sum, itemsWeight_sum,
      map_congr_left ih, sum_map_add]
  | object fields ih =>
    rw [Value.weight, Value.weight, Value.weight, fieldsWeight_sum, fieldsWeight_sum,
      fieldsWeight_sum, map_congr_left ih, sum_map_add]

theorem mapLeaves_congr (f g : α → Value β) (w : α → Nat) (agree : ∀ a, w a = 0 → f a = g a)
    (value : Value α) (weightless : value.weight w = 0) :
    value.mapLeaves f = value.mapLeaves g := by
  induction value using Value.induction with
  | atom a => exact agree a weightless
  | array items ih =>
    rw [Value.weight, itemsWeight_sum, sum_eq_zero_iff, forall_mem_map] at weightless
    rw [Value.mapLeaves, Value.mapLeaves, mapItems_map, mapItems_map,
      map_congr_left fun item member => ih item member (weightless item member)]
  | object fields ih =>
    rw [Value.weight, fieldsWeight_sum, sum_eq_zero_iff, forall_mem_map] at weightless
    rw [Value.mapLeaves, Value.mapLeaves, mapFields_map, mapFields_map]
    exact congrArg Value.object (map_congr_left fun entry member =>
      Prod.ext rfl (ih entry member (weightless entry member)))

theorem weight_rearrange
    (permutes : ∀ fields, (fields.map Prod.fst).Nodup → (arrange fields).Perm fields) (w : α → Nat)
    (value : Value α) (live : value.IsLive) :
    (value.rearrange arrange).weight w = value.weight w := by
  induction value using Value.induction with
  | atom a => rfl
  | array items ih =>
    have parts := (itemsLive_iff items).mp live
    rw [Value.rearrange, Value.weight, Value.weight, itemsWeight_sum, itemsWeight_sum,
      rearrangeItems_map, map_map]
    exact congrArg List.sum (map_congr_left fun item member => ih item member (parts item member))
  | object fields ih =>
    have parts := (fieldsLive_iff fields).mp live.2.2
    have distinct : ((rearrangeFields arrange fields).map Prod.fst).Nodup := by
      rw [rearrangeFields_keys]
      exact live.1
    have sums := ((permutes _ distinct).map fun entry => entry.2.weight w).sum_nat
    rw [Value.rearrange, Value.weight, Value.weight, fieldsWeight_sum, sums, fieldsWeight_sum,
      rearrangeFields_map, map_map]
    exact congrArg List.sum
      (map_congr_left fun entry member => ih entry member (parts entry member))

theorem mapLeaves_live (f : α → Value β) (leaves : ∀ a, (f a).IsLive) (value : Value α)
    (live : value.IsLive) : (value.mapLeaves f).IsLive := by
  induction value using Value.induction with
  | atom a => exact leaves a
  | array items ih =>
    have parts := (itemsLive_iff items).mp live
    rw [Value.mapLeaves, Value.IsLive, itemsLive_iff, mapItems_map, forall_mem_map]
    exact fun item member => ih item member (parts item member)
  | object fields ih =>
    have parts := (fieldsLive_iff fields).mp live.2.2
    have moved := propertyOrder_map (fun entry : Text × Value α => (entry.1, entry.2.mapLeaves f))
      (fun _ => rfl) fields
    rw [Value.mapLeaves, Value.IsLive, fieldsLive_iff, mapFields_map, forall_mem_map,
      map_map, moved, live.2.1]
    exact ⟨live.1, rfl, fun entry member => ih entry member (parts entry member)⟩

theorem mapLeaves_mapLeaves {γ : Type} (f : α → Value β) (g : β → Value γ) (value : Value α) :
    (value.mapLeaves f).mapLeaves g = value.mapLeaves fun a => (f a).mapLeaves g := by
  induction value using Value.induction with
  | atom a => rfl
  | array items ih =>
    rw [Value.mapLeaves, Value.mapLeaves, Value.mapLeaves, mapItems_map, mapItems_map, mapItems_map,
      map_map]
    exact congrArg Value.array (map_congr_left ih)
  | object fields ih =>
    rw [Value.mapLeaves, Value.mapLeaves, Value.mapLeaves, mapFields_map, mapFields_map,
      mapFields_map, map_map]
    exact congrArg Value.object (map_congr_left fun entry member => Prod.ext rfl (ih entry member))

theorem mapLeaves_atom : value.mapLeaves .atom = value := by
  induction value using Value.induction with
  | atom a => rfl
  | array items ih => rw [Value.mapLeaves, mapItems_map, map_congr_left ih, map_id']
  | object fields ih =>
    have same : ∀ entry ∈ fields, (entry.1, entry.2.mapLeaves Value.atom) = entry :=
      fun entry member => Prod.ext rfl (ih entry member)
    rw [Value.mapLeaves, mapFields_map, map_congr_left same, map_id']

theorem propertyOrder_append (fields tail : List (Text × β))
    (named : ∀ entry ∈ tail, isIndex entry = false) :
    propertyOrder (fields ++ tail) = propertyOrder fields ++ tail := by
  have indexed : tail.filter isIndex = [] := by
    apply filter_eq_nil_iff.mpr
    intro entry member
    rw [named entry member]
    decide
  have others : tail.filter (fun entry => !isIndex entry) = tail := by
    apply filter_eq_self.mpr
    intro entry member
    rw [named entry member]
    rfl
  rw [propertyOrder, propertyOrder, filter_append, filter_append, indexed, others,
    append_nil, append_assoc]

theorem propertyOrder_named (named : ∀ entry ∈ fields, isIndex entry = false) :
    propertyOrder fields = fields := by
  have alone := propertyOrder_append [] fields named
  rwa [nil_append, (propertyOrder_perm []).eq_nil, nil_append] at alone

theorem propertyOrder_filter (keep : Text × β → Bool) (fields : List (Text × β))
    (indexes : ∀ entry, isIndex entry = true → keep entry = true)
    (ordered : propertyOrder fields = fields) :
    propertyOrder (fields.filter keep) = fields.filter keep := by
  have indexed : (fields.filter keep).filter isIndex = fields.filter isIndex := by
    rw [filter_filter]
    apply filter_congr
    intro entry _
    cases index : isIndex entry with
    | true => rw [indexes entry index, Bool.and_self]
    | false => rw [Bool.false_and]
  have sortedKept : ((fields.filter isIndex).insertionSort
      fun a b => (indexOf a.1).getD 0 ≤ (indexOf b.1).getD 0).filter keep =
      (fields.filter isIndex).insertionSort
        fun a b => (indexOf a.1).getD 0 ≤ (indexOf b.1).getD 0 := by
    apply filter_eq_self.mpr
    intro entry member
    have original := (perm_insertionSort _ _).mem_iff.mp member
    exact indexes entry (mem_filter.mp original).2
  have others : (fields.filter keep).filter (fun entry => !isIndex entry) =
      (fields.filter fun entry => !isIndex entry).filter keep := by
    rw [filter_filter, filter_filter]
    apply filter_congr
    intro entry _
    rw [Bool.and_comm]
  calc propertyOrder (fields.filter keep)
      = (propertyOrder fields).filter keep := by
        rw [propertyOrder, propertyOrder, indexed, others, filter_append, sortedKept]
    _ = fields.filter keep := by rw [ordered]

theorem fieldsLive_filter (keep : Text × Value α → Bool) (fields : List (Text × Value α))
    (live : fieldsLive fields) : fieldsLive (fields.filter keep) := by
  induction fields with
  | nil => exact trivial
  | cons entry rest ih =>
    rw [filter_cons]
    split
    · exact ⟨live.1, ih live.2⟩
    · exact ih live.2

theorem field_append_right (fields tail : List (Text × β)) (key : Text)
    (absent : ∀ entry ∈ fields, entry.1 ≠ key) : field (fields ++ tail) key = field tail key := by
  have none : fields.find? (fun entry => decide (entry.1 = key)) = none := by
    apply List.find?_eq_none.mpr
    intro entry member
    simpa using absent entry member
  rw [field, field, List.find?_append, none, Option.none_or]

theorem fieldsLive_append (first second : List (Text × Value α)) :
    fieldsLive (first ++ second) ↔ fieldsLive first ∧ fieldsLive second := by
  induction first with
  | nil => exact ⟨fun live => ⟨trivial, live⟩, fun live => live.2⟩
  | cons entry rest ih => rw [cons_append, fieldsLive, fieldsLive, ih, and_assoc]

variable (entry : Text × β)

theorem setField_keys : (setField fields entry).map Prod.fst =
      if entry.1 ∈ fields.map Prod.fst then fields.map Prod.fst
      else fields.map Prod.fst ++ [entry.1] := by
  unfold setField
  split
  · rw [map_map]
    apply map_congr_left
    intro old _
    show (if old.1 = entry.1 then entry else old).1 = old.1
    split
    · rename_i same
      exact same.symm
    · rfl
  · rw [map_append, map_singleton]

theorem setField_nodup (distinct : (fields.map Prod.fst).Nodup) :
    ((setField fields entry).map Prod.fst).Nodup := by
  rw [setField_keys]
  split
  · exact distinct
  · rename_i fresh
    refine nodup_append.mpr ⟨distinct, nodup_singleton _, ?_⟩
    rintro key listed other single rfl
    rw [mem_singleton.mp single] at listed
    exact fresh listed

theorem mem_setField (entry x : Text × β) :
    x ∈ setField fields entry ↔ x = entry ∨ x ∈ fields ∧ x.1 ≠ entry.1 := by
  unfold setField
  split
  · rename_i listed
    constructor
    · intro member
      obtain ⟨old, inFields, rfl⟩ := mem_map.mp member
      by_cases same : old.1 = entry.1
      · exact Or.inl (if_pos same)
      · rw [if_neg same]
        exact Or.inr ⟨inFields, same⟩
    · rintro (rfl | ⟨inFields, other⟩)
      · obtain ⟨old, inFields, same⟩ := mem_map.mp listed
        exact mem_map.mpr ⟨old, inFields, if_pos same⟩
      · exact mem_map.mpr ⟨x, inFields, if_neg other⟩
  · rename_i fresh
    rw [mem_append, mem_singleton]
    constructor
    · rintro (inFields | rfl)
      · refine Or.inr ⟨inFields, ?_⟩
        intro same
        apply fresh
        rw [← same]
        exact mem_map_of_mem inFields
      · exact Or.inl rfl
    · rintro (rfl | ⟨inFields, -⟩)
      · exact Or.inr rfl
      · exact Or.inl inFields

theorem field_eq_some (distinct : (fields.map Prod.fst).Nodup) (key : Text) (value : β) :
    field fields key = some value ↔ (key, value) ∈ fields := by
  constructor
  · intro found
    obtain ⟨entry, located, rfl⟩ := Option.map_eq_some_iff.mp found
    have named := List.find?_some located
    rw [← of_decide_eq_true named]
    exact List.mem_of_find?_eq_some located
  · intro member
    cases located : fields.find? fun entry => entry.1 = key with
    | none =>
      have absent := List.find?_eq_none.mp located (key, value) member
      exact absurd (decide_eq_true rfl) absent
    | some entry =>
      have named := List.find?_some located
      have same := inj_on_of_nodup_map distinct (List.mem_of_find?_eq_some located) member
        (of_decide_eq_true named)
      rw [field, located, same]
      rfl

theorem foldl_setField_unless {α β : Type} (skip : α → Prop) [DecidablePred skip]
    (entry : α → Text × β) (list : List α) (distinct : (list.map fun a => (entry a).1).Nodup) :
    list.foldl (fun fields a => if skip a then fields else setField fields (entry a)) [] =
      (list.filter fun a => ¬skip a).map entry := by
  have skips : ∀ (rest : List α) (done : List (Text × β)),
      rest.foldl (fun fields a => if skip a then fields else setField fields (entry a)) done =
        ((rest.filter fun a => ¬skip a).map entry).foldl setField done := by
    intro rest
    induction rest with
    | nil => exact fun _ => rfl
    | cons a rest ih =>
      intro done
      rw [foldl_cons, ih, filter_cons]
      by_cases skipped : skip a
      · rw [if_pos skipped, if_neg (by simp [skipped])]
      · rw [if_neg skipped, if_pos (by simp [skipped]), map_cons, foldl_cons]
  rw [skips]
  apply foldl_setField
  rw [nil_append, map_map]
  exact (filter_sublist.map _).nodup distinct

theorem field_perm {fields other : List (Text × β)} (perm : fields.Perm other)
    (distinct : (fields.map Prod.fst).Nodup) (key : Text) : field fields key = field other key := by
  apply Option.ext
  intro value
  have distinct' := (perm.map Prod.fst).nodup_iff.mp distinct
  rw [field_eq_some fields distinct, field_eq_some other distinct']
  exact perm.mem_iff

theorem field_setField (key : Text) : field (setField fields entry) key =
      if entry.1 = key then some entry.2 else field fields key := by
  unfold setField
  split
  · rename_i listed
    have named : ∀ old : Text × β, (if old.1 = entry.1 then entry else old).1 = old.1 := by
      intro old
      by_cases same : old.1 = entry.1
      · rw [if_pos same, same]
      · rw [if_neg same]
    have located : (fields.map fun old => if old.1 = entry.1 then entry else old).find?
        (fun old => old.1 = key) =
        (fields.find? fun old => old.1 = key).map
          fun old => if old.1 = entry.1 then entry else old := by
      rw [List.find?_map]
      simp only [Function.comp_def, named]
    rw [field, located, field]
    cases found : fields.find? fun old => old.1 = key with
    | none =>
      have absent := List.find?_eq_none.mp found
      have apart : entry.1 ≠ key := by
        obtain ⟨old, member, same⟩ := mem_map.mp listed
        rw [← same]
        simpa using absent old member
      rw [if_neg apart]
      rfl
    | some old =>
      have asked : old.1 = key := by simpa using List.find?_some found
      rw [Option.map_some, Option.map_some, asked]
      by_cases same : entry.1 = key
      · simp [same]
      · simp [same, Ne.symm same]
  · rename_i fresh
    rw [field, field, List.find?_append]
    by_cases same : entry.1 = key
    · have absent : fields.find? (fun old => decide (old.1 = key)) = none := by
        apply List.find?_eq_none.mpr
        intro old member
        rw [decide_eq_true_eq, ← same]
        intro listed
        apply fresh
        rw [← listed]
        exact mem_map_of_mem member
      simp [absent, same]
    · simp [same]

variable (entries base : List (Text × β))

theorem field_foldl_setField (key : Text) (absent : key ∉ entries.map Prod.fst) :
    field (entries.foldl setField base) key = field base key := by
  induction entries generalizing base with
  | nil => rfl
  | cons entry rest ih =>
    rw [map_cons, mem_cons, not_or] at absent
    rw [foldl_cons, ih (setField base entry) absent.2, field_setField, if_neg (Ne.symm absent.1)]

theorem propertyOrder_propertyOrder :
    propertyOrder (propertyOrder fields) = propertyOrder fields := by
  have sorted := pairwise_insertionSort
    (fun a b : Text × β => (indexOf a.1).getD 0 ≤ (indexOf b.1).getD 0) (fields.filter isIndex)
  have listed : ∀ entry ∈ (fields.filter isIndex).insertionSort
      (fun a b => (indexOf a.1).getD 0 ≤ (indexOf b.1).getD 0), isIndex entry = true := by
    intro entry member
    exact (mem_filter.mp ((perm_insertionSort _ _).mem_iff.mp member)).2
  have others : ∀ entry ∈ fields.filter fun entry => !isIndex entry, isIndex entry = false := by
    intro entry member
    have other := (mem_filter.mp member).2
    rwa [Bool.not_eq_true'] at other
  have first : propertyOrder ((fields.filter isIndex).insertionSort
      fun a b => (indexOf a.1).getD 0 ≤ (indexOf b.1).getD 0) =
      (fields.filter isIndex).insertionSort
        fun a b => (indexOf a.1).getD 0 ≤ (indexOf b.1).getD 0 := by
    have rest : ((fields.filter isIndex).insertionSort
        fun a b => (indexOf a.1).getD 0 ≤ (indexOf b.1).getD 0).filter
        (fun entry => !isIndex entry) = [] := by
      apply filter_eq_nil_iff.mpr
      intro entry member
      rw [listed entry member]
      decide
    rw [propertyOrder, filter_eq_self.mpr listed, sorted.insertionSort_eq, rest, append_nil]
  calc propertyOrder (propertyOrder fields)
      = propertyOrder ((fields.filter isIndex).insertionSort
          fun a b => (indexOf a.1).getD 0 ≤ (indexOf b.1).getD 0) ++
          fields.filter (fun entry => !isIndex entry) := propertyOrder_append _ _ others
    _ = propertyOrder fields := by rw [first, propertyOrder]

theorem foldl_setField_nodup (distinct : (base.map Prod.fst).Nodup) :
    ((entries.foldl setField base).map Prod.fst).Nodup := by
  induction entries generalizing base with
  | nil => exact distinct
  | cons entry rest ih => exact ih (setField base entry) (setField_nodup base entry distinct)

theorem mem_of_foldl_setField (x : Text × β) (member : x ∈ entries.foldl setField base) :
    x ∈ base ∨ x ∈ entries := by
  induction entries generalizing base with
  | nil => exact Or.inl member
  | cons entry rest ih =>
    rcases ih (setField base entry) member with earlier | later
    · rcases (mem_setField base entry x).mp earlier with same | ⟨before, _⟩
      · exact Or.inr (same ▸ mem_cons_self)
      · exact Or.inl before
    · exact Or.inr (mem_cons_of_mem _ later)

theorem buildFields_foldl_perm :
    (buildFields fields).Perm (fields.foldl setField []) := propertyOrder_perm _

theorem buildFields_nodup : ((buildFields fields).map Prod.fst).Nodup :=
  ((buildFields_foldl_perm fields).map Prod.fst).nodup_iff.mpr
    (foldl_setField_nodup fields [] nodup_nil)

theorem buildFields_live (fields : List (Text × Value α)) (live : fieldsLive fields) :
    (Value.object (buildFields fields)).IsLive := by
  refine ⟨buildFields_nodup fields, propertyOrder_propertyOrder _, ?_⟩
  apply (fieldsLive_iff _).mpr
  intro entry member
  have set := (buildFields_foldl_perm fields).mem_iff.mp member
  rcases mem_of_foldl_setField fields [] entry set with nothing | listed
  · exact absurd nothing not_mem_nil
  · exact (fieldsLive_iff fields).mp live entry listed

theorem field_buildFields_append (fields entries : List (Text × β)) (key : Text)
    (distinct : (fields.map Prod.fst).Nodup) (apart : (entries.map Prod.fst).Nodup) :
    field (buildFields (fields ++ entries)) key = (field entries key).or (field fields key) := by
  have start : fields.foldl setField [] = fields := foldl_setField fields [] distinct
  rw [field_perm (buildFields_foldl_perm _) (buildFields_nodup _), foldl_append, start]
  clear start distinct
  induction entries generalizing fields with
  | nil => rfl
  | cons entry rest ih =>
    have fresh := (nodup_cons.mp apart).1
    rw [foldl_cons, ih (setField fields entry) (nodup_cons.mp apart).2, field_setField]
    by_cases same : entry.1 = key
    · have later : field rest key = none := by
        rw [← same, field, List.find?_eq_none.mpr]
        · rfl
        · intro other member
          rw [decide_eq_true_eq]
          intro clash
          apply fresh
          rw [← clash]
          exact mem_map_of_mem member
      have head : field (entry :: rest) key = some entry.2 := by
        rw [field, List.find?_cons_of_pos (by simpa using same)]
        rfl
      rw [if_pos same, later, head]
      rfl
    · have head : field (entry :: rest) key = field rest key := by
        rw [field, List.find?_cons_of_neg (by simpa using same)]
        rfl
      rw [if_neg same, head]

end DracVms.Json
