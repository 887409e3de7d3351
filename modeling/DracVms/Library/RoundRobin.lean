import Mathlib

namespace DracVms.RoundRobin

open List

variable {α : Type}

/-- One turn takes the head of every queue that has one. -/
def heads (queues : List (List α)) : List α := queues.filterMap List.head?

def tails (queues : List (List α)) : List (List α) := queues.map List.tail

@[simp] theorem heads_cons (x : α) (rest : List α) (queues : List (List α)) :
    heads ((x :: rest) :: queues) = x :: heads queues := rfl

/-- Turn after turn. -/
def turns : Nat → List (List α) → List α
  | 0, _ => []
  | n + 1, queues => heads queues ++ turns n (tails queues)

def size (queues : List (List α)) : Nat := (queues.map List.length).sum

/-- The order in which the queues are emptied, one element of each at a time. -/
def order (queues : List (List α)) : List α := turns (size queues) queues

/-- What is taken from a list until the weights gathered are enough. -/
def takeUntil (weight : α → Nat) (enough : Nat → Prop) [DecidablePred enough] :
    Nat → List α → List α
  | _, [] => []
  | gathered, x :: rest =>
    if enough gathered then [] else x :: takeUntil weight enough (gathered + weight x) rest

def total (weight : α → Nat) (xs : List α) : Nat := (xs.map weight).sum

@[simp] theorem total_cons (weight : α → Nat) (x : α) (xs : List α) :
    total weight (x :: xs) = weight x + total weight xs := rfl

section Budget

variable (weight : α → Nat) (enough : Nat → Prop) [DecidablePred enough]

theorem takeUntil_enough (gathered : Nat) (xs : List α) (reached : enough gathered) :
    takeUntil weight enough gathered xs = [] := by
  cases xs with
  | nil => rfl
  | cons x rest => rw [takeUntil, if_pos reached]

theorem mem_takeUntil_iff (monotone : ∀ a b, a ≤ b → enough a → enough b) (x : α) (xs : List α)
    (gathered : Nat) : x ∈ takeUntil weight enough gathered xs ↔
      ∃ before after, xs = before ++ x :: after ∧ ¬ enough (gathered + total weight before) := by
  induction xs generalizing gathered with
  | nil =>
    constructor
    · intro member
      cases member
    · rintro ⟨before, after, split, -⟩
      cases before <;> cases split
  | cons y rest ih =>
    rw [takeUntil]
    by_cases reached : enough gathered
    · rw [if_pos reached]
      constructor
      · intro member
        cases member
      · rintro ⟨before, after, -, missing⟩
        exact absurd (monotone _ _ (Nat.le_add_right _ _) reached) missing
    · rw [if_neg reached, mem_cons, ih]
      constructor
      · rintro (rfl | ⟨before, after, rfl, missing⟩)
        · exact ⟨[], rest, rfl, reached⟩
        · refine ⟨y :: before, after, rfl, ?_⟩
          rw [total_cons, ← Nat.add_assoc]
          exact missing
      · rintro ⟨before, after, split, missing⟩
        cases before with
        | nil =>
          cases split
          exact Or.inl rfl
        | cons z before =>
          cases split
          refine Or.inr ⟨before, after, rfl, ?_⟩
          rw [total_cons, ← Nat.add_assoc] at missing
          exact missing

/-- If the first part was not enough by itself, all of it is taken and the rest goes on. -/
theorem takeUntil_append (monotone : ∀ a b, a ≤ b → enough a → enough b) (xs ys : List α)
    (gathered : Nat) (missing : ¬ enough (gathered + total weight xs)) :
    takeUntil weight enough gathered (xs ++ ys) =
      xs ++ takeUntil weight enough (gathered + total weight xs) ys := by
  induction xs generalizing gathered with
  | nil => rfl
  | cons x rest ih =>
    rw [total_cons, ← Nat.add_assoc] at missing
    have first : ¬ enough gathered := by
      intro reached
      exact missing (monotone _ _ (by omega) reached)
    rw [cons_append, takeUntil, if_neg first, ih _ missing, total_cons, ← Nat.add_assoc,
      cons_append]

variable (xs : List α)

theorem takeUntil_append_enough (ys : List α) (gathered : Nat)
    (reached : enough (gathered + total weight xs)) :
    takeUntil weight enough gathered (xs ++ ys) = takeUntil weight enough gathered xs := by
  induction xs generalizing gathered with
  | nil => exact takeUntil_enough weight enough gathered ys reached
  | cons x rest ih =>
    rw [total_cons, ← Nat.add_assoc] at reached
    rw [cons_append, takeUntil, takeUntil, ih _ reached]

theorem takeUntil_prefix (gathered : Nat) : takeUntil weight enough gathered xs <+: xs := by
  induction xs generalizing gathered with
  | nil => exact prefix_rfl
  | cons x rest ih =>
    rw [takeUntil]
    split
    · exact nil_prefix
    · exact (prefix_cons_inj x).mpr (ih _)

theorem takeUntil_missing (gathered : Nat) {before after : List α} {x : α}
    (split : takeUntil weight enough gathered xs = before ++ x :: after) :
    ¬ enough (gathered + total weight before) := by
  induction xs generalizing gathered before with
  | nil => cases before <;> cases split
  | cons y rest ih =>
    rw [takeUntil] at split
    split at split
    · cases before <;> cases split
    · rename_i missing
      cases before with
      | nil => exact missing
      | cons z before =>
        obtain ⟨rfl, later⟩ := List.cons.inj split
        have short := ih _ later
        rwa [total_cons, ← Nat.add_assoc]

theorem takeUntil_ends (gathered : Nat) :
    enough (gathered + total weight (takeUntil weight enough gathered xs)) ∨
      takeUntil weight enough gathered xs = xs := by
  induction xs generalizing gathered with
  | nil => exact Or.inr rfl
  | cons x rest ih =>
    rw [takeUntil]
    split
    · rename_i reached
      exact Or.inl reached
    · rw [total_cons, ← Nat.add_assoc]
      exact (ih _).imp id fun same => congrArg (x :: ·) same

end Budget

variable (queues : List (List α))

theorem heads_nil_of_empty (empty : heads queues = []) : ∀ queue ∈ queues, queue = [] := by
  intro queue member
  have missing := filterMap_eq_nil_iff.mp empty queue member
  exact List.head?_eq_none_iff.mp missing

variable (n : Nat) (queues : List (List α))

theorem turns_empty (empty : ∀ queue ∈ queues, queue = []) : turns n queues = [] := by
  induction n generalizing queues with
  | zero => rfl
  | succ n ih =>
    have noHead : heads queues = [] := by
      apply filterMap_eq_nil_iff.mpr
      intro queue member
      rw [empty queue member, List.head?_nil]
    have noTail : ∀ queue ∈ tails queues, queue = [] := by
      intro queue member
      obtain ⟨full, inQueues, rfl⟩ := mem_map.mp member
      rw [empty full inQueues, tail_nil]
    rw [turns, noHead, ih _ noTail, nil_append]

theorem mem_turns_iff (x : α) (enough : ∀ queue ∈ queues, queue.length ≤ n) :
    x ∈ turns n queues ↔ ∃ queue ∈ queues, x ∈ queue := by
  induction n generalizing queues with
  | zero =>
    constructor
    · intro member
      cases member
    · rintro ⟨queue, inQueues, member⟩
      have empty := length_eq_zero_iff.mp (Nat.le_zero.mp (enough queue inQueues))
      rw [empty] at member
      cases member
  | succ n ih =>
    have shorter : ∀ queue ∈ tails queues, queue.length ≤ n := by
      intro queue member
      obtain ⟨full, inQueues, rfl⟩ := mem_map.mp member
      have bound := enough full inQueues
      rw [length_tail]
      omega
    rw [turns, mem_append, ih _ shorter]
    constructor
    · rintro (first | ⟨queue, inTails, later⟩)
      · obtain ⟨queue, inQueues, head⟩ := mem_filterMap.mp first
        exact ⟨queue, inQueues, List.mem_of_mem_head? head⟩
      · obtain ⟨full, inQueues, rfl⟩ := mem_map.mp inTails
        exact ⟨full, inQueues, mem_of_mem_tail later⟩
    · rintro ⟨queue, inQueues, member⟩
      cases queue with
      | nil => cases member
      | cons head tail =>
        rcases mem_cons.mp member with rfl | later
        · exact Or.inl (mem_filterMap.mpr ⟨_, inQueues, rfl⟩)
        · exact Or.inr ⟨tail, mem_map.mpr ⟨_, inQueues, rfl⟩, later⟩

theorem length_le_size (queue : List α) (member : queue ∈ queues) : queue.length ≤ size queues := by
  obtain ⟨before, after, rfl⟩ := append_of_mem member
  rw [size, map_append, map_cons, sum_append, sum_cons]
  omega

theorem mem_order_iff (x : α) : x ∈ order queues ↔ ∃ queue ∈ queues, x ∈ queue :=
  mem_turns_iff (size queues) queues x (length_le_size queues)

/-- The first turn comes first. -/
theorem heads_prefix_order : heads queues <+: order queues := by
  rw [order]
  cases none_ : size queues with
  | zero =>
    have empty : heads queues = [] := by
      apply filterMap_eq_nil_iff.mpr
      intro queue member
      have short := length_le_size queues queue member
      rw [none_] at short
      rw [length_eq_zero_iff.mp (Nat.le_zero.mp short), List.head?_nil]
    rw [empty]
    exact nil_prefix
  | succ n => exact prefix_append _ _

theorem turns_prefix_succ : turns n queues <+: turns (n + 1) queues := by
  induction n generalizing queues with
  | zero => exact nil_prefix
  | succ n ih => exact (prefix_append_right_inj _).mpr (ih _)

theorem between_turns (taken : List α) (cut : taken <+: turns n queues) :
    ∃ k, turns k queues <+: taken ∧ taken <+: turns (k + 1) queues := by
  induction n with
  | zero => exact ⟨0, nil_prefix, cut.trans (turns_prefix_succ 0 queues)⟩
  | succ n ih =>
    rcases prefix_or_prefix_of_prefix cut (turns_prefix_succ n queues) with early | late
    · exact ih early
    · exact ⟨n, late, cut⟩

section Keys

variable {κ : Type} [DecidableEq κ] (key : α → κ)

theorem heads_filter (queue : κ → List α) (keyed : ∀ k, ∀ x ∈ queue k, key x = k) (k : κ)
    (keys : List κ) (once : keys.Nodup) : (heads (keys.map queue)).filter (fun x => key x = k) =
      if k ∈ keys then (queue k).take 1 else [] := by
  induction keys with
  | nil => rfl
  | cons first rest ih =>
    have later := ih once.of_cons
    by_cases here : first = k
    · subst here
      rw [if_neg (nodup_cons.mp once).1] at later
      rw [if_pos mem_cons_self, map_cons]
      cases whole : queue first with
      | nil => exact later
      | cons x more =>
        have own : key x = first := keyed first x (by rw [whole]; exact mem_cons_self)
        rw [heads_cons, filter_cons_of_pos (by simpa using own), later]
        rfl
    · have elsewhere : k ∈ first :: rest ↔ k ∈ rest := by
        rw [mem_cons, or_iff_right (Ne.symm here)]
      simp only [elsewhere]
      rw [map_cons, ← later]
      cases whole : queue first with
      | nil => rfl
      | cons x more =>
        have own : key x = first := keyed first x (by rw [whole]; exact mem_cons_self)
        rw [heads_cons, filter_cons_of_neg (by simpa [own] using here)]

theorem turns_filter (queue : κ → List α) (keyed : ∀ k, ∀ x ∈ queue k, key x = k) (k : κ)
    (keys : List κ) (once : keys.Nodup) : (turns n (keys.map queue)).filter (fun x => key x = k) =
      if k ∈ keys then (queue k).take n else [] := by
  induction n generalizing queue with
  | zero => rw [take_zero, ite_self]; rfl
  | succ n ih =>
    have shorter : tails (keys.map queue) = keys.map fun k => (queue k).tail := by
      rw [tails, map_map]
      rfl
    rw [turns, shorter, filter_append, heads_filter key queue keyed k keys once,
      ih _ fun k x inside => keyed k x (mem_of_mem_tail inside)]
    split
    · cases queue k with
      | nil => rw [tail_nil, take_nil, take_nil, take_nil]; rfl
      | cons x rest => rfl
    · rfl

end Keys

end DracVms.RoundRobin
