import Mathlib

namespace DracVms

/-- The numbers whose quotient by a power of two is `index`. -/
structure DyadicBlock where
  index : ℕ
  exponent : ℕ

namespace DyadicBlock

def size (b : DyadicBlock) : ℕ := 2 ^ b.exponent

def members (b : DyadicBlock) : Finset ℕ := Finset.Ico (b.index * b.size) ((b.index + 1) * b.size)

theorem size_pos (b : DyadicBlock) : 0 < b.size := Nat.two_pow_pos b.exponent

theorem mem_members (b : DyadicBlock) (a : ℕ) : a ∈ b.members ↔ a / b.size = b.index := by
  unfold members
  rw [Finset.mem_Ico]
  have positive := b.size_pos
  constructor
  · intro within
    apply Nat.div_eq_of_lt_le
    · exact within.1
    · exact within.2
  · intro same
    rw [← same]
    constructor
    · exact Nat.div_mul_le_self a b.size
    · rw [Nat.add_mul, Nat.one_mul]
      exact Nat.lt_div_mul_add positive

theorem card_members (b : DyadicBlock) : b.members.card = b.size := by
  unfold members
  rw [Nat.card_Ico, Nat.add_mul, Nat.one_mul, Nat.add_sub_cancel_left]

/-- Whether the other block lies in this one. -/
def contains (b c : DyadicBlock) : Bool :=
  c.exponent ≤ b.exponent && c.index / 2 ^ (b.exponent - c.exponent) = b.index

theorem div_size (b c : DyadicBlock) (below : c.exponent ≤ b.exponent) (a : ℕ) :
    a / b.size = a / c.size / 2 ^ (b.exponent - c.exponent) := by
  unfold size
  rw [Nat.div_div_eq_div_mul, ← Nat.pow_add, Nat.add_sub_cancel' below]

variable {b c : DyadicBlock}

theorem subset_of_contains (holds : b.contains c = true) : c.members ⊆ b.members := by
  unfold contains at holds
  rw [Bool.and_eq_true, decide_eq_true_eq, decide_eq_true_eq] at holds
  intro a inside
  rw [mem_members] at inside ⊢
  rw [div_size b c holds.1 a, inside]
  exact holds.2

theorem disjoint_of_not_contains (below : c.exponent ≤ b.exponent) (apart : b.contains c = false) :
    Disjoint b.members c.members := by
  apply Finset.disjoint_left.mpr
  intro a inB inC
  rw [mem_members] at inB inC
  have holds : b.contains c = true := by
    unfold contains
    rw [Bool.and_eq_true, decide_eq_true_eq, decide_eq_true_eq]
    refine ⟨below, ?_⟩
    rw [← inC, ← div_size b c below a]
    exact inB
  rw [apart] at holds
  cases holds

/-- Two blocks that do not lie in each other share nothing. -/
theorem disjoint_of_apart (first : b.contains c = false) (second : c.contains b = false) :
    Disjoint b.members c.members := by
  by_cases below : c.exponent ≤ b.exponent
  · exact disjoint_of_not_contains below first
  · have above : b.exponent ≤ c.exponent := by omega
    exact (disjoint_of_not_contains above second).symm

theorem meet_iff (b c : DyadicBlock) : (∃ a, a ∈ b.members ∧ a ∈ c.members) ↔
      b.index / 2 ^ (max b.exponent c.exponent - b.exponent) =
        c.index / 2 ^ (max b.exponent c.exponent - c.exponent) := by
  have quotient : ∀ (d : DyadicBlock) (e : ℕ), d.exponent ≤ e → ∀ a ∈ d.members,
      a / 2 ^ e = d.index / 2 ^ (e - d.exponent) := by
    intro d e below a inside
    rw [mem_members] at inside
    have larger := div_size ⟨0, e⟩ d below a
    rw [inside] at larger
    exact larger
  constructor
  · intro meets
    obtain ⟨a, inB, inC⟩ := meets
    rw [← quotient b _ (Nat.le_max_left _ _) a inB, ← quotient c _ (Nat.le_max_right _ _) a inC]
  · intro same
    have start : ∀ d : DyadicBlock, d.index * d.size ∈ d.members := by
      intro d
      rw [mem_members, Nat.mul_div_cancel _ d.size_pos]
    rcases Nat.le_total b.exponent c.exponent with below | above
    · rw [Nat.max_eq_right below, Nat.sub_self, Nat.pow_zero, Nat.div_one] at same
      refine ⟨b.index * b.size, start b, ?_⟩
      apply subset_of_contains (b := c) (c := b) _ (start b)
      unfold contains
      rw [Bool.and_eq_true, decide_eq_true_eq, decide_eq_true_eq]
      exact ⟨below, same⟩
    · rw [Nat.max_eq_left above, Nat.sub_self, Nat.pow_zero, Nat.div_one] at same
      refine ⟨c.index * c.size, ?_, start c⟩
      apply subset_of_contains (b := b) (c := c) _ (start c)
      unfold contains
      rw [Bool.and_eq_true, decide_eq_true_eq, decide_eq_true_eq]
      exact ⟨above, same.symm⟩

/-! What several blocks cover. -/

def cover (blocks : List DyadicBlock) : Finset ℕ := blocks.foldr (fun b rest => b.members ∪ rest) ∅

variable (blocks : List DyadicBlock)

theorem mem_cover (a : ℕ) : a ∈ cover blocks ↔ ∃ b ∈ blocks, a ∈ b.members := by
  induction blocks with
  | nil => simp [cover]
  | cons b rest ih =>
    show a ∈ b.members ∪ cover rest ↔ _
    rw [Finset.mem_union, ih, List.exists_mem_cons_iff]

theorem cover_mono {first second : List DyadicBlock} (within : first ⊆ second) :
    cover first ⊆ cover second := by
  intro a covered
  rw [mem_cover] at covered ⊢
  obtain ⟨b, listed, inside⟩ := covered
  exact ⟨b, within listed, inside⟩

/-- A block is added unless it lies in another, and the others that lie in it go. -/
def addOutermost (b : DyadicBlock) (blocks : List DyadicBlock) : List DyadicBlock :=
  if blocks.any fun c => c.contains b then blocks
  else b :: blocks.filter fun c => !b.contains c

/-- The blocks that lie in no other. -/
def outermost (blocks : List DyadicBlock) : List DyadicBlock := blocks.foldr addOutermost []

def totalSize (blocks : List DyadicBlock) : ℕ := (blocks.map size).sum

theorem cover_addOutermost (b : DyadicBlock) (blocks : List DyadicBlock) :
    cover (addOutermost b blocks) = b.members ∪ cover blocks := by
  unfold addOutermost
  split
  · rename_i inside
    obtain ⟨c, listed, holds⟩ := List.any_eq_true.mp inside
    symm
    apply Finset.union_eq_right.mpr
    intro a inB
    rw [mem_cover]
    exact ⟨c, listed, subset_of_contains holds inB⟩
  · ext a
    show a ∈ b.members ∪ cover (blocks.filter fun c => !b.contains c) ↔ _
    rw [Finset.mem_union, Finset.mem_union, mem_cover, mem_cover]
    constructor
    · intro covered
      rcases covered with inB | ⟨c, kept, inC⟩
      · exact Or.inl inB
      · exact Or.inr ⟨c, List.mem_of_mem_filter kept, inC⟩
    · intro covered
      rcases covered with inB | ⟨c, listed, inC⟩
      · exact Or.inl inB
      · cases holds : b.contains c with
        | true => exact Or.inl (subset_of_contains holds inC)
        | false => exact Or.inr ⟨c, List.mem_filter.mpr ⟨listed, by simp [holds]⟩, inC⟩

theorem cover_outermost : cover (outermost blocks) = cover blocks := by
  induction blocks with
  | nil => rfl
  | cons b rest ih =>
    show cover (addOutermost b (outermost rest)) = b.members ∪ cover rest
    rw [cover_addOutermost, ih]

theorem outermost_disjoint :
    (outermost blocks).Pairwise fun b c => Disjoint b.members c.members := by
  induction blocks with
  | nil => exact List.Pairwise.nil
  | cons b rest ih =>
    show (addOutermost b (outermost rest)).Pairwise _
    unfold addOutermost
    split
    · exact ih
    · rename_i outside
      apply List.pairwise_cons.mpr
      refine ⟨?_, ih.filter _⟩
      intro c kept
      obtain ⟨listed, apart⟩ := List.mem_filter.mp kept
      have first : b.contains c = false := by simpa using apart
      have second : c.contains b = false := by
        cases holds : c.contains b with
        | false => rfl
        | true => exact absurd (List.any_eq_true.mpr ⟨c, listed, holds⟩) outside
      exact disjoint_of_apart first second

theorem card_cover_disjoint {blocks : List DyadicBlock}
    (apart : blocks.Pairwise fun b c => Disjoint b.members c.members) :
    (cover blocks).card = totalSize blocks := by
  induction blocks with
  | nil => rfl
  | cons b rest ih =>
    obtain ⟨first, apart'⟩ := List.pairwise_cons.mp apart
    have separate : Disjoint b.members (cover rest) := by
      apply Finset.disjoint_left.mpr
      intro a inB covered
      obtain ⟨c, listed, inC⟩ := (mem_cover rest a).mp covered
      exact Finset.disjoint_left.mp (first c listed) inB inC
    show (b.members ∪ cover rest).card = (size b :: rest.map size).sum
    rw [Finset.card_union_of_disjoint separate, card_members, ih apart', List.sum_cons]
    rfl

theorem card_cover : (cover blocks).card = totalSize (outermost blocks) := by
  rw [← cover_outermost, card_cover_disjoint (outermost_disjoint blocks)]

end DyadicBlock

end DracVms
