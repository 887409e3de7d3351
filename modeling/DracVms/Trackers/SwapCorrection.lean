import DracVms.Library.RisingLoop
import DracVms.Library.IndexPairs

namespace DracVms.AjustCamTracker

open List

open RisingLoop (untilQuiet)

/-- The pairs of a row and a column, with the rows whose velocity is reset and how many swaps
were made. -/
structure Correcao where
  pairs : List (ℕ × ℕ)
  velocityReset : List ℕ
  appearanceSwaps : ℕ

section Swaps

variable (similarity : ℕ → ℕ → Option ℚ) (near : ℕ → ℕ → Bool)

/-- Crosswise the signatures match clearly better, and both ends are within their gates. -/
def deveTrocar (a b : ℕ × ℕ) : Bool :=
  match similarity a.1 a.2, similarity a.1 b.2, similarity b.1 a.2, similarity b.1 b.2 with
  | some s11, some s12, some s21, some s22 =>
    !(s12 - s11 ≤ 1 / 4 || s21 - s22 ≤ 1 / 4) && near a.1 b.2 && near b.1 a.2
  | _, _, _, _ => false

def tentar (c : Correcao) (p : ℕ × ℕ) : Correcao :=
  match c.pairs[p.1]?, c.pairs[p.2]? with
  | some a, some b =>
    if deveTrocar similarity near a b then
      { pairs := (c.pairs.set p.1 (a.1, b.2)).set p.2 (b.1, a.2)
        velocityReset := c.velocityReset ++ [a.1, b.1]
        appearanceSwaps := c.appearanceSwaps + 1 }
    else c
  | _, _ => c

def passagem (c : Correcao) : Correcao :=
  (IndexPairs.below c.pairs.length).foldl (tentar similarity near) c

/-- The `while swapped` loop. -/
def corrigirTrocas : ℕ → Correcao → Option Correcao :=
  untilQuiet (passagem similarity near) Correcao.appearanceSwaps

/-- How alike the pairs are, all together. -/
def total (pairs : List (ℕ × ℕ)) : ℚ := (pairs.map fun p => (similarity p.1 p.2).getD 0).sum

/-- The rows stay where they are, and the columns are the same ones. -/
structure Mesmos (pairs : List (ℕ × ℕ)) (c : Correcao) : Prop where
  rows : c.pairs.map Prod.fst = pairs.map Prod.fst
  cols : (c.pairs.map Prod.snd).Perm (pairs.map Prod.snd)

variable {similarity near}

theorem deveTrocar_symm (a b : ℕ × ℕ) :
    deveTrocar similarity near a b = deveTrocar similarity near b a := by
  unfold deveTrocar
  cases similarity a.1 a.2 <;> cases similarity a.1 b.2 <;> cases similarity b.1 a.2 <;>
    cases similarity b.1 b.2 <;> try rfl
  simp only [Bool.or_comm, Bool.and_assoc, Bool.and_comm (near a.1 b.2)]

theorem deveTrocar_gain {a b : ℕ × ℕ} (swap : deveTrocar similarity near a b = true) :
    (similarity a.1 a.2).getD 0 + (similarity b.1 b.2).getD 0 + 1 / 2 ≤
      (similarity a.1 b.2).getD 0 + (similarity b.1 a.2).getD 0 := by
  unfold deveTrocar at swap
  split at swap
  · rename_i s11 s12 s21 s22 h11 h12 h21 h22
    rw [Bool.and_eq_true, Bool.and_eq_true, Bool.not_eq_true', Bool.or_eq_false_iff,
      decide_eq_false_iff_not, decide_eq_false_iff_not, not_le, not_le] at swap
    rw [h11, h12, h21, h22]
    simp only [Option.getD_some]
    linarith [swap.1.1.1, swap.1.1.2]
  · cases swap

variable {pairs : List (ℕ × ℕ)} {i j : ℕ}

theorem total_set_set {a b : ℕ × ℕ} (less : i < j) (here : pairs[i]? = some a)
    (there : pairs[j]? = some b) (x y : ℕ × ℕ) :
    total similarity ((pairs.set i x).set j y) = total similarity pairs -
      (similarity a.1 a.2).getD 0 - (similarity b.1 b.2).getD 0 +
      (similarity x.1 x.2).getD 0 + (similarity y.1 y.2).getD 0 := by
  obtain ⟨withinI, rfl⟩ := List.getElem?_eq_some_iff.mp here
  obtain ⟨withinJ, rfl⟩ := List.getElem?_eq_some_iff.mp there
  unfold total
  rw [map_set, map_set, sum_set', sum_set', dif_pos (by simpa using withinI),
    dif_pos (by simpa using withinJ), getElem_set_of_ne (by omega), getElem_map,
    getElem_map]
  ring

variable (similarity near) in
/-- What one pair of positions does: nothing, or a swap that pays. -/
inductive Tentou (c : Correcao) (i j : ℕ) : Correcao → Prop
  | fica (apart : ∀ a b, c.pairs[i]? = some a → c.pairs[j]? = some b →
      deveTrocar similarity near a b = false) : Tentou c i j c
  | troca {a b : ℕ × ℕ} (here : c.pairs[i]? = some a) (there : c.pairs[j]? = some b)
      (swap : deveTrocar similarity near a b = true) : Tentou c i j
        { pairs := (c.pairs.set i (a.1, b.2)).set j (b.1, a.2)
          velocityReset := c.velocityReset ++ [a.1, b.1]
          appearanceSwaps := c.appearanceSwaps + 1 }

variable (similarity near) in
theorem tentou (c : Correcao) (i j : ℕ) :
    Tentou similarity near c i j (tentar similarity near c (i, j)) := by
  unfold tentar
  split
  · rename_i a b here there
    split
    · rename_i swap
      exact .troca here there swap
    · rename_i keep
      refine .fica fun a' b' here' there' => ?_
      obtain rfl := Option.some.inj (here.symm.trans here')
      obtain rfl := Option.some.inj (there.symm.trans there')
      exact Bool.eq_false_iff.mpr keep
  · rename_i none_
    exact .fica fun a b here there => absurd there (none_ a b here)

section

variable {c d : Correcao} (step : Tentou similarity near c i j d)

include step

theorem Tentou.mesmos (mesmos : Mesmos pairs c) : Mesmos pairs d := by
  cases step with
  | fica _ => exact mesmos
  | @troca a b here there _ =>
    obtain ⟨withinI, rfl⟩ := List.getElem?_eq_some_iff.mp here
    obtain ⟨withinJ, rfl⟩ := List.getElem?_eq_some_iff.mp there
    have lengths : (c.pairs.map Prod.fst).length = c.pairs.length ∧
        (c.pairs.map Prod.snd).length = c.pairs.length := ⟨length_map .., length_map ..⟩
    constructor
    · rw [← mesmos.rows, map_set, map_set]
      have first : (c.pairs.map Prod.fst).set i c.pairs[i].1 = c.pairs.map Prod.fst := by
        rw [← getElem_map Prod.fst (h := by omega), set_getElem_self]
      have second : (c.pairs.map Prod.fst).set j c.pairs[j].1 = c.pairs.map Prod.fst := by
        rw [← getElem_map Prod.fst (h := by omega), set_getElem_self]
      rw [first, second]
    · refine List.Perm.trans ?_ mesmos.cols
      rw [map_set, map_set]
      have swapped := @List.set_set_perm _ (c.pairs.map Prod.snd) i j (by omega) (by omega)
      rw [getElem_map, getElem_map] at swapped
      exact swapped

theorem Tentou.raises (less : i < j) : c.appearanceSwaps ≤ d.appearanceSwaps ∧
      ((d.appearanceSwaps - c.appearanceSwaps : ℕ) : ℚ) * (1 / 2) ≤
        total similarity d.pairs - total similarity c.pairs := by
  cases step with
  | fica _ => simp
  | @troca a b here there swap =>
    have gain := deveTrocar_gain swap
    refine ⟨Nat.le_succ _, ?_⟩
    rw [total_set_set less here there, Nat.add_sub_cancel_left, Nat.cast_one]
    linarith

theorem Tentou.still (none_ : d.appearanceSwaps = c.appearanceSwaps) :
    d = c ∧ ∀ a b, c.pairs[i]? = some a → c.pairs[j]? = some b →
      deveTrocar similarity near a b = false := by
  cases step with
  | fica apart => exact ⟨rfl, apart⟩
  | troca _ _ _ => exact absurd none_ (Nat.succ_ne_self _)

/-! A whole pass. -/

end

theorem tentativas_mesmos (visits : List (ℕ × ℕ)) {c : Correcao} (mesmos : Mesmos pairs c) :
    Mesmos pairs (visits.foldl (tentar similarity near) c) := by
  induction visits generalizing c with
  | nil => exact mesmos
  | cons p visits ih => exact ih ((tentou similarity near c p.1 p.2).mesmos mesmos)

variable (similarity near) in
theorem tentativas_raise (visits : List (ℕ × ℕ)) (less : ∀ p ∈ visits, p.1 < p.2) (c : Correcao) :
    c.appearanceSwaps ≤ (visits.foldl (tentar similarity near) c).appearanceSwaps ∧
      (((visits.foldl (tentar similarity near) c).appearanceSwaps - c.appearanceSwaps : ℕ) : ℚ) *
          (1 / 2) ≤
        total similarity (visits.foldl (tentar similarity near) c).pairs -
          total similarity c.pairs := by
  induction visits generalizing c with
  | nil => simp
  | cons p visits ih =>
    obtain ⟨count, rise⟩ :=
      (tentou similarity near c p.1 p.2).raises (less p (mem_cons_self ..))
    obtain ⟨later, riseLater⟩ := ih (fun q inside => less q (mem_cons_of_mem _ inside))
      (tentar similarity near c p)
    rw [foldl_cons]
    refine ⟨count.trans later, ?_⟩
    rw [Nat.cast_sub later] at riseLater
    rw [Nat.cast_sub count] at rise
    rw [Nat.cast_sub (count.trans later)]
    linarith

theorem tentativas_still (visits : List (ℕ × ℕ)) (less : ∀ p ∈ visits, p.1 < p.2) {c : Correcao}
    (none_ : (visits.foldl (tentar similarity near) c).appearanceSwaps = c.appearanceSwaps) :
    visits.foldl (tentar similarity near) c = c ∧
      ∀ p ∈ visits, ∀ a b, c.pairs[p.1]? = some a → c.pairs[p.2]? = some b →
        deveTrocar similarity near a b = false := by
  induction visits generalizing c with
  | nil => exact ⟨rfl, nofun⟩
  | cons p visits ih =>
    have lessLater : ∀ q ∈ visits, q.1 < q.2 := fun q inside =>
      less q (mem_cons_of_mem _ inside)
    have step : Tentou similarity near c p.1 p.2 (tentar similarity near c p) :=
      tentou similarity near c p.1 p.2
    have count := (step.raises (less p (mem_cons_self ..))).1
    have later :=
      (tentativas_raise similarity near visits lessLater (tentar similarity near c p)).1
    rw [foldl_cons] at none_ ⊢
    obtain ⟨same, apart⟩ := step.still (by omega)
    rw [same] at none_ ⊢
    obtain ⟨rest, others⟩ := ih lessLater none_
    refine ⟨rest, fun q inside => ?_⟩
    rcases mem_cons.mp inside with rfl | elsewhere
    · exact apart
    · exact others q elsewhere

theorem total_bounds (unit : ∀ r c s, similarity r c = some s → 0 ≤ s ∧ s ≤ 1)
    (pairs : List (ℕ × ℕ)) :
    0 ≤ total similarity pairs ∧ total similarity pairs ≤ pairs.length := by
  have each : ∀ p : ℕ × ℕ, 0 ≤ (similarity p.1 p.2).getD 0 ∧ (similarity p.1 p.2).getD 0 ≤ 1 := by
    intro p
    cases known : similarity p.1 p.2 with
    | none => simp
    | some s => exact unit _ _ _ known
  induction pairs with
  | nil => simp [total]
  | cons p pairs ih =>
    obtain ⟨low, high⟩ := ih
    obtain ⟨lowOwn, highOwn⟩ := each p
    unfold total at low high ⊢
    rw [map_cons, sum_cons, length_cons, Nat.cast_add, Nat.cast_one]
    constructor
    all_goals linarith

/-- Whatever the similarities are, the columns of a row bound what it can gain. -/
def teto (similarity : ℕ → ℕ → Option ℚ) (pairs : List (ℕ × ℕ)) : ℚ :=
  ((pairs.map Prod.fst).map fun r =>
    ((pairs.map Prod.snd).map fun c => |(similarity r c).getD 0|).sum).sum

theorem total_le_teto {c : Correcao} (mesmos : Mesmos pairs c) :
    total similarity c.pairs ≤ teto similarity pairs := by
  unfold total teto
  rw [← mesmos.rows, map_map]
  refine sum_le_sum fun p inside => ?_
  have column : p.2 ∈ pairs.map Prod.snd :=
    mesmos.cols.mem_iff.mp (mem_map_of_mem inside)
  have values := single_le_sum
    (l := (pairs.map Prod.snd).map fun k => |(similarity p.1 k).getD 0|)
    (fun x own => by
      obtain ⟨k, _, rfl⟩ := mem_map.mp own
      exact abs_nonneg _)
    _ (mem_map_of_mem column)
  exact (le_abs_self _).trans values

variable (similarity near) in
theorem corrigirTrocas_ends (pairs : List (ℕ × ℕ)) : ∃ (fim : Correcao) (n : ℕ),
    Mesmos pairs fim ∧ ∀ fuel, n < fuel →
      corrigirTrocas similarity near fuel ⟨pairs, [], 0⟩ = some fim := by
  have rises : RisingLoop.Rises (passagem similarity near) Correcao.appearanceSwaps (Mesmos pairs)
      (fun c => total similarity c.pairs) (1 / 2) (teto similarity pairs) :=
    { kept := fun c mesmos => tentativas_mesmos _ mesmos
      counted := fun c _ =>
        (tentativas_raise _ _ _ (fun p inside => (IndexPairs.mem_below.mp inside).1) c).1
      raised := fun c _ =>
        (tentativas_raise _ _ _ (fun p inside => (IndexPairs.mem_below.mp inside).1) c).2
      bounded := fun c mesmos => total_le_teto mesmos }
  obtain ⟨n, large⟩ := exists_nat_ge ((teto similarity pairs - total similarity pairs) * 2)
  obtain ⟨t, mesmos, _, _, runs⟩ := rises.quiet (by norm_num) n ⟨pairs, [], 0⟩
    ⟨rfl, List.Perm.refl _⟩ (by linarith)
  exact ⟨_, n, tentativas_mesmos _ mesmos, runs⟩

variable (near) in
theorem passagem_rises (unit : ∀ r c s, similarity r c = some s → 0 ≤ s ∧ s ≤ 1)
    (pairs : List (ℕ × ℕ)) :
    RisingLoop.Rises (passagem similarity near) Correcao.appearanceSwaps (Mesmos pairs)
      (fun c => total similarity c.pairs) (1 / 2) (pairs.length : ℚ) where
  kept c mesmos := tentativas_mesmos _ mesmos
  counted c _ := (tentativas_raise _ _ _ (fun p inside => (IndexPairs.mem_below.mp inside).1) c).1
  raised c _ := (tentativas_raise _ _ _ (fun p inside => (IndexPairs.mem_below.mp inside).1) c).2
  bounded c mesmos := by
    have size := congrArg List.length mesmos.rows
    rw [length_map, length_map] at size
    rw [← size]
    exact (total_bounds unit c.pairs).2

/-- The loop ends after at most twice as many swaps as there are pairs, the pairs being a matching
all along, and then no two of them should be swapped. -/
theorem corrigirTrocas_termina (similarity : ℕ → ℕ → Option ℚ) (near : ℕ → ℕ → Bool)
    (unit : ∀ r c s, similarity r c = some s → 0 ≤ s ∧ s ≤ 1) (pairs : List (ℕ × ℕ))
    (rows : (pairs.map Prod.fst).Nodup) (cols : (pairs.map Prod.snd).Nodup) : ∃ fim : Correcao,
      (∀ fuel, 2 * pairs.length < fuel →
        corrigirTrocas similarity near fuel ⟨pairs, [], 0⟩ = some fim) ∧
      fim.appearanceSwaps ≤ 2 * pairs.length ∧
      (fim.pairs.map Prod.fst).Nodup ∧ (fim.pairs.map Prod.snd).Nodup ∧
      fim.pairs.map Prod.fst = pairs.map Prod.fst ∧
      (fim.pairs.map Prod.snd).Perm (pairs.map Prod.snd) ∧
      ∀ (i j : ℕ) (a b : ℕ × ℕ), i ≠ j → fim.pairs[i]? = some a → fim.pairs[j]? = some b →
        deveTrocar similarity near a b = false := by
  have room : (pairs.length : ℚ) - total similarity pairs ≤ (2 * pairs.length : ℕ) * (1 / 2) := by
    have low := (total_bounds unit pairs).1
    push_cast
    linarith
  obtain ⟨t, mesmos, quiet, few, runs⟩ := (passagem_rises near unit pairs).quiet
    (by norm_num) (2 * pairs.length) ⟨pairs, [], 0⟩ ⟨rfl, List.Perm.refl _⟩ room
  obtain ⟨same, apart⟩ :=
    tentativas_still _ (fun p inside => (IndexPairs.mem_below.mp inside).1) quiet
  have ends : passagem similarity near t = t := same
  rw [ends] at few runs
  refine ⟨t, runs, by simpa using few, mesmos.rows ▸ rows, mesmos.cols.nodup_iff.mpr cols,
    mesmos.rows, mesmos.cols, ?_⟩
  intro i j a b differ here there
  have withinI := (List.getElem?_eq_some_iff.mp here).1
  have withinJ := (List.getElem?_eq_some_iff.mp there).1
  rcases Nat.lt_or_gt_of_ne differ with less | less
  · exact apart (i, j) (IndexPairs.mem_below.mpr ⟨less, withinJ⟩) a b here there
  · rw [deveTrocar_symm]
    exact apart (j, i) (IndexPairs.mem_below.mpr ⟨less, withinI⟩) b a there here

end Swaps

/-- Two tracks that follow each other's object. -/
theorem corrigirTrocas_crossed : ∃ fim : Correcao,
    corrigirTrocas (fun r c => some (if r = c then 0 else 1)) (fun _ _ => true) 5
      ⟨[(0, 0), (1, 1)], [], 0⟩ = some fim ∧
    fim.appearanceSwaps ≤ 4 ∧ (fim.pairs.map Prod.snd).Nodup := by
  have unit : ∀ (r c : ℕ) (s : ℚ), some (if r = c then (0 : ℚ) else 1) = some s →
      0 ≤ s ∧ s ≤ 1 := by
    rintro r c s ⟨⟩
    split <;> norm_num
  obtain ⟨fim, runs, few, _, cols, _⟩ := corrigirTrocas_termina
    (fun r c => some (if r = c then 0 else 1)) (fun _ _ => true) unit [(0, 0), (1, 1)]
    (by decide) (by decide)
  exact ⟨fim, runs 5 (by decide), few, cols⟩

end DracVms.AjustCamTracker
