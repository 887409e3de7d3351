import DracVms.Recordings.DiskUsageQueues

namespace DracVms.DiskUsage

open List Json Database Where Protection PagedQueue

section Fase

variable (respostas : Respostas) (protection : ProtectionSets) (nuvemAtiva : Bool)
  (limiares : Limiares) (medidas : Medidas)
  (gain leaves : Recording → Bool) (At : List Recording → List Recording → Passagem → Prop)

/-- What became of the pass while it read one queue, of which `lidas` were read: it ended as the
readings say, or with a batch that gained nothing, or it went on from where the queue is empty. -/
structure Fase (p : Permissao) (read rest : List Recording) (t : Passagem)
    (lidas resto : List Recording) (fim : Resultado) :
    Prop where
  whole : lidas ++ resto = rest
  lidas_eq : lidas = readIn gain leaves p.lotes (loteDe - stuck leaves read) rest
  here : At (read ++ lidas) resto t
  medido : p.lotes ≤ turns gain leaves (loteDe - stuck leaves read) rest →
    fim = ⟨p.desfecho, p.current, t⟩
  parado : turns gain leaves (loteDe - stuck leaves read) rest < p.lotes →
    (read.all leaves && exhausts gain leaves (loteDe - stuck leaves read) rest) = false →
    ∃ current, limiares.target < current ∧ fim = ⟨.nadaSaiu, current, t⟩
  segue : turns gain leaves (loteDe - stuck leaves read) rest < p.lotes →
    (read.all leaves && exhausts gain leaves (loteDe - stuck leaves read) rest) = true →
    ∃ restantes lotes c, permissao limiares medidas restantes lotes c =
        { p with lotes := p.lotes - turns gain leaves (loteDe - stuck leaves read) rest } ∧
      fim = laco respostas protection nuvemAtiva limiares medidas restantes lotes c t

variable (p : Permissao)

theorem fase_medida (read rest : List Recording) (s : Passagem) (here : At read rest s)
    (none : p.lotes = 0) :
    Fase respostas protection nuvemAtiva limiares medidas gain leaves At p read rest s [] rest
      ⟨p.desfecho, p.current, s⟩ where
  whole := rfl
  lidas_eq := by rw [none, readIn]
  here := by
    rw [append_nil]
    exact here
  medido := fun _ => rfl
  parado := by
    intro some
    omega
  segue := by
    intro some
    omega

theorem fase_vazia (restantes lotes : Nat) (c : Controle) (read : List Recording) (s : Passagem)
    (here : At read [] s) (some : 0 < (permissao limiares medidas restantes lotes c).lotes)
    (all : read.all leaves = true) :
    Fase respostas protection nuvemAtiva limiares medidas gain leaves At
      (permissao limiares medidas restantes lotes c) read [] s [] []
      (laco respostas protection nuvemAtiva limiares medidas restantes lotes c s) := by
  have none : turns gain leaves (loteDe - stuck leaves read) [] = 0 :=
    turns_stall gain leaves _ [] (by simp)
  refine ⟨rfl, ?_, ?_, ?_, ?_, ?_⟩
  · obtain ⟨rest, split⟩ := readIn_initial gain leaves
      (permissao limiares medidas restantes lotes c).lotes (loteDe - stuck leaves read) []
    exact (append_eq_nil_iff.mp split.symm).1.symm
  · rw [append_nil]
    exact here
  · intro few
    omega
  · intro _ stalls
    rw [all, exhausts_nil] at stalls
    cases stalls
  · intro _ _
    refine ⟨restantes, lotes, c, ?_, rfl⟩
    rw [none, Nat.sub_zero]

theorem fase_parada (current : Int) (read rest : List Recording) (t : Passagem)
    (here : At (read ++ rest.take (loteDe - stuck leaves read))
      (rest.drop (loteDe - stuck leaves read)) t) (acima : limiares.target < current)
    (some : 0 < p.lotes) (waiting : ((read.filter fun row => !leaves row) ++ rest) ≠ [])
    (stalls : (rest.take (loteDe - stuck leaves read)).any gain = false) :
    Fase respostas protection nuvemAtiva limiares medidas gain leaves At p read rest t
      (rest.take (loteDe - stuck leaves read)) (rest.drop (loteDe - stuck leaves read))
      ⟨.nadaSaiu, current, t⟩ := by
  have none := turns_stall gain leaves _ _ stalls
  have notEmpty : (read.all leaves &&
      exhausts gain leaves (loteDe - stuck leaves read) rest) = false := by
    by_cases last : rest = []
    · rw [last, append_nil] at waiting
      have stay : read.all leaves = false := by
        apply Bool.eq_false_of_not_eq_true
        intro all
        apply waiting
        apply filter_eq_nil_iff.mpr
        intro row present
        simp [all_eq_true.mp all row present]
      rw [stay, Bool.false_and]
    · rw [exhausts_stall gain leaves _ _ last stalls, Bool.and_false]
  refine ⟨take_append_drop _ _, ?_, here, ?_, ?_, ?_⟩
  · obtain ⟨n, form⟩ : ∃ n, p.lotes = n + 1 := ⟨p.lotes - 1, by omega⟩
    rw [form, readIn_stall gain leaves _ _ n stalls]
  · intro few
    omega
  · intro _ _
    exact ⟨current, acima, rfl⟩
  · intro _ empty
    rw [notEmpty] at empty
    cases empty

theorem fase_ultima (read rest : List Recording) (t : Passagem)
    (here : At (read ++ rest.take (loteDe - stuck leaves read))
      (rest.drop (loteDe - stuck leaves read)) t) (one : p.lotes = 1)
    (gains : (rest.take (loteDe - stuck leaves read)).any gain = true) :
    Fase respostas protection nuvemAtiva limiares medidas gain leaves At p read rest t
      (rest.take (loteDe - stuck leaves read)) (rest.drop (loteDe - stuck leaves read))
      ⟨p.desfecho, p.current, t⟩ := by
  have some := turns_gain gain leaves _ _ gains
  refine ⟨take_append_drop _ _, ?_, here, ?_, ?_, ?_⟩
  · rw [one, readIn_gain gain leaves _ _ 0 gains, readIn, append_nil]
  · intro _
    rfl
  all_goals
    intro few
    omega

theorem fase_passo (read rest : List Recording) (t : Passagem) (lidas resto : List Recording)
    (fim : Resultado) (gains : (rest.take (loteDe - stuck leaves read)).any gain = true)
    (fase : Fase respostas protection nuvemAtiva limiares medidas gain leaves At p
      (read ++ rest.take (loteDe - stuck leaves read)) (rest.drop (loteDe - stuck leaves read)) t
      lidas resto fim) : Fase respostas protection nuvemAtiva limiares medidas gain leaves At
      { p with lotes := p.lotes + 1 } read rest t
      (rest.take (loteDe - stuck leaves read) ++ lidas) resto fim := by
  obtain ⟨whole, lidas_eq, here, medido, parado, segue⟩ := fase
  rw [← roomAfter_eq] at lidas_eq medido parado segue
  have more := turns_gain gain leaves _ _ gains
  have empties : (read.all leaves && exhausts gain leaves (loteDe - stuck leaves read) rest) =
      ((read ++ rest.take (loteDe - stuck leaves read)).all leaves &&
        exhausts gain leaves (roomAfter leaves (loteDe - stuck leaves read)
          (rest.take (loteDe - stuck leaves read))) (rest.drop (loteDe - stuck leaves read))) := by
    rw [exhausts_gain gain leaves _ _ gains, all_append, Bool.and_assoc]
  rw [← empties] at parado segue
  refine ⟨?_, ?_, ?_, ?_, ?_, ?_⟩
  · rw [append_assoc, whole, take_append_drop]
  · rw [readIn_gain gain leaves _ _ p.lotes gains, lidas_eq]
  · rw [← append_assoc]
    exact here
  · intro few
    apply medido
    rw [more] at few
    exact Nat.le_of_succ_le_succ few
  · intro many
    apply parado
    rw [more] at many
    exact Nat.lt_of_succ_lt_succ many
  · intro many empty
    rw [more] at many
    obtain ⟨restantes, lotes, c, permite, goes⟩ := segue (Nat.lt_of_succ_lt_succ many) empty
    refine ⟨restantes, lotes, c, ?_, goes⟩
    rw [permite, more, Nat.add_sub_add_right]

theorem permissao_pos (restantes lotes : Nat) (c : Controle) (acima : ¬c.current ≤ limiares.target) :
    0 < (permissao limiares medidas (restantes + 1) lotes c).lotes := by
  rw [permissao, if_neg acima]
  split
  · exact Nat.one_pos
  · exact Nat.succ_pos _

variable {modo : Modo} {queue : Passagem → List Recording}

theorem laco_fase (reads : Reads (visitar respostas protection modo) queue gain leaves At)
    (seleciona : ∀ read rest s, At read rest s → queue s ≠ [] → selecionar protection nuvemAtiva s =
      (modo, (queue s).take loteDe))
    (restantes lotes : Nat) (c : Controle) (read rest : List Recording) (s : Passagem)
    (here : At read rest s) (fits : stuck leaves read ≤ loteDe) :
    ∃ t lidas resto, Fase respostas protection nuvemAtiva limiares medidas gain leaves At
      (permissao limiares medidas restantes lotes c) read rest t lidas resto
      (laco respostas protection nuvemAtiva limiares medidas restantes lotes c s) := by
  induction restantes generalizing lotes c read rest s with
  | zero =>
    exact ⟨s, [], rest, fase_medida respostas protection nuvemAtiva limiares medidas gain leaves At
      (permissao limiares medidas 0 lotes c) read rest s here rfl⟩
  | succ restantes ih =>
    by_cases atingido : c.current ≤ limiares.target
    · have ends := fase_medida respostas protection nuvemAtiva limiares medidas gain leaves At
        ⟨0, .alvo, c.current⟩ read rest s here rfl
      rw [permissao, laco, if_pos atingido, if_pos atingido]
      exact ⟨s, [], rest, ends⟩
    · have some := permissao_pos limiares medidas restantes lotes c atingido
      have shape := reads.queue_eq read rest s here
      by_cases waiting : queue s = []
      · obtain ⟨left, none⟩ := append_eq_nil_iff.mp (shape.symm.trans waiting)
        have all : read.all leaves = true := by
          apply all_eq_true.mpr
          intro row present
          simpa using filter_eq_nil_iff.mp left row present
        subst none
        exact ⟨s, [], [], fase_vazia respostas protection nuvemAtiva limiares medidas gain leaves At
          (restantes + 1) lotes c read s here some all⟩
      · obtain ⟨count, next⟩ := reads.turn read rest s here loteDe fits
        have fits' := stuck_fits leaves loteDe read rest fits
        have page : (queue s).take loteDe ≠ [] := by
          cases form : queue s with
          | nil => exact absurd form waiting
          | cons row rows => exact cons_ne_nil _ _
        rw [laco, if_neg atingido, seleciona read rest s here waiting]
        dsimp only
        rw [if_neg page]
        generalize visitPage (visitar respostas protection modo) s ((queue s).take loteDe) = turn
          at count next ⊢
        obtain ⟨t, batchDeleted⟩ := turn
        dsimp only at count next ⊢
        rw [count]
        by_cases gains : (rest.take (loteDe - stuck leaves read)).any gain = true
        · have moved : (rest.take (loteDe - stuck leaves read)).countP gain ≠ 0 := by
            intro none
            obtain ⟨row, present, gained⟩ := any_eq_true.mp gains
            exact countP_eq_zero.mp none row present gained
          rw [if_neg moved, permissao, if_neg atingido]
          cases decides : c.seguir limiares (medidas.aposLote lotes) with
          | error fim =>
            exact ⟨t, _, _, fase_ultima respostas protection nuvemAtiva limiares medidas gain
              leaves At ⟨1, fim.1, fim.2⟩ read rest t next rfl gains⟩
          | ok seguinte =>
            obtain ⟨u, lidas, resto, fase⟩ := ih (lotes + 1) seguinte _ _ t next fits'
            exact ⟨u, _, resto, fase_passo respostas protection nuvemAtiva limiares medidas gain
              leaves At _ read rest u lidas resto _ gains fase⟩
        · have stalls := Bool.eq_false_of_not_eq_true gains
          have none : (rest.take (loteDe - stuck leaves read)).countP gain = 0 := by
            apply countP_eq_zero.mpr
            intro row present
            exact any_eq_false.mp stalls row present
          rw [if_pos none]
          rw [shape] at waiting
          exact ⟨t, _, _, fase_parada respostas protection nuvemAtiva limiares medidas gain leaves
            At _ c.current read rest t next (Int.not_le.mp atingido) some waiting stalls⟩

end Fase

end DracVms.DiskUsage
