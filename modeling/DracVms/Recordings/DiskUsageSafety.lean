import DracVms.Recordings.DiskUsagePasses

namespace DracVms.DiskUsage

open List Json Database Where Protection PagedQueue

section Passagens

variable (respostas : Respostas) (protection : ProtectionSets) (nuvemAtiva : Bool)
  (limiares : Limiares) (medidas : Medidas) (inicio : Passagem)

/-- The batches in which local files go. -/
def turnosLiberar : Nat :=
  turns (liberavel respostas inicio) (carimbavel respostas) loteDe
    (filaLiberar protection nuvemAtiva inicio)

def lidasLiberar (lotes : Nat) : List Recording :=
  readIn (liberavel respostas inicio) (carimbavel respostas) lotes loteDe
    (filaLiberar protection nuvemAtiva inicio)

/-- Whether the second queue gets its turn. -/
def esvazia : Bool :=
  exhausts (liberavel respostas inicio) (carimbavel respostas) loteDe
    (filaLiberar protection nuvemAtiva inicio)

def turnosApagar : Nat :=
  turns (apagavel respostas protection inicio) (apagavel respostas protection inicio) loteDe
    (filaApagar protection nuvemAtiva inicio)

def lidasApagar (lotes : Nat) : List Recording :=
  if esvazia respostas protection nuvemAtiva inicio then
    readIn (apagavel respostas protection inicio) (apagavel respostas protection inicio)
      (lotes - turnosLiberar respostas protection nuvemAtiva inicio) loteDe
      (filaApagar protection nuvemAtiva inicio)
  else []

/-- The batches in which something goes, until one in which nothing does. -/
def turnosUteis : Nat :=
  if esvazia respostas protection nuvemAtiva inicio then
    turnosLiberar respostas protection nuvemAtiva inicio +
      turnosApagar respostas protection nuvemAtiva inicio
  else turnosLiberar respostas protection nuvemAtiva inicio

/-- The state that so many batches leave. -/
structure Fim (lotes : Nat) (t : Passagem) : Prop where
  liberar : ∀ row, (row ∈ filaLiberar protection nuvemAtiva t ∧ liberavel respostas t row = true) ↔
    row ∈ filaLiberar protection nuvemAtiva inicio ∧ liberavel respostas inicio row = true ∧
      row ∉ lidasLiberar respostas protection nuvemAtiva inicio lotes
  apagar : ∀ row, (row ∈ filaApagar protection nuvemAtiva t ∧
      apagavel respostas protection t row = true) ↔
    row ∈ filaApagar protection nuvemAtiva inicio ∧
      apagavel respostas protection inicio row = true ∧
      row ∉ lidasApagar respostas protection nuvemAtiva inicio lotes
  ids : t.acervo.recordings.map Recording.id =
    (inicio.acervo.recordings.map Recording.id).filter fun id =>
      id ∉ ((lidasApagar respostas protection nuvemAtiva inicio lotes).filter
        (apagavel respostas protection inicio)).map Recording.id
  objetos : t.objetos = ((lidasApagar respostas protection nuvemAtiva inicio lotes).filter
    (apagavel respostas protection inicio)).foldl (deleteCloudObject respostas) inicio.objetos

theorem inicio_liberando : Liberando respostas protection nuvemAtiva inicio []
    (filaLiberar protection nuvemAtiva inicio) inicio where
  whole := rfl
  queue := rfl
  apagar := rfl
  porVir := fun _ _ => rfl
  lidos := nofun
  ids := rfl
  clips := rfl
  objetos := rfl

theorem Liberando.apagavel_eq (t : Passagem) (read rest : List Recording)
    (here : Liberando respostas protection nuvemAtiva inicio read rest t) :
    apagavel respostas protection t = apagavel respostas protection inicio := by
  unfold apagavel
  rw [here.clips]

theorem mem_rest (read rest queue : List Recording) (whole : read ++ rest = queue)
    (distinct : (queue.map Recording.id).Nodup) (row : Recording) :
    row ∈ rest ↔ row ∈ queue ∧ row ∉ read := by
  have apart := (nodup_append.mp (whole ▸ distinct.of_map)).2.2
  rw [← whole, mem_append]
  constructor
  · intro later
    refine ⟨Or.inr later, ?_⟩
    intro earlier
    exact apart row earlier row later rfl
  · rintro ⟨earlier | later, fresh⟩
    · exact absurd earlier fresh
    · exact later

variable (lotes : Nat)

/-- While only local files went. -/
theorem fim_of_liberando (t : Passagem) (rest : List Recording)
    (here : Liberando respostas protection nuvemAtiva inicio (lidasLiberar respostas protection
      nuvemAtiva inicio lotes) rest t)
    (none : lidasApagar respostas protection nuvemAtiva inicio lotes = []) :
    Fim respostas protection nuvemAtiva inicio lotes t := by
  have same := here.apagavel_eq
  have member := mem_rest _ rest _ here.whole (filaLiberar_ids protection nuvemAtiva inicio)
  obtain ⟨whole, queue, apagar, porVir, lidos, ids, clips, objetos⟩ := here
  refine ⟨?_, ?_, ?_, ?_⟩
  · intro row
    rw [queue, mem_append]
    constructor
    · rintro ⟨old | later, livre⟩
      · rw [lidos row (mem_of_mem_filter old)] at livre
        cases livre
      · rw [liberavel, porVir row later] at livre
        exact ⟨((member row).mp later).1, livre, ((member row).mp later).2⟩
    · rintro ⟨present, livre, fresh⟩
      have later := (member row).mpr ⟨present, fresh⟩
      refine ⟨Or.inr later, ?_⟩
      rw [liberavel, porVir row later]
      exact livre
  · intro row
    rw [apagar, same, none]
    simp
  · rw [none, ids]
    simp
  · rw [none, objetos]
    rfl

/-- After the first queue got empty. -/
theorem fim_of_apagando (meio t : Passagem) (rest : List Recording)
    (before : Liberando respostas protection nuvemAtiva inicio (lidasLiberar respostas protection
      nuvemAtiva inicio lotes) [] meio)
    (here : Apagando respostas protection nuvemAtiva meio (lidasApagar respostas protection
      nuvemAtiva inicio lotes) rest t) : Fim respostas protection nuvemAtiva inicio lotes t := by
  have same := before.apagavel_eq
  have member := mem_rest _ rest _ here.whole (filaApagar_ids protection nuvemAtiva meio)
  have unchanged := here.apagavel_eq
  have kept := apagando_kept respostas protection nuvemAtiva meio t _ rest here
  obtain ⟨whole, liberar, queue, ids, clips, objetos⟩ := here
  rw [before.apagar] at member
  rw [same] at ids objetos unchanged kept queue
  refine ⟨?_, ?_, ?_, ?_⟩
  · intro row
    rw [liberar, ← before.whole, append_nil]
    constructor
    · rintro ⟨present, -⟩
      cases present
    · rintro ⟨present, -, fresh⟩
      exact absurd present fresh
  · intro row
    constructor
    · rintro ⟨present, livre⟩
      rw [unchanged row (kept row present)] at livre
      rw [queue, mem_append] at present
      rcases present with old | later
      · have stays := (mem_filter.mp old).2
        rw [livre] at stays
        cases stays
      · exact ⟨((member row).mp later).1, livre, ((member row).mp later).2⟩
    · rintro ⟨first, livre, fresh⟩
      have present : row ∈ filaApagar protection nuvemAtiva t := by
        rw [queue]
        exact mem_append_right _ ((member row).mpr ⟨first, fresh⟩)
      refine ⟨present, ?_⟩
      rw [unchanged row (kept row present)]
      exact livre
  · rw [ids, before.ids]
  · rw [objetos, before.objetos]

theorem apagando_inicio (meio : Passagem) (liberar : filaLiberar protection nuvemAtiva meio = []) :
    Apagando respostas protection nuvemAtiva meio [] (filaApagar protection nuvemAtiva meio)
      meio where
  whole := rfl
  liberar := liberar
  queue := rfl
  ids := by simp
  clips := by simp
  objetos := rfl

theorem seleciona_liberar (s : Passagem) (some : filaLiberar protection nuvemAtiva s ≠ []) :
    selecionar protection nuvemAtiva s =
      (.liberar, (filaLiberar protection nuvemAtiva s).take loteDe) := by
  have page : (filaLiberar protection nuvemAtiva s).take loteDe ≠ [] := by
    cases form : filaLiberar protection nuvemAtiva s with
    | nil => exact absurd form some
    | cons row rows => exact cons_ne_nil _ _
  rw [selecionar, if_pos page]

theorem seleciona_apagar (s : Passagem) (none : filaLiberar protection nuvemAtiva s = []) :
    selecionar protection nuvemAtiva s =
      (.apagar, (filaApagar protection nuvemAtiva s).take loteDe) := by
  rw [selecionar, none, if_neg (by simp)]

variable (restantes lotes : Nat) (c : Controle)

theorem laco_vazio (s : Passagem) (liberar : filaLiberar protection nuvemAtiva s = [])
    (apagar : filaApagar protection nuvemAtiva s = [])
    (some : 0 < (permissao limiares medidas restantes lotes c).lotes) :
    limiares.target < c.current ∧
      laco respostas protection nuvemAtiva limiares medidas restantes lotes c s =
        ⟨.vazio, c.current, s⟩ := by
  cases restantes with
  | zero => cases some
  | succ restantes =>
    rw [permissao] at some
    split at some
    · cases some
    · rename_i acima
      rw [laco, if_neg acima, seleciona_apagar protection nuvemAtiva s liberar, apagar]
      exact ⟨Int.not_le.mp acima, rfl⟩

theorem laco_segunda (p : Permissao) (meio : Passagem)
    (permite : permissao limiares medidas restantes lotes c = p)
    (liberar : filaLiberar protection nuvemAtiva meio = []) :
    ∃ t rest, Apagando respostas protection nuvemAtiva meio
        (readIn (apagavel respostas protection meio) (apagavel respostas protection meio) p.lotes
          loteDe (filaApagar protection nuvemAtiva meio)) rest t ∧
      (p.lotes ≤ turnosApagar respostas protection nuvemAtiva meio →
        laco respostas protection nuvemAtiva limiares medidas restantes lotes c meio =
          ⟨p.desfecho, p.current, t⟩) ∧
      (turnosApagar respostas protection nuvemAtiva meio < p.lotes →
        ∃ desfecho current, (desfecho = .vazio ∨ desfecho = .nadaSaiu) ∧
          limiares.target < current ∧
          laco respostas protection nuvemAtiva limiares medidas restantes lotes c meio =
            ⟨desfecho, current, t⟩) := by
  obtain ⟨t, lidas, rest, fase⟩ := laco_fase respostas protection nuvemAtiva limiares medidas
    _ _ _ (apagando_reads respostas protection nuvemAtiva meio)
    (fun _ _ s here _ => seleciona_apagar protection nuvemAtiva s here.liberar) restantes lotes c []
    _ meio (apagando_inicio respostas protection nuvemAtiva meio liberar) (Nat.zero_le _)
  rw [permite] at fase
  obtain ⟨whole, lidas_eq, here, medido, parado, segue⟩ := fase
  have lidas_eq : lidas = readIn (apagavel respostas protection meio)
    (apagavel respostas protection meio) p.lotes loteDe (filaApagar protection nuvemAtiva meio) :=
    lidas_eq
  refine ⟨t, rest, lidas_eq ▸ here, medido, ?_⟩
  intro many
  by_cases empty : exhausts (apagavel respostas protection meio)
      (apagavel respostas protection meio) loteDe (filaApagar protection nuvemAtiva meio) = true
  · obtain ⟨restantes', lotes', c', permite', goes⟩ := segue many empty
    have all := leaves_of_exhausts _ _ _ _ empty
    have left : rest = [] := by
      rw [lidas_eq, readIn_of_exhausts _ _ _ _ _ many empty] at whole
      simpa using whole
    have apagar : filaApagar protection nuvemAtiva t = [] := by
      rw [here.queue, left, append_nil]
      apply filter_eq_nil_iff.mpr
      intro row present
      have inQueue : row ∈ filaApagar protection nuvemAtiva meio := by
        rw [← whole]
        exact mem_append_left _ present
      simp [all row inQueue]
    have some : 0 < (permissao limiares medidas restantes' lotes' c').lotes := by
      rw [permite']
      exact Nat.sub_pos_of_lt many
    obtain ⟨acima, ends⟩ := laco_vazio respostas protection nuvemAtiva limiares medidas restantes'
      lotes' c' t here.liberar apagar some
    exact ⟨.vazio, c'.current, Or.inl rfl, acima, goes.trans ends⟩
  · obtain ⟨current, acima, ends⟩ := parado many (Bool.eq_false_of_not_eq_true empty)
    exact ⟨.nadaSaiu, current, Or.inr rfl, acima, ends⟩

/-- What the readings and the queues make of the loop. -/
theorem laco_passagem (p : Permissao) (permite : permissao limiares medidas restantes lotes c = p) :
    ∃ t, Fim respostas protection nuvemAtiva inicio p.lotes t ∧
      (p.lotes ≤ turnosUteis respostas protection nuvemAtiva inicio →
        laco respostas protection nuvemAtiva limiares medidas restantes lotes c inicio =
          ⟨p.desfecho, p.current, t⟩) ∧
      (turnosUteis respostas protection nuvemAtiva inicio < p.lotes →
        ∃ desfecho current, (desfecho = .vazio ∨ desfecho = .nadaSaiu) ∧
          limiares.target < current ∧
          laco respostas protection nuvemAtiva limiares medidas restantes lotes c inicio =
            ⟨desfecho, current, t⟩) := by
  obtain ⟨meio, lidas, resto, fase⟩ := laco_fase respostas protection nuvemAtiva limiares medidas
    _ _ _ (liberando_reads respostas protection nuvemAtiva inicio)
    (fun _ _ s _ some => seleciona_liberar protection nuvemAtiva s some) restantes lotes c [] _ inicio
    (inicio_liberando respostas protection nuvemAtiva inicio) (Nat.zero_le _)
  rw [permite] at fase
  obtain ⟨whole, lidas_eq, here, medido, parado, segue⟩ := fase
  have lidas_eq : lidas = lidasLiberar respostas protection nuvemAtiva inicio p.lotes := lidas_eq
  rw [nil_append, lidas_eq] at here
  by_cases empty : esvazia respostas protection nuvemAtiva inicio = true
  · have all : (([] : List Recording).all (carimbavel respostas) &&
        exhausts (liberavel respostas inicio) (carimbavel respostas)
          (loteDe - stuck (carimbavel respostas) [])
          (filaLiberar protection nuvemAtiva inicio)) = true := by
      simpa [esvazia, stuck] using empty
    have total : turnosUteis respostas protection nuvemAtiva inicio =
        turnosLiberar respostas protection nuvemAtiva inicio +
          turnosApagar respostas protection nuvemAtiva inicio := by
      rw [turnosUteis, if_pos empty]
    by_cases few : p.lotes ≤ turnosLiberar respostas protection nuvemAtiva inicio
    · have none : lidasApagar respostas protection nuvemAtiva inicio p.lotes = [] := by
        rw [lidasApagar, if_pos empty, Nat.sub_eq_zero_of_le few, readIn]
      refine ⟨meio, fim_of_liberando respostas protection nuvemAtiva inicio _ meio resto here none,
        ?_, ?_⟩
      · intro _
        exact medido few
      · intro many
        omega
    · have many := Nat.not_le.mp few
      obtain ⟨restantes', lotes', c', permite', goes⟩ := segue many all
      have left : resto = [] := by
        have read : lidasLiberar respostas protection nuvemAtiva inicio p.lotes =
            filaLiberar protection nuvemAtiva inicio :=
          readIn_of_exhausts _ _ _ _ _ many empty
        rw [lidas_eq, read] at whole
        simpa using whole
      subst left
      have every := leaves_of_exhausts _ _ _ _ empty
      have liberar : filaLiberar protection nuvemAtiva meio = [] := by
        rw [here.queue, append_nil]
        apply filter_eq_nil_iff.mpr
        intro row present
        have inQueue : row ∈ filaLiberar protection nuvemAtiva inicio :=
          readIn_subset _ _ _ _ _ row present
        simp [every row inQueue]
      obtain ⟨t, rest, segunda, medido', parado'⟩ := laco_segunda respostas protection nuvemAtiva
        limiares medidas restantes' lotes' c' _ meio permite' liberar
      have same := here.apagavel_eq
      have turnos : turnosApagar respostas protection nuvemAtiva meio =
          turnosApagar respostas protection nuvemAtiva inicio := by
        rw [turnosApagar, same, here.apagar]
        rfl
      have lidas' : readIn (apagavel respostas protection meio) (apagavel respostas protection meio)
          (p.lotes - turnosLiberar respostas protection nuvemAtiva inicio) loteDe
          (filaApagar protection nuvemAtiva meio) =
          lidasApagar respostas protection nuvemAtiva inicio p.lotes := by
        rw [lidasApagar, if_pos empty, same, here.apagar]
      have segunda : Apagando respostas protection nuvemAtiva meio
          (lidasApagar respostas protection nuvemAtiva inicio p.lotes) rest t := lidas' ▸ segunda
      refine ⟨t, fim_of_apagando respostas protection nuvemAtiva inicio _ meio t rest here segunda,
        ?_, ?_⟩
      · intro enough
        rw [goes]
        apply medido'
        show p.lotes - turnosLiberar respostas protection nuvemAtiva inicio ≤ _
        omega
      · intro more
        rw [goes]
        apply parado'
        show _ < p.lotes - turnosLiberar respostas protection nuvemAtiva inicio
        omega
  · have stays := Bool.eq_false_of_not_eq_true empty
    have none : lidasApagar respostas protection nuvemAtiva inicio p.lotes = [] := by
      rw [lidasApagar, if_neg empty]
    have total : turnosUteis respostas protection nuvemAtiva inicio =
        turnosLiberar respostas protection nuvemAtiva inicio := by
      rw [turnosUteis, if_neg empty]
    refine ⟨meio, fim_of_liberando respostas protection nuvemAtiva inicio _ meio resto here none,
      ?_, ?_⟩
    · intro few
      rw [total] at few
      exact medido few
    · intro many
      rw [total] at many
      obtain ⟨current, acima, ends⟩ := parado many stays
      exact ⟨.nadaSaiu, current, Or.inr rfl, acima, ends⟩

theorem fim_inicio : Fim respostas protection nuvemAtiva inicio 0 inicio := by
  have none : lidasApagar respostas protection nuvemAtiva inicio 0 = [] := by
    unfold lidasApagar
    rw [Nat.zero_sub, readIn, ite_self]
  exact fim_of_liberando respostas protection nuvemAtiva inicio 0 inicio _
    (inicio_liberando respostas protection nuvemAtiva inicio) none

/-- How a pass ends: as the readings say, or, where they allow more batches than those in which
something goes, above its target. -/
structure Passou (p : Permissao) (r : Resultado) : Prop where
  fim : Fim respostas protection nuvemAtiva inicio p.lotes r.fim
  medida : p.lotes ≤ turnosUteis respostas protection nuvemAtiva inicio →
    r.desfecho = p.desfecho ∧ r.current = p.current
  parada : turnosUteis respostas protection nuvemAtiva inicio < p.lotes →
    (r.desfecho = .vazio ∨ r.desfecho = .nadaSaiu) ∧ limiares.target < r.current

theorem laco_passou : Passou respostas protection nuvemAtiva limiares inicio
      (permissao limiares medidas restantes lotes c)
      (laco respostas protection nuvemAtiva limiares medidas restantes lotes c inicio) := by
  obtain ⟨t, fim, medida, parada⟩ := laco_passagem respostas protection nuvemAtiva limiares medidas
    inicio restantes lotes c _ rfl
  by_cases few : (permissao limiares medidas restantes lotes c).lotes ≤
      turnosUteis respostas protection nuvemAtiva inicio
  · rw [medida few]
    refine ⟨fim, ?_, ?_⟩
    · intro _
      exact ⟨rfl, rfl⟩
    · intro many
      omega
  · obtain ⟨desfecho, current, how, acima, ends⟩ := parada (Nat.not_le.mp few)
    rw [ends]
    refine ⟨fim, ?_, ?_⟩
    · intro enough
      exact absurd enough few
    · intro _
      exact ⟨how, acima⟩

theorem passou_fora (current : Int) :
    Passou respostas protection nuvemAtiva limiares inicio ⟨0, .semLaco, current⟩
      ⟨.semLaco, current, inicio⟩ where
  fim := fim_inicio respostas protection nuvemAtiva inicio
  medida := fun _ => ⟨rfl, rfl⟩
  parada := nofun

variable (autoCleanup : Bool) (storagesAtivos : Option Nat)

theorem checkDiskUsage_passou (ativa : storagesAtivos.any (0 < ·) = nuvemAtiva) :
    Passou respostas protection nuvemAtiva limiares inicio
      (permissaoDaPassagem limiares medidas autoCleanup)
      (checkDiskUsage respostas protection limiares medidas autoCleanup storagesAtivos inicio) := by
  unfold permissaoDaPassagem checkDiskUsage
  cases medidas.initialPercent with
  | none => exact passou_fora respostas protection nuvemAtiva limiares inicio 0
  | some initialPercent =>
    dsimp only
    have fora := passou_fora respostas protection nuvemAtiva limiares inicio initialPercent
    by_cases abaixo : initialPercent ≤ limiares.triggerPercent
    · rw [if_pos abaixo, if_pos abaixo]
      exact fora
    · rw [if_neg abaixo, if_neg abaixo]
      cases autoCleanup with
      | false => exact fora
      | true =>
        cases medidas.freeAntes with
        | none => exact fora
        | some freeAntes =>
          rw [ativa]
          exact laco_passou respostas protection nuvemAtiva limiares medidas inicio iteracoes 0
            ⟨initialPercent, freeAntes, 0⟩

theorem lidasApagar_subset (row : Recording)
    (read : row ∈ lidasApagar respostas protection nuvemAtiva inicio lotes) :
    row ∈ filaApagar protection nuvemAtiva inicio := by
  unfold lidasApagar at read
  split at read
  · exact readIn_subset _ _ _ _ _ row read
  · cases read

theorem Fim.apagadas_ids (t : Passagem) (fim : Fim respostas protection nuvemAtiva inicio lotes t)
    (row : Recording) (present : row ∈ inicio.acervo.recordings) :
    row.id ∈ t.acervo.recordings.map Recording.id ↔
      ¬(row ∈ lidasApagar respostas protection nuvemAtiva inicio lotes ∧
        apagavel respostas protection inicio row = true) := by
  rw [fim.ids, mem_filter, decide_eq_true_eq]
  constructor
  · rintro ⟨-, kept⟩ ⟨read, livre⟩
    exact kept (mem_map_of_mem (mem_filter.mpr ⟨read, livre⟩))
  · intro kept
    refine ⟨mem_map_of_mem present, ?_⟩
    intro gone
    obtain ⟨other, listed, same⟩ := mem_map.mp gone
    obtain ⟨read, livre⟩ := mem_filter.mp listed
    have queued := lidasApagar_subset respostas protection nuvemAtiva inicio lotes other read
    have inRows := ((mem_filaApagar protection nuvemAtiva inicio other).mp queued).1
    rw [KeyedList.eq_of_key inicio.acervo.distinct inRows present same] at read livre
    exact kept ⟨read, livre⟩

theorem mem_objetos (objetos rows : List Recording) (row : Recording)
    (member : row ∈ rows.foldl (deleteCloudObject respostas) objetos) :
    row ∈ objetos ∨ row ∈ rows := by
  induction rows generalizing objetos with
  | nil => exact Or.inl member
  | cons first rows ih =>
    rcases ih _ member with before | later
    · unfold deleteCloudObject at before
      split at before
      · rcases mem_append.mp before with old | new
        · exact Or.inl old
        · rw [mem_singleton.mp new]
          exact Or.inr mem_cons_self
      · exact Or.inl before
    · exact Or.inr (mem_cons_of_mem _ later)

theorem lidasApagar_semNuvem : lidasApagar respostas protection false inicio lotes =
      readIn (apagavel respostas protection inicio) (apagavel respostas protection inicio) lotes
        loteDe (filaApagar protection false inicio) := by
  have none : filaLiberar protection false inicio = [] := rfl
  have empty : esvazia respostas protection false inicio = true := by
    rw [esvazia, none, exhausts_nil]
  have zero : turnosLiberar respostas protection false inicio = 0 := by
    rw [turnosLiberar, none]
    exact turns_stall _ _ _ _ (by simp)
  rw [lidasApagar, if_pos empty, zero, Nat.sub_zero]

/-- No row and no object of a recording that was sent to the cloud goes, exactly when there is an
active storage or the batches that the readings allow come to no such recording that can go. -/
theorem checkDiskUsage_spares_uploaded_iff :
    (∀ row ∈ inicio.acervo.recordings, row.cloudUploadedAt.isSome = true →
      row.id ∈ (checkDiskUsage respostas protection limiares medidas autoCleanup storagesAtivos
        inicio).fim.acervo.recordings.map Recording.id ∧
      (row ∈ (checkDiskUsage respostas protection limiares medidas autoCleanup storagesAtivos
        inicio).fim.objetos → row ∈ inicio.objetos)) ↔
    (storagesAtivos.any (0 < ·) = true ∨
      ∀ row ∈ readIn (apagavel respostas protection inicio) (apagavel respostas protection inicio)
          (permissaoDaPassagem limiares medidas autoCleanup).lotes loteDe
          (filaApagar protection false inicio),
        apagavel respostas protection inicio row = true → row.cloudUploadedAt = none) := by
  obtain ⟨nuvemAtiva, ativa⟩ : ∃ nuvemAtiva, storagesAtivos.any (0 < ·) = nuvemAtiva := ⟨_, rfl⟩
  have fim := (checkDiskUsage_passou respostas protection nuvemAtiva limiares medidas inicio
    autoCleanup storagesAtivos ativa).fim
  generalize checkDiskUsage respostas protection limiares medidas autoCleanup storagesAtivos
    inicio = r at fim ⊢
  generalize (permissaoDaPassagem limiares medidas autoCleanup).lotes = lotes at fim ⊢
  have kept := fim.apagadas_ids
  have spared : (∀ row ∈ inicio.acervo.recordings, row.cloudUploadedAt.isSome = true →
        row.id ∈ r.fim.acervo.recordings.map Recording.id ∧
        (row ∈ r.fim.objetos → row ∈ inicio.objetos)) ↔
      ∀ row ∈ lidasApagar respostas protection nuvemAtiva inicio lotes,
        apagavel respostas protection inicio row = true → row.cloudUploadedAt = none := by
    constructor
    · intro spares row read livre
      have queued := lidasApagar_subset respostas protection nuvemAtiva inicio lotes row read
      have inRows := ((mem_filaApagar protection nuvemAtiva inicio row).mp queued).1
      by_contra sent
      have stays := (spares row inRows (Option.isSome_iff_ne_none.mpr sent)).1
      exact (kept row inRows).mp stays ⟨read, livre⟩
    · intro local' row inRows sent
      have notRead : ¬(row ∈ lidasApagar respostas protection nuvemAtiva inicio lotes ∧
          apagavel respostas protection inicio row = true) := by
        rintro ⟨read, livre⟩
        rw [local' row read livre] at sent
        cases sent
      refine ⟨(kept row inRows).mpr notRead, ?_⟩
      intro gone
      rw [fim.objetos] at gone
      rcases mem_objetos respostas _ _ row gone with before | deleted
      · exact before
      · exact absurd (mem_filter.mp deleted) notRead
  rw [spared, ativa]
  cases nuvemAtiva with
  | true =>
    constructor
    · intro _
      exact Or.inl rfl
    · intro _ row read _
      have queued := lidasApagar_subset respostas protection true inicio lotes row read
      exact porIdade_local protection row ((mem_filaApagar protection true inicio row).mp queued).2
  | false =>
    rw [lidasApagar_semNuvem]
    simp

/-- The pass was neither stopped before its loop, nor by its limit, nor by its brake, and the usage
is above the target. -/
def FicouAcima (desfecho : Desfecho) (current : Int) : Prop :=
  desfecho ≠ .semLaco ∧ desfecho ≠ .limite ∧ desfecho ≠ .freio ∧ limiares.target < current

/-- Nothing is left that the guard may remove and whose removal would succeed. -/
def Esgotada (s : Passagem) : Prop :=
  (∀ row ∈ filaLiberar protection nuvemAtiva s, (liberarEspacoLocal respostas s row).2 = false) ∧
    ∀ row ∈ filaApagar protection nuvemAtiva s,
      (deleteRecording respostas protection s row).2 = false

/-- So many batches come to all that can be removed. -/
def LotesAlcancam (lotes : Nat) : Prop :=
  (∀ row ∈ filaLiberar protection nuvemAtiva inicio, liberavel respostas inicio row = true →
      row ∈ lidasLiberar respostas protection nuvemAtiva inicio lotes) ∧
    ∀ row ∈ filaApagar protection nuvemAtiva inicio,
      apagavel respostas protection inicio row = true →
        row ∈ lidasApagar respostas protection nuvemAtiva inicio lotes

/-- Nothing that can be removed stands behind a page of what cannot. -/
def NadaAtras : Prop :=
  (∀ row ∈ unread (liberavel respostas inicio) (carimbavel respostas) loteDe
      (filaLiberar protection nuvemAtiva inicio), liberavel respostas inicio row = false) ∧
    ∀ before row after, filaApagar protection nuvemAtiva inicio = before ++ row :: after →
      apagavel respostas protection inicio row = true →
        esvazia respostas protection nuvemAtiva inicio = true ∧
          (before.countP fun other => !apagavel respostas protection inicio other) < loteDe

theorem esgotada_iff (t : Passagem) (fim : Fim respostas protection nuvemAtiva inicio lotes t) :
    Esgotada respostas protection nuvemAtiva t ↔
      LotesAlcancam respostas protection nuvemAtiva inicio lotes := by
  simp only [Esgotada, LotesAlcancam, liberarEspacoLocal_did, deleteRecording_did]
  constructor
  · rintro ⟨liberar, apagar⟩
    constructor
    · intro row present livre
      by_contra fresh
      obtain ⟨present', livre'⟩ := (fim.liberar row).mpr ⟨present, livre, fresh⟩
      rw [liberar row present'] at livre'
      cases livre'
    · intro row present livre
      by_contra fresh
      obtain ⟨present', livre'⟩ := (fim.apagar row).mpr ⟨present, livre, fresh⟩
      rw [apagar row present'] at livre'
      cases livre'
  · rintro ⟨liberar, apagar⟩
    constructor
    · intro row present
      apply Bool.eq_false_of_not_eq_true
      intro livre
      obtain ⟨present', livre', fresh⟩ := (fim.liberar row).mp ⟨present, livre⟩
      exact fresh (liberar row present' livre')
    · intro row present
      apply Bool.eq_false_of_not_eq_true
      intro livre
      obtain ⟨present', livre', fresh⟩ := (fim.apagar row).mp ⟨present, livre⟩
      exact fresh (apagar row present' livre')

/-- With more batches than those in which something goes, what is left is what stands behind. -/
theorem lotesAlcancam_iff (enough : turnosUteis respostas protection nuvemAtiva inicio < lotes) :
    LotesAlcancam respostas protection nuvemAtiva inicio lotes ↔
      NadaAtras respostas protection nuvemAtiva inicio := by
  have first : turnosLiberar respostas protection nuvemAtiva inicio < lotes := by
    unfold turnosUteis at enough
    split at enough
    · omega
    · exact enough
  have readFirst := readIn_unread _ _ _ _ _ first
  have restFirst := mem_rest _ _ _ readFirst (filaLiberar_ids protection nuvemAtiva inicio)
  apply and_congr
  · constructor
    · intro reaches row left
      apply Bool.eq_false_of_not_eq_true
      intro livre
      obtain ⟨queued, fresh⟩ := (restFirst row).mp left
      exact fresh (reaches row queued livre)
    · intro none row queued livre
      by_contra fresh
      rw [none row ((restFirst row).mpr ⟨queued, fresh⟩)] at livre
      cases livre
  · by_cases empty : esvazia respostas protection nuvemAtiva inicio = true
    · rw [turnosUteis, if_pos empty] at enough
      have second : turnosApagar respostas protection nuvemAtiva inicio <
          lotes - turnosLiberar respostas protection nuvemAtiva inicio := by
        omega
      have readSecond := readIn_unread _ _ _ _ _ second
      have distinct := filaApagar_ids protection nuvemAtiva inicio
      have restSecond := mem_rest _ _ _ readSecond distinct
      rw [lidasApagar, if_pos empty]
      constructor
      · intro reaches before row after split livre
        refine ⟨empty, ?_⟩
        have queued : row ∈ filaApagar protection nuvemAtiva inicio := by
          rw [split]
          exact mem_append_right _ mem_cons_self
        by_contra full
        have left := (unread_iff _ loteDe _ distinct.of_map before row after split livre).mpr
          (Nat.not_lt.mp full)
        exact ((restSecond row).mp left).2 (reaches row queued livre)
      · intro ahead row queued livre
        obtain ⟨before, after, split⟩ := append_of_mem queued
        by_contra fresh
        have left := (restSecond row).mpr ⟨queued, fresh⟩
        have full := (unread_iff _ loteDe _ distinct.of_map before row after split livre).mp left
        exact absurd (ahead before row after split livre).2 (Nat.not_lt.mpr full)
    · rw [lidasApagar, if_neg empty]
      constructor
      · intro reaches before row after split livre
        have queued : row ∈ filaApagar protection nuvemAtiva inicio := by
          rw [split]
          exact mem_append_right _ mem_cons_self
        cases reaches row queued livre
      · intro ahead row queued livre
        obtain ⟨before, after, split⟩ := append_of_mem queued
        exact absurd (ahead before row after split livre).1 empty

theorem seguir_error (medida : Option (Int × Option Nat)) (desfecho : Desfecho) (current : Int)
    (ends : c.seguir limiares medida = .error (desfecho, current)) :
    desfecho = .erro ∨ desfecho = .freio := by
  unfold Controle.seguir at ends
  split at ends
  · cases ends
    exact Or.inl rfl
  · cases ends
    exact Or.inl rfl
  · split at ends
    · cases ends
    · split at ends
      · cases ends
        exact Or.inr rfl
      · cases ends

/-- The readings alone leave a pass above its target only when one of them throws. -/
theorem permissao_fim
    (acima : FicouAcima limiares (permissao limiares medidas restantes lotes c).desfecho
      (permissao limiares medidas restantes lotes c).current) :
    (permissao limiares medidas restantes lotes c).desfecho = .erro := by
  induction restantes generalizing lotes c with
  | zero =>
    obtain ⟨-, limite, -, above⟩ := acima
    rw [permissao] at limite above
    by_cases atingido : c.current ≤ limiares.target
    · exact absurd above (Int.not_lt.mpr atingido)
    · rw [if_neg atingido] at limite
      exact absurd rfl limite
  | succ restantes ih =>
    rw [permissao] at acima ⊢
    by_cases atingido : c.current ≤ limiares.target
    · rw [if_pos atingido] at acima
      exact absurd acima.2.2.2 (Int.not_lt.mpr atingido)
    · rw [if_neg atingido] at acima ⊢
      cases decides : c.seguir limiares (medidas.aposLote lotes) with
      | error fim =>
        rw [decides] at acima
        rcases seguir_error limiares c _ fim.1 fim.2 decides with erro | freio
        · exact erro
        · exact absurd freio acima.2.2.1
      | ok seguinte =>
        rw [decides] at acima
        exact ih (lotes + 1) seguinte acima

theorem permissaoDaPassagem_fim
    (acima : FicouAcima limiares (permissaoDaPassagem limiares medidas autoCleanup).desfecho
      (permissaoDaPassagem limiares medidas autoCleanup).current) :
    (permissaoDaPassagem limiares medidas autoCleanup).desfecho = .erro := by
  revert acima
  unfold permissaoDaPassagem
  cases medidas.initialPercent with
  | none =>
    intro acima
    exact absurd rfl acima.1
  | some initialPercent =>
    dsimp only
    by_cases abaixo : initialPercent ≤ limiares.triggerPercent
    · rw [if_pos abaixo]
      intro acima
      exact absurd rfl acima.1
    · rw [if_neg abaixo]
      cases autoCleanup with
      | false =>
        intro acima
        exact absurd rfl acima.1
      | true =>
        cases medidas.freeAntes with
        | none =>
          intro acima
          exact absurd rfl acima.1
        | some freeAntes => exact permissao_fim limiares medidas iteracoes 0 _

/-- A pass that stays above its target has removed all that it could exactly when nothing that can
be removed stands behind a page of what cannot, or, where a reading ends it, behind the batches that
it had. -/
theorem checkDiskUsage_exhausts_iff : (FicouAcima limiares
        (checkDiskUsage respostas protection limiares medidas autoCleanup storagesAtivos
          inicio).desfecho
        (checkDiskUsage respostas protection limiares medidas autoCleanup storagesAtivos
          inicio).current →
      Esgotada respostas protection (storagesAtivos.any (0 < ·))
        (checkDiskUsage respostas protection limiares medidas autoCleanup storagesAtivos
          inicio).fim) ↔
    ((turnosUteis respostas protection (storagesAtivos.any (0 < ·)) inicio <
        (permissaoDaPassagem limiares medidas autoCleanup).lotes →
      NadaAtras respostas protection (storagesAtivos.any (0 < ·)) inicio) ∧
    ((permissaoDaPassagem limiares medidas autoCleanup).lotes ≤
        turnosUteis respostas protection (storagesAtivos.any (0 < ·)) inicio →
      (permissaoDaPassagem limiares medidas autoCleanup).desfecho = .erro →
      limiares.target < (permissaoDaPassagem limiares medidas autoCleanup).current →
      LotesAlcancam respostas protection (storagesAtivos.any (0 < ·)) inicio
        (permissaoDaPassagem limiares medidas autoCleanup).lotes)) := by
  obtain ⟨nuvemAtiva, ativa⟩ : ∃ nuvemAtiva, storagesAtivos.any (0 < ·) = nuvemAtiva := ⟨_, rfl⟩
  obtain ⟨fim, medida, parada⟩ := checkDiskUsage_passou respostas protection nuvemAtiva limiares
    medidas inicio autoCleanup storagesAtivos ativa
  have erro := permissaoDaPassagem_fim limiares medidas autoCleanup
  rw [ativa]
  generalize checkDiskUsage respostas protection limiares medidas autoCleanup storagesAtivos
    inicio = r at fim medida parada ⊢
  generalize permissaoDaPassagem limiares medidas autoCleanup = p at fim medida parada erro ⊢
  rw [esgotada_iff respostas protection nuvemAtiva inicio p.lotes r.fim fim]
  by_cases few : p.lotes ≤ turnosUteis respostas protection nuvemAtiva inicio
  · obtain ⟨same, same'⟩ := medida few
    rw [same, same']
    constructor
    · intro alcanca
      refine ⟨fun many => absurd few (Nat.not_le.mpr many), ?_⟩
      intro _ falhou acima
      apply alcanca
      rw [falhou]
      exact ⟨nofun, nofun, nofun, acima⟩
    · rintro ⟨-, alcanca⟩ acima
      exact alcanca few (erro acima) acima.2.2.2
  · have many := Nat.not_le.mp few
    obtain ⟨how, acima⟩ := parada many
    have ficou : FicouAcima limiares r.desfecho r.current := by
      rcases how with vazio | parou
      · rw [vazio]
        exact ⟨nofun, nofun, nofun, acima⟩
      · rw [parou]
        exact ⟨nofun, nofun, nofun, acima⟩
    rw [lotesAlcancam_iff respostas protection nuvemAtiva inicio p.lotes many]
    constructor
    · intro alcanca
      exact ⟨fun _ => alcanca ficou, fun enough => absurd enough few⟩
    · rintro ⟨alcanca, -⟩ _
      exact alcanca many

end Passagens

/-- A recording that was sent to the cloud, and whose local file was pruned. -/
def enviada : Recording where
  id := ['r']
  cameraId := ['c']
  triggerMode := ['m']
  startedAt := 0
  endedAt := some 1
  filePath := ['f']
  sizeBytes := some 1
  cloudKey := some ['k']
  cloudUploadedAt := some 2
  cloudStorageId := some ['s']
  localDeletedAt := some 3
  cloudMissingSince := none

def tudoResponde : Respostas where
  caminhoInvalido := fun _ => false
  carimba := fun _ => true
  falha := fun _ => false
  objetoSai := fun _ => true
  agora := 4

def semProtecao : ProtectionSets := ⟨[], [], []⟩

def limiaresPadrao : Limiares := ⟨90, 85, 3⟩

def discoCheio : Medidas := ⟨some 95, some 0, fun _ => some (95, some 0)⟩

def soEnviada : Passagem := ⟨⟨[enviada], [], by decide⟩, fun _ => false, []⟩

/-- With the provider switched off, and also when the count fails, the guard deletes the row and the
object of a recording that only the bucket still had. -/
theorem enviada_destroyed :
    enviada.cloudUploadedAt.isSome = true ∧ enviada ∈ soEnviada.acervo.recordings ∧
      (checkDiskUsage tudoResponde semProtecao limiaresPadrao discoCheio true (some 0)
        soEnviada).fim.acervo.recordings = [] ∧
      (checkDiskUsage tudoResponde semProtecao limiaresPadrao discoCheio true (some 0)
        soEnviada).fim.objetos = [enviada] ∧
      (checkDiskUsage tudoResponde semProtecao limiaresPadrao discoCheio true none
        soEnviada).fim.acervo.recordings = [] ∧
      (checkDiskUsage tudoResponde semProtecao limiaresPadrao discoCheio true none
        soEnviada).fim.objetos = [enviada] := by
  decide +kernel

/-- Twenty recordings that cannot be deleted, and a newer one that can. -/
def gravacao (n : Nat) : Recording :=
  { enviada with id := List.replicate n 'r', startedAt := n, cloudKey := none,
                 cloudUploadedAt := none, cloudStorageId := none, localDeletedAt := none }

def vinteUma : List Recording := (List.range 21).map gravacao

def filaPresa : Passagem := ⟨⟨vinteUma, [], by decide +kernel⟩, fun _ => true, []⟩

def vinteFalham : Respostas := { tudoResponde with falha := fun id => id.length < 20 }

theorem filaPresa_parada :
    (checkDiskUsage vinteFalham semProtecao limiaresPadrao discoCheio true (some 0)
        filaPresa).desfecho = .nadaSaiu ∧
      (checkDiskUsage vinteFalham semProtecao limiaresPadrao discoCheio true (some 0)
        filaPresa).current = 95 ∧
      ∃ row ∈ filaApagar semProtecao false (checkDiskUsage vinteFalham semProtecao limiaresPadrao
          discoCheio true (some 0) filaPresa).fim,
        (deleteRecording vinteFalham semProtecao (checkDiskUsage vinteFalham semProtecao
          limiaresPadrao discoCheio true (some 0) filaPresa).fim row).2 = true := by
  decide +kernel

theorem filaPresa_starves : ¬(FicouAcima limiaresPadrao
        (checkDiskUsage vinteFalham semProtecao limiaresPadrao discoCheio true (some 0)
          filaPresa).desfecho
        (checkDiskUsage vinteFalham semProtecao limiaresPadrao discoCheio true (some 0)
          filaPresa).current →
      Esgotada vinteFalham semProtecao false
        (checkDiskUsage vinteFalham semProtecao limiaresPadrao discoCheio true (some 0)
          filaPresa).fim) := by
  obtain ⟨parada, acima, row, queued, livre⟩ := filaPresa_parada
  intro esgota
  have none := (esgota ⟨nofun, nofun, nofun, by decide⟩).2 row queued
  rw [livre] at none
  cases none

end DracVms.DiskUsage
