import DracVms.Recordings.BatchExpiryWalk
import DracVms.Recordings.RetentionGroups

namespace DracVms.Retention

open List Json Where Protection BudgetWalk

section Cycle

variable (motionScoreSupported : Bool) (policy : TwoTierPolicy) (protection : ProtectionSets)
  (falha : Text → Bool) (limits : BatchLimits) (now : Int) (acervo : Acervo)
  (result : CleanupResult)

/-- What the pages of these groups bring, all of them one after another. -/
def fila (groups : List RetentionGroup) : List ExpiringRecording :=
  groups.flatMap fun group => ordenadas
    (buildExpiryWhere motionScoreSupported group (resolveRetentionWindow group.days policy) now)
    acervo.recordings

section Walk

variable (janela : ExpiringRecording → RetentionWindow)

def marca (recording : ExpiringRecording) : Evento × Text :=
  marcar motionScoreSupported policy protection falha now acervo (janela recording) recording

def gastaDe (recording : ExpiringRecording) : Bool :=
  gasta motionScoreSupported policy protection falha now acervo (janela recording) recording

/-- The ids that a walk took out are among those that it walked. -/
theorem apagadas_marca (rows : List ExpiringRecording) (id : Text)
    (gone : id ∈ apagadas (rows.map (marca motionScoreSupported policy protection falha now acervo
      janela))) :
    id ∈ rows.map ExpiringRecording.id := by
  obtain ⟨evento, listed, named⟩ := mem_map.mp gone
  obtain ⟨row, present, same⟩ := mem_map.mp (mem_of_mem_filter listed)
  rw [← named, ← same]
  exact mem_map.mpr ⟨row, present, rfl⟩

theorem expirarGrupos_walk (fuel : Nat) (groups : List RetentionGroup) (s : Passagem)
    (coerente : Coerente acervo result s)
    (distinct : ((fila motionScoreSupported policy now acervo groups).map ExpiringRecording.id).Nodup)
    (windows : ∀ group ∈ groups, ∀ row, row ∈ ordenadas (buildExpiryWhere motionScoreSupported group
      (resolveRetentionWindow group.days policy) now) acervo.recordings →
      janela row = resolveRetentionWindow group.days policy)
    (fresh : ∀ row ∈ fila motionScoreSupported policy now acervo groups, row.id ∉ apagadas s.eventos)
    (enough : acervo.recordings.length < fuel) :
    ∃ t, expirarGrupos motionScoreSupported policy protection falha limits now fuel groups s =
        some t ∧
      t.eventos = s.eventos ++
        (walk (gastaDe motionScoreSupported policy protection falha now acervo janela) s.budget
          (fila motionScoreSupported policy now acervo groups)).map
          (marca motionScoreSupported policy protection falha now acervo janela) ∧
      t.budget = s.budget -
        spent (gastaDe motionScoreSupported policy protection falha now acervo janela)
          (walk (gastaDe motionScoreSupported policy protection falha now acervo janela) s.budget
            (fila motionScoreSupported policy now acervo groups)) ∧
      Coerente acervo result t := by
  induction groups generalizing s with
  | nil => exact ⟨s, rfl, by simp [fila], by simp [fila, spent], coerente⟩
  | cons group rest ih =>
    rw [expirarGrupos]
    by_cases exhausted : s.budget = 0
    · rw [if_pos exhausted]
      refine ⟨_, rfl, ?_, ?_, coerente.recordings, coerente.clips, coerente.deleted,
        coerente.wouldDelete⟩
      · rw [exhausted, walk_zero, map_nil, append_nil]
      · simp [spent, exhausted]
    · rw [if_neg exhausted]
      obtain ⟨windowsHere, windowsRest⟩ := forall_mem_cons.mp windows
      have parts : fila motionScoreSupported policy now acervo (group :: rest) =
          ordenadas (buildExpiryWhere motionScoreSupported group
            (resolveRetentionWindow group.days policy) now) acervo.recordings ++
          fila motionScoreSupported policy now acervo rest := flatMap_cons
      rw [parts, map_append] at distinct
      rw [parts] at fresh ⊢
      have few := ordenadas_length (buildExpiryWhere motionScoreSupported group
        (resolveRetentionWindow group.days policy) now) acervo.recordings
      generalize here : ordenadas (buildExpiryWhere motionScoreSupported group
        (resolveRetentionWindow group.days policy) now) acervo.recordings = page at *
      obtain ⟨distinctHere, distinctRest, apart⟩ := nodup_append.mp distinct
      let counted : Passagem := { contarRetidas motionScoreSupported policy now group
        (resolveRetentionWindow group.days policy) s with skip := 0 }
      have sameEventos : counted.eventos = s.eventos := by
        show (contarRetidas _ _ _ _ _ s).eventos = _
        unfold contarRetidas
        split <;> rfl
      have sameBudget : counted.budget = s.budget := by
        show (contarRetidas _ _ _ _ _ s).budget = _
        unfold contarRetidas
        split <;> rfl
      have coerente' : Coerente acervo result counted := by
        obtain ⟨recordings, clips, deleted, would⟩ := coerente
        unfold counted contarRetidas
        split
        all_goals exact ⟨recordings, clips, deleted, would⟩
      obtain ⟨u, paged, eventos, budget, coerente''⟩ :=
        paginas_walk motionScoreSupported policy protection falha limits now acervo result _
          (resolveRetentionWindow group.days policy) fuel counted [] page coerente' here rfl
          (fun row present => by
            rw [sameEventos]
            exact fresh row (mem_append_left _ present))
          (by omega)
      have sameGasta : walk (gasta motionScoreSupported policy protection falha now acervo
          (resolveRetentionWindow group.days policy)) s.budget page =
          walk (gastaDe motionScoreSupported policy protection falha now acervo janela) s.budget
            page := by
        apply walk_congr
        intro row present
        rw [gastaDe, windowsHere row present]
      have sameSpent : ∀ rows : List ExpiringRecording, (∀ row ∈ rows, row ∈ page) →
          spent (gasta motionScoreSupported policy protection falha now acervo
            (resolveRetentionWindow group.days policy)) rows =
          spent (gastaDe motionScoreSupported policy protection falha now acervo janela) rows := by
        intro rows inside
        apply countP_congr
        intro row present
        rw [gastaDe, windowsHere row (inside row present)]
      have sameMarca : ∀ rows : List ExpiringRecording, (∀ row ∈ rows, row ∈ page) →
          rows.map (marcar motionScoreSupported policy protection falha now acervo
            (resolveRetentionWindow group.days policy)) =
          rows.map (marca motionScoreSupported policy protection falha now acervo janela) := by
        intro rows inside
        apply map_congr_left
        intro row present
        rw [marca, windowsHere row (inside row present)]
      rw [sameEventos, sameBudget, sameGasta, sameMarca _ (mem_of_walk _ _ _)] at eventos
      rw [sameBudget, sameGasta, sameSpent _ (mem_of_walk _ _ _)] at budget
      have freshRest : ∀ row ∈ fila motionScoreSupported policy now acervo rest,
          row.id ∉ apagadas u.eventos := by
        intro row present
        rw [eventos, apagadas_append, mem_append, not_or]
        refine ⟨fresh row (mem_append_right _ present), ?_⟩
        intro gone
        have walked := apagadas_marca motionScoreSupported policy protection falha now acervo
          janela _ row.id gone
        obtain ⟨other, inWalk, named⟩ := mem_map.mp walked
        exact apart other.id (mem_map_of_mem (mem_of_walk _ _ _ other inWalk)) row.id
          (mem_map_of_mem present) named
      obtain ⟨t, ended, eventos', budget', final⟩ := ih u coerente'' distinctRest windowsRest
        freshRest
      refine ⟨t, ?_, ?_, ?_, final⟩
      · show (paginas _ _ _ _ _ _ _ _ fuel counted).bind _ = _
        rw [paged, Option.bind_some]
        exact ended
      · rw [eventos', eventos, budget, walk_append, map_append, append_assoc]
      · rw [budget', budget, walk_append, spent_append, Nat.sub_sub]

end Walk

variable (cameras : List CameraRow) (globalDays : Int)

def janelaDe (recording : ExpiringRecording) : RetentionWindow :=
  resolveRetentionWindow (diasDe cameras globalDays recording.cameraId) policy

/-- Expired by the rule, in the window of its own camera. -/
def Expirada (recording : ExpiringRecording) : Prop :=
  isExpiredByAge recording.startedAt (readMotionScore (scoreRead motionScoreSupported recording)) now
    (janelaDe policy cameras globalDays recording) = true

section

variable (distinct : (cameras.map CameraRow.id).Nodup)

include distinct

theorem selects_expiry (group : RetentionGroup)
    (listed : group ∈ loadRetentionGroups cameras globalDays) (row : ExpiringRecording) :
    Selects (buildExpiryWhere motionScoreSupported group
        (resolveRetentionWindow group.days policy) now) row ↔
      Selects group.filter.condition row ∧
        Expirada motionScoreSupported policy now cameras globalDays row := by
  rw [buildExpiryWhere_iff motionScoreSupported group _ now row
    (resolveRetentionWindow_ordered group.days policy)]
  apply and_congr_right
  intro inGroup
  rw [Expirada, janelaDe, group_days cameras globalDays distinct group listed row inGroup]

theorem mem_fila (row : ExpiringRecording) :
    row ∈ fila motionScoreSupported policy now acervo (loadRetentionGroups cameras globalDays) ↔
      row ∈ acervo.recordings ∧
        Expirada motionScoreSupported policy now cameras globalDays row := by
  unfold fila
  rw [mem_flatMap]
  constructor
  · rintro ⟨group, listed, brought⟩
    obtain ⟨present, selected⟩ := (mem_ordenadas _ _ row).mp brought
    exact ⟨present, ((selects_expiry motionScoreSupported policy now cameras globalDays distinct
      group listed row).mp selected).2⟩
  · rintro ⟨present, expired⟩
    obtain ⟨group, listed, inGroup⟩ := group_exists cameras globalDays row
    exact ⟨group, listed, (mem_ordenadas _ _ row).mpr ⟨present,
      (selects_expiry motionScoreSupported policy now cameras globalDays distinct group listed
        row).mpr ⟨inGroup, expired⟩⟩⟩

theorem fila_ids :
    ((fila motionScoreSupported policy now acervo (loadRetentionGroups cameras globalDays)).map
      ExpiringRecording.id).Nodup := by
  unfold fila
  rw [map_flatMap]
  apply nodup_flatMap.mpr
  constructor
  · intro group _
    exact ordenadas_ids _ _ acervo.distinct
  · apply List.Pairwise.imp_of_mem _ (groups_disjoint cameras globalDays distinct)
    intro a b inA inB apart id first second
    obtain ⟨row, broughtA, named⟩ := mem_map.mp first
    obtain ⟨other, broughtB, named'⟩ := mem_map.mp second
    obtain ⟨present, selected⟩ := (mem_ordenadas _ _ row).mp broughtA
    obtain ⟨present', selected'⟩ := (mem_ordenadas _ _ other).mp broughtB
    have same := KeyedList.eq_of_key acervo.distinct present present' (named.trans named'.symm)
    rw [← same] at selected'
    exact apart row
      ((selects_expiry motionScoreSupported policy now cameras globalDays distinct a inA row).mp
        selected).1
      ((selects_expiry motionScoreSupported policy now cameras globalDays distinct b inB row).mp
        selected').1

theorem expire_walk (fuel : Nat) (enough : acervo.recordings.length < fuel) :
    ∃ s, expireRecordingsInBatches motionScoreSupported policy protection falha limits now fuel
        (loadRetentionGroups cameras globalDays) acervo result = some s ∧
      s.eventos =
        (walk (gastaDe motionScoreSupported policy protection falha now acervo
            (janelaDe policy cameras globalDays)) limits.maxPerCycle
          (fila motionScoreSupported policy now acervo
            (loadRetentionGroups cameras globalDays))).map
          (marca motionScoreSupported policy protection falha now acervo
            (janelaDe policy cameras globalDays)) ∧
      s.budget = limits.maxPerCycle -
        spent (gastaDe motionScoreSupported policy protection falha now acervo
            (janelaDe policy cameras globalDays))
          (walk (gastaDe motionScoreSupported policy protection falha now acervo
              (janelaDe policy cameras globalDays)) limits.maxPerCycle
            (fila motionScoreSupported policy now acervo
              (loadRetentionGroups cameras globalDays))) ∧
      Coerente acervo result s := by
  have coerente : Coerente acervo result ⟨acervo, result, limits.maxPerCycle, 0, false, []⟩ := by
    constructor
    · simp [apagadas]
    · simp [apagadas]
    · simp [apagadas]
    · simp [simuladas]
  have windows : ∀ group ∈ loadRetentionGroups cameras globalDays, ∀ row, row ∈ ordenadas
      (buildExpiryWhere motionScoreSupported group (resolveRetentionWindow group.days policy) now)
      acervo.recordings →
      janelaDe policy cameras globalDays row = resolveRetentionWindow group.days policy := by
    intro group listed row brought
    have selected := ((mem_ordenadas _ _ row).mp brought).2
    have inGroup := ((selects_expiry motionScoreSupported policy now cameras globalDays distinct
      group listed row).mp selected).1
    rw [janelaDe, group_days cameras globalDays distinct group listed row inGroup]
  obtain ⟨s, ended, eventos, budget, final⟩ := expirarGrupos_walk motionScoreSupported policy
    protection falha limits now acervo result (janelaDe policy cameras globalDays) fuel
    (loadRetentionGroups cameras globalDays) _ coerente
    (fila_ids motionScoreSupported policy now acervo cameras globalDays distinct) windows
    (fun row _ => not_mem_nil) enough
  exact ⟨s, ended, eventos, budget, final⟩

end

/-- What the loop does to an expired recording that is not protected. -/
def tentativa (recording : ExpiringRecording) : Evento :=
  if policy.enabled && policy.dryRun then .simulada
  else if falha recording.id then .falhou
  else .apagada

/-- What a cycle owes to its caller. -/
structure Expirou (s : Passagem) : Prop where
  uma_vez : (s.eventos.map Prod.snd).Nodup
  so_expiradas : ∀ evento ∈ s.eventos, evento.1 = .apagada ∨ evento.1 = .falhou →
    ∃ row ∈ acervo.recordings, row.id = evento.2 ∧
      Expirada motionScoreSupported policy now cameras globalDays row ∧
      recusa protection acervo.clips row.id = false
  restam : s.acervo.recordings =
    acervo.recordings.filter fun row => row.id ∉ apagadas s.eventos
  contadas : s.result.recordingsDeleted =
    result.recordingsDeleted + (apagadas s.eventos).length
  reportadas : s.result.recordingsWouldDelete =
    result.recordingsWouldDelete + (simuladas s.eventos).length
  teto : s.budget + (apagadas s.eventos).length + (simuladas s.eventos).length =
    limits.maxPerCycle
  todas : 0 < s.budget → ∀ row ∈ acervo.recordings,
    Expirada motionScoreSupported policy now cameras globalDays row →
    recusa protection acervo.clips row.id = false → (tentativa policy falha row, row.id) ∈ s.eventos

theorem spent_eventos (janela : ExpiringRecording → RetentionWindow) (rows : List ExpiringRecording) :
    spent (gastaDe motionScoreSupported policy protection falha now acervo janela) rows =
      (apagadas (rows.map (marca motionScoreSupported policy protection falha now acervo
        janela))).length +
      (simuladas (rows.map (marca motionScoreSupported policy protection falha now acervo
        janela))).length := by
  induction rows with
  | nil => rfl
  | cons row rest ih =>
    have split : ∀ (evento : Evento) (id : Text) (eventos : List (Evento × Text)),
        (apagadas ((evento, id) :: eventos)).length + (simuladas ((evento, id) :: eventos)).length =
        (apagadas eventos).length + (simuladas eventos).length + if evento.gasta then 1 else 0 := by
      intro evento id eventos
      cases evento with
      | apagada | simulada => simp [apagadas, simuladas, Evento.gasta]; omega
      | foraDaRegra | protegida | recusada | falhou => simp [apagadas, simuladas, Evento.gasta]
    rw [map_cons]
    have counted := split (marca motionScoreSupported policy protection falha now acervo janela
      row).1 (marca motionScoreSupported policy protection falha now acervo janela row).2
    rw [counted, ← ih, spent, countP_cons]
    rfl

theorem expirou (distinct : (cameras.map CameraRow.id).Nodup) (s : Passagem)
    (eventos : s.eventos = (walk (gastaDe motionScoreSupported policy protection falha now acervo
      (janelaDe policy cameras globalDays)) limits.maxPerCycle (fila motionScoreSupported policy now
      acervo (loadRetentionGroups cameras globalDays))).map (marca motionScoreSupported policy
      protection falha now acervo (janelaDe policy cameras globalDays)))
    (budget : s.budget = limits.maxPerCycle - spent (gastaDe motionScoreSupported policy protection
      falha now acervo (janelaDe policy cameras globalDays)) (walk
      (gastaDe motionScoreSupported policy protection falha now acervo
      (janelaDe policy cameras globalDays)) limits.maxPerCycle (fila motionScoreSupported policy now
      acervo (loadRetentionGroups cameras globalDays))))
    (coerente : Coerente acervo result s) :
    Expirou motionScoreSupported policy protection falha limits now acervo result cameras globalDays
      s := by
  let janela := janelaDe policy cameras globalDays
  let rows := fila motionScoreSupported policy now acervo (loadRetentionGroups cameras globalDays)
  let walked := walk (gastaDe motionScoreSupported policy protection falha now acervo janela)
    limits.maxPerCycle rows
  have eventos' : s.eventos = walked.map
      (marca motionScoreSupported policy protection falha now acervo janela) := eventos
  have budget' : s.budget = limits.maxPerCycle -
      spent (gastaDe motionScoreSupported policy protection falha now acervo janela) walked := budget
  have named : s.eventos.map Prod.snd = walked.map ExpiringRecording.id := by
    rw [eventos', map_map]
    rfl
  constructor
  · rw [named]
    exact (fila_ids motionScoreSupported policy now acervo cameras globalDays distinct).sublist
      ((walk_initial _ _ _).sublist.map _)
  · intro evento listed kind
    rw [eventos] at listed
    obtain ⟨row, inWalk, same⟩ := mem_map.mp listed
    obtain ⟨present, expired⟩ := (mem_fila motionScoreSupported policy now acervo cameras globalDays
      distinct row).mp (mem_of_walk _ _ _ row inWalk)
    refine ⟨row, present, by rw [← same]; rfl, expired, ?_⟩
    have decided : desfecho motionScoreSupported policy protection falha now acervo
        (janelaDe policy cameras globalDays row) row = evento.1 := by
      rw [← same]
      rfl
    rw [desfecho, expired] at decided
    by_cases refused : recusa protection acervo.clips row.id = true
    · rcases kind with out | failed
      · grind
      · grind
    · simpa using refused
  · exact coerente.recordings
  · exact coerente.deleted
  · exact coerente.wouldDelete
  · have counted := spent_eventos motionScoreSupported policy protection falha now acervo janela
      walked
    have within := spent_le
      (gastaDe motionScoreSupported policy protection falha now acervo janela)
      limits.maxPerCycle rows
    have within' : spent (gastaDe motionScoreSupported policy protection falha now acervo janela)
        walked ≤ limits.maxPerCycle := within
    rw [eventos', budget']
    omega
  · intro remains row present expired free
    have seen : walked = rows := by
      apply walk_all
      rw [budget'] at remains
      exact Nat.lt_of_sub_pos remains
    rw [eventos]
    apply mem_map.mpr
    refine ⟨row, ?_, ?_⟩
    · show row ∈ walked
      rw [seen]
      exact (mem_fila motionScoreSupported policy now acervo cameras globalDays distinct row).mpr
        ⟨present, expired⟩
    · have unprotected : row.id ∉ protection.recordingIds := by
        intro held
        rw [recusa, decide_eq_true held] at free
        cases free
      show (desfecho motionScoreSupported policy protection falha now acervo
        (janelaDe policy cameras globalDays row) row, row.id) = _
      rw [desfecho, expired, free, tentativa]
      simp [unprotected]

theorem recusa_closed (clips : List Database.ExportedClip)
    (closed : ∀ clip ∈ clips, clip.id ∈ protection.clipIds →
      clip.sourceRecordingId ∈ protection.recordingIds)
    (id : Text) : recusa protection clips id = decide (id ∈ protection.recordingIds) := by
  unfold recusa
  by_cases held : id ∈ protection.recordingIds
  · simp [held]
  · have none : (clips.any fun clip => decide (clip.sourceRecordingId = id) &&
        decide (clip.id ∈ protection.clipIds)) = false := by
      rw [any_eq_false]
      intro clip present both
      simp only [Bool.and_eq_true, decide_eq_true_eq] at both
      apply held
      rw [← both.1]
      exact closed clip present both.2
    rw [none, Bool.or_false]

theorem filtro_marcado (evento : Evento) (mark : ExpiringRecording → Evento × Text)
    (keep : ExpiringRecording → Bool) (rows : List ExpiringRecording)
    (named : ∀ row ∈ rows, (mark row).2 = row.id)
    (same : ∀ row ∈ rows, decide ((mark row).1 = evento) = keep row) :
    ((rows.map mark).filter fun marked => marked.1 = evento).map Prod.snd =
      (rows.filter keep).map ExpiringRecording.id := by
  rw [filter_map, map_map]
  have kept : rows.filter ((fun marked : Evento × Text => decide (marked.1 = evento)) ∘ mark) =
      rows.filter keep := filter_congr same
  rw [kept]
  apply map_congr_left
  intro row present
  exact named row (mem_of_mem_filter present)

theorem dry_run_keeps (enabled : policy.enabled = true) (dryRun : policy.dryRun = true)
    (janela : ExpiringRecording → RetentionWindow) (rows : List ExpiringRecording) :
    apagadas (rows.map (marca motionScoreSupported policy protection falha now acervo janela)) =
      [] := by
  unfold apagadas
  rw [filter_map, map_eq_nil_iff, map_eq_nil_iff, filter_eq_nil_iff]
  intro row _ out
  have deleted : desfecho motionScoreSupported policy protection falha now acervo (janela row) row =
      .apagada := of_decide_eq_true out
  unfold desfecho at deleted
  grind

theorem dry_run_reports (distinct : (cameras.map CameraRow.id).Nodup)
    (enabled : policy.enabled = true) (dryRun : policy.dryRun = true)
    (closed : ∀ clip ∈ acervo.clips, clip.id ∈ protection.clipIds →
      clip.sourceRecordingId ∈ protection.recordingIds)
    (s t : Passagem)
    (dry : s.eventos = (walk (gastaDe motionScoreSupported policy protection falha now acervo
      (janelaDe policy cameras globalDays)) limits.maxPerCycle (fila motionScoreSupported policy now
      acervo (loadRetentionGroups cameras globalDays))).map (marca motionScoreSupported policy
      protection falha now acervo (janelaDe policy cameras globalDays)))
    (real : t.eventos = (walk (gastaDe motionScoreSupported { policy with dryRun :=
      false } protection (fun _ => false) now acervo
      (janelaDe { policy with dryRun := false } cameras globalDays)) limits.maxPerCycle
      (fila motionScoreSupported { policy with dryRun := false } now acervo
      (loadRetentionGroups cameras globalDays))).map (marca motionScoreSupported
      { policy with dryRun := false } protection (fun _ => false) now acervo
      (janelaDe { policy with dryRun := false } cameras globalDays))) :
    simuladas s.eventos = apagadas t.eventos := by
  let rows := fila motionScoreSupported policy now acervo (loadRetentionGroups cameras globalDays)
  have expired : ∀ row ∈ rows, Expirada motionScoreSupported policy now cameras globalDays row :=
    fun row present => ((mem_fila motionScoreSupported policy now acervo cameras globalDays distinct
      row).mp present).2
  have simulated : ∀ row ∈ rows,
      (marca motionScoreSupported policy protection falha now acervo
        (janelaDe policy cameras globalDays) row).1 =
      if row.id ∈ protection.recordingIds then .protegida else .simulada := by
    intro row present
    show desfecho _ _ _ _ _ _ (janelaDe policy cameras globalDays row) row = _
    rw [desfecho, expired row present, enabled, dryRun]
    simp
  have deleted : ∀ row ∈ rows,
      (marca motionScoreSupported { policy with dryRun := false } protection (fun _ => false) now
        acervo (janelaDe { policy with dryRun := false } cameras globalDays) row).1 =
      if row.id ∈ protection.recordingIds then .recusada else .apagada := by
    intro row present
    have expired' : Expirada motionScoreSupported { policy with dryRun := false } now cameras
        globalDays row := expired row present
    rw [marca, marcar, desfecho, expired', recusa_closed protection acervo.clips closed]
    simp
  have same : walk (gastaDe motionScoreSupported { policy with dryRun := false } protection
        (fun _ => false) now acervo
        (janelaDe { policy with dryRun := false } cameras globalDays)) limits.maxPerCycle rows =
      walk (gastaDe motionScoreSupported policy protection falha now acervo
        (janelaDe policy cameras globalDays)) limits.maxPerCycle rows := by
    apply walk_congr
    intro row present
    have first := congrArg Evento.gasta (deleted row present)
    have second := congrArg Evento.gasta (simulated row present)
    unfold gastaDe gasta
    rw [marca, marcar] at first second
    rw [first, second]
    split <;> rfl
  have real' : t.eventos = (walk (gastaDe motionScoreSupported policy protection falha now acervo
      (janelaDe policy cameras globalDays)) limits.maxPerCycle rows).map
      (marca motionScoreSupported { policy with dryRun := false } protection (fun _ => false) now
        acervo (janelaDe { policy with dryRun := false } cameras globalDays)) := by
    rw [← same]
    exact real
  rw [dry, real']
  unfold simuladas apagadas
  rw [filtro_marcado .simulada _ (fun row => row.id ∉ protection.recordingIds) _
    (fun _ _ => rfl) ?_, filtro_marcado .apagada _ (fun row => row.id ∉ protection.recordingIds) _
    (fun _ _ => rfl) ?_]
  · intro row walked
    rw [deleted row (mem_of_walk _ _ _ row walked)]
    by_cases held : row.id ∈ protection.recordingIds
    all_goals simp [held]
  · intro row walked
    rw [simulated row (mem_of_walk _ _ _ row walked)]
    by_cases held : row.id ∈ protection.recordingIds
    all_goals simp [held]

end Cycle

/-- Whatever the protection, the sizes and the failures, the cycle ends with enough fuel for the
pages of the table, and what it does and reports is as it should be. -/
theorem expireRecordingsInBatches_complete (motionScoreSupported : Bool) (policy : TwoTierPolicy)
    (protection : ProtectionSets) (falha : Text → Bool) (limits : BatchLimits) (now : Int)
    (acervo : Acervo) (result : CleanupResult) (cameras : List CameraRow) (globalDays : Int)
    (distinct : (cameras.map CameraRow.id).Nodup) (fuel : Nat)
    (enough : acervo.recordings.length < fuel) :
    ∃ s, expireRecordingsInBatches motionScoreSupported policy protection falha limits now fuel
        (loadRetentionGroups cameras globalDays) acervo result = some s ∧
      Expirou motionScoreSupported policy protection falha limits now acervo result cameras
        globalDays s ∧
      (policy.enabled = true → policy.dryRun = true →
        (∀ clip ∈ acervo.clips, clip.id ∈ protection.clipIds →
          clip.sourceRecordingId ∈ protection.recordingIds) →
        ∃ t, expireRecordingsInBatches motionScoreSupported { policy with dryRun := false }
            protection (fun _ => false) limits now fuel (loadRetentionGroups cameras globalDays)
            acervo result = some t ∧
          s.acervo.recordings = acervo.recordings ∧ simuladas s.eventos = apagadas t.eventos) := by
  obtain ⟨s, ended, eventos, budget, coerente⟩ := expire_walk motionScoreSupported policy protection
    falha limits now acervo result cameras globalDays distinct fuel enough
  refine ⟨s, ended, expirou motionScoreSupported policy protection falha limits now acervo result
    cameras globalDays distinct s eventos budget coerente, ?_⟩
  intro enabled dryRun closed
  obtain ⟨t, ended', eventos', -, -⟩ := expire_walk motionScoreSupported
    { policy with dryRun := false } protection (fun _ => false) limits now acervo result cameras
    globalDays distinct fuel enough
  refine ⟨t, ended', ?_, dry_run_reports motionScoreSupported policy protection falha limits now
    acervo cameras globalDays distinct enabled dryRun closed s t eventos eventos'⟩
  have none : apagadas s.eventos = [] := by
    rw [eventos]
    exact dry_run_keeps motionScoreSupported policy protection falha now acervo enabled dryRun _ _
  rw [coerente.recordings, none]
  simp

def cameraSete : CameraRow := ⟨['c'], some 7, false, none⟩

/-- Nine days old and with motion, ten days old and without it. -/
def acervoVelho : Acervo where
  recordings := [⟨['r'], ['c'], ['f'], -9 * dayMs, none, none, none, some 4⟩,
    ⟨['s'], ['c'], ['g'], -10 * dayMs, none, none, none, some 0⟩]
  clips := []
  distinct := by decide

theorem expireRecordingsInBatches_complete_velho :
    ∃ s t, expireRecordingsInBatches true ⟨true, true, 2, 8⟩ ⟨[], [], []⟩ (fun _ => true)
        ⟨1, 5, by decide⟩ 0 3 (loadRetentionGroups [cameraSete] 7) acervoVelho ⟨0, 0, 0, 0⟩ = some s ∧
      expireRecordingsInBatches true ⟨true, false, 2, 8⟩ ⟨[], [], []⟩ (fun _ => false)
        ⟨1, 5, by decide⟩ 0 3 (loadRetentionGroups [cameraSete] 7) acervoVelho ⟨0, 0, 0, 0⟩ = some t ∧
      simuladas s.eventos = apagadas t.eventos := by
  obtain ⟨s, dry, -, reports⟩ := expireRecordingsInBatches_complete true ⟨true, true, 2, 8⟩
    ⟨[], [], []⟩ (fun _ => true) ⟨1, 5, by decide⟩ 0 acervoVelho ⟨0, 0, 0, 0⟩ [cameraSete] 7
    (by decide) 3 (by decide)
  obtain ⟨t, real, -, same⟩ := reports rfl rfl (fun _ present _ => absurd present not_mem_nil)
  exact ⟨s, t, dry, real, same⟩

end DracVms.Retention
