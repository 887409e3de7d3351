import DracVms.Library.BudgetWalk
import DracVms.Library.KeyedList
import DracVms.Recordings.BatchExpiry

namespace DracVms.Retention

open List Json Where Protection BudgetWalk
open Database (ExportedClip)
open JsString (unitsLe unitsLe_total unitsLe_trans)

section Order

theorem ordem_total (a b : ExpiringRecording) : ordem a b ∨ ordem b a := by
  rcases unitsLe_total a.id b.id with le | le
  · by_cases later : b.startedAt < a.startedAt
    · exact Or.inr (Or.inl later)
    · by_cases earlier : a.startedAt < b.startedAt
      · exact Or.inl (Or.inl earlier)
      · exact Or.inl (Or.inr ⟨by omega, le⟩)
  · by_cases earlier : a.startedAt < b.startedAt
    · exact Or.inl (Or.inl earlier)
    · by_cases later : b.startedAt < a.startedAt
      · exact Or.inr (Or.inl later)
      · exact Or.inr (Or.inr ⟨by omega, le⟩)

theorem ordem_trans (a b c : ExpiringRecording) (first : ordem a b) (second : ordem b c) :
    ordem a c := by
  rcases first with earlier | ⟨same, le⟩
  · rcases second with later | ⟨same', -⟩
    all_goals exact Or.inl (by omega)
  · rcases second with later | ⟨same', le'⟩
    · exact Or.inl (by omega)
    · exact Or.inr ⟨by omega, unitsLe_trans _ _ _ le le'⟩

section

variable (condition : Condition ExpiringRecording) (rows : List ExpiringRecording)

theorem mem_ordenadas (row : ExpiringRecording) :
    row ∈ ordenadas condition rows ↔ row ∈ rows ∧ Selects condition row := by
  unfold ordenadas
  rw [(perm_insertionSort ordem _).mem_iff, mem_select]

theorem ordenadas_length : (ordenadas condition rows).length ≤ rows.length := by
  unfold ordenadas
  rw [length_insertionSort]
  exact length_filter_le _ _

theorem ordenadas_ids (distinct : (rows.map ExpiringRecording.id).Nodup) :
    ((ordenadas condition rows).map ExpiringRecording.id).Nodup := by
  have perm := (perm_insertionSort ordem (select condition rows)).map ExpiringRecording.id
  exact perm.nodup_iff.mpr (distinct.sublist (filter_sublist.map _))

theorem ordenadas_filter (keep : ExpiringRecording → Bool) :
    ordenadas condition (rows.filter keep) = (ordenadas condition rows).filter keep := by
  have swapped : select condition (rows.filter keep) = (select condition rows).filter keep := by
    unfold select
    rw [filter_filter, filter_filter]
    congr 1
    funext row
    exact Bool.and_comm _ _
  unfold ordenadas
  rw [swapped, KeyedList.insertionSort_filter ordem ordem_total ordem_trans]

end

end Order

/-- The event uses up the budget of the cycle. -/
def Evento.gasta : Evento → Bool
  | .simulada | .apagada => true
  | _ => false

def apagadas (eventos : List (Evento × Text)) : List Text :=
  (eventos.filter fun evento => evento.1 = .apagada).map Prod.snd

def simuladas (eventos : List (Evento × Text)) : List Text :=
  (eventos.filter fun evento => evento.1 = .simulada).map Prod.snd

theorem apagadas_snoc (eventos : List (Evento × Text)) (evento : Evento) (id : Text) :
    apagadas (eventos ++ [(evento, id)]) =
      apagadas eventos ++ if evento = .apagada then [id] else [] := by
  by_cases out : evento = .apagada
  all_goals simp [apagadas, out]

theorem simuladas_snoc (eventos : List (Evento × Text)) (evento : Evento) (id : Text) :
    simuladas (eventos ++ [(evento, id)]) =
      simuladas eventos ++ if evento = .simulada then [id] else [] := by
  by_cases out : evento = .simulada
  all_goals simp [simuladas, out]

/-- The tables and the counters are what the events say. -/
structure Coerente (acervo : Acervo) (result : CleanupResult) (s : Passagem) : Prop where
  recordings : s.acervo.recordings =
    acervo.recordings.filter fun row => row.id ∉ apagadas s.eventos
  clips : s.acervo.clips =
    acervo.clips.filter fun clip => clip.sourceRecordingId ∉ apagadas s.eventos
  deleted : s.result.recordingsDeleted =
    result.recordingsDeleted + (apagadas s.eventos).length
  wouldDelete : s.result.recordingsWouldDelete =
    result.recordingsWouldDelete + (simuladas s.eventos).length

theorem recusa_rest (protection : ProtectionSets) (clips : List ExportedClip) (gone : List Text)
    (id : Text) (fresh : id ∉ gone) :
    recusa protection (clips.filter fun clip => clip.sourceRecordingId ∉ gone) id =
      recusa protection clips id := by
  unfold recusa
  congr 1
  rw [any_filter]
  congr 1
  funext clip
  by_cases source : clip.sourceRecordingId = id
  · simp [source, fresh]
  · simp [source]

section Loops

variable (motionScoreSupported : Bool) (policy : TwoTierPolicy) (protection : ProtectionSets)
  (falha : Text → Bool) (limits : BatchLimits) (now : Int) (acervo : Acervo)
  (result : CleanupResult)

/-- What becomes of a recording, decided on the tables that the pass starts with. -/
def desfecho (window : RetentionWindow) (recording : ExpiringRecording) : Evento :=
  if !isExpiredByAge recording.startedAt
      (readMotionScore (scoreRead motionScoreSupported recording)) now window then .foraDaRegra
  else if policy.enabled && policy.dryRun then
    if recording.id ∈ protection.recordingIds then .protegida else .simulada
  else if recusa protection acervo.clips recording.id then .recusada
  else if falha recording.id then .falhou
  else .apagada

/-- What one turn of the inner loop changes. -/
structure Visitou (evento : Evento) (id : Text) (s t : Passagem) : Prop where
  eventos : t.eventos = s.eventos ++ [(evento, id)]
  skip : t.skip = s.skip + if evento = .apagada then 0 else 1
  budget : t.budget = s.budget - if evento.gasta then 1 else 0

variable (window : RetentionWindow)

theorem visitar_visitou (s : Passagem) (recording : ExpiringRecording)
    (coerente : Coerente acervo result s) (fresh : recording.id ∉ apagadas s.eventos) :
    Visitou (desfecho motionScoreSupported policy protection falha now acervo window recording)
      recording.id s
      (visitar motionScoreSupported policy protection falha now window s recording) := by
  have refused := recusa_rest protection acervo.clips _ recording.id fresh
  rw [← coerente.clips] at refused
  unfold visitar desfecho
  split
  · exact ⟨rfl, rfl, rfl⟩
  · split
    · split
      all_goals exact ⟨rfl, rfl, rfl⟩
    · rw [refused]
      split
      · exact ⟨rfl, rfl, rfl⟩
      · split
        all_goals exact ⟨rfl, rfl, rfl⟩

theorem visitar_coerente (s : Passagem) (recording : ExpiringRecording)
    (coerente : Coerente acervo result s) : Coerente acervo result
      (visitar motionScoreSupported policy protection falha now window s recording) := by
  have kept : ∀ (t : Passagem) (evento : Evento), t.acervo = s.acervo →
      t.result.recordingsDeleted = s.result.recordingsDeleted →
      t.eventos = s.eventos ++ [(evento, recording.id)] → evento ≠ .apagada →
      t.result.recordingsWouldDelete =
        s.result.recordingsWouldDelete + (if evento = .simulada then 1 else 0) →
      Coerente acervo result t := by
    intro t evento same counted said stays would
    have gone : apagadas t.eventos = apagadas s.eventos := by
      rw [said, apagadas_snoc, if_neg stays, append_nil]
    constructor
    · rw [same, gone, coerente.recordings]
    · rw [same, gone, coerente.clips]
    · rw [gone, counted, coerente.deleted]
    · rw [would, said, simuladas_snoc, coerente.wouldDelete, length_append, Nat.add_assoc]
      split <;> rfl
  unfold visitar
  split
  · exact kept _ .foraDaRegra rfl rfl rfl nofun rfl
  · split
    · split
      · exact kept _ .protegida rfl rfl rfl nofun rfl
      · exact kept _ .simulada rfl rfl rfl nofun rfl
    · split
      · exact kept _ .recusada rfl rfl rfl nofun rfl
      · split
        · exact kept _ .falhou rfl rfl rfl nofun rfl
        · have gone : apagadas (s.eventos ++ [(Evento.apagada, recording.id)]) =
              apagadas s.eventos ++ [recording.id] := by
            rw [apagadas_snoc, if_pos rfl]
          constructor
          · show s.acervo.recordings.filter _ = _
            rw [coerente.recordings, filter_filter]
            apply filter_congr
            intro row _
            show _ = decide (row.id ∉ apagadas (s.eventos ++ [(Evento.apagada, recording.id)]))
            rw [gone]
            simp [and_comm]
          · show s.acervo.clips.filter _ = _
            rw [coerente.clips, filter_filter]
            apply filter_congr
            intro clip _
            show _ = decide (clip.sourceRecordingId ∉
              apagadas (s.eventos ++ [(Evento.apagada, recording.id)]))
            rw [gone]
            simp [and_comm]
          · show s.result.recordingsDeleted + 1 =
              _ + (apagadas (s.eventos ++ [(Evento.apagada, recording.id)])).length
            rw [gone, coerente.deleted, length_append, length_singleton, Nat.add_assoc]
          · show s.result.recordingsWouldDelete =
              _ + (simuladas (s.eventos ++ [(Evento.apagada, recording.id)])).length
            rw [simuladas_snoc, if_neg nofun, append_nil, coerente.wouldDelete]

/-- The event of a recording, with its id. -/
def marcar (window : RetentionWindow) (recording : ExpiringRecording) : Evento × Text :=
  (desfecho motionScoreSupported policy protection falha now acervo window recording, recording.id)

def gasta (window : RetentionWindow) (recording : ExpiringRecording) : Bool :=
  (desfecho motionScoreSupported policy protection falha now acervo window recording).gasta

def sai (window : RetentionWindow) (recording : ExpiringRecording) : Bool :=
  desfecho motionScoreSupported policy protection falha now acervo window recording = .apagada

theorem apagadas_append (first second : List (Evento × Text)) :
    apagadas (first ++ second) = apagadas first ++ apagadas second := by
  simp [apagadas]

theorem apagadas_marcar (page : List ExpiringRecording) :
    apagadas (page.map (marcar motionScoreSupported policy protection falha now acervo window)) =
      (page.filter (sai motionScoreSupported policy protection falha now acervo window)).map
        ExpiringRecording.id := by
  unfold apagadas
  rw [filter_map, map_map]
  rfl

/-- What a page changes. -/
structure Pagina (window : RetentionWindow) (page : List ExpiringRecording) (s t : Passagem) :
    Prop where
  eventos : t.eventos = s.eventos ++
    page.map (marcar motionScoreSupported policy protection falha now acervo window)
  skip : t.skip = s.skip + (page.filter fun recording =>
    !sai motionScoreSupported policy protection falha now acervo window recording).length
  budget : t.budget = s.budget -
    spent (gasta motionScoreSupported policy protection falha now acervo window) page
  coerente : Coerente acervo result t

theorem pagina_visitada (page : List ExpiringRecording) (s : Passagem)
    (coerente : Coerente acervo result s) (distinct : (page.map ExpiringRecording.id).Nodup)
    (fresh : ∀ recording ∈ page, recording.id ∉ apagadas s.eventos) :
    Pagina motionScoreSupported policy protection falha now acervo result window page s
      (page.foldl (visitar motionScoreSupported policy protection falha now window) s) := by
  induction page generalizing s with
  | nil => exact ⟨by simp, by simp, by simp [spent], coerente⟩
  | cons recording rest ih =>
    obtain ⟨freshHere, freshRest⟩ := forall_mem_cons.mp fresh
    obtain ⟨apart, distinctRest⟩ := nodup_cons.mp distinct
    have visited := visitar_visitou motionScoreSupported policy protection falha now acervo result
      window s recording coerente freshHere
    have after := visitar_coerente motionScoreSupported policy protection falha now acervo result
      window s recording coerente
    have freshAfter : ∀ other ∈ rest, other.id ∉ apagadas
        (visitar motionScoreSupported policy protection falha now window s recording).eventos := by
      intro other present
      rw [visited.eventos, apagadas_snoc, mem_append, not_or]
      refine ⟨freshRest other present, ?_⟩
      intro same
      split at same
      · apply apart
        rw [← mem_singleton.mp same]
        exact mem_map_of_mem present
      · cases same
    obtain ⟨eventos, skip, budget, final⟩ := ih _ after distinctRest freshAfter
    constructor
    · rw [foldl_cons, eventos, visited.eventos, append_assoc]
      rfl
    · rw [foldl_cons, skip, visited.skip, filter_cons, Nat.add_assoc]
      by_cases out : desfecho motionScoreSupported policy protection falha now acervo window
          recording = .apagada
      · have leaves : sai motionScoreSupported policy protection falha now acervo window
            recording = true := decide_eq_true out
        simp [out, leaves]
      · have stays : sai motionScoreSupported policy protection falha now acervo window
            recording = false := decide_eq_false out
        simp [out, stays, Nat.add_comm]
    · rw [foldl_cons, budget, visited.budget, spent, spent, countP_cons, Nat.sub_sub, Nat.add_comm]
      rfl
    · exact final

variable (condition : Condition ExpiringRecording)

theorem findMany_rest (s : Passagem) (visited rest : List ExpiringRecording) (take : Nat)
    (coerente : Coerente acervo result s)
    (split : ordenadas condition acervo.recordings = visited ++ rest)
    (skip : s.skip = (visited.filter fun row => row.id ∉ apagadas s.eventos).length)
    (fresh : ∀ recording ∈ rest, recording.id ∉ apagadas s.eventos) :
    findMany condition s.skip take s.acervo.recordings = rest.take take := by
  have all : rest.filter (fun row => row.id ∉ apagadas s.eventos) = rest := by
    apply filter_eq_self.mpr
    intro row present
    exact decide_eq_true (fresh row present)
  rw [findMany, coerente.recordings, ordenadas_filter, split, filter_append, all, skip, drop_left]

theorem pagina_skip (visited page : List ExpiringRecording) (s t : Passagem)
    (turned : Pagina motionScoreSupported policy protection falha now acervo result window page s t)
    (distinct : ((visited ++ page).map ExpiringRecording.id).Nodup)
    (skip : s.skip = (visited.filter fun row => row.id ∉ apagadas s.eventos).length)
    (fresh : ∀ recording ∈ page, recording.id ∉ apagadas s.eventos) :
    t.skip = ((visited ++ page).filter fun row => row.id ∉ apagadas t.eventos).length := by
  have gone : apagadas t.eventos = apagadas s.eventos ++
      (page.filter (sai motionScoreSupported policy protection falha now acervo window)).map
        ExpiringRecording.id := by
    rw [turned.eventos, apagadas_append, apagadas_marcar]
  rw [map_append] at distinct
  obtain ⟨-, distinctPage, apart⟩ := nodup_append.mp distinct
  have earlier : visited.filter (fun row => decide (row.id ∉ apagadas t.eventos)) =
      visited.filter fun row => decide (row.id ∉ apagadas s.eventos) := by
    apply filter_congr
    intro row present
    have other : row.id ∉ (page.filter
        (sai motionScoreSupported policy protection falha now acervo window)).map
          ExpiringRecording.id := by
      intro same
      obtain ⟨out, listed, named⟩ := mem_map.mp same
      exact apart row.id (mem_map_of_mem present) out.id
        (mem_map_of_mem (mem_of_mem_filter listed)) named.symm
    rw [gone]
    simp [other]
  have here : page.filter (fun row => decide (row.id ∉ apagadas t.eventos)) =
      page.filter fun row =>
        !sai motionScoreSupported policy protection falha now acervo window row := by
    apply filter_congr
    intro row present
    have removed : row.id ∈ (page.filter
        (sai motionScoreSupported policy protection falha now acervo window)).map
          ExpiringRecording.id ↔
        sai motionScoreSupported policy protection falha now acervo window row = true := by
      constructor
      · intro same
        obtain ⟨out, listed, named⟩ := mem_map.mp same
        obtain ⟨inPage, leaves⟩ := mem_filter.mp listed
        rw [← KeyedList.eq_of_key distinctPage inPage present named]
        exact leaves
      · intro leaves
        exact mem_map_of_mem (mem_filter.mpr ⟨present, leaves⟩)
    rw [gone]
    simp only [mem_append, not_or, fresh row present, not_false_eq_true, true_and, removed]
    cases sai motionScoreSupported policy protection falha now acervo window row <;> rfl
  rw [turned.skip, skip, filter_append, length_append, earlier, here]

theorem paginas_walk (window : RetentionWindow) (fuel : Nat) (s : Passagem)
    (visited rest : List ExpiringRecording) (coerente : Coerente acervo result s)
    (split : ordenadas condition acervo.recordings = visited ++ rest)
    (skip : s.skip = (visited.filter fun row => row.id ∉ apagadas s.eventos).length)
    (fresh : ∀ recording ∈ rest, recording.id ∉ apagadas s.eventos) (enough : rest.length < fuel) :
    ∃ t, paginas motionScoreSupported policy protection falha limits now condition window fuel s =
        some t ∧
      t.eventos = s.eventos ++
        (walk (gasta motionScoreSupported policy protection falha now acervo window) s.budget
          rest).map (marcar motionScoreSupported policy protection falha now acervo window) ∧
      t.budget = s.budget -
        spent (gasta motionScoreSupported policy protection falha now acervo window)
          (walk (gasta motionScoreSupported policy protection falha now acervo window) s.budget
            rest) ∧
      Coerente acervo result t := by
  induction fuel generalizing s visited rest with
  | zero => exact absurd enough (Nat.not_lt_zero _)
  | succ fuel ih =>
    rw [paginas]
    by_cases exhausted : s.budget = 0
    · rw [if_pos exhausted]
      refine ⟨_, rfl, ?_, ?_, coerente.recordings, coerente.clips, coerente.deleted,
        coerente.wouldDelete⟩
      · rw [exhausted, walk_zero, map_nil, append_nil]
      · simp [spent, exhausted]
    · rw [if_neg exhausted]
      have positive := limits.positive
      have brought := findMany_rest acervo result condition s visited rest
        (min limits.batchSize s.budget) coerente split skip fresh
      dsimp only
      rw [brought]
      have ids := ordenadas_ids condition acervo.recordings acervo.distinct
      rw [split, map_append] at ids
      have distinct := ((nodup_append.mp ids).2.1).sublist
        ((take_sublist (min limits.batchSize s.budget) rest).map ExpiringRecording.id)
      have turned := pagina_visitada motionScoreSupported policy protection falha now acervo result
        window _ s coerente distinct (fun recording present =>
          fresh recording (mem_of_mem_take present))
      by_cases none : rest.take (min limits.batchSize s.budget) = []
      · have exhausted : rest = [] := by
          rcases take_eq_nil_iff.mp none with zero | nil
          · omega
          · exact nil
        rw [if_pos none, exhausted]
        exact ⟨s, rfl, by simp, by simp [spent], coerente⟩
      · rw [if_neg none]
        by_cases short : (rest.take (min limits.batchSize s.budget)).length <
            min limits.batchSize s.budget
        · rw [if_pos short]
          have fits : rest.length < min limits.batchSize s.budget := by
            rw [length_take] at short
            omega
          have whole : rest.take (min limits.batchSize s.budget) = rest :=
            take_of_length_le (by omega)
          rw [whole] at turned ⊢
          rw [walk_fits _ s.budget rest (by omega)]
          exact ⟨_, rfl, turned.eventos, turned.budget, turned.coerente⟩
        · rw [if_neg short]
          have parts : rest = rest.take (min limits.batchSize s.budget) ++
              rest.drop (min limits.batchSize s.budget) := (take_append_drop _ rest).symm
          have taken : (rest.take (min limits.batchSize s.budget)).length =
              min limits.batchSize s.budget := by
            rw [length_take] at short ⊢
            omega
          have longer : min limits.batchSize s.budget ≤ rest.length := by
            rw [length_take] at taken
            omega
          have left : (rest.drop (min limits.batchSize s.budget)).length < fuel := by
            rw [length_drop]
            omega
          generalize rest.take (min limits.batchSize s.budget) = page at *
          generalize rest.drop (min limits.batchSize s.budget) = later at *
          subst parts
          rw [map_append, ← append_assoc, ← map_append] at ids
          obtain ⟨idsVisited, -, apart⟩ := nodup_append.mp ids
          have skipped := pagina_skip motionScoreSupported policy protection falha now acervo result
            window visited page s _ turned idsVisited skip
            (fun recording present => fresh recording (mem_append_left _ present))
          have freshLater : ∀ recording ∈ later, recording.id ∉ apagadas
              (page.foldl (visitar motionScoreSupported policy protection falha now window)
                s).eventos := by
            intro recording present
            rw [turned.eventos, apagadas_append, apagadas_marcar, mem_append, not_or]
            refine ⟨fresh recording (mem_append_right _ present), ?_⟩
            intro same
            obtain ⟨out, listed, named⟩ := mem_map.mp same
            exact apart out.id (mem_map_of_mem (mem_append_right _
              (mem_of_mem_filter listed))) recording.id (mem_map_of_mem present) named
          obtain ⟨t, ends, eventos, budget, final⟩ := ih _ (visited ++ page) later turned.coerente
            (by rw [split, append_assoc]) skipped freshLater left
          have walked := walk_page
            (gasta motionScoreSupported policy protection falha now acervo window) s.budget page
            later (by omega)
          refine ⟨t, ends, ?_, ?_, final⟩
          · rw [eventos, turned.eventos, turned.budget, walked, map_append, append_assoc]
          · rw [budget, turned.budget, walked, spent_append, Nat.sub_sub]

end Loops

end DracVms.Retention
