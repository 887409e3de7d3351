import Mathlib

namespace DracVms.EventGrouping

open List

inductive Motivo where
  | incidenteNovo
  | marcoDeIncidente
  | continua
  deriving DecidableEq, Repr

/-- When motion of each type was last seen, and since when its incident lasts. -/
structure AgrupadorDeEventos (Tipo Time : Type) where
  silencio : Time
  teto : Time
  vistoEm : Tipo → Option Time
  incidenteDesde : Tipo → Option Time

/-! What is remembered of detections and their decisions. -/

section History

variable {Time : Type}

/-- When a detection was last seen. -/
def ultimo (feito : List (Time × Bool × Motivo)) : Option Time := (feito.map Prod.fst).getLast?

/-- When one was last emitted. -/
def emitido (feito : List (Time × Bool × Motivo)) : Option Time :=
  ultimo (feito.filter fun d => d.2.1)

variable (feito : List (Time × Bool × Motivo))

theorem ultimo_concat (d : Time × Bool × Motivo) : ultimo (feito ++ [d]) = some d.1 := by
  rw [ultimo, map_append, map_singleton, List.getLast?_concat]

theorem emitido_concat (d : Time × Bool × Motivo) :
    emitido (feito ++ [d]) = if d.2.1 then some d.1 else emitido feito := by
  rw [emitido, filter_append, filter_singleton]
  split_ifs with emitted
  · rw [emitted, cond_true, ultimo_concat]
  · rw [Bool.eq_false_iff.mpr emitted, cond_false, append_nil, emitido]

theorem emitido_mem {feito : List (Time × Bool × Motivo)} {e : Time}
    (last : emitido feito = some e) : ∃ motivo, (e, true, motivo) ∈ feito := by
  have inside := List.mem_of_getLast? last
  obtain ⟨⟨time, emitir, motivo⟩, kept, rfl⟩ := mem_map.mp inside
  obtain ⟨member, emitted⟩ := mem_filter.mp kept
  obtain rfl : emitir = true := emitted
  exact ⟨motivo, member⟩

theorem emitido_continua {antes meio : List (Time × Bool × Motivo)} {e : Time} {motivo : Motivo}
    (none_ : ∀ d ∈ meio, d.2.1 = false) :
    emitido (antes ++ (e, true, motivo) :: meio) = some e := by
  have empty : meio.filter (fun d => d.2.1) = [] := by
    rw [filter_eq_nil_iff]
    intro d inside
    rw [none_ d inside]
    exact Bool.false_ne_true
  rw [emitido, filter_append, filter_cons_of_pos rfl, empty, ultimo_concat]

theorem ultimo_continua (antes meio : List (Time × Bool × Motivo)) (d : Time × Bool × Motivo) :
    ultimo (antes ++ d :: meio) = some ((meio.map Prod.fst).getLastD d.1) := by
  rw [ultimo, map_append, map_cons, List.getLast?_append_cons, List.getLast?_cons,
    List.getLastD_eq_getLast?]

end History

section Grouping

variable {Tipo Time : Type} [DecidableEq Tipo] [AddCommGroup Time] [LinearOrder Time]

def agrupador (silencio teto : Time) : AgrupadorDeEventos Tipo Time :=
  ⟨silencio, teto, fun _ => none, fun _ => none⟩

def abrir (a : AgrupadorDeEventos Tipo Time) (tipo : Tipo) (agora : Time) :
    AgrupadorDeEventos Tipo Time :=
  { a with incidenteDesde := Function.update a.incidenteDesde tipo (some agora) }

def decidir (a : AgrupadorDeEventos Tipo Time) (tipo : Tipo) (agora : Time) :
    (Bool × Motivo) × AgrupadorDeEventos Tipo Time :=
  let visto := a.vistoEm tipo
  let a := { a with vistoEm := Function.update a.vistoEm tipo (some agora) }
  if visto.all fun visto => a.silencio < agora - visto then
    ((true, .incidenteNovo), abrir a tipo agora)
  else if 0 < a.teto ∧ a.teto ≤ agora - (a.incidenteDesde tipo).getD agora then
    ((true, .marcoDeIncidente), abrir a tipo agora)
  else ((false, .continua), a)

/-- The decisions on detections one after the other. -/
def decisoes (a : AgrupadorDeEventos Tipo Time) : List (Tipo × Time) → List (Bool × Motivo)
  | [] => []
  | (tipo, agora) :: outras =>
    (decidir a tipo agora).1 :: decisoes (decidir a tipo agora).2 outras

/-- The detections of one type, each with its decision. -/
def percurso (tipo : Tipo) (a : AgrupadorDeEventos Tipo Time) (deteccoes : List (Tipo × Time)) :
    List (Time × Bool × Motivo) :=
  (deteccoes.zip (decisoes a deteccoes)).filterMap fun ((outro, agora), decisao) =>
    if outro = tipo then some (agora, decisao) else none

/-! What one decision reads and leaves. -/

variable (a : AgrupadorDeEventos Tipo Time) (tipo : Tipo) (agora : Time)

theorem decidir_silencio : (decidir a tipo agora).2.silencio = a.silencio := by
  unfold decidir
  dsimp only
  split_ifs <;> rfl

theorem decidir_teto : (decidir a tipo agora).2.teto = a.teto := by
  unfold decidir
  dsimp only
  split_ifs <;> rfl

theorem decidir_visto :
    (decidir a tipo agora).2.vistoEm = Function.update a.vistoEm tipo (some agora) := by
  unfold decidir
  dsimp only
  split_ifs <;> rfl

theorem decidir_desde : (decidir a tipo agora).2.incidenteDesde =
    if (decidir a tipo agora).1.1 then Function.update a.incidenteDesde tipo (some agora)
    else a.incidenteDesde := by
  by_cases quiet : (a.vistoEm tipo).all fun visto => a.silencio < agora - visto
  · simp only [decidir, if_pos quiet, abrir, if_true]
  · by_cases long : 0 < a.teto ∧ a.teto ≤ agora - (a.incidenteDesde tipo).getD agora
    · simp only [decidir, if_neg quiet, if_pos long, abrir, if_true]
    · simp only [decidir, if_neg quiet, if_neg long, Bool.false_eq_true, if_false]

theorem emite_iff : (decidir a tipo agora).1.1 = true ↔
    (∀ visto ∈ a.vistoEm tipo, a.silencio < agora - visto) ∨
      (0 < a.teto ∧ a.teto ≤ agora - (a.incidenteDesde tipo).getD agora) := by
  have quiet : (a.vistoEm tipo).all (fun visto => a.silencio < agora - visto) = true ↔
      ∀ visto ∈ a.vistoEm tipo, a.silencio < agora - visto := by
    cases a.vistoEm tipo <;> simp
  unfold decidir
  dsimp only
  split_ifs with first second
  · exact iff_of_true rfl (Or.inl (quiet.mp first))
  · exact iff_of_true rfl (Or.inr second)
  · refine iff_of_false (by simp) fun either => ?_
    exact either.elim (fun q => first (quiet.mpr q)) second

/-! The other types. -/

/-- What the object knows of one type, with its limits. -/
structure Igual (tipo : Tipo) (a b : AgrupadorDeEventos Tipo Time) : Prop where
  silencio : a.silencio = b.silencio
  teto : a.teto = b.teto
  visto : a.vistoEm tipo = b.vistoEm tipo
  desde : a.incidenteDesde tipo = b.incidenteDesde tipo

variable {a tipo} {b : AgrupadorDeEventos Tipo Time}

theorem Igual.decisao (igual : Igual tipo a b) (agora : Time) :
    (decidir a tipo agora).1 = (decidir b tipo agora).1 := by
  unfold decidir
  simp only [igual.silencio, igual.teto, igual.visto, igual.desde]
  split_ifs <;> rfl

theorem Igual.decidir (igual : Igual tipo a b) (agora : Time) :
    Igual tipo (decidir a tipo agora).2 (EventGrouping.decidir b tipo agora).2 where
  silencio := by rw [decidir_silencio, decidir_silencio, igual.silencio]
  teto := by rw [decidir_teto, decidir_teto, igual.teto]
  visto := by rw [decidir_visto, decidir_visto, Function.update_self, Function.update_self]
  desde := by
    rw [decidir_desde, decidir_desde, igual.decisao]
    split_ifs
    · rw [Function.update_self, Function.update_self]
    · exact igual.desde

theorem Igual.outro (igual : Igual tipo a b) {outro : Tipo} (apart : outro ≠ tipo) (agora : Time) :
    Igual tipo (EventGrouping.decidir a outro agora).2 b where
  silencio := by rw [decidir_silencio, igual.silencio]
  teto := by rw [decidir_teto, igual.teto]
  visto := by rw [decidir_visto, Function.update_of_ne apart.symm, igual.visto]
  desde := by
    rw [decidir_desde]
    split_ifs
    · rw [Function.update_of_ne apart.symm, igual.desde]
    · exact igual.desde

theorem percurso_cons (outro : Tipo) (agora : Time) (outras : List (Tipo × Time)) :
    percurso tipo a ((outro, agora) :: outras) =
      if outro = tipo then
        (agora, (decidir a tipo agora).1) :: percurso tipo (decidir a tipo agora).2 outras
      else percurso tipo (decidir a outro agora).2 outras := by
  unfold percurso
  rw [decisoes, zip_cons_cons, filterMap_cons]
  dsimp only
  split_ifs with same
  · rw [same]
  · rfl

/-- The detections of other types change nothing. -/
theorem percurso_filter (b : AgrupadorDeEventos Tipo Time) (igual : Igual tipo a b)
    (deteccoes : List (Tipo × Time)) :
    percurso tipo a deteccoes = percurso tipo b (deteccoes.filter fun d => d.1 = tipo) := by
  induction deteccoes generalizing a b with
  | nil => rfl
  | cons deteccao outras ih =>
    obtain ⟨outro, agora⟩ := deteccao
    rw [percurso_cons]
    split_ifs with same
    · subst same
      rw [filter_cons_of_pos (by simp), percurso_cons, if_pos rfl, igual.decisao,
        ih _ (igual.decidir agora)]
    · rw [filter_cons_of_neg (by simpa using same), ih b (igual.outro same agora)]

/-! What the object remembers of the detections so far. -/

structure Recorda (tipo : Tipo) (a : AgrupadorDeEventos Tipo Time)
    (feito : List (Time × Bool × Motivo)) : Prop where
  visto : a.vistoEm tipo = ultimo feito
  desde : a.incidenteDesde tipo = emitido feito

variable {feito : List (Time × Bool × Motivo)}

theorem Recorda.decidir (recorda : Recorda tipo a feito) (agora : Time) :
    Recorda tipo (decidir a tipo agora).2
      (feito ++ [(agora, (EventGrouping.decidir a tipo agora).1)]) where
  visto := by rw [decidir_visto, Function.update_self, ultimo_concat]
  desde := by
    rw [decidir_desde, emitido_concat]
    split_ifs
    · exact Function.update_self ..
    · exact recorda.desde

theorem Recorda.outro (recorda : Recorda tipo a feito) {outro : Tipo} (apart : outro ≠ tipo)
    (agora : Time) : Recorda tipo (EventGrouping.decidir a outro agora).2 feito where
  visto := by rw [decidir_visto, Function.update_of_ne apart.symm, recorda.visto]
  desde := by
    rw [decidir_desde]
    split_ifs
    · rw [Function.update_of_ne apart.symm, recorda.desde]
    · exact recorda.desde

/-- A detection is emitted after silence, or when the incident has lasted to its ceiling. -/
structure Decidida (silencio teto : Time) (feito : List (Time × Bool × Motivo))
    (d : Time × Bool × Motivo) : Prop where
  emitida_iff : d.2.1 = true ↔ (∀ visto ∈ ultimo feito, silencio < d.1 - visto) ∨
    (0 < teto ∧ teto ≤ d.1 - (emitido feito).getD d.1)

variable {antes depois : List (Time × Bool × Motivo)}

theorem percurso_decidida (deteccoes : List (Tipo × Time)) (recorda : Recorda tipo a feito)
    {d : Time × Bool × Motivo} (run : percurso tipo a deteccoes = antes ++ d :: depois) :
    Decidida a.silencio a.teto (feito ++ antes) d := by
  induction deteccoes generalizing a feito antes with
  | nil => exact absurd run (append_ne_nil_of_right_ne_nil _ (cons_ne_nil _ _)).symm
  | cons deteccao outras ih =>
    obtain ⟨outro, agora⟩ := deteccao
    rw [percurso_cons] at run
    split_ifs at run with same
    · cases antes with
      | nil =>
        obtain ⟨rfl, -⟩ := List.cons.inj run
        rw [append_nil]
        refine ⟨(emite_iff a tipo agora).trans ?_⟩
        rw [recorda.visto, recorda.desde]
      | cons first antes =>
        obtain ⟨rfl, rest⟩ := List.cons.inj run
        have later := ih (recorda.decidir agora) rest
        rw [decidir_silencio, decidir_teto, append_assoc] at later
        exact later
    · have later := ih (recorda.outro same agora) run
      rwa [decidir_silencio, decidir_teto] at later

/-! The law of a whole run. -/

omit [DecidableEq Tipo] [AddCommGroup Time] [LinearOrder Time] in
theorem recorda_agrupador (silencio teto : Time) (tipo : Tipo) :
    Recorda tipo (agrupador silencio teto) ([] : List (Time × Bool × Motivo)) := ⟨rfl, rfl⟩

theorem percurso_times (a : AgrupadorDeEventos Tipo Time) (deteccoes : List (Tipo × Time)) :
    (percurso tipo a deteccoes).map Prod.fst =
      (deteccoes.filter fun d => d.1 = tipo).map Prod.snd := by
  induction deteccoes generalizing a with
  | nil => rfl
  | cons deteccao outras ih =>
    obtain ⟨outro, agora⟩ := deteccao
    rw [percurso_cons]
    split_ifs with same
    · rw [filter_cons_of_pos (by simpa using same), map_cons, map_cons, ih]
    · rw [filter_cons_of_neg (by simpa using same), ih]

/-- Some detection was emitted less than the ceiling ago. -/
theorem emitida_antes {silencio teto : Time} (ceiling : 0 < teto) {deteccoes : List (Tipo × Time)}
    {d : Time × Bool × Motivo}
    (run : percurso tipo (agrupador silencio teto) deteccoes = antes ++ d :: depois) :
    ∃ e motivo, (e, true, motivo) ∈ antes ++ [d] ∧ (d.1 - e < teto ∨ e = d.1) := by
  have recorda := recorda_agrupador silencio teto tipo
  have decided := (percurso_decidida deteccoes recorda run).emitida_iff
  rw [nil_append] at decided
  by_cases emitted : d.2.1 = true
  · refine ⟨d.1, d.2.2, mem_append_right _ (mem_singleton.mpr ?_), Or.inr rfl⟩
    rw [← emitted]
  rw [decided, not_or] at emitted
  obtain ⟨seen, short⟩ := emitted
  cases antes with
  | nil => exact absurd (fun visto none_ => nomatch none_) seen
  | cons first antes =>
    -- the first detection of a run was emitted, so there is a last one that was
    have start : percurso tipo (agrupador silencio teto) deteccoes =
        [] ++ first :: (antes ++ d :: depois) := run
    have opened := (percurso_decidida deteccoes recorda start).emitida_iff.mpr
      (Or.inl fun visto none_ => nomatch none_)
    obtain ⟨e, last⟩ : ∃ e, emitido (first :: antes) = some e := by
      refine ⟨_, List.getLast?_eq_some_getLast (l := _) ?_⟩
      simp [opened]
    obtain ⟨motivo, inside⟩ := emitido_mem last
    refine ⟨e, motivo, mem_append_left _ inside, Or.inl ?_⟩
    rw [last] at short
    exact not_le.mp fun long => short ⟨ceiling, long⟩

/-- Between two that follow each other there was silence, or the whole ceiling. -/
theorem emitida_depois {silencio teto : Time} {deteccoes : List (Tipo × Time)}
    {antes meio depois : List (Time × Bool × Motivo)} {e f : Time} {motivo motivo' : Motivo}
    (run : percurso tipo (agrupador silencio teto) deteccoes = antes ++ (e, true, motivo) ::
      (meio ++ (f, true, motivo') :: depois))
    (none_ : ∀ d ∈ meio, d.2.1 = false) :
    silencio < f - (meio.map Prod.fst).getLastD e ∨ (0 < teto ∧ teto ≤ f - e) := by
  have shape : antes ++ (e, true, motivo) :: (meio ++ (f, true, motivo') :: depois) =
      (antes ++ (e, true, motivo) :: meio) ++ (f, true, motivo') :: depois := by simp
  rw [shape] at run
  have decided := (percurso_decidida deteccoes (recorda_agrupador silencio teto tipo)
    run).emitida_iff.mp
    rfl
  rw [nil_append, emitido_continua none_, ultimo_continua] at decided
  exact decided.imp (fun quiet => quiet _ rfl) id

/-- Every detection is within a positive ceiling of an emitted one, those that follow each other
are apart, and other types have no part in it. -/
theorem incidentes_agrupados (silencio teto : Time) (deteccoes : List (Tipo × Time)) (tipo : Tipo)
    (ordered : ((deteccoes.filter fun d => d.1 = tipo).map Prod.snd).Pairwise (· ≤ ·)) :
    (0 < teto → ∀ antes d depois,
      percurso tipo (agrupador silencio teto) deteccoes = antes ++ d :: depois →
        ∃ e motivo, (e, true, motivo) ∈ antes ++ [d] ∧ e ≤ d.1 ∧ (d.1 - e < teto ∨ e = d.1)) ∧
    (∀ antes e motivo meio f motivo' depois,
      percurso tipo (agrupador silencio teto) deteccoes =
          antes ++ (e, true, motivo) :: (meio ++ (f, true, motivo') :: depois) →
        (∀ d ∈ meio, d.2.1 = false) →
          silencio < f - (meio.map Prod.fst).getLastD e ∨ (0 < teto ∧ teto ≤ f - e)) ∧
    percurso tipo (agrupador silencio teto) deteccoes =
      percurso tipo (agrupador silencio teto) (deteccoes.filter fun d => d.1 = tipo) := by
  refine ⟨?_, fun antes e motivo meio f motivo' depois run none_ => emitida_depois run none_,
    percurso_filter _ ⟨rfl, rfl, rfl, rfl⟩ deteccoes⟩
  intro ceiling antes d depois run
  obtain ⟨e, motivo, inside, near⟩ := emitida_antes ceiling run
  refine ⟨e, motivo, inside, ?_, near⟩
  rw [← percurso_times (agrupador silencio teto), run, map_append, map_cons] at ordered
  rcases mem_append.mp inside with earlier | same
  · exact (pairwise_append.mp ordered).2.2 e (mem_map_of_mem earlier) d.1 (mem_cons_self ..)
  · rw [← mem_singleton.mp same]

end Grouping

theorem incidentes_agrupados_once : (0 < (600 : ℤ) → ∀ antes d depois,
      percurso () (agrupador (45 : ℤ) 600) [((), 0), ((), 10)] = antes ++ d :: depois →
        ∃ e motivo, (e, true, motivo) ∈ antes ++ [d] ∧ e ≤ d.1 ∧ (d.1 - e < 600 ∨ e = d.1)) ∧
    (∀ antes e motivo meio f motivo' depois,
      percurso () (agrupador (45 : ℤ) 600) [((), 0), ((), 10)] =
          antes ++ (e, true, motivo) :: (meio ++ (f, true, motivo') :: depois) →
        (∀ d ∈ meio, d.2.1 = false) →
          45 < f - (meio.map Prod.fst).getLastD e ∨ (0 < (600 : ℤ) ∧ 600 ≤ f - e)) ∧
    percurso () (agrupador (45 : ℤ) 600) [((), 0), ((), 10)] =
      percurso () (agrupador (45 : ℤ) 600) ([((), (0 : ℤ)), ((), 10)].filter fun d => d.1 = ()) :=
  incidentes_agrupados 45 600 [((), 0), ((), 10)] () (by decide)

/-- Without a ceiling an incident goes on for ever with one event. -/
theorem semTeto_continua : ¬∀ (silencio teto : ℤ) (deteccoes : List (Unit × ℤ)),
    (deteccoes.map Prod.snd).Pairwise (· ≤ ·) → ∀ antes d depois,
      percurso () (agrupador silencio teto) deteccoes = antes ++ d :: depois →
        ∃ e motivo, (e, true, motivo) ∈ antes ++ [d] ∧ e ≤ d.1 ∧ (d.1 - e ≤ teto ∨ e = d.1) := by
  intro claimed
  obtain ⟨e, motivo, inside, -, near⟩ := claimed 45 0 [((), 0), ((), 10)] (by decide)
    [(0, true, .incidenteNovo)] (10, false, .continua) [] (by decide)
  simp only [cons_append, nil_append, mem_cons, Prod.mk.injEq, Bool.true_eq_false,
    false_and, and_false, not_mem_nil, or_false] at inside
  obtain ⟨rfl, -⟩ := inside
  exact absurd near (by decide)

end DracVms.EventGrouping
