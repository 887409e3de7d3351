import DracVms.CloudConnector.ContactRenewal

namespace DracVms.ClockRollback

open CommercialPolicy
open Heartbeat
open StatusCaps
open VencimentoDeLicenca

variable {runtime : Runtime}

/-- The contact that an attempt stores, if it comes so far. -/
def contatoDe : Attempt runtime → Option ℤ
  | .answered _ outcomes => if outcomes.written .lastSyncAt then some outcomes.contactAt else none
  | _ => none

/-- The marks that an attempt makes, in their order. -/
def marcasDe (installation : Installation) : Attempt runtime → List Marking
  | .disabled | .missingConfig _ _ | .alreadyRunning => []
  | .unanswered failure => if failure.lastErrorWritten then [failure.marking] else []
  | .answered response outcomes =>
    let throws := applyThrows installation response outcomes
    outcomes.marking ::
      if (recordThrows outcomes throws || outcomes.laterThrows) &&
          outcomes.failure.lastErrorWritten then
        [outcomes.failure.marking]
      else []

/-- The settings as the attempts leave them, the two instants that the database holds so far, the
writes that are still on their way, and the reads of the policy since the last contact, the latest
first: the clock of each one and the days that it counted. -/
structure Watched where
  installation : Installation
  lastSyncAt : Option ℤ
  maiorInstanteVisto : Option ℤ
  contatos : List ℤ
  marcas : List Marking
  leituras : List (ℤ × Option ℚ)

def Watched.start (installation : Installation) : Watched where
  installation := installation
  lastSyncAt := installation.policy.lastSyncAt
  maiorInstanteVisto := installation.policy.maiorInstanteVisto
  contatos := []
  marcas := []
  leituras := []

/-- The settings that a read of the policy finds. -/
def Watched.stored (watched : Watched) : Settings :=
  { watched.installation.policy with
    lastSyncAt := watched.lastSyncAt
    maiorInstanteVisto := watched.maiorInstanteVisto }

/-- The count of `getPolicy`, before it is cut to whole days. -/
def dias (settings : Settings) (agoraMs : ℤ) : Option ℚ :=
  diasSemContato settings.lastSyncAt agoraMs settings.maiorInstanteVisto

/-- An attempt comes to its writes, one of them reaches the database, or the policy is read. -/
inductive Event (runtime : Runtime) where
  | attempt (attempt : Attempt runtime)
  | contact
  | mark
  | read (agoraMs : ℤ)

def contactArrives (watched : Watched) : Watched :=
  match watched.contatos with
  | [] => watched
  | agora :: later => { watched with lastSyncAt := some agora, contatos := later, leituras := [] }

def markArrives (watched : Watched) : Watched :=
  match watched.marcas with
  | [] => watched
  | marking :: later =>
    { watched with
      maiorInstanteVisto := marcarInstante watched.maiorInstanteVisto marking
      marcas := later }

def step (watched : Watched) : Event runtime → Watched
  | .attempt attempt =>
    { watched with
      installation := syncHeartbeat watched.installation attempt
      contatos := watched.contatos ++ (contatoDe attempt).toList
      marcas := watched.marcas ++ marcasDe watched.installation attempt }
  | .contact => contactArrives watched
  | .mark => markArrives watched
  | .read agoraMs =>
    { watched with leituras := (agoraMs, dias watched.stored agoraMs) :: watched.leituras }

/-- No days at all stand for a silence without end. -/
def NotLonger (first second : Option ℚ) : Prop :=
  match first, second with
  | _, none => True
  | none, some _ => False
  | some a, some b => a ≤ b

/-- Since the last contact the silence has only grown, and what it imposes with it. -/
def NeverFalls (watched : Watched) : Prop :=
  watched.leituras.Pairwise fun later earlier =>
    NotLonger earlier.2 later.2 ∧
      gravidade (estadoPorSilencio earlier.2) ≤ gravidade (estadoPorSilencio later.2)

/-- A mark whose read of the old one fails is not behind it; and a read does not come with an earlier
clock than another read since the contact, unless the mark, or the contact, has reached that
clock. -/
def Recorded (watched : Watched) : Event runtime → Prop
  | .attempt _ | .contact => True
  | .mark =>
    ∀ marking ∈ watched.marcas.head?,
      marking.read = true ∨ watched.maiorInstanteVisto.getD 0 ≤ marking.agora
  | .read agoraMs =>
    ∀ leitura ∈ watched.leituras,
      leitura.1 ≤ agoraMs ∨ leitura.1 ≤ watched.maiorInstanteVisto.getD 0 ∨
        leitura.1 ≤ watched.lastSyncAt.getD 0

theorem NotLonger.refl (days : Option ℚ) : NotLonger days days := by
  cases days with
  | none => exact trivial
  | some d => exact le_refl d

theorem NotLonger.trans {first second third : Option ℚ} (before : NotLonger first second)
    (later : NotLonger second third) : NotLonger first third := by
  cases third with
  | none =>
    cases first <;> exact trivial
  | some c =>
    cases second with
    | none => exact absurd later id
    | some b =>
      cases first with
      | none => exact absurd before id
      | some a => exact le_trans before later

theorem gravidade_of_notLonger {first second : Option ℚ} (longer : NotLonger first second) :
    gravidade (estadoPorSilencio first) ≤ gravidade (estadoPorSilencio second) := by
  cases second with
  | none =>
    cases estadoPorSilencio first <;> decide
  | some b =>
    cases first with
    | none => exact absurd longer id
    | some a => exact gravidade_estadoPorSilencio longer

theorem dias_mono (before later : Settings) (first second : ℤ)
    (same : later.lastSyncAt = before.lastSyncAt)
    (grows : ∀ ultimo, before.lastSyncAt = some ultimo →
      agoraQueConta ultimo first before.maiorInstanteVisto ≤
        agoraQueConta ultimo second later.maiorInstanteVisto) :
    NotLonger (dias before first) (dias later second) := by
  unfold dias
  rw [same]
  cases contact : before.lastSyncAt with
  | none => exact trivial
  | some ultimo =>
    by_cases positive : 0 < ultimo
    · rw [diasSemContato_of_contact positive, diasSemContato_of_contact positive]
      have growth := grows ultimo contact
      have day : (0 : ℚ) ≤ (diaMs : ℚ) := by norm_num [diaMs]
      apply div_le_div_of_nonneg_right _ day
      have numerator : agoraQueConta ultimo first before.maiorInstanteVisto - ultimo ≤
          agoraQueConta ultimo second later.maiorInstanteVisto - ultimo := by omega
      exact_mod_cast numerator
    · have before := not_lt.mp positive
      rw [diasSemContato_of_none before, diasSemContato_of_none before]
      exact NotLonger.refl none

/-- What an attempt leaves of the two instants is what its writes make of them. -/
theorem syncHeartbeat_instants (installation : Installation) (attempt : Attempt runtime) :
    (syncHeartbeat installation attempt).policy.lastSyncAt =
        (contatoDe attempt).or installation.policy.lastSyncAt ∧
      (syncHeartbeat installation attempt).policy.maiorInstanteVisto =
        (marcasDe installation attempt).foldl marcarInstante
          installation.policy.maiorInstanteVisto := by
  cases attempt with
  | disabled | missingConfig | alreadyRunning => exact ⟨rfl, rfl⟩
  | unanswered failure =>
    simp only [syncHeartbeat, catchFailure, contatoDe, marcasDe]
    split
    all_goals exact ⟨rfl, rfl⟩
  | answered response outcomes =>
    simp only [syncHeartbeat, catchFailure, recordApplied, writeSettings, contatoDe, marcasDe, put]
    grind

/-- Once the writes have arrived, the database holds what the attempts have left. -/
structure Arriving (watched : Watched) : Prop where
  contact : watched.contatos.foldl (fun _ agora => some agora) watched.lastSyncAt =
    watched.installation.policy.lastSyncAt
  mark : watched.marcas.foldl marcarInstante watched.maiorInstanteVisto =
    watched.installation.policy.maiorInstanteVisto

theorem arriving_start (installation : Installation) :
    Arriving (Watched.start installation) := ⟨rfl, rfl⟩

theorem step_arriving {watched : Watched} (arriving : Arriving watched) (event : Event runtime) :
    Arriving (step watched event) := by
  cases event with
  | attempt attempt =>
    obtain ⟨contact, mark⟩ := syncHeartbeat_instants watched.installation attempt
    refine ⟨?_, ?_⟩
    · simp only [step, List.foldl_append, arriving.contact, contact]
      cases contatoDe attempt <;> rfl
    · simp only [step, List.foldl_append, arriving.mark, mark]
  | contact =>
    simp only [step, contactArrives]
    split
    · exact arriving
    · rename_i agora later waiting
      refine ⟨?_, arriving.mark⟩
      rw [← arriving.contact, waiting]
      rfl
  | mark =>
    simp only [step, markArrives]
    split
    · exact arriving
    · rename_i marking later waiting
      refine ⟨arriving.contact, ?_⟩
      rw [← arriving.mark, waiting]
      rfl
  | read agoraMs => exact ⟨arriving.contact, arriving.mark⟩

theorem Arriving.stored {watched : Watched} (arriving : Arriving watched)
    (contact : watched.contatos = []) (mark : watched.marcas = []) :
    watched.stored = watched.installation.policy := by
  have first := arriving.contact
  have second := arriving.mark
  rw [contact] at first
  rw [mark] at second
  simp only [Watched.stored, show watched.lastSyncAt = _ from first,
    show watched.maiorInstanteVisto = _ from second]

/-- Every read since the contact counted no more than it would count now. -/
structure Growing (watched : Watched) : Prop where
  sorted : NeverFalls watched
  within : ∀ leitura ∈ watched.leituras, NotLonger leitura.2 (dias watched.stored leitura.1)

theorem growing_start (installation : Installation) : Growing (Watched.start installation) where
  sorted := List.Pairwise.nil
  within _ member := absurd member List.not_mem_nil

theorem marcarInstante_grows (stored : Option ℤ) (marking : Marking)
    (recorded : marking.read = true ∨ stored.getD 0 ≤ marking.agora) :
    stored.getD 0 ≤ (marcarInstante stored marking).getD 0 := by
  unfold marcarInstante
  split
  · rename_i written
    have ahead : marking.anterior stored < marking.agora :=
      of_decide_eq_true (Bool.and_eq_true_iff.mp written).1
    rcases recorded with read | reached
    · rw [Marking.anterior, if_pos read] at ahead
      exact ahead.le
    · exact reached
  · exact le_refl _

theorem mark_growing {watched : Watched} (growing : Growing watched)
    (recorded : Recorded watched (.mark : Event runtime)) :
    Growing (step watched (.mark : Event runtime)) := by
  simp only [step, markArrives]
  split
  · exact growing
  · rename_i marking later waiting
    have higher := marcarInstante_grows watched.maiorInstanteVisto marking
      (recorded marking (by rw [waiting]; rfl))
    refine ⟨growing.sorted, ?_⟩
    intro leitura member
    apply (growing.within leitura member).trans
    apply dias_mono
    · rfl
    intro ultimo _
    exact max_le_max_right ultimo (max_le_max_left leitura.1 higher)

theorem read_growing {watched : Watched} (growing : Growing watched) {agoraMs : ℤ}
    (recorded : Recorded watched (.read agoraMs : Event runtime)) :
    Growing (step watched (.read agoraMs : Event runtime)) := by
  have now : ∀ leitura ∈ watched.leituras,
      NotLonger leitura.2 (dias watched.stored agoraMs) := by
    intro leitura member
    apply (growing.within leitura member).trans
    apply dias_mono _ _ _ _ rfl
    intro ultimo contact
    have reached := recorded leitura member
    have last : watched.lastSyncAt = some ultimo := contact
    rw [last, Option.getD_some] at reached
    simp only [Watched.stored, agoraQueConta]
    omega
  refine ⟨List.Pairwise.cons ?_ growing.sorted, ?_⟩
  · intro leitura member
    exact ⟨now leitura member, gravidade_of_notLonger (now leitura member)⟩
  · intro leitura member
    rcases List.mem_cons.mp member with same | earlier
    · rw [same]
      exact NotLonger.refl _
    · exact growing.within leitura earlier

theorem step_growing {watched : Watched} (growing : Growing watched) {event : Event runtime}
    (recorded : Recorded watched event) : Growing (step watched event) := by
  cases event with
  | attempt attempt => exact ⟨growing.sorted, growing.within⟩
  | contact =>
    simp only [step, contactArrives]
    split
    · exact growing
    · exact ⟨List.Pairwise.nil, fun _ member => absurd member List.not_mem_nil⟩
  | mark => exact mark_growing growing recorded
  | read agoraMs => exact read_growing growing recorded

/-- The run of the steps, each of which can always be taken. -/
def run (start : Installation) (events : List (Event runtime)) : Option Watched :=
  Runs.run (fun watched event => some (step watched event)) (Watched.start start) events

open ContactRenewal (smoothContact newInstallation)

/-- A heartbeat that the Central does not answer, but that marks its instant. -/
def semCentral (agora : ℤ) : Attempt oneDigitRuntime :=
  .unanswered ⟨[], true, ⟨agora, true, true⟩⟩

/-- A heartbeat between the reads has recorded the clock. -/
def recordedEvents : List (Event oneDigitRuntime) :=
  [.attempt (smoothContact diaMs).attempt, .contact, .mark, .read (12 * diaMs),
    .attempt (semCentral (13 * diaMs)), .mark, .read (2 * diaMs)]

theorem recordedEvents_recorded :
    Runs.Allowed (fun watched event => some (step watched event)) Recorded
      (Watched.start newInstallation) recordedEvents := by
  refine ⟨trivial, fun _ first => ?_⟩
  cases first
  refine ⟨trivial, fun _ second => ?_⟩
  cases second
  refine ⟨?_, fun _ third => ?_⟩
  · rintro marking ⟨⟩
    exact Or.inl rfl
  cases third
  refine ⟨fun _ none => absurd none List.not_mem_nil, fun _ fourth => ?_⟩
  cases fourth
  refine ⟨trivial, fun _ fifth => ?_⟩
  cases fifth
  refine ⟨?_, fun _ sixth => ?_⟩
  · rintro marking ⟨⟩
    exact Or.inl rfl
  cases sixth
  refine ⟨?_, fun _ _ => trivial⟩
  intro leitura member
  rw [List.mem_singleton.mp member]
  exact Or.inr (Or.inl (by decide +kernel))

end DracVms.ClockRollback
