import DracVms.Library.FirstBest
import DracVms.Library.JsNumber
import DracVms.Playback.VodPlaylist

namespace DracVms.PlaybackSelection

open List

open Json (Text)
open JsNumber FirstBest VodContinuous

structure GravacaoSelecionavel where
  id : Text
  startedAt : Text
  endedAt : Option Text
  durationSeconds : Option ℚ
  deriving DecidableEq

structure Janela where
  startMs : Number ℚ
  endMs : Number ℚ

/-- `Math.max`, which is no number when one of the two is none. -/
def maximo : Number ℚ → Number ℚ → Number ℚ
  | some a, some b => some (max a b)
  | _, _ => none

def menos : Number ℚ → Number ℚ → Number ℚ
  | some a, some b => some (a - b)
  | _, _ => none

inductive SelecaoDeGravacao where
  | exata (id : Text) (offsetSeconds : Number ℚ)
  | proxima (id : Text) (offsetSeconds distanciaMs : Number ℚ)
  | aguardar
  | nada
  deriving DecidableEq

structure Contendo where
  id : Text
  startMs : Number ℚ

structure Proxima where
  id : Text
  startMs : Number ℚ
  distanciaMs : Number ℚ
  offsetSeconds : Number ℚ

structure Opcoes where
  agoraMs : Option ℚ
  coberturaMinutos : Option (List (ℚ × ℚ))
  dayStartMs : Option ℚ
  limiteAguardarMs : Option ℚ

def maisNova (r contendo : Contendo) : Prop := lt contendo.startMs r.startMs = true

instance : DecidableRel maisNova := fun _ _ => inferInstanceAs (Decidable (_ = true))

/-- Nearer, or as near and of a later start. -/
def ganha (r proxima : Proxima) : Prop :=
  lt r.distanciaMs proxima.distanciaMs = true ∨
    eq r.distanciaMs proxima.distanciaMs = true ∧ lt proxima.startMs r.startMs = true

instance : DecidableRel ganha := fun _ _ => inferInstanceAs (Decidable (_ ∨ _))

section Selection

variable (runtime : Runtime)

/-- The window of a recording. Without an end it has its duration, without that it is still open. -/
def janelaDaGravacao (agoraMs : ℚ) (r : GravacaoSelecionavel) : Janela :=
  let data (text : Text) : Number ℚ := (runtime.dateOf text).map fun ms : ℤ => (ms : ℚ)
  let startMs := data r.startedAt
  let porEndedAt : Option (Number ℚ) :=
    r.endedAt.bind fun endedAt => if endedAt = [] then none else some (data endedAt)
  let porDuracao : Option (Number ℚ) :=
    r.durationSeconds.bind fun duration =>
      if 0 < duration then some (startMs.map fun start => start + duration * 1000) else none
  let endMs := (porEndedAt.or porDuracao).getD (maximo startMs (some agoraMs))
  ⟨startMs, maximo endMs startMs⟩

variable (agoraMs alvoMs : ℚ)

/-- A recording without a window is left out. -/
def vazia (janela : Janela) : Bool := le janela.endMs janela.startMs

def contem (janela : Janela) : Bool :=
  le janela.startMs (some alvoMs) && lt (some alvoMs) janela.endMs

def proximaDe (id : Text) (janela : Janela) : Proxima :=
  if lt (some alvoMs) janela.startMs then
    ⟨id, janela.startMs, menos janela.startMs (some alvoMs), some 0⟩
  else
    ⟨id, janela.startMs, menos (some alvoMs) janela.endMs,
      maximo (some 0) ((menos janela.endMs janela.startMs).map fun ms => ms / 1000 - 1)⟩

/-- One recording of the loop. -/
def visitar (so : Option Contendo × Option Proxima) (r : GravacaoSelecionavel) :
    Option Contendo × Option Proxima :=
  let janela := janelaDaGravacao runtime agoraMs r
  if vazia janela then so
  else if contem alvoMs janela then
    (List.argAux maisNova so.1 ⟨r.id, janela.startMs⟩, so.2)
  else (so.1, List.argAux ganha so.2 (proximaDe alvoMs r.id janela))

/-- There is video at the instant, as far as the day's outline knows. -/
def coberto (opcoes : Opcoes) : Bool :=
  match opcoes.coberturaMinutos, opcoes.dayStartMs with
  | some cobertura, some dayStartMs =>
    let alvoMin := (alvoMs - dayStartMs) / 60000
    cobertura.any fun c => c.1 ≤ alvoMin ∧ alvoMin < c.2
  | _, _ => false

def limite (opcoes : Opcoes) : ℚ := opcoes.limiteAguardarMs.getD (2 * 60000)

/-- What is answered when no recording contains the instant. -/
def semConteudo (opcoes : Opcoes) (proxima : Option Proxima) : SelecaoDeGravacao :=
  match proxima with
  | none => if coberto alvoMs opcoes then .aguardar else .nada
  | some proxima =>
    if lt (some (limite opcoes)) proxima.distanciaMs && coberto alvoMs opcoes then .aguardar
    else .proxima proxima.id proxima.offsetSeconds proxima.distanciaMs

def comConteudo (contendo : Contendo) : SelecaoDeGravacao :=
  .exata contendo.id (maximo (some 0)
    ((menos (some alvoMs) contendo.startMs).map fun ms => ms / 1000))

/-- The clock is read when no instant is given for now. -/
def selecionarGravacaoNoInstante (relogio : ℚ) (opcoes : Opcoes)
    (gravacoes : List GravacaoSelecionavel) : SelecaoDeGravacao :=
  let agoraMs := opcoes.agoraMs.getD relogio
  match gravacoes.foldl (visitar runtime agoraMs alvoMs) (none, none) with
  | (some contendo, _) => comConteudo alvoMs contendo
  | (none, proxima) => semConteudo alvoMs opcoes proxima

/-! The loop keeps the best of those that contain the instant and the best of the others. -/

def contida (r : GravacaoSelecionavel) : Option Contendo :=
  let janela := janelaDaGravacao runtime agoraMs r
  if vazia janela then none
  else if contem alvoMs janela then some ⟨r.id, janela.startMs⟩
  else none

def fora (r : GravacaoSelecionavel) : Option Proxima :=
  let janela := janelaDaGravacao runtime agoraMs r
  if vazia janela then none
  else if contem alvoMs janela then none
  else some (proximaDe alvoMs r.id janela)

theorem percorrer (gravacoes : List GravacaoSelecionavel) (so : Option Contendo × Option Proxima) :
    gravacoes.foldl (visitar runtime agoraMs alvoMs) so =
      ((gravacoes.filterMap (contida runtime agoraMs alvoMs)).foldl (List.argAux maisNova) so.1,
        (gravacoes.filterMap (fora runtime agoraMs alvoMs)).foldl (List.argAux ganha) so.2) := by
  induction gravacoes generalizing so with
  | nil => rfl
  | cons r rest ih =>
    rw [foldl_cons, ih, filterMap_cons, filterMap_cons, visitar, contida, fora]
    split
    · rfl
    · split
      all_goals rfl

end Selection

instance : Std.Irrefl maisNova where
  irrefl r newer := by
    obtain ⟨x, y, start, start', less⟩ := lt_iff.mp newer
    obtain rfl := Option.some.inj (start.symm.trans start')
    exact lt_irrefl x less

instance : IsTrans Contendo maisNova where
  trans a b c first second := by
    obtain ⟨x, y, ofB, ofA, less⟩ := lt_iff.mp first
    obtain ⟨z, x', ofC, ofB', less'⟩ := lt_iff.mp second
    obtain rfl := Option.some.inj (ofB.symm.trans ofB')
    exact lt_iff.mpr ⟨z, y, ofC, ofA, less'.trans less⟩

instance : Std.Irrefl ganha where
  irrefl r wins := by
    rcases wins with nearer | ⟨-, newer⟩
    · obtain ⟨x, y, near, near', less⟩ := lt_iff.mp nearer
      obtain rfl := Option.some.inj (near.symm.trans near')
      exact lt_irrefl x less
    · obtain ⟨x, y, start, start', less⟩ := lt_iff.mp newer
      obtain rfl := Option.some.inj (start.symm.trans start')
      exact lt_irrefl x less

instance : IsTrans Proxima ganha where
  trans a b c first second := by
    rcases first with nearer | ⟨same, newer⟩
    · obtain ⟨x, y, ofA, ofB, less⟩ := lt_iff.mp nearer
      rcases second with nearer' | ⟨same', -⟩
      · obtain ⟨y', z, ofB', ofC, less'⟩ := lt_iff.mp nearer'
        obtain rfl := Option.some.inj (ofB.symm.trans ofB')
        exact Or.inl (lt_iff.mpr ⟨x, z, ofA, ofC, less.trans less'⟩)
      · obtain ⟨y', ofB', ofC⟩ := eq_iff.mp same'
        obtain rfl := Option.some.inj (ofB.symm.trans ofB')
        exact Or.inl (lt_iff.mpr ⟨x, y, ofA, ofC, less⟩)
    · obtain ⟨x, ofA, ofB⟩ := eq_iff.mp same
      rcases second with nearer' | ⟨same', newer'⟩
      · obtain ⟨x', z, ofB', ofC, less⟩ := lt_iff.mp nearer'
        obtain rfl := Option.some.inj (ofB.symm.trans ofB')
        exact Or.inl (lt_iff.mpr ⟨x, z, ofA, ofC, less⟩)
      · obtain ⟨x', ofB', ofC⟩ := eq_iff.mp same'
        obtain rfl := Option.some.inj (ofB.symm.trans ofB')
        obtain ⟨u, v, startB, startA, less⟩ := lt_iff.mp newer
        obtain ⟨w, u', startC, startB', less'⟩ := lt_iff.mp newer'
        obtain rfl := Option.some.inj (startB.symm.trans startB')
        exact Or.inr ⟨eq_iff.mpr ⟨x, ofA, ofC⟩, lt_iff.mpr ⟨w, v, startC, startA, less'.trans less⟩⟩

/-! What is asked, and of which recordings it holds. -/

section Agreement

variable (runtime : Runtime)

def instante (alvoMs : ℚ) : Unknown := .json (.atom (.number alvoMs))

/-- The name and the ends of a window that has a length. -/
def janelaFechada (agoraMs : ℚ) (r : GravacaoSelecionavel) : Option (Text × ℚ × ℚ) :=
  let janela := janelaDaGravacao runtime agoraMs r
  match janela.startMs, janela.endMs with
  | some startMs, some endMs => if startMs < endMs then some (r.id, startMs, endMs) else none
  | _, _ => none

def janelaDoSegmento (segment : VodPlaylistSegment) : Text × ℚ × ℚ :=
  (segment.recordingId, segment.startedAtMs, segment.endedAtMs)

/-- A playlist of the player that is made of these recordings: each one that has a window is a
segment of the same name and window. -/
structure PlaylistDe (agoraMs : ℚ) (gravacoes : List GravacaoSelecionavel)
    (playlist : Option VodPlaylist) : Prop where
  normalized : ∃ raw fetchedAtMs, normalizeVodPlaylist runtime raw fetchedAtMs = playlist
  same : ((playlist.elim [] VodPlaylist.segments).map janelaDoSegmento).Perm
    (gravacoes.filterMap (janelaFechada runtime agoraMs))

/-- Both modules answer with the same recording and offset, whatever the order of the list. -/
structure UmaGravacao (relogio : ℚ) (opcoes : Opcoes) (alvoMs : ℚ)
    (gravacoes : List GravacaoSelecionavel) (playlist : Option VodPlaylist) : Prop where
  mesma : ∀ id offset,
    selecionarGravacaoNoInstante runtime alvoMs relogio opcoes gravacoes = .exata id offset →
      ∃ position, absoluteToVodPosition runtime playlist (instante alvoMs) = some position ∧
        position.placement = .inside ∧ position.segment.recordingId = id ∧
        offset = some position.offsetInSegmentSeconds
  ordem : ∀ listed : List GravacaoSelecionavel, listed.Perm gravacoes →
    selecionarGravacaoNoInstante runtime alvoMs relogio opcoes listed =
      selecionarGravacaoNoInstante runtime alvoMs relogio opcoes gravacoes

variable (agoraMs alvoMs : ℚ)

def Contem (r : GravacaoSelecionavel) : Prop :=
  ∃ startMs endMs, (janelaDaGravacao runtime agoraMs r).startMs = some startMs ∧
    (janelaDaGravacao runtime agoraMs r).endMs = some endMs ∧ startMs ≤ alvoMs ∧ alvoMs < endMs

/-- The entry of a recording that does not contain the instant, and that no other one wins over. -/
def MaisProxima (gravacoes : List GravacaoSelecionavel) (r : GravacaoSelecionavel) (p : Proxima) :
    Prop :=
  fora runtime agoraMs alvoMs r = some p ∧
    ∀ r' ∈ gravacoes, ∀ p', fora runtime agoraMs alvoMs r' = some p' → ¬ganha p' p

/-- Too far away to be answered where the day's outline has video. -/
def Aguarda (opcoes : Opcoes) (p : Proxima) : Prop :=
  lt (some (limite opcoes)) p.distanciaMs = true ∧ coberto alvoMs opcoes = true

/-- At most one recording contains the instant, which then is a whole millisecond; if none does, at
most one is the nearest, or there is nothing to do but wait. -/
structure SemEmpate (opcoes : Opcoes) (gravacoes : List GravacaoSelecionavel) : Prop where
  unica : ∀ r ∈ gravacoes, ∀ r' ∈ gravacoes, Contem runtime agoraMs alvoMs r →
    Contem runtime agoraMs alvoMs r' → r = r'
  inteira : (∃ r ∈ gravacoes, Contem runtime agoraMs alvoMs r) → ∃ n : ℤ, alvoMs = n
  proxima : (∀ r ∈ gravacoes, ¬Contem runtime agoraMs alvoMs r) →
    ∀ r ∈ gravacoes, ∀ r' ∈ gravacoes, ∀ p p',
      MaisProxima runtime agoraMs alvoMs gravacoes r p →
      MaisProxima runtime agoraMs alvoMs gravacoes r' p' →
        r = r' ∨ Aguarda alvoMs opcoes p ∧ Aguarda alvoMs opcoes p'

end Agreement

/-! Windows. -/

section Windows

variable {runtime : Runtime} {agoraMs alvoMs : ℚ} {r : GravacaoSelecionavel}

theorem janela_inteira {startMs : ℚ}
    (starts : (janelaDaGravacao runtime agoraMs r).startMs = some startMs) :
    ∃ n : ℤ, startMs = n := by
  have data : (runtime.dateOf r.startedAt).map (fun ms : ℤ => (ms : ℚ)) = some startMs := starts
  obtain ⟨n, -, same⟩ := Option.map_eq_some_iff.mp data
  exact ⟨n, same.symm⟩

theorem contida_iff (c : Contendo) : contida runtime agoraMs alvoMs r = some c ↔
    Contem runtime agoraMs alvoMs r ∧ c = ⟨r.id, (janelaDaGravacao runtime agoraMs r).startMs⟩ := by
  have inside : contem alvoMs (janelaDaGravacao runtime agoraMs r) = true ↔
      Contem runtime agoraMs alvoMs r := by
    unfold contem Contem
    rw [Bool.and_eq_true, le_iff, lt_iff]
    constructor
    · rintro ⟨⟨s, t, starts, same, before⟩, ⟨t', e, same', ends, after⟩⟩
      obtain rfl := Option.some.inj same
      obtain rfl := Option.some.inj same'
      exact ⟨s, e, starts, ends, before, after⟩
    · rintro ⟨s, e, starts, ends, before, after⟩
      exact ⟨⟨s, alvoMs, starts, rfl, before⟩, ⟨alvoMs, e, rfl, ends, after⟩⟩
  have open_ : Contem runtime agoraMs alvoMs r →
      vazia (janelaDaGravacao runtime agoraMs r) = false := by
    rintro ⟨s, e, starts, ends, before, after⟩
    rw [vazia, starts, ends, le]
    exact decide_eq_false (not_le.mpr (lt_of_le_of_lt before after))
  unfold contida
  constructor
  · intro given
    dsimp only at given
    split at given
    · cases given
    split at given
    · rename_i held
      exact ⟨inside.mp held, (Option.some.inj given).symm⟩
    · cases given
  · rintro ⟨held, rfl⟩
    simp only [open_ held, inside.mpr held, if_true, Bool.false_eq_true, if_false]

theorem fechada_of_contem (held : Contem runtime agoraMs alvoMs r) :
    ∃ startMs endMs, janelaFechada runtime agoraMs r = some (r.id, startMs, endMs) ∧
      (janelaDaGravacao runtime agoraMs r).startMs = some startMs ∧ startMs ≤ alvoMs ∧
        alvoMs < endMs := by
  obtain ⟨s, e, starts, ends, before, after⟩ := held
  refine ⟨s, e, ?_, starts, before, after⟩
  unfold janelaFechada
  simp only [starts, ends]
  exact if_pos (lt_of_le_of_lt before after)

theorem contem_of_fechada {id : Text} {startMs endMs : ℚ}
    (closed : janelaFechada runtime agoraMs r = some (id, startMs, endMs))
    (before : startMs ≤ alvoMs) (after : alvoMs < endMs) :
    id = r.id ∧ Contem runtime agoraMs alvoMs r ∧
      (janelaDaGravacao runtime agoraMs r).startMs = some startMs := by
  unfold janelaFechada at closed
  dsimp only at closed
  split at closed
  case h_2 => cases closed
  rename_i s e starts ends
  split at closed
  case isFalse => cases closed
  obtain ⟨rfl, rest⟩ := Prod.mk.inj (Option.some.inj closed)
  obtain ⟨rfl, rfl⟩ := Prod.mk.inj rest
  exact ⟨rfl, ⟨s, e, starts, ends, before, after⟩, starts⟩

end Windows

variable (listed : List GravacaoSelecionavel)

section Selecting

variable {runtime : Runtime} {relogio alvoMs : ℚ} {opcoes : Opcoes}
  {gravacoes : List GravacaoSelecionavel}

theorem selecionar_best : selecionarGravacaoNoInstante runtime alvoMs relogio opcoes listed =
      match best maisNova (listed.filterMap
          (contida runtime (opcoes.agoraMs.getD relogio) alvoMs)) with
      | some contendo => comConteudo alvoMs contendo
      | none => semConteudo alvoMs opcoes (best ganha (listed.filterMap
          (fora runtime (opcoes.agoraMs.getD relogio) alvoMs))) := by
  unfold selecionarGravacaoNoInstante
  dsimp only
  rw [percorrer]
  dsimp only [best]
  split
  · rename_i found
    obtain ⟨contendo, -⟩ := Prod.mk.inj found
    rw [contendo]
  · rename_i found
    obtain ⟨none_, proxima⟩ := Prod.mk.inj found
    rw [none_, proxima]

theorem semConteudo_exata {proxima : Option Proxima} {id : Text} {offset : Number ℚ} :
    semConteudo alvoMs opcoes proxima ≠ .exata id offset := by
  unfold semConteudo
  split
  all_goals split <;> nofun

/-- With two different entries the answers are the same only when both wait. -/
theorem semConteudo_same_iff (p p' : Proxima) (same : p = p' ∨ p.id ≠ p'.id) :
    semConteudo alvoMs opcoes (some p) = semConteudo alvoMs opcoes (some p') ↔
      p = p' ∨ Aguarda alvoMs opcoes p ∧ Aguarda alvoMs opcoes p' := by
  unfold semConteudo Aguarda
  rcases same with rfl | apart
  · simp
  · have different : p ≠ p' := fun equal => apart (congrArg Proxima.id equal)
    dsimp only
    split
    · rename_i waits
      split
      · rename_i waits'
        simp_all
      · rename_i answers
        simp_all
    · rename_i answers
      split
      all_goals simp_all

end Selecting

/-! The two answers side by side. -/

section Compared

variable {runtime : Runtime} {relogio alvoMs : ℚ} {opcoes : Opcoes}
  {gravacoes : List GravacaoSelecionavel} {playlist : Option VodPlaylist}

variable {agoraMs : ℚ}

theorem PlaylistDe.recorded (de : PlaylistDe runtime agoraMs gravacoes playlist)
    {present : VodPlaylist} (given : playlist = some present) {segment : VodPlaylistSegment}
    (listed : segment ∈ present.segments) :
    ∃ r ∈ gravacoes, janelaFechada runtime agoraMs r = some (janelaDoSegmento segment) := by
  subst given
  exact mem_filterMap.mp (de.same.mem_iff.mp (mem_map_of_mem listed))

theorem PlaylistDe.placed (de : PlaylistDe runtime agoraMs gravacoes playlist)
    (held : ∃ r ∈ gravacoes, Contem runtime agoraMs alvoMs r) :
    ∃ position, absoluteToVodPosition runtime playlist (instante alvoMs) = some position ∧
      position.placement = .inside ∧ ∃ r ∈ gravacoes, ∃ startMs,
        (janelaDaGravacao runtime agoraMs r).startMs = some startMs ∧
        Contem runtime agoraMs alvoMs r ∧ position.segment.recordingId = r.id ∧
        position.offsetInSegmentSeconds = roundSeconds ((alvoMs - startMs) / 1000) ∧
        ∀ r' ∈ gravacoes, Contem runtime agoraMs alvoMs r' →
          ∃ startMs', (janelaDaGravacao runtime agoraMs r').startMs = some startMs' ∧
            startMs ≤ startMs' := by
  have segmentOf : ∀ r ∈ gravacoes, Contem runtime agoraMs alvoMs r →
      ∃ segment ∈ playlist.elim [] VodPlaylist.segments,
        (janelaDaGravacao runtime agoraMs r).startMs = some segment.startedAtMs ∧
          segment.startedAtMs ≤ alvoMs ∧ alvoMs < segment.endedAtMs := by
    intro r listed contains
    obtain ⟨s, e, closed, starts, before, after⟩ := fechada_of_contem contains
    obtain ⟨segment, laid, same⟩ := mem_map.mp
      (de.same.mem_iff.mpr (mem_filterMap.mpr ⟨r, listed, closed⟩))
    obtain ⟨-, rest⟩ := Prod.mk.inj same
    obtain ⟨rfl, rfl⟩ := Prod.mk.inj rest
    exact ⟨segment, laid, starts, before, after⟩
  obtain ⟨r, listed, contains⟩ := held
  obtain ⟨segment, laid, -, before, after⟩ := segmentOf r listed contains
  cases given : playlist with
  | none =>
    rw [given] at laid
    cases laid
  | some present =>
    rw [given] at laid segmentOf
    obtain ⟨raw, fetchedAtMs, normalized⟩ := de.normalized
    have sound := normalizeVodPlaylist_sound runtime (normalized.trans given)
    have named : toMs runtime (instante alvoMs) = some alvoMs := rfl
    obtain ⟨position, answer, inside, here, within, offset, earliest⟩ :=
      absolute_inside sound named ⟨segment, laid, before, after⟩
    obtain ⟨r', listed', closed⟩ := de.recorded given here
    obtain ⟨name, contains', starts'⟩ := contem_of_fechada closed within.1 within.2
    refine ⟨position, answer, inside, r', listed', _, starts', contains', name, offset, ?_⟩
    intro other known holds
    obtain ⟨segment', laid', starts'', before', after'⟩ := segmentOf other known holds
    exact ⟨_, starts'', earliest segment' laid' before' after'⟩

/-! The order of the list. -/

theorem selecionar_held
    (held : ∃ r ∈ listed, Contem runtime (opcoes.agoraMs.getD relogio) alvoMs r) :
    selecionarGravacaoNoInstante runtime alvoMs relogio opcoes listed =
      (best maisNova (listed.filterMap
        (contida runtime (opcoes.agoraMs.getD relogio) alvoMs))).elim .nada
          (comConteudo alvoMs) := by
  obtain ⟨r, known, contains⟩ := held
  have entry := mem_filterMap.mpr ⟨r, known, (contida_iff _).mpr ⟨contains, rfl⟩⟩
  rw [selecionar_best]
  cases found : best maisNova (listed.filterMap
      (contida runtime (opcoes.agoraMs.getD relogio) alvoMs)) with
  | none =>
    rw [(best_eq_none maisNova).mp found] at entry
    cases entry
  | some contendo => rfl

theorem selecionar_free
    (free : ∀ r ∈ listed, ¬Contem runtime (opcoes.agoraMs.getD relogio) alvoMs r) :
    selecionarGravacaoNoInstante runtime alvoMs relogio opcoes listed =
      semConteudo alvoMs opcoes (best ganha (listed.filterMap
        (fora runtime (opcoes.agoraMs.getD relogio) alvoMs))) := by
  have none_ : listed.filterMap (contida runtime (opcoes.agoraMs.getD relogio) alvoMs) = [] := by
    apply filterMap_eq_nil_iff.mpr
    intro r known
    cases entry : contida runtime (opcoes.agoraMs.getD relogio) alvoMs r with
    | none => rfl
    | some c => exact absurd ((contida_iff c).mp entry).1 (free r known)
  rw [selecionar_best, none_]
  rfl

theorem ordem_held (held : ∃ r ∈ gravacoes, Contem runtime (opcoes.agoraMs.getD relogio) alvoMs r) :
    (∀ listed : List GravacaoSelecionavel, listed.Perm gravacoes →
      selecionarGravacaoNoInstante runtime alvoMs relogio opcoes listed =
        selecionarGravacaoNoInstante runtime alvoMs relogio opcoes gravacoes) ↔
      ∀ u v, Unbeaten maisNova (gravacoes.filterMap
          (contida runtime (opcoes.agoraMs.getD relogio) alvoMs)) u →
        Unbeaten maisNova (gravacoes.filterMap
          (contida runtime (opcoes.agoraMs.getD relogio) alvoMs)) v →
          comConteudo alvoMs u = comConteudo alvoMs v := by
  have general := answer_perm_iff maisNova
    (contida runtime (opcoes.agoraMs.getD relogio) alvoMs)
    (fun contendo => contendo.elim SelecaoDeGravacao.nada (comConteudo alvoMs)) gravacoes
  refine Iff.trans ?_ general
  apply forall_congr'
  intro listed
  apply imp_congr_right
  intro perm
  obtain ⟨r, known, contains⟩ := held
  rw [selecionar_held listed ⟨r, perm.mem_iff.mpr known, contains⟩,
    selecionar_held gravacoes ⟨r, known, contains⟩]

theorem ordem_free (free : ∀ r ∈ gravacoes, ¬Contem runtime (opcoes.agoraMs.getD relogio) alvoMs r) :
    (∀ listed : List GravacaoSelecionavel, listed.Perm gravacoes →
      selecionarGravacaoNoInstante runtime alvoMs relogio opcoes listed =
        selecionarGravacaoNoInstante runtime alvoMs relogio opcoes gravacoes) ↔
      ∀ u v, Unbeaten ganha (gravacoes.filterMap
          (fora runtime (opcoes.agoraMs.getD relogio) alvoMs)) u →
        Unbeaten ganha (gravacoes.filterMap
          (fora runtime (opcoes.agoraMs.getD relogio) alvoMs)) v →
          semConteudo alvoMs opcoes (some u) = semConteudo alvoMs opcoes (some v) := by
  have general := answer_perm_iff ganha (fora runtime (opcoes.agoraMs.getD relogio) alvoMs)
    (semConteudo alvoMs opcoes) gravacoes
  rw [← general]
  apply forall_congr'
  intro listed
  apply imp_congr_right
  intro perm
  rw [selecionar_free listed (fun r known => free r (perm.mem_iff.mp known)),
    selecionar_free gravacoes free]

theorem unbeaten_iff {r : GravacaoSelecionavel} {p : Proxima} (listed : r ∈ gravacoes)
    (entry : fora runtime agoraMs alvoMs r = some p) :
    Unbeaten ganha (gravacoes.filterMap (fora runtime agoraMs alvoMs)) p ↔
      MaisProxima runtime agoraMs alvoMs gravacoes r p := by
  constructor
  · intro unbeaten
    refine ⟨entry, fun r' listed' p' entry' => ?_⟩
    exact unbeaten.2 p' (mem_filterMap.mpr ⟨r', listed', entry'⟩)
  · rintro ⟨-, none_⟩
    refine ⟨mem_filterMap.mpr ⟨r, listed, entry⟩, ?_⟩
    intro p' known
    obtain ⟨r', listed', entry'⟩ := mem_filterMap.mp known
    exact none_ r' listed' p' entry'

theorem fora_id {r : GravacaoSelecionavel} {p : Proxima}
    (entry : fora runtime agoraMs alvoMs r = some p) : p.id = r.id := by
  unfold fora at entry
  dsimp only at entry
  split at entry
  · cases entry
  split at entry
  · cases entry
  obtain rfl := Option.some.inj entry
  unfold proximaDe
  split <;> rfl

theorem ordem_free_iff (distinct : (gravacoes.map GravacaoSelecionavel.id).Nodup)
    (free : ∀ r ∈ gravacoes, ¬Contem runtime (opcoes.agoraMs.getD relogio) alvoMs r) :
    (∀ listed : List GravacaoSelecionavel, listed.Perm gravacoes →
      selecionarGravacaoNoInstante runtime alvoMs relogio opcoes listed =
        selecionarGravacaoNoInstante runtime alvoMs relogio opcoes gravacoes) ↔
      ∀ r ∈ gravacoes, ∀ r' ∈ gravacoes, ∀ p p',
        MaisProxima runtime (opcoes.agoraMs.getD relogio) alvoMs gravacoes r p →
        MaisProxima runtime (opcoes.agoraMs.getD relogio) alvoMs gravacoes r' p' →
          r = r' ∨ Aguarda alvoMs opcoes p ∧ Aguarda alvoMs opcoes p' := by
  have named : ∀ r ∈ gravacoes, ∀ r' ∈ gravacoes, ∀ p p',
      fora runtime (opcoes.agoraMs.getD relogio) alvoMs r = some p →
      fora runtime (opcoes.agoraMs.getD relogio) alvoMs r' = some p' →
        (r = r' ↔ p = p') ∧ (p = p' ∨ p.id ≠ p'.id) := by
    intro r listed r' listed' p p' entry entry'
    have own := fora_id entry
    have own' := fora_id entry'
    by_cases same : r = r'
    · subst same
      obtain rfl := Option.some.inj (entry.symm.trans entry')
      exact ⟨iff_of_true rfl rfl, Or.inl rfl⟩
    · have apart : p.id ≠ p'.id := by
        rw [own, own']
        intro equal
        exact same (inj_on_of_nodup_map distinct listed listed' equal)
      exact ⟨iff_of_false same fun equal => apart (congrArg Proxima.id equal), Or.inr apart⟩
  rw [ordem_free free]
  constructor
  · intro same r listed r' listed' p p' nearest nearest'
    obtain ⟨alike, either⟩ := named r listed r' listed' p p' nearest.1 nearest'.1
    rw [alike, ← semConteudo_same_iff p p' either]
    exact same p p' ((unbeaten_iff listed nearest.1).mpr nearest)
      ((unbeaten_iff listed' nearest'.1).mpr nearest')
  · intro alone p p' unbeaten unbeaten'
    obtain ⟨r, listed, entry⟩ := mem_filterMap.mp unbeaten.1
    obtain ⟨r', listed', entry'⟩ := mem_filterMap.mp unbeaten'.1
    obtain ⟨alike, either⟩ := named r listed r' listed' p p' entry entry'
    rw [semConteudo_same_iff p p' either, ← alike]
    exact alone r listed r' listed' p p' ((unbeaten_iff listed entry).mp unbeaten)
      ((unbeaten_iff listed' entry').mp unbeaten')

theorem comConteudo_offset {id : Text} {startMs : ℚ} (before : startMs ≤ alvoMs) :
    comConteudo alvoMs ⟨id, some startMs⟩ = .exata id (some ((alvoMs - startMs) / 1000)) := by
  have nonneg : 0 ≤ (alvoMs - startMs) / 1000 := by linarith
  rw [comConteudo]
  dsimp only [menos, Option.map_some, maximo]
  rw [max_eq_right nonneg]

theorem rounded_iff {startMs : ℚ} (whole : ∃ n : ℤ, startMs = n) :
    (alvoMs - startMs) / 1000 = roundSeconds ((alvoMs - startMs) / 1000) ↔ ∃ n : ℤ, alvoMs = n := by
  obtain ⟨m, rfl⟩ := whole
  constructor
  · intro same
    obtain ⟨n, onTheMs⟩ : ∃ n : ℤ, roundSeconds ((alvoMs - m) / 1000) = n / 1000 := ⟨_, rfl⟩
    refine ⟨n + m, ?_⟩
    push_cast
    linarith
  · rintro ⟨n, rfl⟩
    have ms := roundSeconds_ms (n - m)
    push_cast at ms
    exact ms.symm

/-- With one recording alone at the instant, a whole millisecond, both answer with it. -/
theorem umaGravacao_of_alone
    (de : PlaylistDe runtime (opcoes.agoraMs.getD relogio) gravacoes playlist)
    (held : ∃ r ∈ gravacoes, Contem runtime (opcoes.agoraMs.getD relogio) alvoMs r)
    (alone : SemEmpate runtime (opcoes.agoraMs.getD relogio) alvoMs opcoes gravacoes) :
    UmaGravacao runtime relogio opcoes alvoMs gravacoes playlist := by
  obtain ⟨position, answer, inside, r, listed, startMs, starts, contains, name, offset, -⟩ :=
    de.placed held
  have only : ∀ u ∈ gravacoes.filterMap (contida runtime (opcoes.agoraMs.getD relogio) alvoMs),
      u = ⟨r.id, some startMs⟩ := by
    intro u entry
    obtain ⟨r', listed', given⟩ := mem_filterMap.mp entry
    obtain ⟨contains', rfl⟩ := (contida_iff u).mp given
    obtain rfl := alone.unica r' listed' r listed contains' contains
    rw [starts]
  constructor
  · intro id offset' exact_
    rw [selecionar_held gravacoes held] at exact_
    cases found : best maisNova
        (gravacoes.filterMap (contida runtime (opcoes.agoraMs.getD relogio) alvoMs)) with
    | none =>
      rw [found] at exact_
      cases exact_
    | some u =>
      obtain rfl := only u (best_unbeaten maisNova found).1
      obtain ⟨s, -, starts', -, before, -⟩ := contains
      obtain rfl := Option.some.inj (starts.symm.trans starts')
      rw [found, Option.elim_some, comConteudo_offset before] at exact_
      obtain ⟨rfl, rfl⟩ := SelecaoDeGravacao.exata.inj exact_
      refine ⟨position, answer, inside, name, ?_⟩
      rw [offset, ← (rounded_iff (janela_inteira starts)).mpr (alone.inteira held)]
  · apply (ordem_held held).mpr
    intro u v first second
    rw [only u first.1, only v second.1]

/-- Where both answer with one recording it is the only one at the instant, which is whole. -/
theorem alone_of_umaGravacao (distinct : (gravacoes.map GravacaoSelecionavel.id).Nodup)
    (de : PlaylistDe runtime (opcoes.agoraMs.getD relogio) gravacoes playlist)
    (held : ∃ r ∈ gravacoes, Contem runtime (opcoes.agoraMs.getD relogio) alvoMs r)
    (agrees : UmaGravacao runtime relogio opcoes alvoMs gravacoes playlist) :
    SemEmpate runtime (opcoes.agoraMs.getD relogio) alvoMs opcoes gravacoes := by
  obtain ⟨position, answer, -, r, listed, startMs, starts, contains, name, offset, earliest⟩ :=
    de.placed held
  have selected : selecionarGravacaoNoInstante runtime alvoMs relogio opcoes gravacoes = _ :=
    selecionar_held gravacoes held
  cases found : best maisNova
      (gravacoes.filterMap (contida runtime (opcoes.agoraMs.getD relogio) alvoMs)) with
  | none =>
    have entry := mem_filterMap.mpr ⟨r, listed, (contida_iff _).mpr ⟨contains, rfl⟩⟩
    rw [(best_eq_none maisNova).mp found] at entry
    cases entry
  | some u =>
    obtain ⟨entry, unbeaten⟩ := best_unbeaten maisNova found
    obtain ⟨r', listed', given⟩ := mem_filterMap.mp entry
    obtain ⟨contains', rfl⟩ := (contida_iff u).mp given
    obtain ⟨startMs', starts', -⟩ := earliest r' listed' contains'
    have before' : startMs' ≤ alvoMs := by
      obtain ⟨s, -, starts'', -, before, -⟩ := contains'
      rwa [Option.some.inj (starts'.symm.trans starts'')]
    rw [found, Option.elim_some, starts', comConteudo_offset before'] at selected
    obtain ⟨position', answer', -, name', offset'⟩ := agrees.mesma _ _ selected
    obtain rfl := Option.some.inj (answer.symm.trans answer')
    obtain rfl := inj_on_of_nodup_map distinct listed listed' (name.symm.trans name')
    obtain rfl := Option.some.inj (starts.symm.trans starts')
    have level : ∀ other ∈ gravacoes, Contem runtime (opcoes.agoraMs.getD relogio) alvoMs other →
        (janelaDaGravacao runtime (opcoes.agoraMs.getD relogio) other).startMs = some startMs := by
      intro other known holds
      obtain ⟨s, starts'', least⟩ := earliest other known holds
      have notNewer := unbeaten _
        (mem_filterMap.mpr ⟨other, known, (contida_iff _).mpr ⟨holds, rfl⟩⟩)
      rcases least.lt_or_eq with later | same
      · exact absurd (lt_iff.mpr ⟨startMs, s, starts, starts'', later⟩) notNewer
      · rw [starts'', same]
    have kept : ∀ other ∈ gravacoes, Contem runtime (opcoes.agoraMs.getD relogio) alvoMs other →
        Unbeaten maisNova
          (gravacoes.filterMap (contida runtime (opcoes.agoraMs.getD relogio) alvoMs))
          ⟨other.id, some startMs⟩ := by
      intro other known holds
      constructor
      · refine mem_filterMap.mpr ⟨other, known, (contida_iff _).mpr ⟨holds, ?_⟩⟩
        rw [level other known holds]
      · intro c known'
        have notNewer := unbeaten c known'
        rwa [maisNova, starts] at notNewer
    refine ⟨?_, ?_, ?_⟩
    · intro first known second known' holds holds'
      have same := (ordem_held held).mp agrees.ordem _ _ (kept first known holds)
        (kept second known' holds')
      exact inj_on_of_nodup_map distinct known known' (SelecaoDeGravacao.exata.inj same).1
    · intro _
      apply (rounded_iff (janela_inteira starts)).mp
      rw [← offset]
      exact Option.some.inj offset'
    · intro free
      exact absurd contains (free r listed)

/-- The player and the selection agree, whatever the order, exactly when nothing ties. -/
theorem umaGravacao_iff (distinct : (gravacoes.map GravacaoSelecionavel.id).Nodup)
    (de : PlaylistDe runtime (opcoes.agoraMs.getD relogio) gravacoes playlist) :
    UmaGravacao runtime relogio opcoes alvoMs gravacoes playlist ↔
      SemEmpate runtime (opcoes.agoraMs.getD relogio) alvoMs opcoes gravacoes := by
  by_cases held : ∃ r ∈ gravacoes, Contem runtime (opcoes.agoraMs.getD relogio) alvoMs r
  · exact ⟨alone_of_umaGravacao distinct de held, umaGravacao_of_alone de held⟩
  · have free : ∀ r ∈ gravacoes, ¬Contem runtime (opcoes.agoraMs.getD relogio) alvoMs r :=
      fun r listed contains => held ⟨r, listed, contains⟩
    constructor
    · intro agrees
      refine ⟨?_, fun some_ => absurd some_ held, fun _ => ?_⟩
      · intro r listed _ _ contains
        exact absurd contains (free r listed)
      · exact (ordem_free_iff distinct free).mp agrees.ordem
    · intro alone
      refine ⟨?_, (ordem_free_iff distinct free).mpr (alone.proxima free)⟩
      intro id offset exact_
      rw [selecionar_free gravacoes free] at exact_
      exact absurd exact_ semConteudo_exata

end Compared

def semOpcoes : Opcoes := ⟨none, none, none, none⟩

def gravacao (id startedAt : String) (durationSeconds : ℚ) : GravacaoSelecionavel :=
  ⟨id.toList, startedAt.toList, none, some durationSeconds⟩

/-- A gap of one second lies between the two recordings. -/
def gapped : List GravacaoSelecionavel :=
  [gravacao "rec-1" "2026-07-27T08:00:00.000Z" 10, gravacao "rec-2" "2026-07-27T08:00:11.000Z" 10]

/-- Alone at the instant, the second recording is what both answer. -/
theorem umaGravacao_sozinha : UmaGravacao twoDates 0 semOpcoes 1785139213000 gapped
      (normalizeVodPlaylist twoDates (twoSegments 10) 0) := by
  have first : ¬Contem twoDates 0 1785139213000
      (gravacao "rec-1" "2026-07-27T08:00:00.000Z" 10) := by
    rintro ⟨_, endMs, -, ends, -, before⟩
    have ended : endMs = 1785139210000 := Option.some.inj (ends.symm.trans (by decide +kernel))
    rw [ended] at before
    norm_num at before
  have second : Contem twoDates 0 1785139213000
      (gravacao "rec-2" "2026-07-27T08:00:11.000Z" 10) :=
    ⟨1785139211000, 1785139221000, by decide +kernel, by decide +kernel, by norm_num, by norm_num⟩
  refine (umaGravacao_iff (by decide) ⟨⟨_, _, rfl⟩, by decide +kernel⟩).mpr ⟨?_, ?_, ?_⟩
  · intro r listed r' listed' holds holds'
    rcases mem_pair.mp listed with rfl | rfl
    · exact absurd holds first
    · rcases mem_pair.mp listed' with rfl | rfl
      · exact absurd holds' first
      · rfl
  · intro _
    exact ⟨1785139213000, by norm_num⟩
  · intro free
    exact absurd second (free _ (mem_cons_of_mem _ (mem_singleton_self _)))

/-- The first recording goes on for five seconds after the second has begun. At two of them the
selection has the second one, the playlist the first. -/
theorem preRoll_disagrees : ¬∀ (runtime : Runtime) (relogio : ℚ) (opcoes : Opcoes) (alvoMs : ℚ)
      (gravacoes : List GravacaoSelecionavel) (playlist : Option VodPlaylist),
      (gravacoes.map GravacaoSelecionavel.id).Nodup →
        PlaylistDe runtime (opcoes.agoraMs.getD relogio) gravacoes playlist →
          UmaGravacao runtime relogio opcoes alvoMs gravacoes playlist := by
  intro claim
  have agrees := claim twoDates 0 semOpcoes 1785139213000
    [gravacao "rec-1" "2026-07-27T08:00:00.000Z" 16, gravacao "rec-2" "2026-07-27T08:00:11.000Z" 10]
    (normalizeVodPlaylist twoDates (twoSegments 16) 0) (by decide)
    ⟨⟨_, _, rfl⟩, by decide +kernel⟩
  obtain ⟨position, answer, -, second, -⟩ :=
    agrees.mesma "rec-2".toList (some 2) (by decide +kernel)
  have first : (absoluteToVodPosition twoDates (normalizeVodPlaylist twoDates (twoSegments 16) 0)
      (instante 1785139213000)).map (fun position => position.segment.recordingId) =
        some "rec-1".toList := by
    decide +kernel
  rw [answer, Option.map_some, second] at first
  exact absurd (Option.some.inj first) (by decide)

end DracVms.PlaybackSelection
