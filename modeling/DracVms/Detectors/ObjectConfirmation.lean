import DracVms.Library.KeyedTable

namespace DracVms.ObjectConfirmation

open List KeyedTable

/-- When a tracked object becomes an event. -/
structure PoliticaDeConfirmacao where
  minimoDeQuadros : ℕ := 3
  limiarMediana : ℚ := 7 / 10
  esquecerAposFaltas : ℕ := 20
  janelaDeConfiancas : ℕ := 30
  maximoDeFaixas : ℕ := 256
  janela : 0 < janelaDeConfiancas := by decide

structure Deteccao (Chave : Type) where
  trackId : Option Chave
  confidence : ℚ

structure Faixa where
  confiancas : List ℚ := []
  quadros : ℕ := 0
  faltas : ℕ := 0
  confirmada : Bool := false
  ultimaOrdem : ℕ := 0

structure ConfirmadorDeObjeto (Chave : Type) where
  faixas : KeyedTable Chave Faixa
  ordem : ℕ

def confirmador (Chave : Type) : ConfirmadorDeObjeto Chave := ⟨KeyedTable.empty, 0⟩

/-- The middle of the sorted values, or the mean of the two in the middle. -/
def mediana (valores : List ℚ) : Option ℚ :=
  let ordenados := valores.insertionSort (· ≤ ·)
  let meio := ordenados.length / 2
  if ordenados.length % 2 = 1 then ordenados[meio]?
  else (ordenados[meio - 1]?).bind fun a => (ordenados[meio]?).map fun b => (a + b) / 2

section Evaluation

variable {Chave : Type} [DecidableEq Chave] (politica : PoliticaDeConfirmacao)

/-- The track with one more appearance. -/
def Faixa.ver (faixa : Faixa) (ordem : ℕ) (confianca : ℚ) : Faixa :=
  let confiancas := faixa.confiancas ++ [confianca]
  { faixa with
    quadros := faixa.quadros + 1
    faltas := 0
    ultimaOrdem := ordem
    confiancas :=
      if politica.janelaDeConfiancas < confiancas.length then confiancas.tail else confiancas }

def Faixa.confirma (faixa : Faixa) : Bool :=
  !faixa.confirmada && politica.minimoDeQuadros ≤ faixa.quadros &&
    (mediana faixa.confiancas).any fun m => politica.limiarMediana ≤ m

/-- One detection of a frame, with the tracks and what was confirmed so far. -/
def passo (ordem : ℕ) (estado : KeyedTable Chave Faixa × List (Deteccao Chave))
    (deteccao : Deteccao Chave) : KeyedTable Chave Faixa × List (Deteccao Chave) :=
  match deteccao.trackId with
  | none => (estado.1, estado.2 ++ [deteccao])
  | some chave =>
    let faixa := ((estado.1.get chave).getD {}).ver politica ordem deteccao.confidence
    if faixa.confirma politica then
      (estado.1.put (chave, { faixa with confirmada := true }), estado.2 ++ [deteccao])
    else (estado.1.put (chave, faixa), estado.2)

def contarFaltas (vistas : List Chave) (faixas : KeyedTable Chave Faixa) :
    KeyedTable Chave Faixa :=
  (faixas.mapValues fun chave faixa =>
      if chave ∈ vistas then faixa else { faixa with faltas := faixa.faltas + 1 }).keep
    fun chave => chave ∈ vistas ||
      (faixas.get chave).all fun faixa => faixa.faltas + 1 ≤ politica.esquecerAposFaltas

/-- The tracks that were seen longest ago, as many as there are too many. -/
def maisAntigas (faixas : KeyedTable Chave Faixa) : List Chave :=
  let ordenadas := faixas.rows.insertionSort fun a b => a.2.ultimaOrdem ≤ b.2.ultimaOrdem
  (ordenadas.take (faixas.rows.length - politica.maximoDeFaixas)).map Prod.fst

def limitar (faixas : KeyedTable Chave Faixa) : KeyedTable Chave Faixa :=
  faixas.keep fun chave => chave ∉ maisAntigas politica faixas

def vistas (deteccoes : List (Deteccao Chave)) : List Chave :=
  deteccoes.filterMap Deteccao.trackId

def avaliar (c : ConfirmadorDeObjeto Chave) (deteccoes : List (Deteccao Chave)) :
    List (Deteccao Chave) × ConfirmadorDeObjeto Chave :=
  let ordem := c.ordem + 1
  let (faixas, confirmadas) := deteccoes.foldl (passo politica ordem) (c.faixas, [])
  (confirmadas, ⟨limitar politica (contarFaltas politica (vistas deteccoes) faixas), ordem⟩)

end Evaluation

/-! What a track has gone through since it first appeared. -/

structure Vida where
  quadros : ℕ := 0
  confiancas : List ℚ := []
  emissoes : ℕ := 0

section Lives

variable {Chave : Type} [DecidableEq Chave] (politica : PoliticaDeConfirmacao)

/-- The detections of a track. -/
def da (chave : Chave) (deteccoes : List (Deteccao Chave)) : List (Deteccao Chave) :=
  deteccoes.filter fun d => d.trackId = some chave

/-- A life after one more frame: the frame counts once, however often the track is in it. -/
def Vida.viver (vida : Vida) (chave : Chave) (deteccoes emitidas : List (Deteccao Chave)) : Vida where
  quadros := if da chave deteccoes = [] then vida.quadros else vida.quadros + 1
  confiancas := vida.confiancas ++ (da chave deteccoes).map Deteccao.confidence
  emissoes := vida.emissoes + (da chave emitidas).length

/-- The lives after a frame; that of a forgotten track is over. -/
def vidasDepois (vidas : Chave → Vida) (deteccoes emitidas : List (Deteccao Chave))
    (faixas : KeyedTable Chave Faixa) (chave : Chave) : Vida :=
  if chave ∈ faixas.keys then (vidas chave).viver chave deteccoes emitidas else {}

/-- What a frame may emit, and what may be remembered after it. -/
structure QuadroCorreto (vidas : Chave → Vida) (deteccoes emitidas : List (Deteccao Chave))
    (faixas : KeyedTable Chave Faixa) : Prop where
  once : ∀ chave, ((vidas chave).viver chave deteccoes emitidas).emissoes ≤ 1
  evidence : ∀ chave, da chave emitidas ≠ [] →
    politica.minimoDeQuadros ≤ ((vidas chave).viver chave deteccoes emitidas).quadros ∧
    ∃ m, mediana ((((vidas chave).viver chave deteccoes emitidas).confiancas).rtake
      politica.janelaDeConfiancas) = some m ∧ politica.limiarMediana ≤ m
  bounded : faixas.rows.length ≤ politica.maximoDeFaixas

/-- Every frame of the run is correct. -/
def RunCorreto : ConfirmadorDeObjeto Chave → (Chave → Vida) → List (List (Deteccao Chave)) → Prop
  | _, _, [] => True
  | c, vidas, deteccoes :: outros =>
    let (emitidas, depois) := avaliar politica c deteccoes
    QuadroCorreto politica vidas deteccoes emitidas depois.faixas ∧
      RunCorreto depois (vidasDepois vidas deteccoes emitidas depois.faixas) outros

def Confirmada (faixas : KeyedTable Chave Faixa) (chave : Chave) : Prop :=
  ∃ faixa, faixas.get chave = some faixa ∧ faixa.confirmada = true

/-- A track that is not confirmed yet is at most once in the frame. -/
def SemRepetidas (faixas : KeyedTable Chave Faixa) (deteccoes : List (Deteccao Chave)) : Prop :=
  ∀ chave, ¬Confirmada faixas chave → (da chave deteccoes).length ≤ 1

def RunSemRepetidas : ConfirmadorDeObjeto Chave → List (List (Deteccao Chave)) → Prop
  | _, [] => True
  | c, deteccoes :: outros =>
    SemRepetidas c.faixas deteccoes ∧ RunSemRepetidas (avaliar politica c deteccoes).2 outros

end Lives

variable {faixa : Faixa}

section Frame

variable {Chave : Type} [DecidableEq Chave] {politica : PoliticaDeConfirmacao}

theorem da_append (chave : Chave) (xs ys : List (Deteccao Chave)) :
    da chave (xs ++ ys) = da chave xs ++ da chave ys := filter_append ..

variable {d : Deteccao Chave}

theorem da_own {chave : Chave} (own : d.trackId = some chave) : da chave [d] = [d] := by
  rw [da, filter_cons_of_pos (by simpa using own), filter_nil]

theorem da_other {chave : Chave} (other : d.trackId ≠ some chave) : da chave [d] = [] := by
  rw [da, filter_cons_of_neg (by simpa using other), filter_nil]

theorem ver_confiancas {todas : List ℚ} (ordem : ℕ) (confianca : ℚ)
    (window : faixa.confiancas = todas.rtake politica.janelaDeConfiancas) :
    (faixa.ver politica ordem confianca).confiancas =
      (todas ++ [confianca]).rtake politica.janelaDeConfiancas := by
  obtain ⟨k, size⟩ : ∃ k, politica.janelaDeConfiancas = k + 1 :=
    ⟨politica.janelaDeConfiancas - 1, by have := politica.janela; omega⟩
  have kept : ∀ n, (todas.rtake n).length = todas.length - (todas.length - n) := fun n =>
    length_drop
  rw [Faixa.ver, window, size, rtake_concat_succ]
  rw [length_append, kept, length_singleton]
  by_cases long : k + 1 ≤ todas.length
  · have solid : todas.rtake (k + 1) ≠ [] := by
      apply ne_nil_of_length_pos
      rw [kept]
      omega
    have less : (todas.rtake (k + 1)).tail = todas.rtake k := by
      rw [List.rtake, List.rtake, tail_drop]
      congr 1
      omega
    rw [if_pos (by omega), tail_append_of_ne_nil solid, less]
  · have whole : todas.rtake (k + 1) = todas.rtake k := by
      rw [List.rtake, List.rtake]
      congr 1
      omega
    rw [if_neg (by omega), whole]

variable (politica) in
/-- What is remembered of a track in the middle of a frame, beside the life that it has had. -/
structure Fiel (vida : Vida) (antes : KeyedTable Chave Faixa) (chave : Chave)
    (feito : List (Deteccao Chave)) (estado : KeyedTable Chave Faixa × List (Deteccao Chave)) :
    Prop where
  absent : estado.1.get chave = none → vida.viver chave feito estado.2 = {}
  window : ∀ faixa, estado.1.get chave = some faixa → faixa.confiancas =
    (vida.viver chave feito estado.2).confiancas.rtake politica.janelaDeConfiancas
  confirmed : ∀ faixa, estado.1.get chave = some faixa → faixa.confirmada = true →
    (vida.viver chave feito estado.2).emissoes = 1
  waiting : ∀ faixa, estado.1.get chave = some faixa → faixa.confirmada = false →
    (vida.viver chave feito estado.2).emissoes = 0 ∧
      faixa.quadros = (vida.viver chave feito estado.2).quadros
  stays : Confirmada antes chave → Confirmada estado.1 chave
  emitted : da chave estado.2 ≠ [] → ¬Confirmada antes chave ∧ da chave feito ≠ [] ∧
    politica.minimoDeQuadros ≤ (vida.viver chave feito estado.2).quadros ∧
    ∃ m, mediana ((vida.viver chave feito estado.2).confiancas.rtake
      politica.janelaDeConfiancas) = some m ∧ politica.limiarMediana ≤ m

variable {vida : Vida} {antes : KeyedTable Chave Faixa} {chave : Chave}
  {feito : List (Deteccao Chave)} {estado : KeyedTable Chave Faixa × List (Deteccao Chave)}

variable (politica estado) in
theorem passo_get_other (ordem : ℕ) (other : d.trackId ≠ some chave) :
    (passo politica ordem estado d).1.get chave = estado.1.get chave := by
  unfold passo
  split
  · rfl
  · rename_i outra named
    have apart : chave ≠ outra := fun same => other (by rw [named, same])
    dsimp only
    split
    all_goals rw [get_put, if_neg apart]

variable (politica estado) in
theorem passo_da_other (ordem : ℕ) (other : d.trackId ≠ some chave) :
    da chave (passo politica ordem estado d).2 = da chave estado.2 := by
  unfold passo
  split
  · rw [da_append, da_other other, append_nil]
  · dsimp only
    split
    · rw [da_append, da_other other, append_nil]
    · rfl

variable (vida) in
theorem viver_congr {feito' emitidas emitidas' : List (Deteccao Chave)}
    (sameSeen : da chave feito' = da chave feito) (sameOut : da chave emitidas' = da chave emitidas) :
    vida.viver chave feito' emitidas' = vida.viver chave feito emitidas := by
  rw [Vida.viver, Vida.viver, sameSeen, sameOut]

theorem Fiel.outro (fiel : Fiel politica vida antes chave feito estado) (ordem : ℕ)
    (other : d.trackId ≠ some chave) :
    Fiel politica vida antes chave (feito ++ [d]) (passo politica ordem estado d) := by
  have seen : da chave (feito ++ [d]) = da chave feito := by
    rw [da_append, da_other other, append_nil]
  have out := passo_da_other politica estado ordem other
  have same := viver_congr vida seen out
  have kept := passo_get_other politica estado ordem other
  exact
    { absent := by rw [kept, same]; exact fiel.absent
      window := by rw [kept, same]; exact fiel.window
      confirmed := by rw [kept, same]; exact fiel.confirmed
      waiting := by rw [kept, same]; exact fiel.waiting
      stays := by
        unfold Confirmada
        rw [kept]
        exact fiel.stays
      emitted := by rw [out, seen, same]; exact fiel.emitted }

theorem confirma_iff : faixa.confirma politica = true ↔ faixa.confirmada = false ∧
    politica.minimoDeQuadros ≤ faixa.quadros ∧
    ∃ m, mediana faixa.confiancas = some m ∧ politica.limiarMediana ≤ m := by
  rw [Faixa.confirma, Bool.and_eq_true, Bool.and_eq_true, Bool.not_eq_true', decide_eq_true_eq,
    and_assoc]
  cases mediana faixa.confiancas <;> simp

theorem viver_first (own : d.trackId = some chave) (first : da chave feito = [])
    (emitidas : List (Deteccao Chave)) : (vida.viver chave (feito ++ [d]) emitidas).quadros =
      (vida.viver chave feito emitidas).quadros + 1 := by
  have seen : da chave (feito ++ [d]) ≠ [] := by
    rw [da_append, da_own own]
    exact append_ne_nil_of_right_ne_nil _ (cons_ne_nil _ _)
  simp only [Vida.viver, if_neg seen, if_pos first]

theorem viver_confiancas (own : d.trackId = some chave) (emitidas emitidas' : List (Deteccao Chave)) :
    (vida.viver chave (feito ++ [d]) emitidas').confiancas =
      (vida.viver chave feito emitidas).confiancas ++ [d.confidence] := by
  simp only [Vida.viver, da_append, da_own own, map_append, map_singleton, append_assoc]

theorem viver_emissoes (own : d.trackId = some chave) (feito' emitidas : List (Deteccao Chave)) :
    (vida.viver chave feito' (emitidas ++ [d])).emissoes =
      (vida.viver chave feito emitidas).emissoes + 1 := by
  simp only [Vida.viver, da_append, da_own own, length_append, length_singleton, Nat.add_assoc]

theorem Fiel.vista (fiel : Fiel politica vida antes chave feito estado) (faixa : Faixa)
    (remembered : faixa = (estado.1.get chave).getD {}) : faixa.confiancas =
        (vida.viver chave feito estado.2).confiancas.rtake politica.janelaDeConfiancas ∧
      (faixa.confirmada = true → (vida.viver chave feito estado.2).emissoes = 1) ∧
      (faixa.confirmada = false → (vida.viver chave feito estado.2).emissoes = 0 ∧
        faixa.quadros = (vida.viver chave feito estado.2).quadros) := by
  cases found : estado.1.get chave with
  | none =>
    rw [found, Option.getD_none] at remembered
    rw [fiel.absent found, remembered]
    exact ⟨rtake_nil _ |>.symm, nofun, fun _ => ⟨rfl, rfl⟩⟩
  | some known =>
    rw [found, Option.getD_some] at remembered
    subst remembered
    exact ⟨fiel.window _ found, fiel.confirmed _ found, fiel.waiting _ found⟩

theorem Fiel.proprio (fiel : Fiel politica vida antes chave feito estado) (ordem : ℕ)
    (own : d.trackId = some chave) (first : ¬Confirmada antes chave → da chave feito = []) :
    Fiel politica vida antes chave (feito ++ [d]) (passo politica ordem estado d) := by
  obtain ⟨window, confirmed, waiting⟩ := fiel.vista _ rfl
  generalize faixaIs : (estado.1.get chave).getD {} = faixa at window confirmed waiting
  have seen : da chave (feito ++ [d]) ≠ [] := by
    rw [da_append, da_own own]
    exact append_ne_nil_of_right_ne_nil _ (cons_ne_nil _ _)
  have window' := ver_confiancas ordem d.confidence window
  have flag : (faixa.ver politica ordem d.confidence).confirmada = faixa.confirmada := rfl
  have count : (faixa.ver politica ordem d.confidence).quadros = faixa.quadros + 1 := rfl
  -- a track that is not confirmed here was not before the frame either
  have before : faixa.confirmada = false → ¬Confirmada antes chave := by
    intro open_ was
    obtain ⟨known, found, marked⟩ := fiel.stays was
    rw [found, Option.getD_some] at faixaIs
    rw [← faixaIs, marked] at open_
    cases open_
  have step : passo politica ordem estado d =
      if (faixa.ver politica ordem d.confidence).confirma politica then
        (estado.1.put (chave, { faixa.ver politica ordem d.confidence with confirmada := true }),
          estado.2 ++ [d])
      else (estado.1.put (chave, faixa.ver politica ordem d.confidence), estado.2) := by
    rw [passo, own]
    simp only [faixaIs]
  rw [step]
  by_cases fires : (faixa.ver politica ordem d.confidence).confirma politica = true
  · obtain ⟨open_, enough, m, middle, high⟩ := confirma_iff.mp fires
    obtain ⟨none_, quadros⟩ := waiting open_
    have fresh := first (before open_)
    rw [if_pos fires]
    have stored : ∀ found, (estado.1.put (chave,
        { faixa.ver politica ordem d.confidence with confirmada := true })).get chave = some found →
        found = { faixa.ver politica ordem d.confidence with confirmada := true } := by
      intro found known
      rw [get_put, if_pos rfl] at known
      exact (Option.some.inj known).symm
    refine ⟨?_, ?_, ?_, ?_, ?_, ?_⟩
    · intro lost
      rw [get_put, if_pos rfl] at lost
      cases lost
    · intro found known
      rw [stored found known, viver_confiancas own estado.2]
      exact window'
    · intro found _ _
      rw [viver_emissoes own, none_]
    · intro found known open'
      rw [stored found known] at open'
      cases open'
    · exact fun _ => ⟨_, by rw [get_put, if_pos rfl], rfl⟩
    · refine fun _ => ⟨before open_, seen, ?_, m, ?_, high⟩
      · rw [viver_first own fresh]
        rw [count, quadros] at enough
        exact enough
      · rw [viver_confiancas own estado.2, ← window']
        exact middle
  · rw [if_neg fires]
    have stored : ∀ found, (estado.1.put (chave,
        faixa.ver politica ordem d.confidence)).get chave = some found →
        found = faixa.ver politica ordem d.confidence := by
      intro found known
      rw [get_put, if_pos rfl] at known
      exact (Option.some.inj known).symm
    refine ⟨?_, ?_, ?_, ?_, ?_, ?_⟩
    · intro lost
      rw [get_put, if_pos rfl] at lost
      cases lost
    · intro found known
      rw [stored found known, viver_confiancas own estado.2]
      exact window'
    · intro found known marked
      rw [stored found known] at marked
      exact confirmed marked
    · intro found known open_
      rw [stored found known] at open_ ⊢
      obtain ⟨none_, quadros⟩ := waiting open_
      refine ⟨none_, ?_⟩
      rw [viver_first own (first (before open_)), count, quadros]
    · intro was
      obtain ⟨known, found, marked⟩ := fiel.stays was
      refine ⟨faixa.ver politica ordem d.confidence, by rw [get_put, if_pos rfl], ?_⟩
      rw [found, Option.getD_some] at faixaIs
      rw [flag, ← faixaIs, marked]
    · intro out
      obtain ⟨open_, already, -⟩ := fiel.emitted out
      exact absurd (first open_) already

/-- After the whole frame. -/
theorem Fiel.quadro (resto : List (Deteccao Chave))
    (fiel : Fiel politica vida antes chave feito estado) (ordem : ℕ)
    (sem : ¬Confirmada antes chave → (da chave (feito ++ resto)).length ≤ 1) :
    Fiel politica vida antes chave (feito ++ resto)
      (resto.foldl (passo politica ordem) estado) := by
  induction resto generalizing feito estado with
  | nil =>
    rw [append_nil]
    exact fiel
  | cons d resto ih =>
    have shape : feito ++ d :: resto = (feito ++ [d]) ++ resto := by simp
    rw [shape] at sem ⊢
    by_cases own : d.trackId = some chave
    · refine ih (fiel.proprio ordem own fun open_ => ?_) sem
      have few := sem open_
      rw [da_append, da_append, da_own own, length_append, length_append, length_singleton] at few
      exact eq_nil_of_length_eq_zero (by omega)
    · exact ih (fiel.outro ordem own) sem

end Frame

/-! What is forgotten at the end of a frame. -/

section Forgetting

variable {Chave : Type} [DecidableEq Chave] {politica : PoliticaDeConfirmacao}

/-- A track that is still remembered differs in its misses at most. -/
theorem get_esquecido {vistas : List Chave} {faixas : KeyedTable Chave Faixa} {chave : Chave}
    (kept : (limitar politica (contarFaltas politica vistas faixas)).get chave = some faixa) :
    ∃ faixa', faixas.get chave = some faixa' ∧ faixa.confiancas = faixa'.confiancas ∧
      faixa.quadros = faixa'.quadros ∧ faixa.confirmada = faixa'.confirmada := by
  rw [limitar, get_keep] at kept
  split at kept
  case isFalse => cases kept
  rw [contarFaltas, get_keep] at kept
  split at kept
  case isFalse => cases kept
  rw [get_mapValues] at kept
  obtain ⟨faixa', found, same⟩ := Option.map_eq_some_iff.mp kept
  refine ⟨faixa', found, ?_⟩
  rw [← same]
  split
  all_goals exact ⟨rfl, rfl, rfl⟩

theorem length_dropped {keys victims : List Chave} (distinct : keys.Nodup)
    (victimsDistinct : victims.Nodup) (known : victims ⊆ keys) :
    (keys.filter fun chave => chave ∉ victims).length + victims.length = keys.length := by
  have same : (keys.filter fun chave => chave ∈ victims).Perm victims := by
    rw [perm_ext_iff_of_nodup (distinct.filter _) victimsDistinct]
    intro chave
    rw [mem_filter, decide_eq_true_eq]
    exact ⟨And.right, fun listed => ⟨known listed, listed⟩⟩
  have split := keys.length_eq_length_filter_add fun chave => decide (chave ∈ victims)
  rw [same.length_eq] at split
  simp only [decide_not]
  omega

/-- Dropping as many tracks as there are too many leaves no more than there may be. -/
theorem limitar_length (faixas : KeyedTable Chave Faixa) :
    (limitar politica faixas).rows.length ≤ politica.maximoDeFaixas := by
  have perm : (faixas.rows.insertionSort fun a b => a.2.ultimaOrdem ≤ b.2.ultimaOrdem).Perm
      faixas.rows := perm_insertionSort _ _
  have distinct := (perm.map Prod.fst).nodup_iff.mpr faixas.distinct
  have taken : (maisAntigas politica faixas).Sublist
      ((faixas.rows.insertionSort fun a b => a.2.ultimaOrdem ≤ b.2.ultimaOrdem).map Prod.fst) :=
    (take_sublist _ _).map Prod.fst
  have count : (maisAntigas politica faixas).length =
      faixas.rows.length - politica.maximoDeFaixas := by
    rw [maisAntigas, length_map, length_take, perm.length_eq]
    omega
  have kept := length_dropped faixas.distinct (taken.nodup distinct)
    fun chave listed => (perm.map Prod.fst).subset (taken.subset listed)
  rw [count, length_map] at kept
  have rows : (limitar politica faixas).rows.length =
      ((faixas.rows.map Prod.fst).filter fun chave => chave ∉ maisAntigas politica faixas).length := by
    have keys := keys_keep faixas fun chave => chave ∉ maisAntigas politica faixas
    have sizes := congrArg List.length keys
    rw [KeyedTable.keys, length_map] at sizes
    exact sizes
  omega

end Forgetting

section Runs

variable {Chave : Type} [DecidableEq Chave] (politica : PoliticaDeConfirmacao)

/-- What is remembered of every track, beside the lives that they have had. -/
structure Lembra (faixas : KeyedTable Chave Faixa) (vidas : Chave → Vida) : Prop where
  absent : ∀ chave, faixas.get chave = none → vidas chave = {}
  window : ∀ chave faixa, faixas.get chave = some faixa →
    faixa.confiancas = (vidas chave).confiancas.rtake politica.janelaDeConfiancas
  confirmed : ∀ chave faixa, faixas.get chave = some faixa → faixa.confirmada = true →
    (vidas chave).emissoes = 1
  waiting : ∀ chave faixa, faixas.get chave = some faixa → faixa.confirmada = false →
    (vidas chave).emissoes = 0 ∧ faixa.quadros = (vidas chave).quadros

variable {politica}

theorem viver_nil (vida : Vida) (chave : Chave) :
    vida.viver chave ([] : List (Deteccao Chave)) [] = vida := by
  rw [Vida.viver]
  simp [da]

variable {vidas : Chave → Vida}

theorem Lembra.fiel {faixas : KeyedTable Chave Faixa} (lembra : Lembra politica faixas vidas)
    (chave : Chave) : Fiel politica (vidas chave) faixas chave [] (faixas, []) where
  absent := by rw [viver_nil]; exact lembra.absent chave
  window := by rw [viver_nil]; exact lembra.window chave
  confirmed := by rw [viver_nil]; exact lembra.confirmed chave
  waiting := by rw [viver_nil]; exact lembra.waiting chave
  stays := id
  emitted := fun out => absurd rfl out

variable {c : ConfirmadorDeObjeto Chave}

/-- A frame without repetitions is correct, and what is remembered after it is right again. -/
theorem Lembra.quadro (lembra : Lembra politica c.faixas vidas) {deteccoes : List (Deteccao Chave)}
    (sem : SemRepetidas c.faixas deteccoes) :
    QuadroCorreto politica vidas deteccoes (avaliar politica c deteccoes).1
        (avaliar politica c deteccoes).2.faixas ∧
      Lembra politica (avaliar politica c deteccoes).2.faixas
        (vidasDepois vidas deteccoes (avaliar politica c deteccoes).1
          (avaliar politica c deteccoes).2.faixas) := by
  have fiel : ∀ chave, Fiel politica (vidas chave) c.faixas chave deteccoes
      (deteccoes.foldl (passo politica (c.ordem + 1)) (c.faixas, [])) := fun chave =>
    (lembra.fiel chave).quadro deteccoes (c.ordem + 1) (sem chave)
  rw [avaliar]
  generalize deteccoes.foldl (passo politica (c.ordem + 1)) (c.faixas, []) = estado at fiel
  have alive : ∀ chave faixa,
      (limitar politica (contarFaltas politica (vistas deteccoes) estado.1)).get chave = some faixa →
        vidasDepois vidas deteccoes estado.2
          (limitar politica (contarFaltas politica (vistas deteccoes) estado.1)) chave =
          (vidas chave).viver chave deteccoes estado.2 := by
    intro chave faixa found
    rw [vidasDepois, if_pos]
    exact isSome_get.mp (by rw [found]; rfl)
  refine ⟨⟨fun chave => ?_, fun chave out => ((fiel chave).emitted out).2.2,
    limitar_length _⟩, ⟨?_, ?_, ?_, ?_⟩⟩
  · cases found : estado.1.get chave with
    | none =>
      rw [(fiel chave).absent found]
      exact Nat.zero_le _
    | some faixa =>
      cases marked : faixa.confirmada with
      | true => exact ((fiel chave).confirmed faixa found marked).le
      | false =>
        rw [((fiel chave).waiting faixa found marked).1]
        exact Nat.zero_le _
  · intro chave lost
    rw [vidasDepois, if_neg (get_eq_none.mp lost)]
  · intro chave faixa found
    obtain ⟨faixa', known, window, -, -⟩ := get_esquecido found
    rw [alive chave faixa found, window]
    exact (fiel chave).window faixa' known
  · intro chave faixa found marked
    obtain ⟨faixa', known, -, -, flag⟩ := get_esquecido found
    rw [alive chave faixa found]
    exact (fiel chave).confirmed faixa' known (flag ▸ marked)
  · intro chave faixa found open_
    obtain ⟨faixa', known, -, count, flag⟩ := get_esquecido found
    rw [alive chave faixa found, count]
    exact (fiel chave).waiting faixa' known (flag ▸ open_)

theorem Lembra.run (frames : List (List (Deteccao Chave))) (lembra : Lembra politica c.faixas vidas)
    (sem : RunSemRepetidas politica c frames) : RunCorreto politica c vidas frames := by
  induction frames generalizing c vidas with
  | nil => trivial
  | cons deteccoes outros ih =>
    obtain ⟨correto, depois⟩ := lembra.quadro sem.1
    exact ⟨correto, ih depois sem.2⟩

theorem lembra_inicio : Lembra politica (confirmador Chave).faixas fun _ => {} where
  absent _ _ := rfl
  window _ _ := nofun
  confirmed _ _ := nofun
  waiting _ _ := nofun

variable (politica)

/-- One event for each confirmed object, on enough frames and confidence, in bounded memory. -/
theorem confirmacao_correta (frames : List (List (Deteccao Chave)))
    (sem : RunSemRepetidas politica (confirmador Chave) frames) :
    RunCorreto politica (confirmador Chave) (fun _ => {}) frames :=
  lembra_inicio.run frames sem

end Runs

def pessoa : Deteccao ℕ := ⟨some 1, 9 / 10⟩

/-- Seen once in each of three frames. -/
theorem pessoa_confirmada :
    RunCorreto {} (confirmador ℕ) (fun _ => {}) [[pessoa], [pessoa], [pessoa]] := by
  have alone : ∀ faixas : KeyedTable ℕ Faixa, SemRepetidas faixas [pessoa] := fun _ _ _ =>
    length_filter_le _ _
  exact confirmacao_correta {} _ ⟨alone _, alone _, alone _, trivial⟩

/-- Three detections of one track in a single frame are enough for an event. -/
theorem pessoa_repetida : ¬∀ (politica : PoliticaDeConfirmacao)
    (frames : List (List (Deteccao ℕ))), RunCorreto politica (confirmador ℕ) (fun _ => {}) frames := by
  intro claimed
  have frame := (claimed {} [[pessoa, pessoa, pessoa]]).1
  have enough := (frame.evidence 1 (by decide +kernel)).1
  exact absurd enough (by decide +kernel)

end DracVms.ObjectConfirmation
