import DracVms.Cameras.IntelbrasStream

namespace DracVms.IntelbrasEvents

open List

open Json (Text Value Scalar scalarSyntax)
open JsString (trim trimEnd isBlank trim_split trim_append_blank trim_length_le)

/-! Texts in which no mark occurs. -/

/-- Across a character that no mark has, no mark occurs either. -/
theorem SemMarcas.join {a b : Text} {c : Char} (alheio : ∀ marca ∈ marcas, c ∉ marca)
    (left : SemMarcas a) (right : SemMarcas b) : SemMarcas (a ++ c :: b) := by
  rintro marca known ⟨x, y, same⟩
  rcases append_eq_append_iff.mp same with ⟨p, rfl, -⟩ | ⟨p, across, after⟩
  · exact left marca known ⟨x, p, rfl⟩
  rcases append_eq_append_iff.mp across with ⟨r, -, ends⟩ | ⟨r, rfl, ends⟩
  · cases p with
    | nil =>
      rw [append_nil] at across
      exact left marca known ⟨x, [], by rw [append_nil, across]⟩
    | cons d p =>
      obtain ⟨rfl, -⟩ := List.cons.inj after
      exact alheio marca known (ends ▸ mem_append_right _ (mem_cons_self ..))
  · cases r with
    | nil =>
      rw [nil_append] at ends
      cases p with
      | nil => exact left marca known (ends ▸ nil_infix)
      | cons d p =>
        obtain ⟨rfl, -⟩ := List.cons.inj after
        exact alheio marca known (ends ▸ mem_cons_self ..)
    | cons d r =>
      rw [ends, cons_append] at after
      obtain ⟨-, rest⟩ := List.cons.inj after
      exact right marca known ⟨r, y, rest.symm⟩

/-- A word without an equals sign completes no mark. -/
theorem marca_absent_append (haste : Text) {front word : Text} (absent : ¬haste ++ ['='] <:+: front)
    (free : '=' ∉ word) : ¬haste ++ ['='] <:+: front ++ word := by
  rintro ⟨x, y, same⟩
  have shifted : (x ++ haste) ++ ('=' :: y) = front ++ word := by
    rw [← same]
    simp
  rcases append_eq_append_iff.mp shifted with ⟨p, rfl, ends⟩ | ⟨p, -, rfl⟩
  · cases p with
    | nil =>
      rw [nil_append] at ends
      exact free (ends ▸ mem_cons_self ..)
    | cons d p =>
      obtain ⟨rfl, -⟩ := List.cons.inj ends
      exact absent ⟨x, p, by simp⟩
  · exact free (mem_append_right _ (mem_cons_self ..))

theorem semMarcas_nil : SemMarcas [] := by
  intro marca known
  revert marca
  decide

theorem blank_alheio {c : Char} (blank : isBlank c = true) : ∀ marca ∈ marcas, c ∉ marca := by
  intro marca known inside
  have solid : (marcas.all fun marca => marca.all fun d => !isBlank d) = true := by decide
  have shown := all_eq_true.mp (all_eq_true.mp solid marca known) c inside
  rw [blank] at shown
  cases shown

theorem semMarcas_blank {blank more : Text} (blanks : ∀ c ∈ blank, isBlank c = true)
    (free : SemMarcas more) : SemMarcas (blank ++ more) := by
  induction blank with
  | nil => exact free
  | cons c blank ih =>
    exact SemMarcas.join (a := []) (blank_alheio (blanks c (mem_cons_self ..))) semMarcas_nil
      (ih fun d inside => blanks d (mem_cons_of_mem _ inside))

theorem quebra_blank {text : Text} (breaks : Quebra text) : ∀ c ∈ text, isBlank c = true := by
  rcases breaks with rfl | rfl <;> simp [isBlank]

theorem semMarcas_linha (s : Separador) {more : Text} (free : SemMarcas more) :
    SemMarcas (s.linha ++ more) := by
  have hyphen : ∀ marca ∈ marcas, '-' ∉ marca := by decide
  have after : SemMarcas (s.nome ++ (s.fim ++ more)) := by
    rcases s.ends with same | same
    · rw [same]
      exact s.livre.join (blank_alheio (by decide)) (semMarcas_blank (quebra_blank (Or.inr rfl)) free)
    · rw [same]
      exact s.livre.join (blank_alheio (by decide)) free
  rw [Separador.linha, cons_append, cons_append, append_assoc]
  exact SemMarcas.join (a := []) hyphen semMarcas_nil
    (SemMarcas.join (a := []) hyphen semMarcas_nil after)

/-! What trimming leaves. -/

theorem aparado_head {c : Char} {text : Text} (aparado : trim (c :: text) = c :: text) :
    isBlank c = false := by
  by_contra blank
  have shorter : trim (c :: text) = trim text := by
    rw [trim, dropWhile_cons_of_pos (by simpa using blank), ← trim]
  have bound := trim_length_le text
  rw [← shorter, aparado, length_cons] at bound
  omega

theorem aparado_last {c : Char} {text : Text} (aparado : trim (text ++ [c]) = text ++ [c]) :
    isBlank c = false := by
  by_contra blank
  have shorter := trim_append_blank text (forall_mem_singleton.mpr (Bool.not_eq_false _ ▸ blank))
  have bound := trim_length_le text
  rw [← shorter, aparado, length_append, length_singleton] at bound
  omega

theorem chave_split {text : Text} (ends : (trim text).getLast? = some '}') :
    ∃ x w, text = x ++ '}' :: w ∧ ∀ c ∈ w, isBlank c = true := by
  obtain ⟨u, v, split, -, after⟩ := trim_split text
  obtain ⟨front, shape⟩ := List.getLast?_eq_some_iff.mp ends
  exact ⟨u ++ front, v, by rw [split, shape]; simp, after⟩

theorem chave_last {front part : Text} (ends : (trim (front ++ part)).getLast? = some '}') {c : Char}
    (inside : c ∈ part) (solid : isBlank c = false) : '}' ∈ part := by
  obtain ⟨x, w, split, blanks⟩ := chave_split ends
  rcases append_eq_append_iff.mp split with ⟨p, -, rfl⟩ | ⟨p, -, shape⟩
  · exact mem_append_right _ (mem_cons_self ..)
  · cases p with
    | nil =>
      rw [nil_append] at shape
      exact shape ▸ mem_cons_self ..
    | cons d p =>
      obtain ⟨-, rfl⟩ := List.cons.inj shape
      rw [blanks c (mem_append_right _ inside)] at solid
      cases solid

/-! The blocks of a stream. -/

section Blocks

variable {runtime : Runtime}

/-- A block as it is sent, with the separator that closes it. -/
structure Bloco (runtime : Runtime) where
  cabecalho : Text
  codigo : Text
  acao : Text
  indice : Text
  json : Text
  rabo : Text
  fecho : Separador
  campos : Campos cabecalho codigo acao indice
  digitos : ∀ c ∈ indice, c.isDigit = true
  analisa : Json.parse (scalarSyntax runtime.format) json ≠ none
  aparado : trim json = json
  branco : ∀ c ∈ rabo, isBlank c = true
  linhas : SemTracos (escrever cabecalho codigo acao indice json ++ rabo)
  comeco : ¬['-', '-'] <+: escrever cabecalho codigo acao indice json ++ rabo
  aberto : (escrever cabecalho codigo acao indice json ++ rabo).getLast? ≠ some '\r'

def Bloco.corpo (b : Bloco runtime) : Text :=
  escrever b.cabecalho b.codigo b.acao b.indice b.json

def Bloco.texto (b : Bloco runtime) : Text := b.corpo ++ b.rabo

/-- The event that the block reports. -/
def Bloco.evento (b : Bloco runtime) : EventoIntelbras runtime.format.Number :=
  ⟨trim b.codigo, trim b.acao, (runtime.number (trim b.indice)).getD runtime.zero,
    (lerDados runtime b.json).1, none⟩

def fluxo (blocos : List (Bloco runtime)) : Text :=
  blocos.flatMap fun b => b.texto ++ b.fecho.texto

/-- What a separator may leave in front of a block when its line break is gone already. -/
def Solta (g : Text) : Prop := g = [] ∨ ∃ s : Separador, g = s.linha

theorem solta_semMarcas {g more : Text} (solta : Solta g) (free : SemMarcas more) :
    SemMarcas (g ++ more) := by
  rcases solta with rfl | ⟨s, rfl⟩
  · exact free
  · exact semMarcas_linha s free

theorem linha_split (s : Separador) : ∃ u, s.linha = u ++ ['\n'] ∧ '\n' ∉ u := by
  have plain : ∀ c ∈ s.nome, c ≠ '\n' := by
    rintro c inside rfl
    exact absurd (s.plain _ inside).1 (by decide)
  rcases s.ends with same | same
  · refine ⟨'-' :: '-' :: (s.nome ++ ['\r']), by rw [Separador.linha, same]; simp, ?_⟩
    intro inside
    simp only [mem_cons, mem_append, not_mem_nil, or_false] at inside
    rcases inside with absurd_ | absurd_ | named | absurd_
    · exact absurd absurd_ (by decide)
    · exact absurd absurd_ (by decide)
    · exact plain _ named rfl
    · exact absurd absurd_ (by decide)
  · refine ⟨'-' :: '-' :: s.nome, by rw [Separador.linha, same]; simp, ?_⟩
    intro inside
    simp only [mem_cons] at inside
    rcases inside with absurd_ | absurd_ | named
    · exact absurd absurd_ (by decide)
    · exact absurd absurd_ (by decide)
    · exact plain _ named rfl

theorem solta_semTracos {g more : Text} (solta : Solta g) (free : SemTracos more)
    (start : ¬['-', '-'] <+: more) : SemTracos (g ++ more) := by
  rcases solta with rfl | ⟨s, rfl⟩
  · exact free
  obtain ⟨u, shape, noBreak⟩ := linha_split s
  rintro ⟨x, y, same⟩
  have aligned : x ++ ('\n' :: '-' :: '-' :: y) = u ++ ('\n' :: more) := by
    rw [shape] at same
    simpa using same
  rcases append_eq_append_iff.mp aligned with ⟨p, rfl, ends⟩ | ⟨p, -, ends⟩
  · cases p with
    | nil =>
      obtain ⟨-, rest⟩ := List.cons.inj ends
      exact start ⟨y, rest⟩
    | cons d p =>
      obtain ⟨rfl, -⟩ := List.cons.inj ends
      exact noBreak (mem_append_right _ (mem_cons_self ..))
  · cases p with
    | nil =>
      obtain ⟨-, rest⟩ := List.cons.inj ends
      exact start ⟨y, rest.symm⟩
    | cons d p =>
      obtain ⟨-, rfl⟩ := List.cons.inj ends
      exact free ⟨p, y, by simp⟩

variable (b : Bloco runtime)

theorem Bloco.campos_solta {g : Text} (solta : Solta g) :
    Campos (g ++ b.cabecalho) b.codigo b.acao b.indice :=
  { b.campos with cabecalho := solta_semMarcas solta b.campos.cabecalho }

theorem escrever_append (g cabecalho codigo acao indice dados : Text) :
    g ++ escrever cabecalho codigo acao indice dados =
      escrever (g ++ cabecalho) codigo acao indice dados := by
  rw [escrever, escrever, append_assoc]

theorem escrever_dados (cabecalho codigo acao indice dados more : Text) :
    escrever cabecalho codigo acao indice dados ++ more =
      escrever cabecalho codigo acao indice (dados ++ more) := by
  simp [escrever]

theorem Bloco.dados_lidos : (lerDados runtime b.json).2 = none := by
  unfold lerDados
  split
  · rfl
  · rfl
  · rename_i unread
    exact absurd unread b.analisa

/-- A whole block is read as its event, also behind a rest of its separator. -/
theorem Bloco.lerEvento_texto {g w : Text} (solta : Solta g) (blanks : ∀ c ∈ w, isBlank c = true) :
    lerEvento runtime (g ++ (b.corpo ++ w)) = some b.evento := by
  rw [Bloco.corpo, escrever_dados, escrever_append,
    lerEvento_escrever (b.campos_solta solta) runtime, trim_append_blank _ blanks, b.aparado,
    b.dados_lidos]
  rfl

theorem Bloco.acao_texto {g w : Text} (solta : Solta g) :
    capturar marcaAcao ateOPontoEVirgula (g ++ (b.corpo ++ w)) = some b.acao := by
  rw [Bloco.corpo, escrever_dados, escrever_append]
  exact capturar_acao (b.campos_solta solta)
    ("index".toList ++ '=' :: (b.indice ++ (";data".toList ++ '=' :: (b.json ++ w))))

theorem Bloco.marca_texto (g : Text) : marcaCodigo <:+: g ++ b.texto := by
  refine ⟨g ++ b.cabecalho, b.codigo ++ (";action".toList ++ '=' :: (b.acao ++
    (";index".toList ++ '=' :: (b.indice ++ (";data".toList ++ '=' :: (b.json ++ b.rabo)))))), ?_⟩
  simp [Bloco.texto, Bloco.corpo, escrever, marcaCodigo]

end Blocks

end DracVms.IntelbrasEvents
