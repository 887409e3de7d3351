import DracVms.Cameras.IntelbrasChunks

namespace DracVms.IntelbrasEvents

open List

open Json (Text Value Scalar scalarSyntax)
open JsString (trim trimEnd isBlank notBlank_of_visible trim_split mem_trim trim_append_blank)

section Decoding

variable {runtime : Runtime}

/-! What the closing brace at the end of a text says about where its block is cut. -/

theorem corte {q a b : Text} (start : q <+: a ++ b) :
    q <+: a ∨ ∃ r, r ≠ [] ∧ r <+: b ∧ q = a ++ r := by
  obtain ⟨z, same⟩ := start
  rcases append_eq_append_iff.mp same with ⟨p, rfl, -⟩ | ⟨p, rfl, ends⟩
  · exact Or.inl ⟨p, rfl⟩
  · by_cases none_ : p = []
    · rw [none_, append_nil]
      exact Or.inl (prefix_refl _)
    · exact Or.inr ⟨p, none_, ⟨z, ends.symm⟩, rfl⟩

theorem pareceInteiro_word (front : Text) {r word : Text} (solid : r ≠ []) (start : r <+: word)
    (unclosed : '}' ∉ word) (plain : ∀ c ∈ word, isBlank c = false) :
    pareceInteiro (front ++ r) = false := by
  obtain ⟨c, tail, rfl⟩ := exists_cons_of_ne_nil solid
  have ends : (trim (front ++ c :: tail)).getLast? ≠ some '}' := fun closed =>
    unclosed (start.subset (chave_last closed (mem_cons_self ..)
      (plain c (start.subset (mem_cons_self ..)))))
  rw [pareceInteiro, decide_eq_false ends, Bool.and_false]

variable {q : Text}

theorem pareceInteiro_none (none_ : capturar marcaCodigo ateOPontoEVirgula q = none) :
    pareceInteiro q = false := by
  rw [pareceInteiro, none_]
  rfl

theorem pareceInteiro_brace (whole : pareceInteiro q = true) : (trim q).getLast? = some '}' :=
  of_decide_eq_true (Bool.and_eq_true_iff.mp whole).2

variable (runtime) in
theorem lerEvento_acao {bloco codigo : Text}
    (code : capturar marcaCodigo ateOPontoEVirgula bloco = some codigo) (named : trim codigo ≠ []) :
    ∃ e, lerEvento runtime bloco = some e ∧
      e.acao = ((capturar marcaAcao ateOPontoEVirgula bloco).map trim).getD "Pulse".toList := by
  rw [lerEvento, code, Option.map_some, Option.getD_some]
  simp only [if_neg named]
  split
  all_goals exact ⟨_, rfl, rfl⟩

/-- What is read of a text is not the event of the block, and shows that the text is cut. -/
def Truncado (b : Bloco runtime) (q : Text) : Prop :=
  ∃ e, lerEvento runtime q = some e ∧ e ≠ b.evento ∧
    (capturar marcaAcao ateOPontoEVirgula q = none ∨ e.dadosCrus ≠ none)

theorem Separador.chave_not_mem (s : Separador) : '}' ∉ s.texto := by
  have breaks : ∀ text, Quebra text → '}' ∉ text := by
    rintro text (rfl | rfl) <;> decide
  intro inside
  rcases mem_append.mp inside with start | line
  · exact breaks _ s.breaks start
  rw [Separador.linha, mem_cons, mem_cons, mem_append] at line
  rcases line with hyphen | hyphen | named | ends
  · exact absurd hyphen (by decide)
  · exact absurd hyphen (by decide)
  · exact (s.plain _ named).2 rfl
  · exact breaks _ s.ends ends

namespace Bloco

variable (b : Bloco runtime) {g : Text} (solta : Solta g)

def ateCodigo (g : Text) : Text := (g ++ b.cabecalho) ++ "Code".toList

def ateAcao (g : Text) : Text := b.ateCodigo g ++ ('=' :: b.codigo) ++ ";action=".toList

def ateDados (g : Text) : Text :=
  b.ateAcao g ++ b.acao ++ ";index=".toList ++ b.indice ++ ";data=".toList

theorem texto_split (g : Text) : g ++ (b.texto ++ b.fecho.texto) =
    b.ateCodigo g ++ (('=' :: b.codigo) ++ (";action=".toList ++ (b.acao ++ (";index=".toList ++
      (b.indice ++ (";data=".toList ++ (b.json ++ (b.rabo ++ b.fecho.texto)))))))) := by
  simp [Bloco.texto, Bloco.corpo, escrever, ateCodigo]

theorem digitos_chave : '}' ∉ b.indice := fun inside =>
  absurd (b.digitos _ inside) (by decide)

theorem digitos_solid : ∀ c ∈ b.indice, isBlank c = false := by
  intro c inside
  have digit : 48 ≤ c.toNat ∧ c.toNat ≤ 57 := Char.isDigit_iff_toNat.mp (b.digitos c inside)
  exact notBlank_of_visible c (by omega) (by omega)

include solta

theorem inteiro_cabecalho (start : q <+: b.ateCodigo g) : pareceInteiro q = false := by
  have free := solta_semMarcas solta b.campos.cabecalho marcaCodigo (by decide)
  have absent : ¬marcaCodigo <:+: b.ateCodigo g :=
    marca_absent_append "Code".toList free (by decide)
  exact pareceInteiro_none (capturar_fim _ fun inside => absent (inside.trans start.isInfix))

theorem inteiro_codigo (start : q <+: '=' :: b.codigo) (solid : q ≠ []) :
    pareceInteiro (b.ateCodigo g ++ q) = false := by
  obtain ⟨c, r, rfl⟩ := exists_cons_of_ne_nil solid
  obtain ⟨more, same⟩ := start
  obtain ⟨rfl, rest⟩ := List.cons.inj same
  have part : r <+: b.codigo := ⟨more, rest⟩
  have found := capturar_para "Code".toList palavra_code ateOPontoEVirgula
    (solta_semMarcas solta b.campos.cabecalho marcaCodigo (by decide)) palavra_code
    (suffix_refl _) r
  have unended : ateOPontoEVirgula r = none :=
    ateOPontoEVirgula_none fun inside => b.campos.codigo.2.1 (part.subset inside)
  have later : capturar marcaCodigo ateOPontoEVirgula r = none :=
    capturar_fim _ fun inside =>
      b.campos.codigo.1 marcaCodigo (by decide) (inside.trans part.isInfix)
  apply pareceInteiro_none
  rw [ateCodigo, append_assoc]
  exact found.trans (by rw [unended, Option.none_or]; exact later)

/-- Cut within the action, it is taken for a pulse. -/
theorem truncado_acao {r : Text} (start : r <+: b.acao)
    (whole : pareceInteiro (b.ateAcao g ++ r) = true) : Truncado b (b.ateAcao g ++ r) := by
  have campos := b.campos_solta solta
  have code : capturar marcaCodigo ateOPontoEVirgula (b.ateAcao g ++ r) = some b.codigo := by
    have found := capturar_codigo campos ("action=".toList ++ r)
    rw [← found]
    simp [ateAcao, ateCodigo]
  have action : capturar marcaAcao ateOPontoEVirgula (b.ateAcao g ++ r) = none := by
    have first := capturar_passa "action".toList palavra_action ateOPontoEVirgula
      (campos.cabecalho marcaAcao (by decide)) palavra_code (by decide)
      (b.codigo ++ (";action".toList ++ '=' :: r))
    have found := capturar_para "action".toList palavra_action ateOPontoEVirgula
      (campos.codigo.1 marcaAcao (by decide)) campo_action (by decide) r
    have unended : ateOPontoEVirgula r = none :=
      ateOPontoEVirgula_none fun inside => campos.acao.2.1 (start.subset inside)
    have later : capturar marcaAcao ateOPontoEVirgula r = none :=
      capturar_fim _ fun inside =>
        campos.acao.1 marcaAcao (by decide) (inside.trans start.isInfix)
    have same : b.ateAcao g ++ r = (g ++ b.cabecalho) ++ ("Code".toList ++ '=' ::
        (b.codigo ++ (";action".toList ++ '=' :: r))) := by
      simp [ateAcao, ateCodigo]
    rw [same]
    refine first.trans (found.trans ?_)
    rw [unended, Option.none_or]
    exact later
  -- the brace is in the action, which is therefore none that is read when there is none
  have brace : '}' ∈ r := by
    have ends := pareceInteiro_brace whole
    rw [ateAcao, append_assoc] at ends
    have inside := chave_last ends (mem_append_left r (by decide : '=' ∈ ";action=".toList))
      (by decide)
    exact (mem_append.mp inside).resolve_left (by decide)
  have notPulse : "Pulse".toList ≠ trim b.acao := by
    intro same
    have inside := mem_trim (start.subset brace) (by decide)
    rw [← same] at inside
    exact absurd inside (by decide)
  obtain ⟨e, read, acted⟩ := lerEvento_acao runtime code b.campos.codigo.2.2
  refine ⟨e, read, fun same => notPulse ?_, Or.inl action⟩
  rw [action, same] at acted
  exact acted.symm

omit solta in
theorem json_cut_unread {r : Text} (start : r <+: b.json) (less : r ≠ b.json) (brace : '}' ∈ r) :
    Json.parse (scalarSyntax runtime.format) (trim r) = none := by
  obtain ⟨more, same⟩ := start
  have left : more ≠ [] := by
    rintro rfl
    exact less (by rw [← same, append_nil])
  obtain ⟨u, v, split, before, -⟩ := trim_split r
  -- the payload begins with no blank, nor does it end with one
  have first : u = [] := by
    cases u with
    | nil => rfl
    | cons c u =>
      have aparado := b.aparado
      rw [← same, split, cons_append, cons_append] at aparado
      have solid := aparado_head aparado
      rw [before c (mem_cons_self ..)] at solid
      cases solid
  have solid : Json.skip (v ++ more) ≠ [] := by
    obtain ⟨front, last, rfl⟩ := eq_nil_or_concat more |>.resolve_left left
    rw [concat_eq_append] at same
    have aparado := b.aparado
    rw [← same, ← append_assoc] at aparado
    have shown := aparado_last aparado
    intro empty
    have space : Json.isSpace last = true :=
      dropWhile_eq_nil_iff.mp empty last (by simp)
    have blank : ∀ c, Json.isSpace c = true → isBlank c = true := by
      intro c known
      simp only [Json.isSpace, mem_cons, not_mem_nil, or_false, decide_eq_true_eq] at known
      rcases known with rfl | rfl | rfl | rfl <;> decide
    rw [blank last space] at shown
    cases shown
  by_contra known
  have whole := Json.parse_more (Json.scalar_whole runtime.noNumber) (mem_trim brace (by decide))
    solid known
  rw [first, nil_append] at split
  rw [← append_assoc, ← split, same] at whole
  exact b.analisa whole

/-- Cut within the payload, what there is of it cannot be read. -/
theorem truncado_dados {r : Text} (start : r <+: b.json) (solid : r ≠ []) (less : r ≠ b.json)
    (whole : pareceInteiro (b.ateDados g ++ r) = true) : Truncado b (b.ateDados g ++ r) := by
  have written : b.ateDados g ++ r = escrever (g ++ b.cabecalho) b.codigo b.acao b.indice r := by
    simp [ateDados, ateAcao, ateCodigo, escrever]
  have brace : '}' ∈ r := by
    obtain ⟨c, tail, rfl⟩ := exists_cons_of_ne_nil solid
    obtain ⟨more, same⟩ := start
    have aparado := b.aparado
    rw [← same, cons_append] at aparado
    exact chave_last (pareceInteiro_brace whole) (mem_cons_self ..) (aparado_head aparado)
  have raw : (lerDados runtime (trim r)).2 ≠ none := by
    rw [lerDados, b.json_cut_unread start less brace]
    exact Option.some_ne_none _
  rw [written]
  refine ⟨_, lerEvento_escrever (b.campos_solta solta) runtime r, fun same => raw ?_, Or.inr raw⟩
  exact congrArg EventoIntelbras.dadosCrus same

theorem inteiro_or_truncado (start : q <+: g ++ (b.texto ++ b.fecho.texto))
    (whole : pareceInteiro q = true) :
    Truncado b q ∨ ∃ y, y <+: b.rabo ++ b.fecho.texto ∧ (∀ c ∈ y, isBlank c = true) ∧
      q = g ++ (b.corpo ++ y) := by
  have refused : ∀ {text}, text = q → pareceInteiro text = false → False := by
    rintro text rfl no
    rw [whole] at no
    cases no
  rw [b.texto_split g] at start
  rcases corte start with early | ⟨q1, solid1, start1, rfl⟩
  · exact absurd (b.inteiro_cabecalho solta early) (fun no => refused rfl no)
  rcases corte start1 with early | ⟨q2, solid2, start2, rfl⟩
  · exact absurd (b.inteiro_codigo solta early solid1) (fun no => refused rfl no)
  rcases corte start2 with early | ⟨q3, -, start3, rfl⟩
  · have no := pareceInteiro_word (b.ateCodigo g ++ ('=' :: b.codigo)) solid2 early
      (by decide) (by simp [isBlank])
    exact (refused (by simp) no).elim
  rcases corte start3 with early | ⟨q4, solid4, start4, rfl⟩
  · have same : b.ateCodigo g ++ ('=' :: b.codigo ++ (";action=".toList ++ q3)) =
        b.ateAcao g ++ q3 := by simp [ateAcao]
    rw [same] at whole ⊢
    exact Or.inl (b.truncado_acao solta early whole)
  rcases corte start4 with early | ⟨q5, solid5, start5, rfl⟩
  · have no := pareceInteiro_word (b.ateAcao g ++ b.acao) solid4 early
      (by decide) (by simp [isBlank])
    exact (refused (by simp [ateAcao]) no).elim
  rcases corte start5 with early | ⟨q6, solid6, start6, rfl⟩
  · have no := pareceInteiro_word (b.ateAcao g ++ b.acao ++ ";index=".toList) solid5 early
      b.digitos_chave b.digitos_solid
    exact (refused (by simp [ateAcao]) no).elim
  rcases corte start6 with early | ⟨q7, solid7, start7, rfl⟩
  · have no := pareceInteiro_word
      (b.ateAcao g ++ b.acao ++ ";index=".toList ++ b.indice) solid6 early
      (by decide) (by simp [isBlank])
    exact (refused (by simp [ateAcao]) no).elim
  have same : ∀ r, b.ateCodigo g ++ ('=' :: b.codigo ++ (";action=".toList ++ (b.acao ++
      (";index=".toList ++ (b.indice ++ (";data=".toList ++ r)))))) = b.ateDados g ++ r := by
    simp [ateDados, ateAcao]
  rw [same] at whole ⊢
  by_cases cut : q7 <+: b.json ∧ q7 ≠ b.json
  · exact Or.inl (b.truncado_dados solta cut.1 solid7 cut.2 whole)
  right
  obtain ⟨y, part, rfl⟩ : ∃ y, y <+: b.rabo ++ b.fecho.texto ∧ q7 = b.json ++ y := by
    rcases corte start7 with early | ⟨y, -, part, shape⟩
    · refine ⟨[], nil_prefix, ?_⟩
      rw [append_nil]
      exact not_not.mp fun less => cut ⟨early, less⟩
    · exact ⟨y, part, shape⟩
  refine ⟨y, part, ?_, ?_⟩
  · intro c inside
    by_contra solid
    rw [← append_assoc] at whole
    have brace := chave_last (pareceInteiro_brace whole) inside (Bool.eq_false_iff.mpr solid)
    rcases mem_append.mp (part.subset brace) with ends | mark
    · exact absurd (b.branco _ ends) (by decide)
    · exact b.fecho.chave_not_mem mark
  · simp [ateDados, ateAcao, ateCodigo, Bloco.corpo, escrever]

end Bloco

/-! Where the stream stands when a chunk has come. -/

/-- What there may be in front of the next block. -/
inductive Sobra : Text → Prop
  | solta {g : Text} (solta : Solta g) : Sobra g
  | separada {branco : Text} (blanks : ∀ c ∈ branco, isBlank c = true)
      (aberto : branco.getLast? ≠ some '\r') (s : Separador) : Sobra (branco ++ s.texto)

/-- What is kept, what is still to come and the blocks that are not complete yet. -/
inductive Situacao : Text → Text → List (Bloco runtime) → Prop
  | antes {branco q z : Text} {aFazer : List (Bloco runtime)}
      (blanks : ∀ c ∈ branco, isBlank c = true) (aberto : branco.getLast? ≠ some '\r')
      (s : Separador) (left : z ≠ []) (whole : q ++ z = branco ++ s.texto) :
      Situacao q (z ++ fluxo aFazer) aFazer
  | dentro {g q z : Text} {b : Bloco runtime} {aFazer : List (Bloco runtime)} (solta : Solta g)
      (left : z ≠ []) (whole : q ++ z = g ++ (b.texto ++ b.fecho.texto)) :
      Situacao q (z ++ fluxo aFazer) (b :: aFazer)
  | fim {g q z : Text} (solta : Solta g) (whole : q ++ z = g) : Situacao q z []

variable (b : Bloco runtime)

theorem fluxo_cons (blocos : List (Bloco runtime)) :
    fluxo (b :: blocos) = (b.texto ++ b.fecho.texto) ++ fluxo blocos := rfl

variable {blocos : List (Bloco runtime)}

theorem fluxo_eq_nil (empty : fluxo blocos = []) : blocos = [] := by
  cases blocos with
  | nil => rfl
  | cons b blocos =>
    simp [fluxo_cons, Bloco.texto, Bloco.corpo, escrever] at empty

variable {aFazer : List (Bloco runtime)}

theorem Situacao.sobra {q resto : Text} (situacao : Situacao q resto aFazer) :
    ∃ g, Sobra g ∧ q ++ resto = g ++ fluxo aFazer := by
  cases situacao with
  | antes blanks aberto s left whole =>
    exact ⟨_, .separada blanks aberto s, by rw [← append_assoc, whole]⟩
  | dentro solta left whole =>
    exact ⟨_, .solta solta, by rw [← append_assoc, whole, fluxo_cons, append_assoc]⟩
  | fim solta whole => exact ⟨_, .solta solta, by rw [whole, fluxo, flatMap_nil,
      append_nil]⟩

theorem Situacao.nil (situacao : Situacao q [] aFazer) : aFazer = [] := by
  generalize none_ : ([] : Text) = resto at situacao
  cases situacao with
  | antes _ _ _ left _ | dentro _ left _ => exact absurd (append_eq_nil_iff.mp none_.symm).1 left
  | fim _ _ => rfl

theorem SemTracos.of_prefix {q text : Text} (free : SemTracos text) (start : q <+: text) :
    SemTracos q := fun inside => free (inside.trans start.isInfix)

theorem partes_curta {antes q : Text} (free : SemTracos antes) (aberto : antes.getLast? ≠ some '\r')
    (s : Separador) {z : Text} (left : z ≠ []) (whole : q ++ z = antes ++ s.texto) :
    partes q = [q] := by
  rcases append_eq_append_iff.mp whole with ⟨p, rfl, -⟩ | ⟨p, rfl, cut⟩
  · exact partes_semTracos (free.of_prefix (prefix_append _ _))
  · exact partes_incompleta free aberto s cut.symm left

theorem semTracos_blank {branco : Text} (blanks : ∀ c ∈ branco, isBlank c = true) :
    SemTracos branco := by
  intro inside
  exact absurd (blanks '-' (inside.subset (by decide))) (by decide)

theorem getLast_solta {g : Text} : (g ++ b.texto).getLast? ≠ some '\r' := by
  have solid : b.texto ≠ [] := by
    simp [Bloco.texto, Bloco.corpo, escrever]
  rw [List.getLast?_append_of_ne_nil _ solid]
  exact b.aberto

theorem curta_or_passa {buffer resto frente tras : Text} (whole : buffer ++ resto = frente ++ tras) :
    (∃ z, z ≠ [] ∧ buffer ++ z = frente ∧ resto = z ++ tras) ∨
      ∃ p, buffer = frente ++ p ∧ p ++ resto = tras := by
  rcases append_eq_append_iff.mp whole with ⟨p, short, rest⟩ | ⟨p, long, rest⟩
  · by_cases none_ : p = []
    · rw [none_, append_nil] at short
      rw [none_, nil_append] at rest
      exact Or.inr ⟨[], by rw [short, append_nil], rest⟩
    · exact Or.inl ⟨p, none_, short.symm, rest⟩
  · exact Or.inr ⟨p, long, rest.symm⟩

/-- The parts that are complete report the blocks that are complete. -/
def Relata (feitos : List (Bloco runtime)) (prontas : List Text) : Prop :=
  (prontas.filter fun parte => marcaCodigo <:+: parte).filterMap (lerEvento runtime) =
    feitos.map Bloco.evento

theorem situacao_solta (blocos : List (Bloco runtime)) {g buffer resto : Text} (solta : Solta g)
    (whole : buffer ++ resto = g ++ fluxo blocos) :
    ∃ prontas q feitos aFazer, partes buffer = prontas ++ [q] ∧ blocos = feitos ++ aFazer ∧
      Situacao q resto aFazer ∧ Relata feitos prontas := by
  induction blocos generalizing g buffer with
  | nil =>
    rw [fluxo, flatMap_nil, append_nil] at whole
    have free : SemTracos buffer := by
      have line : SemTracos (g ++ []) :=
        solta_semTracos solta (by unfold SemTracos; decide) (by decide)
      rw [append_nil] at line
      exact line.of_prefix ⟨resto, whole⟩
    exact ⟨[], buffer, [], [], partes_semTracos free, rfl, .fim solta whole, rfl⟩
  | cons b blocos ih =>
    have free : SemTracos (g ++ b.texto) := solta_semTracos solta b.linhas b.comeco
    have aligned : buffer ++ resto = ((g ++ b.texto) ++ b.fecho.texto) ++ fluxo blocos := by
      rw [whole, fluxo_cons]
      simp
    rcases curta_or_passa aligned with ⟨z, left, short, rfl⟩ | ⟨p, reached, rest⟩
    · exact ⟨[], buffer, [], b :: blocos, partes_curta free (getLast_solta b) b.fecho left short,
        rfl, .dentro solta left (by rw [short, append_assoc]), rfl⟩
    · obtain ⟨prontas, q, feitos, aFazer, split, cut, situacao, relata⟩ := ih (Or.inl rfl) rest
      refine ⟨(g ++ b.texto) :: prontas, q, b :: feitos, aFazer, ?_, by rw [cut]; rfl, situacao, ?_⟩
      · rw [reached, append_assoc, partes_parte free (getLast_solta b), split]
        rfl
      · have read := b.lerEvento_texto (w := b.rabo) solta b.branco
        rw [← Bloco.texto] at read
        rw [Relata, filter_cons_of_pos (by simpa using b.marca_texto g),
          filterMap_cons_some read, map_cons, relata]

/-- Where the stream stands, whatever was left in front of it. -/
theorem situacao_sobra (blocos : List (Bloco runtime)) {g buffer resto : Text} (sobra : Sobra g)
    (whole : buffer ++ resto = g ++ fluxo blocos) :
    ∃ prontas q feitos aFazer, partes buffer = prontas ++ [q] ∧ blocos = feitos ++ aFazer ∧
      Situacao q resto aFazer ∧ Relata feitos prontas := by
  cases sobra with
  | solta solta => exact situacao_solta blocos solta whole
  | @separada branco blanks aberto s =>
    have free := semTracos_blank blanks
    rcases curta_or_passa whole with ⟨z, left, short, rfl⟩ | ⟨p, reached, rest⟩
    · exact ⟨[], buffer, [], blocos, partes_curta free aberto s left short, rfl,
        .antes blanks aberto s left short, rfl⟩
    · obtain ⟨prontas, q, feitos, aFazer, split, cut, situacao, relata⟩ :=
        situacao_solta blocos (Or.inl rfl) rest
      refine ⟨branco :: prontas, q, feitos, aFazer, ?_, cut, situacao, ?_⟩
      · rw [reached, append_assoc, partes_parte free aberto, split]
        rfl
      · have unmarked : ¬marcaCodigo <:+: branco := by
          have none_ : SemMarcas (branco ++ []) := semMarcas_blank blanks semMarcas_nil
          rw [append_nil] at none_
          exact none_ marcaCodigo (by decide)
        rw [Relata, filter_cons_of_neg (by simpa using unmarked), relata]

/-! What is taken for whole without a separator. -/

/-- The text is that of a block with nothing but blanks behind it. -/
def Inteiro (blocos : List (Bloco runtime)) (resto : Text) : Prop :=
  ∃ b ∈ blocos, ∃ g w, Solta g ∧ (∀ c ∈ w, isBlank c = true) ∧ resto = g ++ (b.corpo ++ w)

theorem Truncado.not_inteiro {b : Bloco runtime} (truncado : Truncado b q)
    (blocos : List (Bloco runtime)) : ¬Inteiro blocos q := by
  rintro ⟨b', -, g, w, solta, blanks, rfl⟩
  obtain ⟨e, read, -, unread | raw⟩ := truncado
  · rw [b'.acao_texto solta] at unread
    cases unread
  · rw [b'.lerEvento_texto solta blanks] at read
    cases read
    exact raw rfl

theorem quebra_suffix {p r : Text} (breaks : Quebra (p ++ r)) : r = [] ∨ Quebra r := by
  rcases breaks with both | one
  · match p, both with
    | [], both => exact Or.inr (Or.inl both)
    | [_], both => exact Or.inr (Or.inr (List.cons.inj both).2)
    | _ :: _ :: _, both => exact Or.inl (append_eq_nil_iff.mp (List.cons.inj
        (List.cons.inj both).2).2).2
  · match p, one with
    | [], one => exact Or.inr (Or.inr one)
    | _ :: _, one => exact Or.inl (append_eq_nil_iff.mp (List.cons.inj one).2).2

theorem sobra_of_blank {y z : Text} (blanks : ∀ c ∈ y, isBlank c = true)
    (whole : y ++ z = b.rabo ++ b.fecho.texto) : Sobra z := by
  rcases append_eq_append_iff.mp whole with ⟨p, split, rfl⟩ | ⟨p, rfl, cut⟩
  · have inside : ∀ c ∈ p, isBlank c = true := fun c known =>
      b.branco c (split ▸ mem_append_right _ known)
    refine .separada inside ?_ b.fecho
    intro last
    apply b.aberto
    rw [split, ← append_assoc, List.getLast?_append, last]
    rfl
  · have inside : ∀ c ∈ p, isBlank c = true := fun c known =>
      blanks c (mem_append_right _ known)
    rcases append_eq_append_iff.mp cut with ⟨r, rfl, line⟩ | ⟨r, start, rfl⟩
    · cases r with
      | nil => exact .solta (Or.inr ⟨b.fecho, line.symm⟩)
      | cons d r =>
        obtain ⟨rfl, -⟩ := List.cons.inj line
        exact absurd (inside '-' (mem_append_right _ (mem_cons_self ..))) (by decide)
    · have breaks := b.fecho.breaks
      rw [start] at breaks
      rcases quebra_suffix breaks with rfl | line
      · exact .solta (Or.inr ⟨b.fecho, rfl⟩)
      · have after : Sobra ([] ++ (r ++ b.fecho.linha)) :=
          .separada (by rintro c ⟨⟩) (by decide) { b.fecho with inicio := r, breaks := line }
        exact after

theorem Situacao.palpite {q resto : Text} (situacao : Situacao q resto aFazer)
    (whole : pareceInteiro q = true) :
    ∃ b todo, aFazer = b :: todo ∧ (Truncado b q ∨ Inteiro [b] q ∧
      lerEvento runtime q = some b.evento ∧ ∃ g, Sobra g ∧ resto = g ++ fluxo todo) := by
  have noMark : ∀ text, SemMarcas text → q <+: text → False := by
    intro text free start
    have unread : capturar marcaCodigo ateOPontoEVirgula q = none :=
      capturar_fim _ fun inside => free marcaCodigo (by decide) (inside.trans start.isInfix)
    rw [pareceInteiro_none unread] at whole
    cases whole
  cases situacao with
  | @antes branco _ z aFazer blanks aberto s left cut =>
    have free : SemMarcas (branco ++ s.texto) := by
      have line := semMarcas_blank (quebra_blank s.breaks) (semMarcas_linha s semMarcas_nil)
      rw [append_nil] at line
      exact semMarcas_blank blanks line
    exact (noMark _ free ⟨z, cut⟩).elim
  | @fim g _ _ solta cut =>
    have free := solta_semMarcas solta semMarcas_nil
    rw [append_nil] at free
    exact (noMark _ free ⟨_, cut⟩).elim
  | @dentro g _ z b aFazer solta left cut =>
    refine ⟨b, aFazer, rfl, ?_⟩
    rcases b.inteiro_or_truncado solta ⟨z, cut⟩ whole with truncado | ⟨y, part, blanks, rfl⟩
    · exact Or.inl truncado
    right
    have tail : y ++ z = b.rabo ++ b.fecho.texto := by
      have aligned : (g ++ b.corpo) ++ (y ++ z) = (g ++ b.corpo) ++ (b.rabo ++ b.fecho.texto) := by
        rw [Bloco.texto] at cut
        simpa using cut
      exact append_cancel_left aligned
    exact ⟨⟨b, mem_singleton_self _, g, y, solta, blanks, rfl⟩,
      b.lerEvento_texto solta blanks, z, sobra_of_blank b blanks tail, rfl⟩

/-! The chunks. -/

/-- What the closing brace is looked for in. -/
def restoDe (buffer : Text) : Text := (partes buffer).getLast?.getD []

/-- No part is complete, and the closing brace is taken for the end of a block. -/
def palpita (buffer : Text) : Prop :=
  ((partes buffer).dropLast.filter fun parte => marcaCodigo <:+: parte) = [] ∧
    pareceInteiro (restoDe buffer) = true

/-- Whenever the closing brace is taken for the end of a block, it is the end of one. -/
def SemCorte (blocos : List (Bloco runtime)) : Text → List Text → Prop
  | _, [] => True
  | buffer, pedaco :: outros =>
    (palpita (buffer ++ pedaco) → Inteiro blocos (restoDe (buffer ++ pedaco))) ∧
      SemCorte blocos (extrairBlocos (buffer ++ pedaco)).2 outros

section Parts

variable {buffer q : Text} {prontas : List Text} (split : partes buffer = prontas ++ [q])

include split

theorem restoDe_eq : restoDe buffer = q := by
  rw [restoDe, split, List.getLast?_append_cons]
  rfl

theorem palpita_iff : palpita buffer ↔
    (prontas.filter fun parte => marcaCodigo <:+: parte) = [] ∧ pareceInteiro q = true := by
  rw [palpita, restoDe_eq split, split, dropLast_concat]

theorem extrairBlocos_palpita (guess : palpita buffer) : extrairBlocos buffer = ([q], []) := by
  have rest := restoDe_eq split
  unfold restoDe at rest
  unfold palpita restoDe at guess
  rw [rest] at guess
  rw [extrairBlocos]
  simp only [rest]
  rw [if_pos guess]

theorem extrairBlocos_partes (guess : ¬palpita buffer) :
    extrairBlocos buffer = (prontas.filter fun parte => marcaCodigo <:+: parte, q) := by
  have rest := restoDe_eq split
  unfold restoDe at rest
  unfold palpita restoDe at guess
  rw [rest] at guess
  rw [extrairBlocos]
  simp only [rest]
  rw [if_neg guess, split, dropLast_concat]

end Parts

theorem receber_fluxo (todos : List (Bloco runtime)) (pedacos : List Text) {g buffer : Text}
    (sobra : Sobra g) (known : blocos ⊆ todos)
    (whole : buffer ++ pedacos.flatten = g ++ fluxo blocos)
    (ended : pedacos.flatten = [] → blocos = []) :
    receber runtime buffer pedacos = blocos.map Bloco.evento ↔ SemCorte todos buffer pedacos := by
  induction pedacos generalizing g buffer blocos with
  | nil =>
    rw [ended rfl]
    exact iff_of_true rfl trivial
  | cons pedaco outros ih =>
    rw [flatten_cons, ← append_assoc] at whole
    obtain ⟨prontas, q, feitos, aFazer, split, rfl, situacao, relata⟩ :=
      situacao_sobra blocos sobra whole
    rw [SemCorte, receber]
    by_cases guess : palpita (buffer ++ pedaco)
    · obtain ⟨empty, inteiro⟩ := (palpita_iff split).mp guess
      have first : feitos = [] := by
        rw [Relata, empty] at relata
        exact map_eq_nil_iff.mp relata.symm
      subst first
      rw [extrairBlocos_palpita split guess, restoDe_eq split]
      obtain ⟨b, todo, rfl, truncado | ⟨⟨b', one, found⟩, read, g', sobra', rest⟩⟩ :=
        situacao.palpite inteiro
      · have wrong := truncado.not_inteiro todos
        obtain ⟨e, read, other, -⟩ := truncado
        refine iff_of_false (fun same => other ?_) fun right => wrong (right.1 guess)
        dsimp only at same
        rw [filterMap_cons_some read] at same
        exact (List.cons.inj same).1
      · obtain rfl := mem_singleton.mp one
        have right : Inteiro todos q := ⟨b', known (mem_cons_self ..), found⟩
        have rest' : [] ++ outros.flatten = g' ++ fluxo todo := rest
        have later := ih sobra' (fun c inside => known (mem_cons_of_mem _ inside))
          rest' fun none_ => by
            rw [none_] at rest
            exact fluxo_eq_nil (append_eq_nil_iff.mp rest.symm).2
        dsimp only
        rw [filterMap_cons_some read, ← later]
        simp [right]
    · rw [extrairBlocos_partes split guess]
      obtain ⟨g', sobra', rest⟩ := situacao.sobra
      have later := ih sobra' (fun c inside => known (mem_append_right _ inside)) rest
        fun none_ => by
          rw [none_] at situacao
          exact situacao.nil
      dsimp only
      rw [relata, map_append, append_right_inj, later]
      simp [guess]

/-- A stream that comes at once is read as its blocks. -/
theorem receber_inteiro {g : Text} (sobra : Sobra g) :
    receber runtime [] [g ++ fluxo blocos] = blocos.map Bloco.evento := by
  have whole : (g ++ fluxo blocos) ++ [] = g ++ fluxo blocos := append_nil _
  obtain ⟨prontas, q, feitos, aFazer, split, rfl, situacao, relata⟩ :=
    situacao_sobra blocos sobra whole
  have ended := situacao.nil
  subst ended
  have guess : ¬palpita (g ++ fluxo (feitos ++ [])) := by
    intro guess
    obtain ⟨b, todo, none_, -⟩ := situacao.palpite ((palpita_iff split).mp guess).2
    cases none_
  rw [receber, nil_append, extrairBlocos_partes split guess]
  dsimp only
  rw [relata, receber]
  simp

/-- The chunks are read as the stream is, whose events are those of its blocks, if and only if no
chunk ends at a closing brace within one. -/
theorem receber_iff_semCorte {g : Text} (sobra : Sobra g) (blocos : List (Bloco runtime))
    (pedacos : List Text) (whole : pedacos.flatten = g ++ fluxo blocos) :
    (receber runtime [] pedacos = receber runtime [] [pedacos.flatten] ∧
      receber runtime [] [pedacos.flatten] = blocos.map Bloco.evento) ↔
      SemCorte blocos [] pedacos := by
  have once : receber runtime [] [pedacos.flatten] = blocos.map Bloco.evento := by
    rw [whole]
    exact receber_inteiro sobra
  have all : [] ++ pedacos.flatten = g ++ fluxo blocos := whole
  have run := receber_fluxo blocos pedacos sobra (List.Subset.refl _) all
    fun none_ => by
      rw [whole] at none_
      exact fluxo_eq_nil (append_eq_nil_iff.mp none_).2
  rw [once, run]
  exact and_iff_left rfl

end Decoding

section Face

open Json (digits)

def oneDigitRuntime : Runtime where
  format := digits
  number := digits.read
  zero := (0 : Fin 10)
  noNumber := rfl

def boundary : Separador where
  inicio := ['\r', '\n']
  nome := "myboundary".toList
  fim := ['\r', '\n']
  breaks := Or.inl rfl
  ends := Or.inl rfl
  named := by decide
  plain := by simp [naoQuebra]
  livre := by unfold SemMarcas; decide

def faceRecognition : Bloco oneDigitRuntime where
  cabecalho := []
  codigo := "FaceRecognition".toList
  acao := "Start".toList
  indice := "0".toList
  json := "\x7b\"Candidate\":\x7b\"ID\":\"104\"\x7d,\"UTC\":1\x7d".toList
  rabo := []
  fecho := boundary
  campos :=
    { cabecalho := by unfold SemMarcas; decide
      codigo := ⟨by unfold SemMarcas; decide, by decide, by decide⟩
      acao := ⟨by unfold SemMarcas; decide, by decide, by decide⟩
      indice := ⟨by unfold SemMarcas; decide, by decide, by decide⟩ }
  digitos := by simp [Char.isDigit]
  analisa := Option.isSome_iff_ne_none.mp (by decide +kernel)
  aparado := by decide
  branco := nofun
  linhas := by unfold SemTracos; decide +kernel
  comeco := by decide
  aberto := by decide

def faceChunks : List Text :=
  ["Code=FaceRecognition;action=Start;index=0;data=\x7b\"Candidate\":\x7b\"ID\":\"104\"\x7d".toList,
    ",\"UTC\":1\x7d\r\n--myboundary\r\n".toList]

theorem faceRecognition_whole : receber oneDigitRuntime [] [faceRecognition.corpo, boundary.texto] =
        receber oneDigitRuntime [] [[faceRecognition.corpo, boundary.texto].flatten] ∧
      receber oneDigitRuntime [] [[faceRecognition.corpo, boundary.texto].flatten] =
        [faceRecognition].map Bloco.evento := by
  refine (receber_iff_semCorte (.solta (Or.inl rfl)) [faceRecognition]
    [faceRecognition.corpo, boundary.texto] (by decide +kernel)).mpr ⟨fun _ => ?_, fun guess => ?_,
      trivial⟩
  · refine ⟨faceRecognition, mem_singleton_self _, [], [], Or.inl rfl, nofun, ?_⟩
    decide +kernel
  · exact absurd guess.2 (by decide +kernel)

theorem faceRecognition_cut : ¬∀ (runtime : Runtime) (g : Text) (blocos : List (Bloco runtime))
    (pedacos : List Text), Sobra g → pedacos.flatten = g ++ fluxo blocos →
      receber runtime [] pedacos = receber runtime [] [pedacos.flatten] ∧
        receber runtime [] [pedacos.flatten] = blocos.map Bloco.evento := by
  intro claimed
  have same := (claimed oneDigitRuntime [] [faceRecognition] faceChunks (.solta (Or.inl rfl))
    (by decide +kernel)).1
  have raw := congrArg (List.map EventoIntelbras.dadosCrus) same
  exact absurd raw (by decide +kernel)

end Face

end DracVms.IntelbrasEvents
