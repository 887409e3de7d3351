import DracVms.Library.JsString
import DracVms.Library.JsonPrefix

namespace DracVms.IntelbrasEvents

open List

open Json (Text Value Scalar NumberFormat scalarSyntax)
open JsString (trim isBlank)

/-- How numbers are read, in JSON and by `Number`, which is none when it is not finite. -/
structure Runtime where
  format : NumberFormat
  number : Text → Option format.Number
  zero : format.Number
  noNumber : format.read [] = none

structure EventoIntelbras (Number : Type) where
  codigo : Text
  acao : Text
  indice : Number
  dados : Value (Scalar Number)
  dadosCrus : Option Text

/-! The separator: a line break, two hyphens, something on that line and its line break. -/

def naoQuebra (c : Char) : Bool := c ≠ '\r' && c ≠ '\n'

/-- How long the line break is with which the text begins. -/
def quebra : Text → ℕ
  | '\r' :: '\n' :: _ => 2
  | '\n' :: _ => 1
  | _ => 0

/-- How long the separator is with which the text begins. -/
def separador (text : Text) : ℕ :=
  match quebra text, text.drop (quebra text) with
  | n + 1, '-' :: '-' :: rest =>
    match (rest.takeWhile naoQuebra).length, quebra (rest.dropWhile naoQuebra) with
    | m + 1, k + 1 => n + 1 + 2 + (m + 1) + (k + 1)
    | _, _ => 0
  | _, _ => 0

/-- What lies between the separators, the first `n` characters being passed already. -/
def partesDe : ℕ → Text → List Text
  | _, [] => [[]]
  | n + 1, _ :: rest => partesDe n rest
  | 0, c :: rest =>
    match separador (c :: rest) with
    | n + 1 => [] :: partesDe n rest
    | 0 => (partesDe 0 rest).modifyHead (c :: ·)

def partes (text : Text) : List Text := partesDe 0 text

/-! The marks of the fields. -/

/-- The text after the first occurrence of a mark. -/
def depois (marca : Text) : Text → Option Text
  | [] => none
  | c :: rest =>
    if marca <+: c :: rest then some ((c :: rest).drop marca.length) else depois marca rest

/-- The group of the first occurrence of a mark behind which a value is found. -/
def capturar (marca : Text) (valor : Text → Option Text) : Text → Option Text
  | [] => none
  | c :: rest =>
    if marca <+: c :: rest then
      (valor ((c :: rest).drop marca.length)).or (capturar marca valor rest)
    else capturar marca valor rest

def semPontoEVirgula (c : Char) : Bool := c ≠ ';'

/-- `([^;]+);` -/
def ateOPontoEVirgula (text : Text) : Option Text :=
  match text.takeWhile semPontoEVirgula, text.dropWhile semPontoEVirgula with
  | c :: valor, _ :: _ => some (c :: valor)
  | _, _ => none

/-- `([^;]+)[;\r\n]`, which goes back to the last line break when there is no semicolon. -/
def ateALinha (text : Text) : Option Text :=
  (ateOPontoEVirgula text).or
    (match (text.takeWhile semPontoEVirgula).reverse.dropWhile naoQuebra with
      | _ :: c :: antes => some (c :: antes).reverse
      | _ => none)

def marcaCodigo : Text := "Code=".toList
def marcaAcao : Text := "action=".toList
def marcaIndice : Text := "index=".toList
def marcaDados : Text := "data=".toList

/-- There is an event in it, and its last character closes a brace. -/
def pareceInteiro (resto : Text) : Bool :=
  (capturar marcaCodigo ateOPontoEVirgula resto).isSome && (trim resto).getLast? = some '}'

def extrairBlocos (buffer : Text) : List Text × Text :=
  let separadas := partes buffer
  let resto := separadas.getLast?.getD []
  let blocos := separadas.dropLast.filter fun parte => marcaCodigo <:+: parte
  if blocos = [] ∧ pareceInteiro resto then ([resto], []) else (blocos, resto)

section Reading

variable (runtime : Runtime)

/-- The payload, and the raw text of one that cannot be read. -/
def lerDados (cru : Text) : Value (Scalar runtime.format.Number) × Option Text :=
  match Json.parse (scalarSyntax runtime.format) cru with
  | some (.atom _) => (.object [], none)
  | some analisado => (analisado, none)
  | none => (.object [], some cru)

def lerEvento (bloco : Text) : Option (EventoIntelbras runtime.format.Number) :=
  let codigo := ((capturar marcaCodigo ateOPontoEVirgula bloco).map trim).getD []
  if codigo = [] then none
  else
    let acao := ((capturar marcaAcao ateOPontoEVirgula bloco).map trim).getD "Pulse".toList
    let indiceBruto := (capturar marcaIndice ateALinha bloco).map trim
    let indice := (indiceBruto.bind runtime.number).getD runtime.zero
    match depois marcaDados bloco with
    | none => some ⟨codigo, acao, indice, .object [], none⟩
    | some dados =>
      let lido := lerDados runtime (trim dados)
      some ⟨codigo, acao, indice, lido.1, lido.2⟩

/-- The chunks one after the other, the rest of each kept for the next. -/
def receber : Text → List Text → List (EventoIntelbras runtime.format.Number)
  | _, [] => []
  | buffer, pedaco :: outros =>
    let (blocos, resto) := extrairBlocos (buffer ++ pedaco)
    blocos.filterMap (lerEvento runtime) ++ receber resto outros

end Reading

/-! Where the text is split. -/

theorem partesDe_drop (n : ℕ) (text : Text) : partesDe n text = partes (text.drop n) := by
  induction text generalizing n with
  | nil =>
    cases n <;> rfl
  | cons c rest ih =>
    cases n with
    | zero => rfl
    | succ n => exact ih n

theorem partes_separador {text : Text} {n : ℕ} (found : separador text = n + 1) :
    partes text = [] :: partes (text.drop (n + 1)) := by
  cases text with
  | nil => cases found
  | cons c rest =>
    rw [partes, partesDe, found]
    dsimp only
    rw [partesDe_drop]
    rfl

theorem partes_cons {c : Char} {rest : Text} (none_ : separador (c :: rest) = 0) :
    partes (c :: rest) = (partes rest).modifyHead (c :: ·) := by
  rw [partes, partesDe, none_]
  rfl

/-- As long as no separator begins, everything goes into the first part. -/
theorem partes_append (antes resto : Text)
    (none_ : ∀ x y, antes = x ++ y → y ≠ [] → separador (y ++ resto) = 0) :
    partes (antes ++ resto) = (partes resto).modifyHead (antes ++ ·) := by
  induction antes with
  | nil => rw [nil_append]; cases partes resto <;> rfl
  | cons c antes ih =>
    have own := none_ [] (c :: antes) rfl (cons_ne_nil _ _)
    rw [cons_append] at own ⊢
    rw [partes_cons own, ih fun x y split solid => none_ (c :: x) y (by rw [split]; rfl) solid,
      modifyHead_modifyHead]
    rfl

/-! Every mark ends with an equals sign, so a text is searched from one such sign to the next. -/

section Marks

variable {haste : Text} (solid : haste ≠ []) (plain : '=' ∉ haste)

include plain in
theorem marca_prefix_iff {r : Text} (free : '=' ∉ r) (post : Text) :
    haste ++ ['='] <+: r ++ '=' :: post ↔ haste = r := by
  constructor
  · rintro ⟨more, same⟩
    rw [append_assoc, singleton_append] at same
    have first : ∀ x y : Text, '=' ∉ x → (x ++ '=' :: y).takeWhile (· ≠ '=') = x := by
      intro x y none_
      rw [takeWhile_append_of_pos, takeWhile_cons_of_neg (by decide), append_nil]
      intro c inside
      exact decide_eq_true fun equal => none_ (equal ▸ inside)
    rw [← first haste more plain, same, first r post free]
  · rintro rfl
    exact ⟨post, by rw [append_assoc, singleton_append]⟩

include solid plain in
theorem capturar_regiao (valor : Text → Option Text) {r : Text} (free : '=' ∉ r) (post : Text) :
    capturar (haste ++ ['=']) valor (r ++ '=' :: post) =
      if haste <:+ r then (valor post).or (capturar (haste ++ ['=']) valor post)
      else capturar (haste ++ ['=']) valor post := by
  induction r with
  | nil =>
    have apart : ¬haste ++ ['='] <+: '=' :: post := fun start =>
      solid ((marca_prefix_iff plain free post).mp start)
    have unended : ¬haste <:+ [] := fun ends => solid (suffix_nil.mp ends)
    rw [nil_append, capturar, if_neg apart, if_neg unended]
  | cons c r ih =>
    have free' : '=' ∉ r := fun inside => free (mem_cons_of_mem _ inside)
    have starts := marca_prefix_iff plain free post
    rw [cons_append] at starts
    rw [cons_append, capturar, ih free']
    by_cases whole : haste = c :: r
    · have longer : ¬haste <:+ r := by
        intro ends
        have shorter := ends.length_le
        rw [whole, length_cons] at shorter
        omega
      have after : (c :: (r ++ '=' :: post)).drop (haste ++ ['=']).length = post := by
        rw [whole]
        simp
      rw [if_pos (starts.mpr whole), if_neg longer, after, if_pos (whole ▸ suffix_refl _)]
    · rw [if_neg (fun start => whole (starts.mp start))]
      have same : haste <:+ c :: r ↔ haste <:+ r := by
        rw [suffix_cons_iff, or_iff_right whole]
      simp only [same]

include solid plain in
theorem depois_regiao {r : Text} (free : '=' ∉ r) (post : Text) :
    depois (haste ++ ['=']) (r ++ '=' :: post) =
      if haste <:+ r then some post else depois (haste ++ ['=']) post := by
  induction r with
  | nil =>
    have apart : ¬haste ++ ['='] <+: '=' :: post := fun start =>
      solid ((marca_prefix_iff plain free post).mp start)
    have unended : ¬haste <:+ [] := fun ends => solid (suffix_nil.mp ends)
    rw [nil_append, depois, if_neg apart, if_neg unended]
  | cons c r ih =>
    have free' : '=' ∉ r := fun inside => free (mem_cons_of_mem _ inside)
    have starts := marca_prefix_iff plain free post
    rw [cons_append] at starts
    rw [cons_append, depois, ih free']
    by_cases whole : haste = c :: r
    · have after : (c :: (r ++ '=' :: post)).drop (haste ++ ['=']).length = post := by
        rw [whole]
        simp
      rw [if_pos (starts.mpr whole), after, if_pos (whole ▸ suffix_refl _)]
    · rw [if_neg (fun start => whole (starts.mp start))]
      have same : haste <:+ c :: r ↔ haste <:+ r := by
        rw [suffix_cons_iff, or_iff_right whole]
      simp only [same]

theorem capturar_fim {marca : Text} (valor : Text → Option Text) {r : Text}
    (free : ¬marca <:+: r) : capturar marca valor r = none := by
  induction r with
  | nil => rfl
  | cons c r ih =>
    rw [capturar, if_neg fun start => free start.isInfix]
    exact ih fun inside => free (inside.trans (suffix_cons _ _).isInfix)

/-- The search goes on behind a text in which no occurrence begins. -/
theorem capturar_append {marca : Text} (valor : Text → Option Text) {antes resto : Text}
    (none_ : ∀ x y, antes = x ++ y → y ≠ [] → ¬marca <+: y ++ resto) :
    capturar marca valor (antes ++ resto) = capturar marca valor resto := by
  induction antes with
  | nil => rfl
  | cons c antes ih =>
    have here := none_ [] (c :: antes) rfl (cons_ne_nil _ _)
    rw [cons_append] at here ⊢
    rw [capturar, if_neg here]
    exact ih fun x y split solid => none_ (c :: x) y (by rw [split]; rfl) solid

theorem depois_append {marca antes resto : Text}
    (none_ : ∀ x y, antes = x ++ y → y ≠ [] → ¬marca <+: y ++ resto) :
    depois marca (antes ++ resto) = depois marca resto := by
  induction antes with
  | nil => rfl
  | cons c antes ih =>
    have here := none_ [] (c :: antes) rfl (cons_ne_nil _ _)
    rw [cons_append] at here ⊢
    rw [depois, if_neg here]
    exact ih fun x y split solid => none_ (c :: x) y (by rw [split]; rfl) solid

theorem marca_before {antes word post : Text} (plain : '=' ∉ haste) (free : '=' ∉ word)
    (absent : ¬haste ++ ['='] <:+: antes) (apart : ∀ y, haste = y ++ word → y = []) (x y : Text)
    (split : antes = x ++ y) (solid : y ≠ []) : ¬haste ++ ['='] <+: y ++ (word ++ '=' :: post) := by
  rintro ⟨more, same⟩
  rcases append_eq_append_iff.mp same with ⟨p, rfl, -⟩ | ⟨p, ends, start⟩
  · exact absent ⟨x, p, by rw [split]; simp⟩
  · rcases eq_nil_or_concat p with rfl | ⟨p', last, rfl⟩
    · rw [append_nil] at ends
      exact absent ⟨x, [], by rw [split, ends, append_nil]⟩
    · rw [concat_eq_append, ← append_assoc] at ends
      obtain ⟨whole, one⟩ := append_inj' ends rfl
      obtain rfl : '=' = last := by simpa using one
      have none_ : '=' ∉ p' := fun inside => plain (whole ▸ mem_append_right _ inside)
      have reached : p' = word :=
        (marca_prefix_iff none_ free post).mp ⟨more, by rw [start]; simp⟩
      exact solid (apart y (by rw [whole, reached]))

theorem suffix_last (solid : haste ≠ []) (front : Text) {word : Text} (ends : haste <:+ front ++ word)
    (solid' : word ≠ []) : haste.getLast? = word.getLast? := by
  obtain ⟨before, same⟩ := ends
  rw [← List.getLast?_append_of_ne_nil before solid, same,
    List.getLast?_append_of_ne_nil front solid']

/-- A word without the sign that separates. -/
structure Palavra (word : Text) : Prop where
  solid : word ≠ []
  plain : '=' ∉ word

variable {front word : Text}

theorem Palavra.apart (palavra : Palavra word) (other : haste.getLast? ≠ word.getLast?) :
    haste ≠ front ++ word := by
  rintro rfl
  exact other (List.getLast?_append_of_ne_nil front palavra.solid)

theorem eq_nil_of_suffix {word : Text} (ends : haste <:+ word) (y : Text) (same : haste = y ++ word) :
    y = [] := by
  have short := ends.length_le
  rw [same, length_append] at short
  exact eq_nil_of_length_eq_zero (by omega)

variable (haste) in
theorem capturar_passa (mark : Palavra haste) (valor : Text → Option Text)
    (free : ¬haste ++ ['='] <:+: front) (palavra : Palavra word)
    (other : haste.getLast? ≠ word.getLast?) (post : Text) :
    capturar (haste ++ ['=']) valor (front ++ (word ++ '=' :: post)) =
      capturar (haste ++ ['=']) valor post := by
  rw [capturar_append valor (marca_before mark.plain palavra.plain free
      fun y same => absurd same (palavra.apart other)),
    capturar_regiao mark.solid mark.plain valor palavra.plain, if_neg]
  exact fun ends => other (suffix_last mark.solid [] ends palavra.solid)

variable (haste) in
theorem capturar_para (mark : Palavra haste) (valor : Text → Option Text)
    (free : ¬haste ++ ['='] <:+: front) (palavra : Palavra word) (ends : haste <:+ word)
    (post : Text) : capturar (haste ++ ['=']) valor (front ++ (word ++ '=' :: post)) =
      (valor post).or (capturar (haste ++ ['=']) valor post) := by
  rw [capturar_append valor (marca_before mark.plain palavra.plain free (eq_nil_of_suffix ends)),
    capturar_regiao mark.solid mark.plain valor palavra.plain, if_pos ends]

variable (haste) in
theorem depois_passa (mark : Palavra haste) (free : ¬haste ++ ['='] <:+: front)
    (palavra : Palavra word) (other : haste.getLast? ≠ word.getLast?) (post : Text) :
    depois (haste ++ ['=']) (front ++ (word ++ '=' :: post)) = depois (haste ++ ['=']) post := by
  rw [depois_append (marca_before mark.plain palavra.plain free
      fun y same => absurd same (palavra.apart other)),
    depois_regiao mark.solid mark.plain palavra.plain, if_neg]
  exact fun ends => other (suffix_last mark.solid [] ends palavra.solid)

variable (haste) in
theorem depois_para (mark : Palavra haste) (free : ¬haste ++ ['='] <:+: front)
    (palavra : Palavra word) (ends : haste <:+ word) (post : Text) :
    depois (haste ++ ['=']) (front ++ (word ++ '=' :: post)) = some post := by
  rw [depois_append (marca_before mark.plain palavra.plain free (eq_nil_of_suffix ends)),
    depois_regiao mark.solid mark.plain palavra.plain, if_pos ends]

end Marks

theorem ateOPontoEVirgula_some {valor : Text} (solid : valor ≠ []) (free : ';' ∉ valor)
    (more : Text) : ateOPontoEVirgula (valor ++ ';' :: more) = some valor := by
  have all : ∀ c ∈ valor, semPontoEVirgula c = true := fun c inside =>
    decide_eq_true fun equal => free (equal ▸ inside)
  have before : (valor ++ ';' :: more).takeWhile semPontoEVirgula = valor := by
    rw [takeWhile_append_of_pos all, takeWhile_cons_of_neg (by decide), append_nil]
  have after : (valor ++ ';' :: more).dropWhile semPontoEVirgula = ';' :: more := by
    rw [dropWhile_append_of_pos all, dropWhile_cons_of_neg (by decide)]
  obtain ⟨c, rest, rfl⟩ := exists_cons_of_ne_nil solid
  rw [ateOPontoEVirgula, before, after]

theorem ateOPontoEVirgula_none {text : Text} (free : ';' ∉ text) :
    ateOPontoEVirgula text = none := by
  have all : ∀ c ∈ text, semPontoEVirgula c = true := fun c inside =>
    decide_eq_true fun equal => free (equal ▸ inside)
  have after : text.dropWhile semPontoEVirgula = [] := dropWhile_eq_nil_iff.mpr all
  rw [ateOPontoEVirgula, after]
  split <;> simp_all

/-! What is read of a block whose fields stand in their order. -/

def escrever (cabecalho codigo acao indice dados : Text) : Text :=
  cabecalho ++ ("Code".toList ++ '=' :: (codigo ++ (";action".toList ++ '=' ::
    (acao ++ (";index".toList ++ '=' :: (indice ++ (";data".toList ++ '=' :: dados)))))))

def marcas : List Text := [marcaCodigo, marcaAcao, marcaIndice, marcaDados]

def SemMarcas (text : Text) : Prop := ∀ marca ∈ marcas, ¬marca <:+: text

/-- The values in front of the payload hold no mark and no semicolon. -/
structure Campos (cabecalho codigo acao indice : Text) : Prop where
  cabecalho : SemMarcas cabecalho
  codigo : SemMarcas codigo ∧ ';' ∉ codigo ∧ trim codigo ≠ []
  acao : SemMarcas acao ∧ ';' ∉ acao ∧ acao ≠ []
  indice : SemMarcas indice ∧ ';' ∉ indice ∧ indice ≠ []

theorem palavra_code : Palavra "Code".toList := ⟨by decide, by decide⟩
theorem palavra_action : Palavra "action".toList := ⟨by decide, by decide⟩
theorem palavra_index : Palavra "index".toList := ⟨by decide, by decide⟩
theorem palavra_data : Palavra "data".toList := ⟨by decide, by decide⟩
theorem campo_action : Palavra ";action".toList := ⟨by decide, by decide⟩
theorem campo_index : Palavra ";index".toList := ⟨by decide, by decide⟩
theorem campo_data : Palavra ";data".toList := ⟨by decide, by decide⟩

section Fields

variable {cabecalho codigo acao indice : Text} (campos : Campos cabecalho codigo acao indice)

include campos

theorem codigo_ne_nil : codigo ≠ [] := by
  rintro rfl
  exact campos.codigo.2.2 rfl

theorem capturar_codigo (resto : Text) :
    capturar marcaCodigo ateOPontoEVirgula (cabecalho ++ ("Code".toList ++ '=' ::
      (codigo ++ ';' :: resto))) = some codigo := by
  have found := capturar_para "Code".toList palavra_code ateOPontoEVirgula
    (campos.cabecalho marcaCodigo (by decide)) palavra_code (suffix_refl _)
    (codigo ++ ';' :: resto)
  rw [ateOPontoEVirgula_some (codigo_ne_nil campos) campos.codigo.2.1, Option.some_or] at found
  exact found

theorem capturar_acao (resto : Text) :
    capturar marcaAcao ateOPontoEVirgula (cabecalho ++ ("Code".toList ++ '=' ::
      (codigo ++ (";action".toList ++ '=' :: (acao ++ ';' :: resto))))) = some acao := by
  have first := capturar_passa "action".toList palavra_action ateOPontoEVirgula
    (campos.cabecalho marcaAcao (by decide)) palavra_code (by decide)
    (codigo ++ (";action".toList ++ '=' :: (acao ++ ';' :: resto)))
  have found := capturar_para "action".toList palavra_action ateOPontoEVirgula
    (campos.codigo.1 marcaAcao (by decide)) campo_action (by decide) (acao ++ ';' :: resto)
  rw [ateOPontoEVirgula_some campos.acao.2.2 campos.acao.2.1, Option.some_or] at found
  exact first.trans found

theorem capturar_indice (resto : Text) :
    capturar marcaIndice ateALinha (cabecalho ++ ("Code".toList ++ '=' ::
      (codigo ++ (";action".toList ++ '=' :: (acao ++ (";index".toList ++ '=' ::
        (indice ++ ';' :: resto))))))) = some indice := by
  have first := capturar_passa "index".toList palavra_index ateALinha
    (campos.cabecalho marcaIndice (by decide)) palavra_code (by decide)
    (codigo ++ (";action".toList ++ '=' :: (acao ++ (";index".toList ++ '=' ::
      (indice ++ ';' :: resto)))))
  have second := capturar_passa "index".toList palavra_index ateALinha
    (campos.codigo.1 marcaIndice (by decide)) campo_action (by decide)
    (acao ++ (";index".toList ++ '=' :: (indice ++ ';' :: resto)))
  have found := capturar_para "index".toList palavra_index ateALinha
    (campos.acao.1 marcaIndice (by decide)) campo_index (by decide) (indice ++ ';' :: resto)
  rw [ateALinha, ateOPontoEVirgula_some campos.indice.2.2 campos.indice.2.1, Option.some_or,
    Option.some_or] at found
  exact first.trans (second.trans found)

theorem depois_dados (dados : Text) :
    depois marcaDados (escrever cabecalho codigo acao indice dados) = some dados := by
  have first := depois_passa "data".toList palavra_data
    (campos.cabecalho marcaDados (by decide)) palavra_code (by decide)
    (codigo ++ (";action".toList ++ '=' :: (acao ++ (";index".toList ++ '=' ::
      (indice ++ (";data".toList ++ '=' :: dados))))))
  have second := depois_passa "data".toList palavra_data
    (campos.codigo.1 marcaDados (by decide)) campo_action (by decide)
    (acao ++ (";index".toList ++ '=' :: (indice ++ (";data".toList ++ '=' :: dados))))
  have third := depois_passa "data".toList palavra_data
    (campos.acao.1 marcaDados (by decide)) campo_index (by decide)
    (indice ++ (";data".toList ++ '=' :: dados))
  have found := depois_para "data".toList palavra_data
    (campos.indice.1 marcaDados (by decide)) campo_data (by decide) dados
  exact first.trans (second.trans (third.trans found))

variable (runtime : Runtime)

theorem lerEvento_escrever (dados : Text) :
    lerEvento runtime (escrever cabecalho codigo acao indice dados) =
      some ⟨trim codigo, trim acao, (runtime.number (trim indice)).getD runtime.zero,
        (lerDados runtime (trim dados)).1, (lerDados runtime (trim dados)).2⟩ := by
  have code : capturar marcaCodigo ateOPontoEVirgula (escrever cabecalho codigo acao indice dados) =
      some codigo :=
    capturar_codigo campos ("action".toList ++ '=' :: (acao ++ (";index".toList ++ '=' ::
      (indice ++ (";data".toList ++ '=' :: dados)))))
  have action : capturar marcaAcao ateOPontoEVirgula (escrever cabecalho codigo acao indice dados) =
      some acao :=
    capturar_acao campos ("index".toList ++ '=' :: (indice ++ (";data".toList ++ '=' :: dados)))
  have index : capturar marcaIndice ateALinha (escrever cabecalho codigo acao indice dados) =
      some indice := capturar_indice campos ("data".toList ++ '=' :: dados)
  have data := depois_dados campos dados
  simp only [lerEvento, code, action, index, data, Option.map_some, Option.getD_some,
    Option.bind_some, if_neg campos.codigo.2.2]

end Fields

end DracVms.IntelbrasEvents
