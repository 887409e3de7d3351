import DracVms.Cameras.IntelbrasEvents

namespace DracVms.IntelbrasEvents

open List

open Json (Text Value Scalar scalarSyntax)
open JsString (trim isBlank)

/-! Separators and the texts between them. -/

def Quebra (text : Text) : Prop := text = ['\r', '\n'] ∨ text = ['\n']

structure Separador where
  inicio : Text
  nome : Text
  fim : Text
  breaks : Quebra inicio
  ends : Quebra fim
  named : nome ≠ []
  plain : ∀ c ∈ nome, naoQuebra c = true ∧ c ≠ '}'
  livre : SemMarcas nome

def Separador.linha (s : Separador) : Text := '-' :: '-' :: (s.nome ++ s.fim)

def Separador.texto (s : Separador) : Text := s.inicio ++ s.linha

/-- No line after the first begins with two hyphens. -/
def SemTracos (text : Text) : Prop := ¬['\n', '-', '-'] <:+: text

/-- What follows is the end or a line break. -/
def Comeca (resto : Text) : Prop := ∀ c ∈ resto.head?, naoQuebra c = false

variable {text : Text}

theorem quebra_shape {n : ℕ} (found : quebra text = n + 1) :
    (n = 1 ∧ ∃ rest, text = '\r' :: '\n' :: rest) ∨ (n = 0 ∧ ∃ rest, text = '\n' :: rest) := by
  unfold quebra at found
  split at found
  · rename_i rest
    exact Or.inl ⟨by omega, rest, rfl⟩
  · rename_i rest
    exact Or.inr ⟨by omega, rest, rfl⟩
  · cases found

theorem separador_shape {n : ℕ} (found : separador text = n + 1) :
    ∃ m rest, quebra text = m + 1 ∧ text.drop (m + 1) = '-' :: '-' :: rest ∧
      ∃ k, quebra (rest.dropWhile naoQuebra) = k + 1 := by
  unfold separador at found
  split at found
  · rename_i m rest breaks line
    rw [breaks] at line
    split at found
    · rename_i k _ ends
      exact ⟨m, rest, breaks, line, k, ends⟩
    · cases found
  · cases found

theorem quebra_count {n : ℕ} (found : quebra text = n + 1) :
    text.count '\n' = 1 + (text.drop (n + 1)).count '\n' := by
  rcases quebra_shape found with ⟨rfl, rest, rfl⟩ | ⟨rfl, rest, rfl⟩
  all_goals simp [Nat.add_comm]

/-- A separator has two line breaks. -/
theorem separador_count {n : ℕ} (found : separador text = n + 1) : 2 ≤ text.count '\n' := by
  obtain ⟨m, rest, breaks, line, k, ends⟩ := separador_shape found
  have first := quebra_count breaks
  have second := quebra_count ends
  have within : (rest.dropWhile naoQuebra).count '\n' ≤ rest.count '\n' :=
    (dropWhile_sublist _).count_le _
  rw [line, count_cons_of_ne (by decide), count_cons_of_ne (by decide)] at first
  omega

theorem quebra_append (breaks : Quebra text) (more : Text) :
    quebra (text ++ more) = text.length := by
  rcases breaks with rfl | rfl <;> rfl

theorem separador_texto (s : Separador) (more : Text) :
    separador (s.texto ++ more) = s.texto.length := by
  have all : ∀ c ∈ s.nome, naoQuebra c = true := fun c inside => (s.plain c inside).1
  have whole : s.texto ++ more = s.inicio ++ ('-' :: '-' :: (s.nome ++ (s.fim ++ more))) := by
    simp [Separador.texto, Separador.linha]
  have stop : ∀ tail : Text, (s.fim ++ tail).takeWhile naoQuebra = [] ∧
      (s.fim ++ tail).dropWhile naoQuebra = s.fim ++ tail := by
    intro tail
    rcases s.ends with same | same <;> rw [same] <;> exact ⟨rfl, rfl⟩
  have before : (s.nome ++ (s.fim ++ more)).takeWhile naoQuebra = s.nome := by
    rw [takeWhile_append_of_pos all, (stop more).1, append_nil]
  have after : (s.nome ++ (s.fim ++ more)).dropWhile naoQuebra = s.fim ++ more := by
    rw [dropWhile_append_of_pos all, (stop more).2]
  obtain ⟨n, nameLength⟩ : ∃ n, s.nome.length = n + 1 :=
    ⟨s.nome.length - 1, by have := length_pos_of_ne_nil s.named; omega⟩
  have breakLength : ∀ text, Quebra text → ∃ n, text.length = n + 1 := by
    rintro text (rfl | rfl)
    · exact ⟨1, rfl⟩
    · exact ⟨0, rfl⟩
  obtain ⟨m, startLength⟩ := breakLength _ s.breaks
  obtain ⟨k, endLength⟩ := breakLength _ s.ends
  have size : s.texto.length = m + 1 + 2 + (n + 1) + (k + 1) := by
    simp only [Separador.texto, Separador.linha, length_append, length_cons]
    omega
  rw [whole, separador, quebra_append s.breaks, drop_left, startLength]
  simp only [before, after, quebra_append s.ends, nameLength, endLength, size]

theorem separador_within {antes resto : Text} (free : SemTracos antes)
    (open_ : antes.getLast? ≠ some '\r' ∨ resto = []) (starts : Comeca resto) (x y : Text)
    (split : antes = x ++ y) (solid : y ≠ []) : separador (y ++ resto) = 0 := by
  by_contra begins
  obtain ⟨n, found⟩ : ∃ n, separador (y ++ resto) = n + 1 :=
    ⟨separador (y ++ resto) - 1, by omega⟩
  obtain ⟨m, rest, breaks, line, -⟩ := separador_shape found
  have noHyphen : ∀ tail, resto ≠ '-' :: tail := by
    rintro tail rfl
    exact absurd (starts '-' rfl) (by decide)
  -- the hyphens are not in the rest, so the mark would lie within the part
  have inside : ∀ z, '\n' :: z = y ∨ '\r' :: '\n' :: z = y → z ++ resto = '-' :: '-' :: rest →
      False := by
    intro z ends hyphens
    have marked : ∀ tail, z = '-' :: '-' :: tail → False := by
      rintro tail rfl
      apply free
      rcases ends with rfl | rfl
      · exact ⟨x, tail, by rw [split]; simp⟩
      · exact ⟨x ++ ['\r'], tail, by rw [split]; simp⟩
    match z, hyphens with
    | [], hyphens => exact noHyphen _ hyphens
    | [c], hyphens => exact noHyphen _ (List.cons.inj hyphens).2
    | c :: d :: tail, hyphens =>
      obtain ⟨rfl, later⟩ := List.cons.inj hyphens
      obtain ⟨rfl, -⟩ := List.cons.inj later
      exact marked tail rfl
  obtain ⟨c, z, rfl⟩ := exists_cons_of_ne_nil solid
  rw [cons_append] at breaks line
  rcases quebra_shape breaks with ⟨rfl, tail, text⟩ | ⟨rfl, tail, text⟩
  · obtain ⟨rfl, after⟩ := List.cons.inj text
    rw [drop_succ_cons] at line
    cases z with
    | nil =>
      have last : antes.getLast? = some '\r' := by
        rw [split, List.getLast?_append_cons]
        rfl
      rcases open_ with other | none_
      · exact other last
      · rw [none_] at after
        cases after
    | cons d z =>
      obtain ⟨rfl, -⟩ := List.cons.inj after
      exact inside z (Or.inr rfl) line
  · obtain ⟨rfl, -⟩ := List.cons.inj text
    exact inside z (Or.inl rfl) line

theorem partes_uma (none_ : ∀ x y, text = x ++ y → y ≠ [] → separador y = 0) :
    partes text = [text] := by
  have whole := partes_append text []
    (by intro x y split solid; rw [append_nil]; exact none_ x y split solid)
  rw [append_nil] at whole
  rw [whole]
  exact congrArg (fun t => [t]) (append_nil text)

theorem partes_semTracos (free : SemTracos text) : partes text = [text] := by
  apply partes_uma
  intro x y split solid
  have within := separador_within free (Or.inr rfl) (by rintro c ⟨⟩) x y split solid
  rwa [append_nil] at within

theorem comeca_texto (s : Separador) (more : Text) : Comeca (s.texto ++ more) := by
  intro c first
  rcases s.breaks with same | same
  all_goals
    rw [Separador.texto, same] at first
    cases first
    rfl

theorem partes_parte {antes : Text} (free : SemTracos antes) (open_ : antes.getLast? ≠ some '\r')
    (s : Separador) (more : Text) : partes (antes ++ (s.texto ++ more)) = antes :: partes more := by
  have found := separador_texto s more
  obtain ⟨n, size⟩ : ∃ n, s.texto.length = n + 1 := by
    refine ⟨s.texto.length - 1, ?_⟩
    have long : 0 < s.texto.length := by
      simp [Separador.texto, Separador.linha]
    omega
  rw [partes_append antes _ (separador_within free (Or.inl open_) (comeca_texto s more)),
    partes_separador (found.trans size), ← size, drop_left]
  exact congrArg (fun t => t :: partes more) (append_nil antes)

theorem partes_incompleta {antes y z : Text} (free : SemTracos antes)
    (open_ : antes.getLast? ≠ some '\r') (s : Separador) (cut : y ++ z = s.texto) (left : z ≠ []) :
    partes (antes ++ y) = [antes ++ y] := by
  have count : y.count '\n' ≤ 1 := by
    have total : s.texto.count '\n' = 2 := by
      have noBreak : s.nome.count '\n' = 0 := by
        rw [count_eq_zero]
        intro inside
        exact absurd (s.plain _ inside).1 (by decide)
      have start : s.inicio.count '\n' = 1 := by
        rcases s.breaks with same | same <;> rw [same] <;> rfl
      have stop : s.fim.count '\n' = 1 := by
        rcases s.ends with same | same <;> rw [same] <;> rfl
      rw [Separador.texto, Separador.linha, count_append, count_cons_of_ne (by decide),
        count_cons_of_ne (by decide), count_append, start, stop, noBreak]
    have last : '\n' ∈ z := by
      have ends : s.texto.getLast? = some '\n' := by
        have closing : s.fim.getLast? = some '\n' := by
          rcases s.ends with same | same <;> rw [same] <;> rfl
        have split : s.texto = (s.inicio ++ '-' :: '-' :: s.nome) ++ s.fim := by
          simp [Separador.texto, Separador.linha]
        rw [split, List.getLast?_append, closing]
        rfl
      rw [← cut, List.getLast?_append_of_ne_nil _ left] at ends
      exact List.mem_of_getLast? ends
    have some_ := count_pos_iff.mpr last
    rw [← cut, count_append] at total
    omega
  have starts : Comeca y := by
    intro c first
    have whole := comeca_texto s []
    rw [append_nil, ← cut] at whole
    apply whole c
    rw [List.head?_append, first]
    rfl
  have alone : partes y = [y] := by
    apply partes_uma
    intro x y' split solid
    by_contra begins
    obtain ⟨n, found⟩ : ∃ n, separador y' = n + 1 := ⟨separador y' - 1, by omega⟩
    have twice := separador_count found
    rw [split, count_append] at count
    omega
  rw [partes_append antes y (separador_within free (Or.inl open_) starts), alone]
  rfl

end DracVms.IntelbrasEvents
