import DracVms.Library.JsonText

/-! What was read of a text is read again when the text goes on. -/
namespace DracVms.Json

open List

theorem skip_more {text : Text} (solid : skip text ≠ []) (more : Text) :
    skip (text ++ more) = skip text ++ more := by
  induction text with
  | nil => exact absurd rfl solid
  | cons c rest ih =>
    by_cases space : isSpace c = true
    · have dropped : skip (c :: rest) = skip rest := dropWhile_cons_of_pos space
      rw [dropped] at solid ⊢
      rw [cons_append, ← ih solid]
      exact dropWhile_cons_of_pos space
    · have kept : ∀ tail : Text, skip (c :: tail) = c :: tail := fun tail =>
        dropWhile_cons_of_neg space
      rw [cons_append, kept, kept]
      rfl

theorem skip_cons_more {text rest : Text} {c : Char} (start : skip text = c :: rest)
    (more : Text) : skip (text ++ more) = c :: (rest ++ more) := by
  rw [skip_more (by rw [start]; exact cons_ne_nil _ _), start, cons_append]

theorem readString_escape {c c' : Char} (known : unescape c = some c') (rest : Text) :
    readString ('\\' :: c :: rest) =
      (readString rest).map fun found => (c' :: found.1, found.2) := by
  have letter : c ≠ 'u' := by
    rintro rfl
    have unknown : unescape 'u' = none := by decide
    cases known
  rw [readString]
  · rw [known]
  · rintro a b c d more same -
    exact letter same

theorem readString_more {text : Text} {found rest : Text} (read : readString text = some (found, rest))
    (more : Text) : readString (text ++ more) = some (found, rest ++ more) := by
  fun_induction readString text generalizing found rest with
  | case1 => cases read
  | case2 =>
    obtain ⟨rfl, rfl⟩ := Prod.mk.inj (Option.some.inj read)
    rfl
  | case3 a b c d rest' w x y z high second third low ih =>
    obtain ⟨inner, known, same⟩ := Option.map_eq_some_iff.mp read
    obtain ⟨rfl, rfl⟩ := Prod.mk.inj same
    simp only [cons_append, readString, high, second, third, low, ih known, Option.map_some]
  | case4 => cases read
  | case5 c rest' notCode c' known ih =>
    obtain ⟨inner, later, same⟩ := Option.map_eq_some_iff.mp read
    obtain ⟨rfl, rfl⟩ := Prod.mk.inj same
    rw [cons_append, cons_append, readString_escape known, ih later]
    rfl
  | case6 | case7 => cases read
  | case8 c rest' mark code escape printed ih =>
    obtain ⟨inner, later, same⟩ := Option.map_eq_some_iff.mp read
    obtain ⟨rfl, rfl⟩ := Prod.mk.inj same
    have slash : c ≠ '\\' := by
      rintro rfl
      cases rest' with
      | nil => cases later
      | cons next rest => exact escape next rest rfl rfl
    rw [cons_append, readString_plain c _ mark slash printed, ih later]
    rfl

/-- A leaf that ends before the text does, or whose text holds a closing brace, is whole. -/
structure Whole {α : Type} (leaf : LeafSyntax α) : Prop where
  reads : ∀ text a rest, leaf.read text = some (a, rest) → rest ≠ [] ∨ '}' ∈ text →
    ∀ more, leaf.read (text ++ more) = some (a, rest ++ more)
  nothing : ∀ a rest, leaf.read [] = some (a, rest) → rest = []

section Whole

variable {α : Type} {leaf : LeafSyntax α}

theorem readItems_nil (n : Nat) : readItems leaf n [] = none := by
  cases n <;> rfl

theorem readFields_nil (n : Nat) : readFields leaf n [] = none := by
  cases n <;> rfl

theorem readField_nil (n : Nat) : readField leaf n [] = none := by
  cases n <;> rfl

theorem readValue_nil (whole : Whole leaf) {n : Nat} {value : Value α} {rest : Text}
    (read : readValue leaf n [] = some (value, rest)) : rest = [] := by
  cases n with
  | zero => cases read
  | succ n =>
    have leafRead : (leaf.read []).map (fun found => (Value.atom found.1, found.2)) =
        some (value, rest) := read
    obtain ⟨⟨a, rest'⟩, found, same⟩ := Option.map_eq_some_iff.mp leafRead
    obtain ⟨-, rfl⟩ := Prod.mk.inj same
    exact whole.nothing a _ found

/-- The four readers with some fuel, of texts that go on. -/
structure ReadsMore (leaf : LeafSyntax α) (n : Nat) : Prop where
  value : ∀ text value rest, readValue leaf n text = some (value, rest) → rest ≠ [] ∨ '}' ∈ text →
    ∀ m, n ≤ m → ∀ more, readValue leaf m (text ++ more) = some (value, rest ++ more)
  items : ∀ text items rest, readItems leaf n text = some (items, rest) →
    ∀ m, n ≤ m → ∀ more, readItems leaf m (text ++ more) = some (items, rest ++ more)
  field : ∀ text entry rest, readField leaf n text = some (entry, rest) → rest ≠ [] →
    ∀ m, n ≤ m → ∀ more, readField leaf m (text ++ more) = some (entry, rest ++ more)
  fields : ∀ text fields rest, readFields leaf n text = some (fields, rest) →
    ∀ m, n ≤ m → ∀ more, readFields leaf m (text ++ more) = some (fields, rest ++ more)

theorem readItems_more {n : Nat} (ih : ReadsMore leaf n) (text : Text) (found : List (Value α))
    (rest : Text) (read : readItems leaf (n + 1) text = some (found, rest)) (m : Nat)
    (enough : n + 1 ≤ m) (more : Text) :
    readItems leaf m (text ++ more) = some (found, rest ++ more) := by
  obtain ⟨m, rfl⟩ : ∃ k, m = k + 1 := ⟨m - 1, by omega⟩
  rw [readItems] at read ⊢
  split at read
  · rename_i rest' start
    obtain ⟨rfl, rfl⟩ := Prod.mk.inj (Option.some.inj read)
    simp only [skip_cons_more start]
  · rename_i rest' start
    simp only [Option.bind_eq_bind, Option.bind_eq_some_iff] at read
    obtain ⟨⟨value, after⟩, first, ⟨others, last⟩, second, same⟩ := read
    obtain ⟨rfl, rfl⟩ := Prod.mk.inj (Option.some.inj same)
    have goesOn : after ≠ [] := by
      rintro rfl
      rw [readItems_nil] at second
      cases second
    have firstMore := ih.value _ _ _ first (Or.inl goesOn) m (by omega) more
    have secondMore := ih.items _ _ _ second m (by omega) more
    simp only [skip_cons_more start, firstMore, secondMore, Option.bind_eq_bind, Option.bind_some]
  · cases read

theorem readFields_more {n : Nat} (ih : ReadsMore leaf n) (text : Text)
    (found : List (Text × Value α)) (rest : Text)
    (read : readFields leaf (n + 1) text = some (found, rest)) (m : Nat) (enough : n + 1 ≤ m)
    (more : Text) : readFields leaf m (text ++ more) = some (found, rest ++ more) := by
  obtain ⟨m, rfl⟩ : ∃ k, m = k + 1 := ⟨m - 1, by omega⟩
  rw [readFields] at read ⊢
  split at read
  · rename_i rest' start
    obtain ⟨rfl, rfl⟩ := Prod.mk.inj (Option.some.inj read)
    simp only [skip_cons_more start]
  · rename_i rest' start
    simp only [Option.bind_eq_bind, Option.bind_eq_some_iff] at read
    obtain ⟨⟨entry, after⟩, first, ⟨others, last⟩, second, same⟩ := read
    obtain ⟨rfl, rfl⟩ := Prod.mk.inj (Option.some.inj same)
    have goesOn : after ≠ [] := by
      rintro rfl
      rw [readFields_nil] at second
      cases second
    have firstMore := ih.field _ _ _ first goesOn m (by omega) more
    have secondMore := ih.fields _ _ _ second m (by omega) more
    simp only [skip_cons_more start, firstMore, secondMore, Option.bind_eq_bind, Option.bind_some]
  · cases read

theorem readField_more {n : Nat} (ih : ReadsMore leaf n) (text : Text) (entry : Text × Value α)
    (rest : Text) (read : readField leaf (n + 1) text = some (entry, rest)) (goesOn : rest ≠ [])
    (m : Nat) (enough : n + 1 ≤ m) (more : Text) :
    readField leaf m (text ++ more) = some (entry, rest ++ more) := by
  obtain ⟨m, rfl⟩ : ∃ k, m = k + 1 := ⟨m - 1, by omega⟩
  rw [readField] at read ⊢
  split at read
  · rename_i rest' start
    simp only [Option.bind_eq_bind, Option.bind_eq_some_iff] at read
    obtain ⟨⟨key, after⟩, first, read⟩ := read
    split at read
    · rename_i after' colon
      obtain ⟨⟨value, last⟩, second, same⟩ := Option.bind_eq_some_iff.mp read
      obtain ⟨rfl, rfl⟩ := Prod.mk.inj (Option.some.inj same)
      have secondMore := ih.value _ _ _ second (Or.inl goesOn) m (by omega) more
      simp only [skip_cons_more start, readString_more first, skip_cons_more colon, secondMore,
        Option.bind_eq_bind, Option.bind_some]
    · cases read
  · cases read

theorem mem_skip {text : Text} (brace : '}' ∈ text) : '}' ∈ skip text := by
  rw [← takeWhile_append_dropWhile (p := isSpace) (l := text)] at brace
  rcases mem_append.mp brace with front | back
  · have space := mem_takeWhile_imp front
    exact absurd space (by decide)
  · exact back

/-- An array or an object ends with its bracket, whatever follows. -/
theorem readValue_more (whole : Whole leaf) {n : Nat} (ih : ReadsMore leaf n) (text : Text)
    (value : Value α) (rest : Text) (read : readValue leaf (n + 1) text = some (value, rest))
    (ends : rest ≠ [] ∨ '}' ∈ text) (m : Nat) (enough : n + 1 ≤ m) (more : Text) :
    readValue leaf m (text ++ more) = some (value, rest ++ more) := by
  obtain ⟨m, rfl⟩ : ∃ k, m = k + 1 := ⟨m - 1, by omega⟩
  rw [readValue] at read ⊢
  split at read
  · rename_i rest' start
    simp only [skip_cons_more start]
    split at read
    · rename_i after closed
      obtain ⟨rfl, rfl⟩ := Prod.mk.inj (Option.some.inj read)
      simp only [skip_cons_more closed]
    · rename_i opened
      simp only [Option.bind_eq_bind, Option.bind_eq_some_iff] at read
      obtain ⟨⟨first, after⟩, head, ⟨others, last⟩, tail, same⟩ := read
      obtain ⟨rfl, rfl⟩ := Prod.mk.inj (Option.some.inj same)
      have goesOn : after ≠ [] := by
        rintro rfl
        rw [readItems_nil] at tail
        cases tail
      have solid : skip rest' ≠ [] := by
        intro empty
        rw [empty] at head
        exact goesOn (readValue_nil whole head)
      have headMore := ih.value _ _ _ head (Or.inl goesOn) m (by omega) more
      have tailMore := ih.items _ _ _ tail m (by omega) more
      rw [skip_more solid]
      split
      · rename_i after' closed
        obtain ⟨c, rest'', cons⟩ := exists_cons_of_ne_nil solid
        rw [cons, cons_append] at closed
        obtain ⟨rfl, -⟩ := List.cons.inj closed
        exact absurd cons (opened rest'')
      · simp only [headMore, tailMore, Option.bind_eq_bind, Option.bind_some]
  · rename_i rest' start
    simp only [skip_cons_more start]
    split at read
    · rename_i after closed
      obtain ⟨rfl, rfl⟩ := Prod.mk.inj (Option.some.inj read)
      simp only [skip_cons_more closed]
    · rename_i opened
      simp only [Option.bind_eq_bind, Option.bind_eq_some_iff] at read
      obtain ⟨⟨first, after⟩, head, ⟨others, last⟩, tail, same⟩ := read
      obtain ⟨rfl, rfl⟩ := Prod.mk.inj (Option.some.inj same)
      have goesOn : after ≠ [] := by
        rintro rfl
        rw [readFields_nil] at tail
        cases tail
      have solid : skip rest' ≠ [] := by
        intro empty
        rw [empty, readField_nil] at head
        cases head
      have headMore := ih.field _ _ _ head goesOn m (by omega) more
      have tailMore := ih.fields _ _ _ tail m (by omega) more
      rw [skip_more solid]
      split
      · rename_i after' closed
        obtain ⟨c, rest'', cons⟩ := exists_cons_of_ne_nil solid
        rw [cons, cons_append] at closed
        obtain ⟨rfl, -⟩ := List.cons.inj closed
        exact absurd cons (opened rest'')
      · simp only [headMore, tailMore, Option.bind_eq_bind, Option.bind_some]
  · rename_i noArray noObject
    obtain ⟨⟨a, after⟩, found, same⟩ := Option.map_eq_some_iff.mp read
    obtain ⟨rfl, rfl⟩ := Prod.mk.inj same
    have solid : skip text ≠ [] := by
      intro empty
      rcases ends with goesOn | brace
      · rw [empty] at found
        exact goesOn (whole.nothing _ _ found)
      · have inside := mem_skip brace
        rw [empty] at inside
        cases inside
    have foundMore := whole.reads _ _ _ found (ends.imp_right mem_skip) more
    obtain ⟨c, rest', cons⟩ := exists_cons_of_ne_nil solid
    rw [skip_more solid]
    split
    · rename_i rest'' start
      rw [cons, cons_append] at start
      obtain ⟨rfl, -⟩ := List.cons.inj start
      exact absurd cons (noArray rest')
    · rename_i rest'' start
      rw [cons, cons_append] at start
      obtain ⟨rfl, -⟩ := List.cons.inj start
      exact absurd cons (noObject rest')
    · rw [foundMore]
      rfl

theorem readsMore (whole : Whole leaf) (n : Nat) : ReadsMore leaf n := by
  induction n with
  | zero => exact ⟨nofun, nofun, nofun, nofun⟩
  | succ n ih =>
    exact ⟨readValue_more whole ih, readItems_more ih, readField_more ih, readFields_more ih⟩

theorem skip_blank {blank : Text} (empty : skip blank = []) (more : Text) :
    skip (blank ++ more) = skip more := by
  have spaces : ∀ c ∈ blank, isSpace c = true := dropWhile_eq_nil_iff.mp empty
  exact dropWhile_append_of_pos spaces

theorem parse_more (whole : Whole leaf) {text more : Text} (brace : '}' ∈ text)
    (solid : skip more ≠ []) (known : parse leaf text ≠ none) : parse leaf (text ++ more) = none := by
  have tree : readTree leaf text ≠ none := by
    intro unread
    rw [parse, unread] at known
    exact known rfl
  unfold readTree at tree
  split at tree
  case h_2 => exact absurd rfl tree
  rename_i value rest read
  split at tree
  case isFalse => exact absurd rfl tree
  rename_i blank
  have readMore := (readsMore whole text.length).value _ _ _ read (Or.inr brace)
    (text ++ more).length (by rw [length_append]; omega) more
  have left : ¬skip (rest ++ more) = [] := by
    rwa [skip_blank blank]
  unfold parse readTree
  simp only [readMore, if_neg left, Option.map_none]

end Whole

section Scalars

variable {format : NumberFormat} (noNumber : format.read [] = none)

include noNumber in
theorem readScalar_more {text rest : Text} {a : Scalar format.Number}
    (read : readScalar format text = some (a, rest)) (ends : rest ≠ [] ∨ '}' ∈ text)
    (more : Text) : readScalar format (text ++ more) = some (a, rest ++ more) := by
  rw [readScalar.eq_def] at read
  split at read
  · rename_i rest'
    obtain ⟨inner, known, same⟩ := Option.map_eq_some_iff.mp read
    obtain ⟨rfl, rfl⟩ := Prod.mk.inj same
    simp only [cons_append, readScalar, readString_more known, Option.map_some]
  · obtain ⟨rfl, rfl⟩ := Prod.mk.inj (Option.some.inj read)
    rfl
  · obtain ⟨rfl, rfl⟩ := Prod.mk.inj (Option.some.inj read)
    rfl
  · obtain ⟨rfl, rfl⟩ := Prod.mk.inj (Option.some.inj read)
    rfl
  · obtain ⟨number, known, same⟩ := Option.map_eq_some_iff.mp read
    obtain ⟨rfl, rfl⟩ := Prod.mk.inj same
    have stops : text.dropWhile isNumberChar ≠ [] := by
      intro all
      rcases ends with goesOn | brace
      · exact goesOn all
      · exact absurd (dropWhile_eq_nil_iff.mp all _ brace) (by decide)
    have digits : (text ++ more).takeWhile isNumberChar = text.takeWhile isNumberChar := by
      rw [takeWhile_append, if_neg]
      intro long
      have whole := congrArg List.length (takeWhile_append_dropWhile (p := isNumberChar)
        (l := text))
      rw [length_append, long] at whole
      exact stops (length_eq_zero_iff.mp (by omega))
    have later : (text ++ more).dropWhile isNumberChar = text.dropWhile isNumberChar ++ more := by
      rw [dropWhile_append, if_neg]
      rwa [List.isEmpty_iff]
    obtain ⟨c, tail, start, number'⟩ : ∃ c tail, text = c :: tail ∧ isNumberChar c = true := by
      cases text with
      | nil => exact absurd rfl stops
      | cons c tail =>
        refine ⟨c, tail, rfl, ?_⟩
        by_contra mark
        rw [takeWhile_cons_of_neg mark, noNumber] at known
        cases known
    subst start
    rw [cons_append] at digits later ⊢
    rw [readScalar.eq_def]
    split
    case h_5 => rw [digits, later, known, Option.map_some]
    all_goals
      rename_i begins
      rw [(List.cons.inj begins).1] at number'
      exact absurd number' (by decide)

include noNumber in
/-- Only a number may end with the text, and none has a brace. -/
theorem scalar_whole : Whole (scalarSyntax format) where
  reads _ _ _ read ends more := readScalar_more noNumber read ends more
  nothing a rest read := by
    have number : (format.read []).map (fun n => (Scalar.number n, ([] : Text))) = some (a, rest) :=
      read
    rw [noNumber] at number
    cases number

end Scalars

end DracVms.Json
