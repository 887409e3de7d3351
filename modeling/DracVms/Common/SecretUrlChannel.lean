import DracVms.Common.SecretUrlProcess

namespace DracVms.SecretUrl

open List

open Ffconcat (Text escape token Plain isBlank Directive)

/-! One argument of the loop. -/

theorem scan_nil (left : Nat) : scan left [] = .ok ([], []) := by
  cases left <;> rfl

theorem scan_zero (args : List Text) : scan 0 args = .ok ([], []) := by
  rcases args with _ | ⟨name, _ | ⟨value, rest⟩⟩ <;> rfl

theorem scan_kept {name : Text} (plain : name ∉ secretInputOptionNames) (left : Nat)
    (rest : List Text) : scan (left + 1) (name :: rest) =
      (scan left rest).map fun found => (name :: found.1, found.2) := by
  cases rest with
  | nil => simp [scan, plain, scan_nil, Except.map]
  | cons value rest =>
    simp only [scan, plain, if_false]
    rfl

theorem scan_moved {name : Text} (listed : name ∈ secretInputOptionNames) (left : Nat)
    (value : Text) (rest : List Text) : scan (left + 1) (name :: value :: rest) =
      (scan (left - 1) rest).map fun found => (found.1, (name.drop 1, value) :: found.2) := by
  simp only [scan, listed, if_true]
  rfl

theorem of_map {α β : Type} {f : α → β} {result : Except Failure α} {b : β}
    (passed : result.map f = .ok b) : ∃ a, result = .ok a ∧ f a = b := by
  cases result with
  | error failure => cases passed
  | ok a => exact ⟨a, rfl, Except.ok.inj passed⟩

theorem of_bind {α β : Type} {next : α → Except Failure β} {result : Except Failure α} {b : β}
    (passed : (result >>= next) = .ok b) : ∃ a, result = .ok a ∧ next a = .ok b := by
  cases result with
  | error failure => cases passed
  | ok a => exact ⟨a, rfl, passed⟩

theorem scan_names (args : List Text) (left : Nat) (found : List Text × List (Text × Text))
    (passed : scan left args = .ok found) : ∀ name ∈ found.1, name ∉ secretInputOptionNames := by
  induction size : args.length using Nat.strong_induction_on generalizing args left found with
  | _ n ih =>
    cases left with
    | zero =>
      rw [scan_zero] at passed
      rw [← Except.ok.inj passed]
      exact nofun
    | succ left =>
      cases args with
      | nil =>
        cases passed
        exact nofun
      | cons name rest =>
        rw [length_cons] at size
        by_cases listed : name ∈ secretInputOptionNames
        · cases rest with
          | nil => simp [scan, listed] at passed
          | cons value rest =>
            rw [scan_moved listed] at passed
            rw [length_cons] at size
            obtain ⟨later, scanned, same⟩ := of_map passed
            rw [← same]
            exact ih _ (by omega) rest _ later scanned rfl
        · rw [scan_kept listed] at passed
          obtain ⟨later, scanned, same⟩ := of_map passed
          rw [← same]
          intro other member
          rcases mem_cons.mp member with first | inside
          · rw [first]
            exact listed
          · exact ih _ (by omega) rest _ later scanned rfl other inside

/-! A command as its options stand in it. -/

inductive Item
  | flag (text : Text)
  | option (name value : Text)

def Item.args : Item → List Text
  | .flag text => [text]
  | .option name value => [name, value]

/-- The option as the channel's document carries it. -/
def Item.moved : Item → List (Text × Text)
  | .flag _ => []
  | .option name value => if name ∈ secretInputOptionNames then [(name.drop 1, value)] else []

def Item.kept (item : Item) : List Text := if item.moved.isEmpty then item.args else []

structure Command where
  before : List Item
  /-- Whether the secret URL is marked as an input. -/
  input : Bool
  after : List Text

def Command.marker (command : Command) : List Text := if command.input then ["-i".toList] else []

def Command.args (command : Command) (secretUrl : Text) : List Text :=
  command.before.flatMap Item.args ++ command.marker ++ secretUrl :: command.after

def Command.kept (command : Command) : List Text := command.before.flatMap Item.kept

def Command.moved (command : Command) : List (Text × Text) := command.before.flatMap Item.moved

/-- The private channel carries the command: the URL is in no argument, what is not moved stands
where it stood, and the document is read as the URL and the moved options. -/
structure Preserved (command : Command) (secretUrl : Text) (prepared : Prepared) : Prop where
  args : prepared.args = command.kept ++ pipeInput ++ command.after
  hidden : ∀ arg ∈ prepared.args, ¬ secretUrl <:+: arg
  document : Ffconcat.document prepared.document =
    [.version "version".toList "1.0".toList, .file secretUrl] ++
      command.moved.map fun moved => .option moved.1 moved.2

structure Preservable (command : Command) (secretUrl : Text) : Prop where
  /-- No kept argument is the name of an input option. -/
  names : ∀ arg ∈ command.kept, arg ∉ secretInputOptionNames
  /-- A URL that is no input does not stand behind a kept `-i`. -/
  marker : command.input = false → ∀ item ∈ command.before.getLast?,
    item.kept.getLast? ≠ some "-i".toList
  /-- The value of a moved option is heard as it is written. -/
  values : ∀ moved ∈ command.moved, Plain moved.2
  hidden : ∀ arg ∈ command.kept ++ command.after, ¬ secretUrl <:+: arg

theorem scan_items (items : List Item)
    (names : ∀ arg ∈ items.flatMap Item.kept, arg ∉ secretInputOptionNames) (left : Nat)
    (rest : List Text) :
    scan ((items.flatMap Item.args).length + left) (items.flatMap Item.args ++ rest) =
      (scan left rest).map fun found =>
        (items.flatMap Item.kept ++ found.1, items.flatMap Item.moved ++ found.2) := by
  induction items with
  | nil =>
    simp only [flatMap_nil, length_nil, Nat.zero_add, nil_append]
    cases scan left rest <;> rfl
  | cons item items ih =>
    have later := ih fun arg inside => names arg (by
      exact mem_append_right _ inside)
    have first : ∀ arg ∈ item.kept, arg ∉ secretInputOptionNames := fun arg inside =>
      names arg (by
        exact mem_append_left _ inside)
    simp only [flatMap_cons, length_append, append_assoc]
    cases item with
    | flag text =>
      have plain : text ∉ secretInputOptionNames :=
        first text (by simp [Item.kept, Item.args, Item.moved])
      have size : (Item.flag text).args.length + (items.flatMap Item.args).length + left =
          (items.flatMap Item.args).length + left + 1 := by
        simp [Item.args]
        omega
      rw [size]
      change scan _ (text :: (items.flatMap Item.args ++ rest)) = _
      rw [scan_kept plain, later]
      cases scan left rest <;> rfl
    | option name value =>
      have size : (Item.option name value).args.length +
          (items.flatMap Item.args).length + left =
            (items.flatMap Item.args).length + left + 1 + 1 := by
        simp [Item.args]
        omega
      by_cases listed : name ∈ secretInputOptionNames
      · rw [size]
        change scan _ (name :: value :: (items.flatMap Item.args ++ rest)) = _
        rw [scan_moved listed, Nat.add_sub_cancel, later]
        cases scan left rest <;> simp [Except.map, Item.kept, Item.moved, listed]
      · have plain : value ∉ secretInputOptionNames :=
          first value (by simp [Item.kept, Item.args, Item.moved, listed])
        rw [size]
        change scan _ (name :: value :: (items.flatMap Item.args ++ rest)) = _
        rw [scan_kept listed, scan_kept plain, later]
        cases scan left rest <;> simp [Except.map, Item.kept, Item.moved, Item.args, listed]

/-! The place of the URL. -/

theorem mem_occurrences (args : List Text) (secretUrl : Text) (index : Nat) :
    index ∈ occurrences args secretUrl ↔ args[index]? = some secretUrl := by
  simp only [occurrences, mem_filterMap, Prod.exists, Option.ite_none_right_eq_some,
    Option.some.injEq, List.mk_mem_zipIdx_iff_getElem?]
  constructor
  · rintro ⟨value, place, found, rfl, rfl⟩
    exact found
  · intro found
    exact ⟨secretUrl, index, found, rfl, rfl⟩

variable {secretUrl : Text}

theorem occurrences_single {before after : List Text} {index : Nat}
    (single : occurrences (before ++ secretUrl :: after) secretUrl = [index]) :
    index = before.length := by
  have found : before.length ∈ occurrences (before ++ secretUrl :: after) secretUrl := by
    rw [mem_occurrences]
    simp
  rw [single] at found
  exact (mem_singleton.mp found).symm

theorem inputStart_eq (before after : List Text) (secretUrl : Text) :
    inputStart (before ++ secretUrl :: after) before.length =
      if before.getLast? = some "-i".toList then before.length - 1 else before.length := by
  unfold inputStart
  cases before with
  | nil => simp
  | cons first rest =>
    rw [List.getElem?_append_left (by simp), List.getLast?_eq_getElem?]
    simp

/-! The document. -/

theorem escape_mem {c : Char} {text : Text} (member : c ∈ escape text) :
    c ∈ text ∨ c = '\'' ∨ c = '\\' := by
  obtain ⟨d, inside, written⟩ := mem_flatMap.mp member
  split at written
  · simp at written
    tauto
  · exact Or.inl (mem_singleton.mp written ▸ inside)

theorem escape_line {text : Text} (clear : hasControl text = false) : '\n' ∉ escape text := by
  intro member
  rcases escape_mem member with inside | quote | backslash
  · have shown : hasControl text = true := any_eq_true.mpr ⟨'\n', inside, by decide⟩
    rw [clear] at shown
    exact absurd shown Bool.false_ne_true
  · exact absurd quote (by decide)
  · exact absurd backslash (by decide)

theorem isOptionName_solid {name : Text} (written : isOptionName name = true) :
    name ≠ [] ∧ ∀ c ∈ name, isBlank c = false := by
  rw [isOptionName, Bool.and_eq_true, all_eq_true] at written
  refine ⟨?_, fun c inside => ?_⟩
  · rintro rfl
    exact absurd written.1 (by decide)
  · have word := written.2 c inside
    simp only [isBlank, Bool.or_eq_false_iff, beq_eq_false_iff_ne]
    refine ⟨⟨⟨?_, ?_⟩, ?_⟩, ?_⟩ <;> rintro rfl <;> exact absurd word (by decide)

theorem optionLine_ok {option : Text × Text} {line : Text} (written : optionLine option = .ok line) :
    isOptionName option.1 = true ∧ hasControl option.2 = false ∧
      line = "option ".toList ++ option.1 ++ ' ' :: escape option.2 := by
  unfold optionLine at written
  split at written
  · cases written
  · rename_i fine
    simp only [Bool.or_eq_true, not_or, Bool.not_eq_true, Bool.not_eq_false'] at fine
    exact ⟨fine.1.1.1, fine.2, (Except.ok.inj written).symm⟩

theorem optionLine_directive {option : Text × Text} {line : Text}
    (written : optionLine option = .ok line) :
    '\n' ∉ line ∧ Ffconcat.directive line = some (.option option.1 (token (escape option.2))) := by
  obtain ⟨word, clear, same⟩ := optionLine_ok written
  obtain ⟨some_, solid⟩ := isOptionName_solid word
  rw [same]
  refine ⟨?_, Ffconcat.directive_option solid some_ _⟩
  have name : '\n' ∉ option.1 := fun inside => absurd (solid _ inside) (by decide)
  have value := escape_line clear
  simp [name, value]

variable {inputOptions : List (Text × Text)}

theorem optionLines_directives {lines : List Text}
    (written : inputOptions.mapM optionLine = .ok lines) :
    (∀ line ∈ lines, '\n' ∉ line) ∧ lines.filterMap Ffconcat.directive =
      inputOptions.map fun moved => .option moved.1 (token (escape moved.2)) := by
  induction inputOptions generalizing lines with
  | nil =>
    cases written
    exact ⟨nofun, rfl⟩
  | cons option inputOptions ih =>
    rw [mapM_cons] at written
    obtain ⟨line, first, written⟩ := of_bind written
    obtain ⟨rest, others, written⟩ := of_bind written
    cases written
    obtain ⟨clear, heard⟩ := optionLine_directive first
    obtain ⟨clears, heards⟩ := ih others
    constructor
    · intro other member
      rcases mem_cons.mp member with rfl | inside
      · exact clear
      · exact clears other inside
    · rw [filterMap_cons, heard, heards]
      rfl

variable {protocolOf : Text → Option Text}

theorem assertSecretUrl_ok {value : Text} (passed : assertSecretUrl protocolOf value = .ok ()) :
    hasControl value = false ∧ ∃ protocol, protocolOf value = some protocol ∧ protocol ∈
      ["rtsp:".toList, "rtsps:".toList, "http:".toList, "https:".toList] := by
  unfold assertSecretUrl at passed
  split at passed
  · cases passed
  · rename_i fine
    simp only [Bool.or_eq_true, not_or, Bool.not_eq_true] at fine
    refine ⟨fine.2, ?_⟩
    split at passed
    · cases passed
    · rename_i protocol parsed
      split at passed
      · exact ⟨protocol, parsed, ‹_›⟩
      · cases passed

theorem document_heard {document : Text}
    (built : buildSecretConcatDocument protocolOf secretUrl inputOptions = .ok document) :
    Ffconcat.document document =
      [.version "version".toList "1.0".toList, .file secretUrl] ++
        inputOptions.map fun moved => .option moved.1 (token (escape moved.2)) := by
  obtain ⟨_, passed, built⟩ := of_bind built
  obtain ⟨lines, written, built⟩ := of_bind built
  obtain ⟨clear, heard⟩ := optionLines_directives written
  have file : '\n' ∉ "file ".toList ++ '\'' :: escape secretUrl ++ ['\''] := by
    have url := escape_line (assertSecretUrl_ok passed).1
    simp [url]
  have url : Ffconcat.directive ("file ".toList ++ '\'' :: escape secretUrl ++ ['\'']) =
      some (.file secretUrl) := by
    rw [append_assoc, Ffconcat.directive_file, Ffconcat.token_quoted]
  have version : Ffconcat.directive "ffconcat version 1.0".toList =
      some (.version "version".toList "1.0".toList) := by decide +kernel
  rw [← Except.ok.inj built, Ffconcat.document_lines (by simp)]
  · rw [filterMap_append, filterMap_append, heard, filterMap_cons_some version,
      filterMap_cons_some url]
    exact append_nil _
  · intro line member
    simp only [mem_append, mem_cons, not_mem_nil, or_false] at member
    rcases member with ((rfl | rfl) | inside) | rfl
    · decide
    · exact file
    · exact clear line inside
    · exact not_mem_nil

/-! The command. -/

theorem args_concat_getLast? (items : List Item) (item : Item) :
    ((items ++ [item]).flatMap Item.args).getLast? = item.args.getLast? := by
  cases item <;> simp [Item.args, List.getLast?_append]

/-- Where the loop ends. -/
def Command.stop (command : Command) : Nat :=
  let before := command.before.flatMap Item.args ++ command.marker
  if before.getLast? = some "-i".toList then before.length - 1 else before.length

variable {command : Command}

theorem stop_marked (input : command.input = true) :
    command.stop = (command.before.flatMap Item.args).length := by
  simp [Command.stop, Command.marker, input]

theorem stop_unmarked (input : command.input = false) : command.stop =
      if (command.before.flatMap Item.args).getLast? = some "-i".toList then
        (command.before.flatMap Item.args).length - 1
      else (command.before.flatMap Item.args).length := by
  simp [Command.stop, Command.marker, input]

theorem prepared_of_ok {prepared : Prepared}
    (passed : prepareSecretInput protocolOf (command.args secretUrl) secretUrl = .ok prepared) :
    assertSecretUrl protocolOf secretUrl = .ok () ∧ ∃ found,
      scan command.stop (command.args secretUrl) = .ok found ∧
      prepared.args = found.1 ++ pipeInput ++ command.after ∧
      Ffconcat.document prepared.document =
        [.version "version".toList "1.0".toList, .file secretUrl] ++
          found.2.map fun moved => .option moved.1 (token (escape moved.2)) := by
  obtain ⟨_, url, passed⟩ := of_bind passed
  refine ⟨url, ?_⟩
  split at passed
  · rename_i index single
    have place : index = (command.before.flatMap Item.args ++ command.marker).length :=
      occurrences_single single
    have start : inputStart (command.args secretUrl) index = command.stop := by
      rw [place]
      exact inputStart_eq _ _ _
    have behind : (command.args secretUrl).drop (index + 1) = command.after := by
      rw [place, Command.args, ← drop_drop, drop_left]
      rfl
    rw [start, behind] at passed
    obtain ⟨found, scanned, passed⟩ := of_bind passed
    obtain ⟨document, built, passed⟩ := of_bind passed
    have same := Except.ok.inj passed
    refine ⟨found, scanned, ?_, ?_⟩
    · rw [← same]
    · rw [← same]
      exact document_heard built
  · cases passed

theorem args_eq (command : Command) (secretUrl : Text) : command.args secretUrl =
      command.before.flatMap Item.args ++ (command.marker ++ secretUrl :: command.after) :=
  append_assoc _ _ _

theorem scan_last {items : List Item} {item : Item} (secretUrl : Text)
    (last : command.before = items ++ [item])
    (names : ∀ arg ∈ command.kept, arg ∉ secretInputOptionNames) (left : Nat) :
    scan ((items.flatMap Item.args).length + left) (command.args secretUrl) =
      (scan left (item.args ++ (command.marker ++ secretUrl :: command.after))).map fun found =>
        (items.flatMap Item.kept ++ found.1, items.flatMap Item.moved ++ found.2) := by
  rw [args_eq, last, flatMap_append, flatMap_singleton, append_assoc]
  apply scan_items
  intro arg inside
  apply names
  rw [Command.kept, last, flatMap_append]
  exact mem_append_left _ inside

theorem scan_whole (names : ∀ arg ∈ command.kept, arg ∉ secretInputOptionNames) :
    scan (command.before.flatMap Item.args).length (command.args secretUrl) =
      .ok (command.kept, command.moved) := by
  have scanned := scan_items command.before names 0 (command.marker ++ secretUrl :: command.after)
  rw [args_eq]
  simpa [scan_zero, Except.map, Command.kept, Command.moved] using scanned

theorem scan_behind_marker {items : List Item} {item : Item} (secretUrl : Text)
    (last : command.before = items ++ [item])
    (names : ∀ arg ∈ command.kept, arg ∉ secretInputOptionNames)
    (marked : item.args.getLast? = some "-i".toList) :
    ∃ found, scan ((command.before.flatMap Item.args).length - 1) (command.args secretUrl) =
      .ok found ∧ (found.1 = command.kept ↔ item.kept.getLast? ≠ some "-i".toList) ∧
      (found.1 = command.kept → found.2 = command.moved) := by
  have kept : command.kept = items.flatMap Item.kept ++ item.kept := by
    rw [Command.kept, last, flatMap_append, flatMap_singleton]
  have moved : command.moved = items.flatMap Item.moved ++ item.moved := by
    rw [Command.moved, last, flatMap_append, flatMap_singleton]
  cases item with
  | flag text =>
    have scanned := scan_last secretUrl last names 0
    have size : (command.before.flatMap Item.args).length - 1 =
        (items.flatMap Item.args).length + 0 := by
      rw [last, flatMap_append, length_append]
      simp [Item.args]
    refine ⟨_, size ▸ scanned, ?_⟩
    simp_all [scan_zero, Item.kept, Item.args, Item.moved]
  | option name value =>
    have scanned := scan_last secretUrl last names 1
    have size : (command.before.flatMap Item.args).length - 1 =
        (items.flatMap Item.args).length + 1 := by
      rw [last, flatMap_append, length_append]
      simp [Item.args]
    rw [size, scanned, kept, moved]
    have dash : value = "-i".toList := by simpa [Item.args] using marked
    by_cases listed : name ∈ secretInputOptionNames
    · change ∃ found, Except.map _ (scan 1 (name :: value :: _)) = _ ∧ _
      rw [scan_moved listed, Nat.zero_sub, scan_zero]
      refine ⟨_, rfl, ?_⟩
      simp [Item.kept, Item.moved, listed]
    · change ∃ found, Except.map _ (scan 1 (name :: value :: _)) = _ ∧ _
      rw [scan_kept listed, scan_zero]
      refine ⟨_, rfl, ?_⟩
      simp [Item.kept, Item.moved, Item.args, listed, dash]

theorem scan_command (preservable : Preservable command secretUrl) :
    scan command.stop (command.args secretUrl) = .ok (command.kept, command.moved) := by
  cases input : command.input with
  | true =>
    rw [stop_marked input]
    exact scan_whole preservable.names
  | false =>
    rw [stop_unmarked input]
    split
    · rename_i marked
      rcases eq_nil_or_concat command.before with empty | ⟨items, item, last⟩
      · simp [empty] at marked
      · rw [concat_eq_append] at last
        rw [last, args_concat_getLast?] at marked
        obtain ⟨found, scanned, same, rest⟩ :=
          scan_behind_marker secretUrl last preservable.names marked
        have kept := same.mpr (preservable.marker input item (by simp [last]))
        rw [scanned, ← kept, ← rest kept]
    · exact scan_whole preservable.names

theorem of_scan_kept {found : List Text × List (Text × Text)}
    (names : ∀ arg ∈ command.kept, arg ∉ secretInputOptionNames)
    (scanned : scan command.stop (command.args secretUrl) = .ok found)
    (kept : found.1 = command.kept) : (command.input = false → ∀ item ∈ command.before.getLast?,
      item.kept.getLast? ≠ some "-i".toList) ∧ found.2 = command.moved := by
  cases input : command.input with
  | true =>
    rw [stop_marked input, scan_whole names] at scanned
    refine ⟨nofun, ?_⟩
    rw [← Except.ok.inj scanned]
  | false =>
    rw [stop_unmarked input] at scanned
    rcases eq_nil_or_concat command.before with empty | ⟨items, item, last⟩
    · rw [empty] at scanned ⊢
      have nothing : found = ([], []) := by simpa [scan_zero] using scanned.symm
      exact ⟨nofun, by rw [nothing, Command.moved, empty]; rfl⟩
    · rw [concat_eq_append] at last
      have final : command.before.getLast? = some item := by simp [last]
      by_cases marked : item.args.getLast? = some "-i".toList
      · obtain ⟨other, again, same, rest⟩ :=
          scan_behind_marker secretUrl last names marked
        have whole := args_concat_getLast? items item
        rw [← last, marked] at whole
        rw [if_pos whole, again] at scanned
        rw [Except.ok.inj scanned] at same rest
        rw [final]
        exact ⟨fun _ _ there => Option.some.inj there ▸ same.mp kept, rest kept⟩
      · have whole := args_concat_getLast? items item
        rw [← last] at whole
        rw [if_neg (whole ▸ marked), scan_whole names] at scanned
        refine ⟨fun _ other there => ?_, by rw [← Except.ok.inj scanned]⟩
        rw [final] at there
        rw [← Option.some.inj there]
        unfold Item.kept
        split
        · exact marked
        · simp

theorem pipeInput_hidden {secretUrl protocol : Text}
    (letters : ∀ c ∈ protocol, c ∈ secretUrl.map Char.toLower)
    (allowed : protocol ∈ ["rtsp:".toList, "rtsps:".toList, "http:".toList, "https:".toList]) :
    ∀ arg ∈ pipeInput, ¬ secretUrl <:+: arg := by
  have both : ':' ∈ protocol ∧ 't' ∈ protocol := by
    simp only [mem_cons, not_mem_nil, or_false] at allowed
    rcases allowed with rfl | rfl | rfl | rfl <;> decide
  have apart : ∀ arg ∈ pipeInput, ¬ (':' ∈ arg.map Char.toLower ∧ 't' ∈ arg.map Char.toLower) := by
    decide +kernel
  intro arg inside within
  have part := (within.map Char.toLower).subset
  exact apart arg inside ⟨part (letters _ both.1), part (letters _ both.2)⟩

theorem values_iff (moved : List (Text × Text)) :
    (moved.map fun moved => Directive.option moved.1 (token (escape moved.2))) =
      (moved.map fun moved => Directive.option moved.1 moved.2) ↔
      ∀ option ∈ moved, Plain option.2 := by
  simp [map_inj_left, Ffconcat.token_escape_iff]

/-- What the private channel carries is the command exactly when the command is preservable. -/
theorem prepareSecretInput_preserved (protocolOf : Text → Option Text)
    (letters : ∀ value protocol, protocolOf value = some protocol → ∀ c ∈ protocol,
      c ∈ value.map Char.toLower)
    (command : Command) (secretUrl : Text) (prepared : Prepared)
    (passed : prepareSecretInput protocolOf (command.args secretUrl) secretUrl = .ok prepared) :
    Preserved command secretUrl prepared ↔ Preservable command secretUrl := by
  obtain ⟨url, found, scanned, args, document⟩ := prepared_of_ok passed
  obtain ⟨_, protocol, parsed, allowed⟩ := assertSecretUrl_ok url
  constructor
  · intro preserved
    have kept : found.1 = command.kept := by
      have same := args.symm.trans preserved.args
      rw [append_assoc, append_assoc] at same
      exact append_cancel_right same
    have names : ∀ arg ∈ command.kept, arg ∉ secretInputOptionNames := by
      rw [← kept]
      exact scan_names _ _ _ scanned
    obtain ⟨marker, moved⟩ := of_scan_kept names scanned kept
    refine ⟨names, marker, ?_, ?_⟩
    · have same := document.symm.trans preserved.document
      rw [moved] at same
      exact (values_iff _).mp (append_cancel_left same)
    · intro arg inside
      apply preserved.hidden
      rw [preserved.args]
      simp only [mem_append] at inside ⊢
      tauto
  · intro preservable
    rw [scan_command preservable] at scanned
    cases scanned
    refine ⟨args, ?_, ?_⟩
    · intro arg inside
      rw [args, append_assoc, mem_append, mem_append] at inside
      have clear := preservable.hidden arg
      rw [mem_append] at clear
      rcases inside with before | pipe | behind
      · exact clear (Or.inl before)
      · exact pipeInput_hidden (letters _ _ parsed) allowed arg pipe
      · exact clear (Or.inr behind)
    · rw [document, (values_iff _).mpr preservable.values]

/-- The scheme in front of the first colon. -/
def schemeOf (value : Text) : Option Text :=
  if ':' ∈ value then some ((value.takeWhile (· ≠ ':')).map Char.toLower ++ [':']) else none

theorem schemeOf_letters (value protocol : Text) (parsed : schemeOf value = some protocol) :
    ∀ c ∈ protocol, c ∈ value.map Char.toLower := by
  unfold schemeOf at parsed
  split at parsed
  · rename_i colon
    intro c inside
    rw [← Option.some.inj parsed, mem_append, mem_singleton] at inside
    rcases inside with scheme | rfl
    · exact ( takeWhile_prefix _).map Char.toLower |>.subset scheme
    · exact mem_map.mpr ⟨':', colon, rfl⟩
  · cases parsed

def cameraUrl : Text := "rtsp://u:p@10.0.0.9/a".toList

def probe : Command where
  before := [.flag "-hide_banner".toList, .option "-rtsp_transport".toList "tcp".toList]
  input := true
  after := ["-f".toList, "null".toList, "-".toList]

theorem prepareSecretInput_probe : ∃ prepared,
    prepareSecretInput schemeOf (probe.args cameraUrl) cameraUrl = .ok prepared ∧
      Preserved probe cameraUrl prepared := by
  refine ⟨_, by rfl, (prepareSecretInput_preserved schemeOf schemeOf_letters probe cameraUrl _
    (by rfl)).mpr ⟨?_, ?_, ?_, ?_⟩⟩
  · decide +kernel
  · decide +kernel
  · have moved : probe.moved = [("rtsp_transport".toList, "tcp".toList)] := by decide +kernel
    rw [moved]
    simp [Plain, isBlank]
  · decide +kernel

/-- A user agent of two words reaches the demuxer as its first word. -/
theorem prepareSecretInput_truncates : let command : Command :=
      { before := [.option "-user_agent".toList "DRAC VMS".toList], input := true, after := [] }
    ∃ prepared, prepareSecretInput schemeOf (command.args cameraUrl) cameraUrl = .ok prepared ∧
      ¬ Preserved command cameraUrl prepared := by
  refine ⟨_, rfl, fun preserved => ?_⟩
  exact absurd preserved.document (by decide +kernel)

end DracVms.SecretUrl
