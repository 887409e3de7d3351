import DracVms.Library.KeyedList
import DracVms.Recordings.FileDeletionJournal

namespace DracVms.FileDeletion

open List Json

/-- A component that names an entry of its directory. -/
structure IsName (component : Text) : Prop where
  nonempty : component ≠ []
  here : component ≠ ['.']
  above : component ≠ ['.', '.']
  single : '/' ∉ component

def Clean (path : Path) : Prop := ∀ component ∈ path, IsName component

theorem descend_name (reached : Path) (component : Text) (name : IsName component) :
    descend reached component = reached ++ [component] := by
  have stays : ¬ (component = [] ∨ component = ['.']) := by
    rintro (empty | here)
    · exact name.nonempty empty
    · exact name.here here
  rw [descend, if_neg stays, if_neg name.above]

theorem foldl_descend (reached path : Path) (clean : Clean path) :
    path.foldl descend reached = reached ++ path := by
  induction path generalizing reached with
  | nil => rw [foldl_nil, append_nil]
  | cons component rest ih =>
    have first := clean component mem_cons_self
    rw [foldl_cons, descend_name reached component first,
      ih _ (fun c member => clean c (mem_cons_of_mem _ member)), append_assoc,
      singleton_append]

theorem components_relativeText (rel : Path) (nonempty : rel ≠ []) (clean : Clean rel) :
    components (relativeText rel) = rel :=
  splitOn_intercalate '/' (fun component member => (clean component member).single) nonempty

theorem join_relativeText (root rel : Path) (nonempty : rel ≠ []) (clean : Clean rel) :
    join root (relativeText rel) = root ++ rel := by
  rw [join, components_relativeText rel nonempty clean, foldl_descend root rel clean]

theorem relativeText_injective (first second : Path) (firstNonempty : first ≠ [])
    (secondNonempty : second ≠ []) (firstClean : Clean first) (secondClean : Clean second)
    (same : relativeText first = relativeText second) : first = second := by
  rw [← components_relativeText first firstNonempty firstClean, same,
    components_relativeText second secondNonempty secondClean]

theorem relativeText_relative (rel : Path) (nonempty : rel ≠ []) (clean : Clean rel) :
    isAbsolute (relativeText rel) = false := by
  cases rel with
  | nil => exact absurd rfl nonempty
  | cons component rest =>
    have name := clean component mem_cons_self
    cases component with
    | nil => exact absurd rfl name.nonempty
    | cons c more =>
      have slash : c ≠ '/' := by
        rintro rfl
        exact name.single mem_cons_self
      have starts : (relativeText ((c :: more) :: rest)).head? = some c := by
        cases rest <;> rfl
      rw [isAbsolute, starts]
      exact beq_eq_false_iff_ne.mpr (fun same => slash (Option.some.inj same))

theorem components_single (text : Text) : ∀ component ∈ components text, '/' ∉ component := by
  induction text with
  | nil =>
    intro component member
    rw [components, splitOn_nil, mem_singleton] at member
    rw [member]
    exact not_mem_nil
  | cons c rest ih =>
    intro component member
    rw [components, splitOn_cons_eq_if_modifyHead] at member
    by_cases slash : (c == '/') = true
    · rw [if_pos slash, mem_cons] at member
      rcases member with rfl | later
      · exact not_mem_nil
      · exact ih component later
    · rw [if_neg slash] at member
      cases split : rest.splitOn '/' with
      | nil => exact absurd split (splitOn_ne_nil '/' rest)
      | cons head tail =>
        rw [split, modifyHead_cons, mem_cons] at member
        rw [components, split] at ih
        rcases member with rfl | later
        · intro inside
          rcases mem_cons.mp inside with same | inHead
          · exact slash (by rw [← same]; rfl)
          · exact ih head mem_cons_self inHead
        · exact ih component (mem_cons_of_mem _ later)

theorem descend_clean (reached : Path) (component : Text) (clean : Clean reached)
    (single : '/' ∉ component) : Clean (descend reached component) := by
  unfold descend
  split
  · exact clean
  · rename_i moves
    split
    · intro c member
      exact clean c (mem_of_mem_dropLast member)
    · rename_i above
      intro c member
      rcases mem_append.mp member with earlier | last
      · exact clean c earlier
      · rw [mem_singleton.mp last]
        exact ⟨fun empty => moves (Or.inl empty), fun here => moves (Or.inr here), above, single⟩

theorem join_clean (root : Path) (text : Text) (clean : Clean root) : Clean (join root text) := by
  have single := components_single text
  rw [join]
  generalize components text = path at single
  induction path generalizing root with
  | nil => exact clean
  | cons component rest ih =>
    exact ih (descend root component)
      (descend_clean root component clean (single component mem_cons_self))
      (fun c member => single c (mem_cons_of_mem _ member))

theorem resolve_clean (root : Path) (candidate : Text) (clean : Clean root) :
    Clean (resolve root candidate) := by
  unfold resolve
  split
  · exact join_clean [] candidate (fun _ member => nomatch member)
  · exact join_clean root candidate clean

theorem assertUnderRoot_ok (root absolute rel : Path)
    (accepted : assertUnderRoot root absolute = .ok rel) :
    absolute = root ++ rel ∧ rel ≠ [] ∧ rel.head? ≠ some journalDir := by
  unfold assertUnderRoot at accepted
  split at accepted
  · cases accepted
  · rename_i other
    split at accepted
    · rename_i below
      obtain ⟨rest, rfl⟩ := below
      dsimp only at accepted
      rw [drop_left] at accepted
      split at accepted
      · cases accepted
      · rename_i apart
        cases accepted
        refine ⟨rfl, ?_, apart⟩
        rintro rfl
        exact other (append_nil root)
    · cases accepted

theorem assertUnderRoot_append (root rel : Path) (nonempty : rel ≠ [])
    (apart : rel.head? ≠ some journalDir) : assertUnderRoot root (root ++ rel) = .ok rel := by
  have other : root ++ rel ≠ root := by
    intro same
    exact nonempty (append_right_eq_self.mp same)
  have below : root <+: root ++ rel := ⟨rel, rfl⟩
  rw [assertUnderRoot, if_neg other, if_pos below]
  rw [drop_left, if_neg apart]

theorem padStart_digits (index : Nat) : ∀ c ∈ padStart index, c.isDigit = true := by
  intro c member
  rcases mem_append.mp member with zero | digit
  · rw [(mem_replicate.mp zero).2]
    rfl
  · exact Nat.isDigit_of_mem_toDigits (by omega) (by omega) digit

theorem padStart_injective (first second : Nat) (same : padStart first = padStart second) :
    first = second := by
  have value : ∀ index, Nat.ofDigitChars 10 (padStart index) 0 = index := by
    intro index
    rw [padStart, Nat.ofDigitChars_append, Nat.ofDigitChars_replicate_zero, Nat.mul_zero,
      Nat.ofDigitChars_toDigits (by omega) (by omega)]
  rw [← value first, same, value second]

theorem padStart_name (index : Nat) : IsName (padStart index) := by
  have digits := padStart_digits index
  have absent : ∀ c : Char, c.isDigit = false → c ∉ padStart index := by
    intro c other member
    rw [digits c member] at other
    cases other
  refine ⟨?_, ?_, ?_, absent '/' rfl⟩
  · intro empty
    exact Nat.toDigits_ne_nil (append_eq_nil_iff.mp empty).2
  · intro here
    exact absent '.' rfl (by rw [here]; exact mem_cons_self)
  · intro above
    exact absent '.' rfl (by rw [above]; exact mem_cons_self)

theorem names_clean (operationId : Text) (name : IsName operationId) (index : Nat) :
    Clean [journalDir, operationId, filesDir, padStart index] := by
  intro component member
  simp only [mem_cons, not_mem_nil, or_false] at member
  rcases member with rfl | rfl | rfl | rfl
  · exact ⟨by decide, by decide, by decide, by decide⟩
  · exact name
  · exact ⟨by decide, by decide, by decide, by decide⟩
  · exact padStart_name index

theorem operationId_name (operationId : Text) (valid : isOperationId operationId = true) :
    IsName operationId := by
  simp only [isOperationId, Bool.and_eq_true, beq_iff_eq, all_eq_true] at valid
  obtain ⟨⟨⟨length, -⟩, -⟩, chars⟩ := valid
  refine ⟨?_, ?_, ?_, ?_⟩
  · rintro rfl
    cases length
  · rintro rfl
    cases length
  · rintro rfl
    cases length
  · intro slash
    exact absurd (chars '/' slash) (by decide)

/-- What staging makes of its candidates. -/
structure Planned (operationId : Text) (journal : DeletionJournal) : Prop where
  operation : journal.operationId = operationId
  originals : ∀ entry ∈ journal.entries, ∃ rel, rel ≠ [] ∧ Clean rel ∧
    rel.head? ≠ some journalDir ∧ entry.originalRelative = relativeText rel
  quarantine : ∀ entry ∈ journal.entries, ∃ index,
    entry.quarantineRelative = quarantineRelative operationId index
  distinctOriginals : (journal.entries.map JournalEntry.originalRelative).Nodup
  distinctQuarantine : (journal.entries.map JournalEntry.quarantineRelative).Nodup

theorem mapM_assertUnderRoot (root : Path) (clean : Clean root) (candidates : List Text)
    (relatives : List Path)
    (accepted : candidates.mapM (fun candidate => assertUnderRoot root (resolve root candidate)) =
      .ok relatives) :
    ∀ rel ∈ relatives, rel ≠ [] ∧ Clean rel ∧ rel.head? ≠ some journalDir := by
  induction candidates generalizing relatives with
  | nil =>
    cases accepted
    intro rel member
    cases member
  | cons candidate rest ih =>
    rw [mapM_cons] at accepted
    cases first : assertUnderRoot root (resolve root candidate) with
    | error refusal =>
      rw [first] at accepted
      cases accepted
    | ok rel =>
      cases later : rest.mapM (fun candidate => assertUnderRoot root (resolve root candidate)) with
      | error refusal =>
        rw [first, later] at accepted
        cases accepted
      | ok others =>
        rw [first, later] at accepted
        cases accepted
        obtain ⟨split, nonempty, apart⟩ := assertUnderRoot_ok root _ rel first
        have cleanPath := resolve_clean root candidate clean
        rw [split] at cleanPath
        intro other member
        rcases mem_cons.mp member with rfl | more
        · exact ⟨nonempty, fun c inRel => cleanPath c (mem_append_right _ inRel), apart⟩
        · exact ih others later other more

theorem planJournal_planned (root : Path) (clean : Clean root) (operationId createdAt : Text)
    (name : IsName operationId) (candidates : List Text) (guards : List DeletionGuard)
    (journal : DeletionJournal)
    (planned : planJournal root operationId createdAt candidates guards = .ok journal) :
    Planned operationId journal ∧ journal.guards = guards := by
  unfold planJournal at planned
  split at planned
  · cases planned
  · rename_i relatives accepted
    cases planned
    have under := mapM_assertUnderRoot root clean candidates relatives accepted
    refine ⟨⟨rfl, ?_, ?_, ?_, ?_⟩, rfl⟩
    · intro entry member
      obtain ⟨numbered, inside, rfl⟩ := mem_map.mp member
      have listed := fst_mem_of_mem_zipIdx inside
      obtain ⟨rel, inRelatives, same⟩ := mem_map.mp (mem_eraseDups.mp listed)
      obtain ⟨nonempty, cleanRel, apart⟩ := under rel inRelatives
      exact ⟨rel, nonempty, cleanRel, apart, same.symm⟩
    · intro entry member
      obtain ⟨numbered, -, rfl⟩ := mem_map.mp member
      exact ⟨numbered.2, rfl⟩
    · rw [map_map]
      show (List.map Prod.fst _).Nodup
      rw [zipIdx_map_fst]
      exact KeyedList.eraseDups_nodup _
    · rw [map_map]
      show (List.map (quarantineRelative operationId ∘ Prod.snd) _).Nodup
      rw [← map_map, zipIdx_map_snd]
      apply List.Nodup.map _ nodup_range'
      intro first second same
      have paths := relativeText_injective _ _ (cons_ne_nil _ _) (cons_ne_nil _ _)
        (names_clean operationId name first) (names_clean operationId name second) same
      simp only [List.cons.injEq, and_true, true_and] at paths
      exact padStart_injective first second paths

section RoundTrip

variable (format : NumberFormat) (one : format.Number)

theorem object_live (fields : List (Text × Value (Scalar format.Number)))
    (distinct : (fields.map Prod.fst).Nodup) (named : ∀ key ∈ fields.map Prod.fst, indexOf key = none)
    (values : fieldsLive fields) : (Value.object fields).IsLive := by
  refine ⟨distinct, propertyOrder_named fields ?_, values⟩
  intro entry member
  rw [isIndex, named entry.1 (mem_map_of_mem member)]
  rfl

theorem journalKeys_named :
    [versionKey, operationIdKey, createdAtKey, guardsKey, entriesKey].Nodup ∧
      (∀ key ∈ [versionKey, operationIdKey, createdAtKey, guardsKey, entriesKey],
        indexOf key = none) ∧
      [modelKey, idKey].Nodup ∧ (∀ key ∈ [modelKey, idKey], indexOf key = none) ∧
      [originalKey, quarantineKey].Nodup ∧
      ∀ key ∈ [originalKey, quarantineKey], indexOf key = none := by
  decide +kernel

theorem guardValue_live (guard : DeletionGuard) : (guardValue format guard).IsLive :=
  object_live format _ journalKeys_named.2.2.1 journalKeys_named.2.2.2.1 ⟨trivial, trivial, trivial⟩

theorem entryValue_live (entry : JournalEntry) : (entryValue format entry).IsLive :=
  object_live format _ journalKeys_named.2.2.2.2.1 journalKeys_named.2.2.2.2.2
    ⟨trivial, trivial, trivial⟩

theorem map_live {β : Type} (write : β → Value (Scalar format.Number))
    (live : ∀ b, (write b).IsLive) (items : List β) : itemsLive (items.map write) := by
  induction items with
  | nil => exact trivial
  | cons item rest ih => exact ⟨live item, ih⟩

theorem journalValue_live (journal : DeletionJournal) : (journalValue format one journal).IsLive :=
  object_live format _ journalKeys_named.1 journalKeys_named.2.1
    ⟨trivial, trivial, trivial, map_live format _ (guardValue_live format) _,
      map_live format _ (entryValue_live format) _, trivial⟩

theorem field_first (key : Text) (a : Value (Scalar format.Number))
    (rest : List (Text × Value (Scalar format.Number))) : field ((key, a) :: rest) key = some a := by
  simp [field]

theorem field_skip (key other : Text) (a : Value (Scalar format.Number)) (apart : other ≠ key)
    (rest : List (Text × Value (Scalar format.Number))) :
    field ((other, a) :: rest) key = field rest key := by
  simp [field, apart]

theorem modelOf_name (model : GuardModel) : modelOf model.name = some model := by
  cases model <;> decide

theorem readGuard_guardValue (guard : DeletionGuard) : readGuard format (guardValue format guard) =
      if guard.id ≠ [] ∧ utf16Length guard.id ≤ 256 then some guard else none := by
  have apart : modelKey ≠ idKey := by decide
  rw [guardValue, readGuard, field_first, field_skip format _ _ _ apart, field_first]
  simp only [string, textOf, Option.bind_some, modelOf_name]

theorem readEntry_entryValue (root : Path) (operationId : Text) (name : IsName operationId)
    (entry : JournalEntry)
    (original : ∃ rel, rel ≠ [] ∧ Clean rel ∧ rel.head? ≠ some journalDir ∧ entry.originalRelative =
      relativeText rel)
    (quarantine : ∃ index, entry.quarantineRelative = quarantineRelative operationId index) :
    readEntry format root operationId (entryValue format entry) = some entry := by
  obtain ⟨rel, nonempty, clean, apart, originalText⟩ := original
  obtain ⟨index, quarantineText⟩ := quarantine
  have keys : originalKey ≠ quarantineKey := by decide
  have cleanQuarantine := names_clean operationId name index
  have relative := relativeText_relative rel nonempty clean
  have relativeQuarantine := relativeText_relative _ (cons_ne_nil _ _) cleanQuarantine
  have joined : join root entry.quarantineRelative =
      root ++ [journalDir, operationId, filesDir, padStart index] := by
    rw [quarantineText]
    exact join_relativeText root _ (cons_ne_nil _ _) cleanQuarantine
  have inside :
      root ++ [journalDir, operationId, filesDir] <+: join root entry.quarantineRelative := by
    rw [joined]
    exact ⟨[padStart index], by rw [append_assoc]; rfl⟩
  have accepted : assertUnderRoot root (join root entry.originalRelative) = .ok rel := by
    rw [originalText, join_relativeText root rel nonempty clean]
    exact assertUnderRoot_append root rel nonempty apart
  have notAbsolute : (isAbsolute entry.originalRelative || isAbsolute entry.quarantineRelative) =
      false := by
    rw [originalText, quarantineText, relative]
    exact relativeQuarantine
  rw [entryValue, readEntry, field_first, field_skip format _ _ _ keys, field_first]
  simp only [string, textOf, Option.bind_some, notAbsolute, accepted, inside, if_true,
    Bool.false_eq_true, if_false]

theorem mapM_read {β : Type} (write : β → Value (Scalar format.Number))
    (read : Value (Scalar format.Number) → Option β) (items : List β)
    (reads : ∀ item ∈ items, read (write item) = some item) :
    (items.map write).mapM read = some items := by
  induction items with
  | nil => rfl
  | cons item rest ih =>
    rw [map_cons, mapM_cons, reads item mem_cons_self,
      ih (fun other member => reads other (mem_cons_of_mem _ member))]
    rfl

theorem mapM_refused {β γ : Type} (read : γ → Option β) (items : List γ) (item : γ)
    (member : item ∈ items) (refused : read item = none) : items.mapM read = none := by
  induction items with
  | nil => cases member
  | cons other rest ih =>
    rw [mapM_cons]
    rcases mem_cons.mp member with rfl | later
    · rw [refused]
      rfl
    · rw [ih later]
      cases read other <;> rfl

variable [DecidableEq format.Number]

theorem readJournal_journalText (root : Path) (operationId : Text)
    (valid : isOperationId operationId = true) (journal : DeletionJournal)
    (planned : Planned operationId journal) :
    readJournal format one root operationId (journalText format one journal) =
        some ⟨journal.guards, journal.entries⟩ ∧ Acceptable format one journal ∨
      readJournal format one root operationId (journalText format one journal) = none ∧
        ¬ Acceptable format one journal := by
  have parsed : parse (scalarSyntax format) (journalText format one journal) =
      some (journalValue format one journal) := by
    refine parse_stringify_blank _ _ _ ?_ (journalValue_live format one journal)
    intro c member
    rw [mem_singleton.mp member]
    rfl
  have keys : versionKey ≠ operationIdKey ∧ versionKey ≠ guardsKey ∧ versionKey ≠ entriesKey ∧
      operationIdKey ≠ guardsKey ∧ operationIdKey ≠ entriesKey ∧ createdAtKey ≠ guardsKey ∧
      createdAtKey ≠ entriesKey ∧ guardsKey ≠ entriesKey := by decide
  obtain ⟨k1, k2, k3, k4, k5, k6, k7, k8⟩ := keys
  have entries : (journal.entries.map (entryValue format)).mapM
      (readEntry format root operationId) = some journal.entries := by
    apply mapM_read
    intro entry member
    exact readEntry_entryValue format root operationId (operationId_name operationId valid) entry
      (planned.originals entry member) (planned.quarantine entry member)
  unfold readJournal
  by_cases large : 1000000 < utf16Length (journalText format one journal)
  · right
    rw [if_pos large]
    exact ⟨rfl, fun acceptable => absurd acceptable.size (by omega)⟩
  · rw [if_neg large, parsed, journalValue]
    simp only [field_first, field_skip format _ _ _ k1, field_skip format _ _ _ k2,
      field_skip format _ _ _ k3, field_skip format _ _ _ k4, field_skip format _ _ _ k5,
      field_skip format _ _ _ k6, field_skip format _ _ _ k7, field_skip format _ _ _ k8, string,
      textOf, Option.bind_some, planned.operation, valid, length_map, true_and, entries]
    by_cases counts : journal.entries.length ≤ 100000 ∧ journal.guards.length ≤ 100000
    · rw [if_pos counts]
      by_cases ids : ∀ guard ∈ journal.guards, guard.id ≠ [] ∧ utf16Length guard.id ≤ 256
      · have guards : (journal.guards.map (guardValue format)).mapM (readGuard format) =
            some journal.guards := by
          apply mapM_read
          intro guard member
          rw [readGuard_guardValue, if_pos (ids guard member)]
        left
        rw [guards]
        exact ⟨rfl, by omega, counts.1, counts.2, ids⟩
      · right
        refine ⟨?_, fun acceptable => ids acceptable.ids⟩
        have bad : ∃ guard ∈ journal.guards, ¬ (guard.id ≠ [] ∧ utf16Length guard.id ≤ 256) := by
          by_contra all
          apply ids
          intro guard member
          by_contra invalid
          exact all ⟨guard, member, invalid⟩
        obtain ⟨guard, member, invalid⟩ := bad
        have refused : readGuard format (guardValue format guard) = none := by
          rw [readGuard_guardValue, if_neg invalid]
        rw [mapM_refused (readGuard format) _ _ (mem_map_of_mem member) refused]
    · right
      rw [if_neg counts]
      exact ⟨rfl, fun acceptable => counts ⟨acceptable.entries, acceptable.guards⟩⟩

end RoundTrip

end DracVms.FileDeletion
