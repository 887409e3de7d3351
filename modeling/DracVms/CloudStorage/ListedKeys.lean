import DracVms.CloudStorage.KeySpaces
import DracVms.Library.JsNumeral

namespace DracVms.ListedKeys

open List

open Json (Text)
open JsString (isBlank toLowerCase)
open KeySpaces (isSlash semBarras joinS3Key base joinS3Key_base)

/-! Reading a listing with regular expressions. -/

/-- What stands in front of the first mark and behind it. -/
def cutAt (mark : Text) : Text → Option (Text × Text)
  | [] => none
  | c :: rest =>
    if mark <+: c :: rest then some ([], (c :: rest).drop mark.length)
    else (cutAt mark rest).map fun cut => (c :: cut.1, cut.2)

/-- `/<Contents>[\s\S]*?<\/Contents>/g`, without the marks. -/
def contents : ℕ → Text → List Text
  | 0, _ => []
  | n + 1, body =>
    match (cutAt "<Contents>".toList body).bind fun cut => cutAt "</Contents>".toList cut.2 with
    | some (block, more) => block :: contents n more
    | none => []

/-- `/<name>([accept]*)<\/name>/` -/
def tagged (name : Text) (accept : Char → Bool) : Text → Option Text
  | [] => none
  | c :: rest =>
    let value := ((c :: rest).drop (name.length + 2)).takeWhile accept
    if '<' :: name ++ '>' :: value ++ '<' :: '/' :: name ++ ['>'] <+: c :: rest then some value
    else tagged name accept rest

structure S3ObjectSummary where
  key : Text
  size : Option ℚ
  lastModified : Option Text

def notOpen (c : Char) : Bool := c ≠ '<'

def summaryOf (block : Text) : Option S3ObjectSummary :=
  match tagged "Key".toList notOpen block with
  | none | some [] => none
  | some key => some
    { key := key
      size := JsNumeral.number ((tagged "Size".toList Char.isDigit block).getD ['0'])
      lastModified := tagged "LastModified".toList notOpen block }

def parseListObjects (body : Text) : List S3ObjectSummary :=
  (contents body.length body).filterMap summaryOf

/-- `/<IsTruncated>\s*true\s*<\/IsTruncated>/i` -/
def isTruncated (body : Text) : Bool :=
  body.tails.any fun text =>
    let inside := (text.drop 13).dropWhile isBlank
    "<istruncated>".toList <+: toLowerCase text ∧ "true".toList <+: toLowerCase inside ∧
      "</istruncated>".toList <+: toLowerCase ((inside.drop 4).dropWhile isBlank)

structure S3ObjectPage where
  objects : List S3ObjectSummary
  nextToken : Option Text

def parseListObjectsPage (body : Text) : S3ObjectPage where
  objects := parseListObjects body
  nextToken := if isTruncated body then
    (tagged "NextContinuationToken".toList notOpen body).filter (· ≠ []) else none

def withoutBase (prefixo : Text) (o : S3ObjectSummary) : S3ObjectSummary :=
  if base prefixo <+: o.key then { o with key := o.key.drop (base prefixo).length } else o

/-- A page of the listing, of what the store answers to the beginning that it is asked for. -/
def listObjectsPage (prefixo asked : Text) (answer : Text → Text) : S3ObjectPage :=
  let page := parseListObjectsPage (answer (joinS3Key prefixo asked))
  { page with objects := page.objects.map (withoutBase prefixo) }

/-! The store. -/

def escapeChar (c : Char) : Text :=
  if c = '&' then "&amp;".toList
  else if c = '<' then "&lt;".toList
  else if c = '>' then "&gt;".toList
  else if c = '"' then "&quot;".toList
  else if c = '\'' then "&apos;".toList
  else [c]

def escape (text : Text) : Text := text.flatMap escapeChar

structure Stored where
  key : Text
  size : ℕ
  lastModified : Text

def element (name content : Text) : Text :=
  '<' :: (name ++ '>' :: content) ++ '<' :: ('/' :: name ++ ['>'])

def Stored.fields (o : Stored) : Text :=
  element "Key".toList (escape o.key) ++ element "Size".toList (Nat.toDigits 10 o.size) ++
    element "LastModified".toList (escape o.lastModified)

def Stored.xml (o : Stored) : Text := element "Contents".toList o.fields

/-- The answer of a store to a list request. -/
def answer (stored : List Stored) (beginning : Text) : Text :=
  "<ListBucketResult>".toList ++
    (stored.filter fun o => beginning.isPrefixOf o.key).flatMap Stored.xml ++
      "</ListBucketResult>".toList

/-- The object that `putObject` makes of a key. -/
def put (prefixo : Text) (key : Text × ℕ × Text) : Stored :=
  ⟨joinS3Key prefixo key.1, key.2.1, key.2.2⟩

/-- The keys that were put come back as they were. -/
def ListsBack (prefixo asked : Text) (keys : List (Text × ℕ × Text)) : Prop :=
  (listObjectsPage prefixo asked (answer (keys.map (put prefixo)))).objects.map
      S3ObjectSummary.key =
    (keys.map Prod.fst).filter fun key =>
      (joinS3Key prefixo asked).isPrefixOf (joinS3Key prefixo key)

def isMarkup (c : Char) : Bool := c ∈ ['&', '<', '>', '"', '\'']

structure Plain (prefixo key : Text) : Prop where
  named : joinS3Key prefixo key ≠ []
  trimmed : semBarras key = key
  unmarked : ∀ c ∈ base prefixo ++ key, isMarkup c = false

/-! The listing is read as it was written. -/

theorem cutAt_mark {mark : Text} (some_ : mark ≠ []) (rest : Text) :
    cutAt mark (mark ++ rest) = some ([], rest) := by
  cases mark with
  | nil => exact absurd rfl some_
  | cons c mark =>
    have here : c :: mark <+: c :: (mark ++ rest) := prefix_append (c :: mark) rest
    rw [cons_append, cutAt, if_pos here]
    simp

theorem cutAt_piece (mark : Text) {piece : Text} (closed : '<' ∉ piece) (rest : Text)
    (other : ¬ mark <+: piece ++ rest) : cutAt ('<' :: mark) ('<' :: (piece ++ rest)) =
      (cutAt ('<' :: mark) rest).map fun cut => ('<' :: (piece ++ cut.1), cut.2) := by
  have walk : ∀ more : Text, '<' ∉ more → cutAt ('<' :: mark) (more ++ rest) =
      (cutAt ('<' :: mark) rest).map fun cut => (more ++ cut.1, cut.2) := by
    intro more outside
    induction more with
    | nil => simp
    | cons c more ih =>
      rw [mem_cons, not_or] at outside
      rw [cons_append, cutAt, if_neg, ih outside.2, Option.map_map]
      · rfl
      · rw [cons_prefix_cons]
        exact fun same => outside.1 same.1
  rw [cutAt, if_neg, walk piece closed, Option.map_map]
  · rfl
  · rw [cons_prefix_cons]
    exact fun same => other same.2

theorem cutAt_element {name content : Text} (rest : Text)
    (closed : '<' ∉ name ++ '>' :: content ++ name)
    (other : ∀ more, ¬ "/Contents>".toList <+: name ++ more ∧ ¬ "/Contents>".toList <+: '/' ::
      name ++ '>' :: more) :
    cutAt "</Contents>".toList (element name content ++ rest) =
      (cutAt "</Contents>".toList rest).map fun cut => (element name content ++ cut.1, cut.2) := by
  rw [mem_append, not_or] at closed
  have closed' : '<' ∉ '/' :: name ++ ['>'] := by
    simpa using closed.2
  have split : ∀ more, element name content ++ more =
      '<' :: ((name ++ '>' :: content) ++ '<' :: (('/' :: name ++ ['>']) ++ more)) := by
    intro more
    simp [element]
  have first := cutAt_piece "/Contents>".toList closed.1
    ('<' :: (('/' :: name ++ ['>']) ++ rest)) (by
      rw [append_assoc]
      exact (other _).1)
  have second := cutAt_piece "/Contents>".toList closed' rest (by
    rw [append_assoc]
    exact (other rest).2)
  rw [split]
  refine (first.trans (congrArg _ second)).trans ?_
  rw [Option.map_map]
  congr 1
  funext cut
  simp [split]

theorem escape_closed (text : Text) : '<' ∉ escape text := by
  intro inside
  obtain ⟨c, -, here⟩ := mem_flatMap.mp inside
  unfold escapeChar at here
  split_ifs at here <;> simp_all [eq_comm]

theorem digits_closed (n : ℕ) : '<' ∉ Nat.toDigits 10 n := fun inside => by
  have digit := Nat.isDigit_of_mem_toDigits (by omega) (by omega) inside
  exact absurd digit (by decide)

theorem cutAt_fields (o : Stored) (rest : Text) :
    cutAt "</Contents>".toList (o.fields ++ ("</Contents>".toList ++ rest)) =
      some (o.fields, rest) := by
  have key := escape_closed o.key
  have date := escape_closed o.lastModified
  have size := digits_closed o.size
  rw [Stored.fields, append_assoc, append_assoc,
    cutAt_element _ (by simpa using key) (by intro more; constructor <;> simp),
    cutAt_element _ (by simpa using size) (by intro more; constructor <;> simp),
    cutAt_element _ (by simpa using date) (by intro more; constructor <;> simp),
    cutAt_mark (by decide)]
  simp

theorem contents_xml (stored : List Stored) (n : ℕ) (enough : stored.length ≤ n) :
    contents n (stored.flatMap Stored.xml ++ "</ListBucketResult>".toList) =
      stored.map Stored.fields := by
  induction stored generalizing n with
  | nil =>
    cases n with
    | zero | succ n => rfl
  | cons o rest ih =>
    obtain ⟨m, rfl⟩ : ∃ m, n = m + 1 := ⟨n - 1, by simp at enough; omega⟩
    have split : (o :: rest).flatMap Stored.xml ++ "</ListBucketResult>".toList =
        "<Contents>".toList ++ (o.fields ++ ("</Contents>".toList ++
          (rest.flatMap Stored.xml ++ "</ListBucketResult>".toList))) := by
      simp [Stored.xml, element]
    rw [split, contents, cutAt_mark (by decide), Option.bind_some, cutAt_fields]
    dsimp only
    rw [ih m (by simpa using enough), map_cons]

theorem tagged_key (content rest : Text) (closed : '<' ∉ content) :
    tagged "Key".toList notOpen (element "Key".toList content ++ rest) = some content := by
  have value : (content ++ '<' :: ('/' :: "Key".toList ++ ['>'] ++ rest)).takeWhile notOpen =
      content := by
    rw [takeWhile_append_of_pos]
    · simp [notOpen]
    · intro c inside
      exact decide_eq_true fun same => closed (same ▸ inside)
  have split : element "Key".toList content ++ rest = '<' :: 'K' :: 'e' :: 'y' :: '>' ::
      (content ++ '<' :: ('/' :: "Key".toList ++ ['>'] ++ rest)) := by
    simp [element]
  rw [split, tagged]
  have skipped : ('<' :: 'K' :: 'e' :: 'y' :: '>' ::
      (content ++ '<' :: ('/' :: "Key".toList ++ ['>'] ++ rest))).drop ("Key".toList.length + 2) =
        content ++ '<' :: ('/' :: "Key".toList ++ ['>'] ++ rest) := rfl
  rw [skipped, value, if_pos]
  exact ⟨rest, by simp⟩

theorem summaryOf_fields (o : Stored) : (summaryOf o.fields).map S3ObjectSummary.key =
      if escape o.key = [] then none else some (escape o.key) := by
  have key := tagged_key (escape o.key) (element "Size".toList (Nat.toDigits 10 o.size) ++
    element "LastModified".toList (escape o.lastModified)) (escape_closed o.key)
  rw [← append_assoc] at key
  unfold summaryOf Stored.fields
  rw [key]
  cases escape o.key with
  | nil | cons c rest => rfl

theorem contents_piece (n : ℕ) {piece : Text} (closed : '<' ∉ piece) (rest : Text)
    (other : ¬ "Contents>".toList <+: piece ++ rest) :
    contents n ('<' :: (piece ++ rest)) = contents n rest := by
  cases n with
  | zero => rfl
  | succ n =>
    have cut := cutAt_piece "Contents>".toList closed rest other
    rw [contents, contents]
    rw [show "<Contents>".toList = '<' :: "Contents>".toList from rfl, cut, Option.bind_map]
    rfl

theorem xml_longer (listed : List Stored) : listed.length ≤ (listed.flatMap Stored.xml).length := by
  induction listed with
  | nil => exact le_refl _
  | cons o rest ih =>
    have positive : 0 < o.xml.length := Nat.succ_pos _
    rw [flatMap_cons, length_append, length_cons]
    omega

theorem parseListObjects_answer (stored : List Stored) (beginning : Text) :
    parseListObjects (answer stored beginning) =
      (stored.filter fun o => beginning.isPrefixOf o.key).filterMap fun o =>
        summaryOf o.fields := by
  have read : ∀ listed : List Stored, ∀ n, listed.length ≤ n →
      contents n ("<ListBucketResult>".toList ++ (listed.flatMap Stored.xml ++
        "</ListBucketResult>".toList)) = listed.map Stored.fields := by
    intro listed n enough
    have opened : "<ListBucketResult>".toList = '<' :: "ListBucketResult>".toList := by decide
    rw [opened, cons_append, contents_piece n (by decide) _ (by simp), contents_xml listed n enough]
  have body : answer stored beginning = "<ListBucketResult>".toList ++
      ((stored.filter fun o => beginning.isPrefixOf o.key).flatMap Stored.xml ++
        "</ListBucketResult>".toList) := append_assoc _ _ _
  have enough : (stored.filter fun o => beginning.isPrefixOf o.key).length ≤
      (answer stored beginning).length := by
    rw [body, length_append, length_append]
    exact (xml_longer _).trans ((Nat.le_add_right _ _).trans (Nat.le_add_left _ _))
  have blocks := read _ _ enough
  exact (congrArg (List.filterMap summaryOf) blocks).trans filterMap_map

def relative (prefixo key : Text) : Text :=
  if base prefixo <+: key then key.drop (base prefixo).length else key

/-- What a key comes back as. -/
def back (prefixo key : Text) : Option Text :=
  if escape (joinS3Key prefixo key) = [] then none
  else some (relative prefixo (escape (joinS3Key prefixo key)))

theorem filterMap_eq_map {α β : Type} (read : α → Option β) (own : α → β) (items : List α) :
    items.filterMap read = items.map own ↔ ∀ item ∈ items, read item = some (own item) := by
  induction items with
  | nil => simp
  | cons item rest ih =>
    rw [map_cons, forall_mem_cons, ← ih]
    cases found : read item with
    | none =>
      rw [filterMap_cons_none found]
      constructor
      · intro same
        have short := length_filterMap_le read rest
        rw [same, length_cons, length_map] at short
        omega
      · rintro ⟨none_, -⟩
        cases none_
    | some value =>
      rw [filterMap_cons_some found, List.cons.injEq, Option.some.injEq]

theorem listsBack_iff_back (prefixo asked : Text) (keys : List (Text × ℕ × Text)) :
    ListsBack prefixo asked keys ↔ ∀ key ∈ keys.map Prod.fst,
      joinS3Key prefixo asked <+: joinS3Key prefixo key → back prefixo key = some key := by
  have listed : (listObjectsPage prefixo asked (answer (keys.map (put prefixo)))).objects.map
      S3ObjectSummary.key = ((keys.map Prod.fst).filter fun key =>
        (joinS3Key prefixo asked).isPrefixOf (joinS3Key prefixo key)).filterMap (back prefixo) := by
    have own : ∀ o : Stored, ((summaryOf o.fields).map (withoutBase prefixo)).map
        S3ObjectSummary.key = if escape o.key = [] then none
          else some (relative prefixo (escape o.key)) := by
      intro o
      have renamed : S3ObjectSummary.key ∘ withoutBase prefixo =
          relative prefixo ∘ S3ObjectSummary.key := by
        funext summary
        unfold withoutBase relative
        simp only [Function.comp_apply]
        split <;> rfl
      rw [Option.map_map, renamed, ← Option.map_map, summaryOf_fields]
      split <;> rfl
    unfold listObjectsPage parseListObjectsPage
    dsimp only
    rw [parseListObjects_answer, map_filterMap, map_filterMap]
    simp only [own]
    rw [filter_map, filterMap_map, filter_map, filterMap_map]
    rfl
  rw [ListsBack, listed]
  have each := filterMap_eq_map (back prefixo) id ((keys.map Prod.fst).filter fun key =>
    (joinS3Key prefixo asked).isPrefixOf (joinS3Key prefixo key))
  rw [map_id] at each
  rw [each]
  simp only [mem_filter, isPrefixOf_iff_prefix, and_imp, id]

/-! What comes back. -/

theorem escapeChar_marked {c : Char} (marked : isMarkup c = true) :
    ∃ more, escapeChar c = '&' :: more ∧ more ≠ [] ∧ '/' ∉ more := by
  simp only [isMarkup, mem_cons, not_mem_nil, or_false, decide_eq_true_eq] at marked
  rcases marked with rfl | rfl | rfl | rfl | rfl <;> exact ⟨_, rfl, by decide, by decide⟩

theorem escapeChar_plain {c : Char} (plain : isMarkup c = false) : escapeChar c = [c] := by
  simp [isMarkup] at plain
  simp [escapeChar, plain]

theorem escape_append (first second : Text) :
    escape (first ++ second) = escape first ++ escape second := flatMap_append

theorem escape_cons (c : Char) (rest : Text) : escape (c :: rest) = escapeChar c ++ escape rest :=
  flatMap_cons

variable {text : Text}

theorem escape_plain (plain : ∀ c ∈ text, isMarkup c = false) : escape text = text := by
  induction text with
  | nil => rfl
  | cons c rest ih =>
    rw [escape_cons, escapeChar_plain (plain c mem_cons_self),
      ih fun d inside => plain d (mem_cons_of_mem c inside), singleton_append]

theorem escape_length (text : Text) : text.length ≤ (escape text).length ∧
    ((escape text).length ≤ text.length → ∀ c ∈ text, isMarkup c = false) := by
  induction text with
  | nil => exact ⟨le_refl _, by simp⟩
  | cons c rest ih =>
    obtain ⟨longer, same⟩ := ih
    rw [escape_cons, length_append, length_cons]
    cases marked : isMarkup c with
    | false =>
      rw [escapeChar_plain marked, length_singleton]
      refine ⟨by omega, fun short d inside => ?_⟩
      rcases mem_cons.mp inside with rfl | later
      · exact marked
      · exact same (by omega) d later
    | true =>
      obtain ⟨more, whole, some_, -⟩ := escapeChar_marked marked
      have positive := length_pos_iff.mpr some_
      rw [whole, length_cons]
      exact ⟨by omega, fun short => absurd short (by omega)⟩

theorem slash_escape (slash : '/' ∈ escape text) : '/' ∈ text := by
  obtain ⟨c, inside, here⟩ := mem_flatMap.mp slash
  cases marked : isMarkup c with
  | false =>
    rw [escapeChar_plain marked, mem_singleton] at here
    exact here ▸ inside
  | true =>
    obtain ⟨more, whole, -, outside⟩ := escapeChar_marked marked
    rw [whole, mem_cons] at here
    exact absurd here (not_or.mpr ⟨by decide, outside⟩)

theorem noSlash_of_shifted {shift text more : Text} (some_ : shift ≠ []) (plain : '/' ∉ shift)
    (again : text <+: shift ++ escape (text ++ more)) : '/' ∉ text := by
  induction text using List.reverseRecOn generalizing more with
  | nil => exact not_mem_nil
  | append_singleton text c ih =>
    have before : '/' ∉ text := @ih (c :: more) (by
      rw [append_assoc, singleton_append] at again
      exact (prefix_append _ _).trans again)
    have within : text ++ [c] <+: shift ++ escape text := by
      rw [append_assoc, escape_append, ← append_assoc] at again
      refine prefix_of_prefix_length_le again (prefix_append _ _) ?_
      have positive := length_pos_iff.mpr some_
      have longer := (escape_length text).1
      simp only [length_append, length_singleton]
      omega
    intro slash
    rcases mem_append.mp (within.subset slash) with inside | inside
    · exact plain inside
    · exact before (slash_escape inside)

theorem plain_of_prefix {text more : Text} (ends : text = [] ∨ text.getLast? = some '/')
    (again : text <+: escape (text ++ more)) : ∀ c ∈ text, isMarkup c = false := by
  induction text with
  | nil => simp
  | cons c rest ih =>
    have ends' : rest = [] ∨ rest.getLast? = some '/' := by
      cases rest with
      | nil => exact Or.inl rfl
      | cons d rest => exact Or.inr (by simpa using ends)
    rw [cons_append, escape_cons] at again
    cases marked : isMarkup c with
    | false =>
      rw [escapeChar_plain marked, singleton_append, prefix_cons_inj] at again
      intro d inside
      rcases mem_cons.mp inside with rfl | later
      · exact marked
      · exact ih ends' again d later
    | true =>
      obtain ⟨shift, whole, some_, plain⟩ := escapeChar_marked marked
      rw [whole, cons_append, cons_prefix_cons] at again
      have slashless := noSlash_of_shifted some_ plain again.2
      rcases ends' with rfl | last
      · have slash : c = '/' := by simpa using ends
        rw [slash] at marked
        cases marked
      · exact absurd (List.mem_of_getLast? last) slashless

/-- Neither the first character nor the last one is a slash. -/
def SemBarra (text : Text) : Prop := text.head? ≠ some '/' ∧ text.getLast? ≠ some '/'

theorem semBarra_semBarras (text : Text) : SemBarra (semBarras text) := by
  constructor
  · intro first
    have before := rdropWhile_prefix isSlash (l := text.dropWhile isSlash)
    have head : (text.dropWhile isSlash).head? = some '/' := by
      cases short : semBarras text with
      | nil =>
        rw [short] at first
        cases first
      | cons c rest =>
        rw [short] at first
        obtain rfl := Option.some.inj first
        unfold semBarras at short
        rw [short] at before
        obtain ⟨more, whole⟩ := before
        rw [← whole]
        rfl
    have none_ := List.head?_dropWhile_not isSlash text
    rw [head] at none_
    exact absurd none_ (by decide)
  · intro last
    cases some_ : semBarras text with
    | nil =>
      rw [some_] at last
      cases last
    | cons c rest =>
      have nonempty : semBarras text ≠ [] := some_ ▸ cons_ne_nil c rest
      have other := rdropWhile_last_not isSlash (text.dropWhile isSlash) nonempty
      rw [List.getLast?_eq_some_getLast nonempty] at last
      have slash : isSlash ((semBarras text).getLast nonempty) = true := by
        rw [Option.some.inj last]
        rfl
      exact other slash

theorem dropWhile_self (first : text.head? ≠ some '/') : text.dropWhile isSlash = text := by
  cases text with
  | nil => rfl
  | cons c rest =>
    have other : ¬ isSlash c = true := fun same =>
      first (congrArg some (of_decide_eq_true same))
    exact dropWhile_cons_of_neg other

theorem semBarras_self {text : Text} (bare : SemBarra text) : semBarras text = text := by
  rw [semBarras, dropWhile_self bare.1, rdropWhile_eq_self_iff]
  intro nonempty same
  apply bare.2
  rw [List.getLast?_eq_some_getLast nonempty]
  exact congrArg some (of_decide_eq_true same)

theorem semBarras_ne_nil (some_ : text ≠ []) (first : text.head? ≠ some '/') :
    semBarras text ≠ [] := by
  rw [semBarras, dropWhile_self first]
  intro all
  cases text with
  | nil => exact some_ rfl
  | cons c rest =>
    have same := rdropWhile_eq_nil_iff.mp all c mem_cons_self
    exact first (congrArg some (of_decide_eq_true same))

theorem escapeChar_apart (c : Char) :
    ∃ d rest, escapeChar c = d :: rest ∧ (c ≠ '/' → '/' ∉ d :: rest) := by
  cases marked : isMarkup c with
  | false => exact ⟨c, [], escapeChar_plain marked, by simpa using Ne.symm⟩
  | true =>
    obtain ⟨more, whole, -, outside⟩ := escapeChar_marked marked
    refine ⟨'&', more, whole, fun _ => ?_⟩
    rw [mem_cons, not_or]
    exact ⟨by decide, outside⟩

theorem escape_head (first : text.head? ≠ some '/') : (escape text).head? ≠ some '/' := by
  cases text with
  | nil => exact first
  | cons c rest =>
    obtain ⟨d, more, whole, outside⟩ := escapeChar_apart c
    rw [escape_cons, whole]
    intro slash
    obtain rfl : d = '/' := Option.some.inj slash
    exact outside (fun same => first (congrArg some same)) mem_cons_self

theorem escape_last (last : text.getLast? ≠ some '/') : (escape text).getLast? ≠ some '/' := by
  rcases eq_nil_or_concat text with rfl | ⟨rest, c, rfl⟩
  · exact last
  · obtain ⟨d, more, whole, outside⟩ := escapeChar_apart c
    rw [concat_eq_append, List.getLast?_concat] at last
    rw [concat_eq_append, escape_append, escape_cons, whole]
    intro slash
    rw [List.getLast?_append_of_ne_nil _ (by simp)] at slash
    refine outside (fun same => last (congrArg some same)) ?_
    simpa [escape] using List.mem_of_getLast? slash

theorem base_ends (prefixo : Text) : base prefixo = [] ∨
    (base prefixo).getLast? = some '/' ∧ (base prefixo).head? ≠ some '/' := by
  unfold base joinS3Key
  split
  · exact Or.inl rfl
  · rename_i some_
    right
    have first := (semBarra_semBarras prefixo).1
    cases whole : semBarras prefixo with
    | nil => exact absurd whole some_
    | cons c rest =>
      rw [whole] at first
      refine ⟨?_, first⟩
      exact List.getLast?_concat

theorem back_iff (prefixo key : Text) : back prefixo key = some key ↔ Plain prefixo key := by
  unfold back relative
  rw [joinS3Key_base]
  constructor
  · intro whole
    split_ifs at whole with none_ inside
    · have plainBase := plain_of_prefix ((base_ends prefixo).imp id And.left) inside
      rw [escape_append, escape_plain plainBase, drop_left] at whole
      have same := Option.some.inj whole
      have bare := @semBarras_self (escape (semBarras key))
        ⟨escape_head (semBarra_semBarras key).1, escape_last (semBarra_semBarras key).2⟩
      rw [same] at bare
      have plainKey := (escape_length key).2 (by rw [bare] at same; rw [same])
      refine ⟨?_, bare, ?_⟩
      · intro empty
        rw [joinS3Key_base] at empty
        exact none_ (by rw [empty]; rfl)
      · intro c listed
        exact (mem_append.mp listed).elim (plainBase c) (plainKey c)
    · have same := Option.some.inj whole
      rcases base_ends prefixo with empty | ⟨-, first⟩
      · rw [empty] at inside
        exact absurd nil_prefix inside
      · have some_ : base prefixo ≠ [] := fun empty => inside (empty ▸ nil_prefix)
        have head : (base prefixo ++ semBarras key).head? ≠ some '/' := by
          rwa [List.head?_append_of_ne_nil _ some_]
        by_cases short : semBarras key = []
        · refine absurd short (semBarras_ne_nil (same ▸ none_) ?_)
          rw [← same]
          exact escape_head head
        · have last : (base prefixo ++ semBarras key).getLast? ≠ some '/' := by
            rw [List.getLast?_append_of_ne_nil _ short]
            exact (semBarra_semBarras key).2
          have bare := semBarras_self ⟨escape_head head, escape_last last⟩
          rw [same] at bare
          have longer := (escape_length (base prefixo ++ semBarras key)).1
          have positive := length_pos_iff.mpr some_
          rw [same, length_append, bare] at longer
          omega
  · rintro ⟨named, trimmed, unmarked⟩
    rw [joinS3Key_base, trimmed] at named
    rw [trimmed, escape_plain unmarked, if_neg named, if_pos (prefix_append _ _), drop_left]

/-- A listing gives the keys back exactly when those that it finds hold nothing that XML escapes and
nothing that the joining takes away. -/
theorem listsBack_iff (prefixo asked : Text) (keys : List (Text × ℕ × Text)) :
    ListsBack prefixo asked keys ↔ ∀ key ∈ keys.map Prod.fst,
      joinS3Key prefixo asked <+: joinS3Key prefixo key → Plain prefixo key := by
  rw [listsBack_iff_back]
  simp only [back_iff]

/-- A file name with an ampersand comes back as another key. -/
theorem ampersand_differs : ¬ ListsBack [] [] [("a&b.mp4".toList, 1000, [])] := by
  rw [listsBack_iff_back]
  intro all
  have same := all "a&b.mp4".toList (by simp) nil_prefix
  revert same
  decide +kernel

end DracVms.ListedKeys
