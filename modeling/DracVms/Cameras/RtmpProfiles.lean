import DracVms.Cameras.RtmpIngest

namespace DracVms.RtmpIngest

open List

open Json (Text)
open JsString (trim toLowerCase trim_of_solid)
open Radix (Alphabet)

/-! Text without blanks. -/

variable {c : Char}

theorem pathChar_solid (known : c = '/' ∨ isPathChar c = true) : JsString.isBlank c = false := by
  have range : 33 ≤ c.val.toNat ∧ c.val.toNat ≤ 122 := by
    rcases known with rfl | path
    · decide
    · simp only [isPathChar, Bool.or_eq_true, Bool.and_eq_true, decide_eq_true_eq, Char.le_def,
        UInt32.le_iff_toNat_le, Char.reduceVal, UInt32.reduceToNat, mem_cons,
        not_mem_nil, or_false] at path
      rcases path with ((between | between) | between) | rfl | rfl | rfl
      · omega
      · omega
      · omega
      all_goals decide
  have apart : ∀ n : UInt32, (n.toNat < 33 ∨ 122 < n.toNat) → c.val ≠ n := by
    rintro n outside rfl
    omega
  simp only [JsString.isBlank, mem_cons, not_mem_nil, or_false, Bool.or_eq_false_iff,
    decide_eq_false_iff_not, not_or, Bool.and_eq_false_iff]
  constructor
  · refine ⟨?_, ?_, ?_, ?_, ?_, ?_, ?_, ?_, ?_, ?_, ?_, ?_, ?_, ?_⟩ <;> exact apart _ (by decide)
  · left
    intro above
    have above' : 0x2000 ≤ c.val.toNat := above
    omega

theorem segments_ne_nil (text : Text) : segments text ≠ [] := by
  cases text with
  | nil => exact cons_ne_nil _ _
  | cons c rest =>
    unfold segments
    split
    · exact cons_ne_nil _ _
    · split <;> exact cons_ne_nil _ _

theorem segments_append (first second : Text) :
    segments (first ++ '/' :: second) = segments first ++ segments second := by
  induction first with
  | nil => rfl
  | cons c rest ih =>
    rw [cons_append, segments, segments]
    split
    · rw [ih]
      rfl
    · rw [ih]
      cases parts : segments rest with
      | nil => exact absurd parts (segments_ne_nil rest)
      | cons part others => rfl

theorem segments_single {text : Text} (plain : '/' ∉ text) : segments text = [text] := by
  induction text with
  | nil => rfl
  | cons c rest ih =>
    rw [mem_cons, not_or] at plain
    rw [segments, if_neg (Ne.symm plain.1), ih plain.2]

theorem mem_segments {text : Text} (listed : c ∈ text) :
    c = '/' ∨ ∃ part ∈ segments text, c ∈ part := by
  induction text with
  | nil => cases listed
  | cons d rest ih =>
    rw [segments]
    split
    · rename_i slash
      rcases mem_cons.mp listed with rfl | later
      · exact Or.inl slash
      · rcases ih later with here | ⟨part, known, inPart⟩
        · exact Or.inl here
        · exact Or.inr ⟨part, mem_cons_of_mem _ known, inPart⟩
    · cases parts : segments rest with
      | nil => exact absurd parts (segments_ne_nil rest)
      | cons part others =>
        rw [parts] at ih
        rcases mem_cons.mp listed with rfl | later
        · exact Or.inr ⟨c :: part, mem_cons_self, mem_cons_self⟩
        · rcases ih later with here | ⟨other, known, inPart⟩
          · exact Or.inl here
          · right
            rcases mem_cons.mp known with rfl | deeper
            · exact ⟨d :: other, mem_cons_self, mem_cons_of_mem _ inPart⟩
            · exact ⟨other, mem_cons_of_mem _ deeper, inPart⟩

variable {path : Text}

theorem acceptable_chars (acceptable : isAcceptableIngestPath path = true) :
    ∀ c ∈ trim path, c = '/' ∨ isPathChar c = true := by
  simp only [isAcceptableIngestPath, Bool.and_eq_true, all_eq_true] at acceptable
  obtain ⟨⟨-, parts⟩, -⟩ := acceptable
  intro c listed
  rcases mem_segments listed with slash | ⟨part, known, inPart⟩
  · exact Or.inl slash
  · have segment := parts part known
    simp only [isSegment, Bool.and_eq_true, all_eq_true] at segment
    exact Or.inr (segment.1.2 c inPart)

/-! The numbers at the end of a path. -/

/-- A run of digits that says this number. -/
structure IsNumber (word : Text) (n : ℕ) : Prop where
  some_ : word ≠ []
  digits : ∀ c ∈ word, isDigit c = true
  value : decimal.valueOf word = n

variable {word : Text}

theorem IsNumber.spells {n : ℕ} (number : IsNumber word n) : decimal.Spells word.length word :=
  ⟨rfl, fun c listed => of_decide_eq_true (number.digits c listed)⟩

theorem decimalOf_length (n : ℕ) : (decimalOf n).length = max 1 (Nat.digits 10 n).length := by
  unfold decimalOf
  split
  · rename_i zero
    subst zero
    rfl
  · rename_i positive
    have some_ : (Nat.digits 10 n).length ≠ 0 := by
      rw [ne_eq, length_eq_zero_iff, Nat.digits_eq_nil_iff_eq_zero]
      exact positive
    rw [length_reverse, length_map]
    omega

theorem decimalOf_number (n : ℕ) : IsNumber (decimalOf n) n := by
  have small : ∀ d ∈ Nat.digits 10 n, d < decimal.base := fun d listed =>
    Nat.digits_lt_base (by decide) listed
  refine ⟨?_, ?_, ?_⟩
  · intro empty
    have length := decimalOf_length n
    rw [empty, length_nil] at length
    omega
  · intro c listed
    unfold decimalOf at listed
    split at listed
    · rw [mem_singleton.mp listed]
      decide
    · obtain ⟨d, present, rfl⟩ := mem_map.mp (mem_reverse.mp listed)
      apply decide_eq_true
      rw [← idxOf_lt_length_iff, Alphabet.idxOf_symbol (small d present)]
      exact small d present
  · unfold decimalOf
    split
    · rename_i zero
      rw [zero]
      decide +kernel
    · have digits : decimal.digitsOf ((Nat.digits 10 n).map decimal.symbol).reverse =
          Nat.digits 10 n := by
        rw [Alphabet.digitsOf, reverse_reverse, map_map]
        conv_rhs => rw [← map_id (Nat.digits 10 n)]
        apply map_congr_left
        intro d present
        exact Alphabet.idxOf_symbol (small d present)
      rw [Alphabet.valueOf, digits]
      exact Nat.ofDigits_digits 10 n

theorem decimalOf_shortest {n : ℕ} (number : IsNumber word n) :
    (decimalOf n).length ≤ word.length := by
  have below : n < 10 ^ word.length := by
    rw [← number.value]
    exact Alphabet.valueOf_lt number.spells
  have digits := (Nat.digits_length_le_iff (by decide : 1 < 10) n).mpr below
  have positive : 0 < word.length := length_pos_iff.mpr number.some_
  rw [decimalOf_length]
  omega

theorem eq_decimalOf {n : ℕ} (number : IsNumber word n) (short : word.length ≤ (decimalOf n).length) :
    word = decimalOf n := by
  have same : (decimalOf n).length = word.length :=
    Nat.le_antisymm (decimalOf_shortest number) short
  have spells := (decimalOf_number n).spells
  rw [same] at spells
  exact Alphabet.valueOf_injective number.spells spells
    (number.value.trans (decimalOf_number n).value.symm)

theorem decimalOf_injective {n m : ℕ} (same : decimalOf n = decimalOf m) : n = m := by
  rw [← (decimalOf_number n).value, same, (decimalOf_number m).value]

theorem padded_number {n : ℕ} (number : IsNumber word n) (zeros : ℕ) :
    IsNumber (List.replicate zeros '0' ++ word) n := by
  have zero : decimal.symbols.idxOf '0' = 0 := by decide
  refine ⟨?_, ?_, ?_⟩
  · intro empty
    exact number.some_ (append_eq_nil_iff.mp empty).2
  · intro c listed
    rcases mem_append.mp listed with padding | inWord
    · rw [eq_of_mem_replicate padding]
      decide
    · exact number.digits c inWord
  · have digits : decimal.digitsOf (List.replicate zeros '0' ++ word) =
        decimal.digitsOf word ++ List.replicate zeros 0 := by
      rw [Alphabet.digitsOf, reverse_append, map_append, reverse_replicate, map_replicate, zero]
      rfl
    rw [Alphabet.valueOf, digits, Nat.ofDigits_append_replicate_zero]
    exact number.value

/-! The parts of a path of a profile. -/

theorem split_end {p : Char → Bool} (rest : Text) (all : ∀ c ∈ word, p c = true)
    (stops : ∀ c, rest.getLast? = some c → p c = false) :
    (rest ++ word).rtakeWhile p = word ∧ (rest ++ word).rdropWhile p = rest := by
  have inside : ∀ c ∈ word.reverse, p c = true := fun c listed => all c (mem_reverse.mp listed)
  have front : rest.reverse.takeWhile p = [] ∧ rest.reverse.dropWhile p = rest.reverse := by
    cases turned : rest.reverse with
    | nil => exact ⟨rfl, rfl⟩
    | cons c others =>
      have last : rest.getLast? = some c := by
        rw [← List.head?_reverse, turned]
        rfl
      have outside := stops c last
      exact ⟨takeWhile_cons_of_neg (by simp [outside]), dropWhile_cons_of_neg (by simp [outside])⟩
  constructor
  · rw [List.rtakeWhile, reverse_append, takeWhile_append_of_pos inside, front.1,
      append_nil, reverse_reverse]
  · rw [List.rdropWhile, reverse_append, dropWhile_append_of_pos inside, front.2, reverse_reverse]

theorem beforeUnderscore_iff (text rest : Text) :
    beforeUnderscore text = some rest ↔ text = rest ++ ['_'] := by
  unfold beforeUnderscore
  constructor
  · intro found
    split at found
    · rename_i last
      cases found
      exact (List.dropLast_append_getLast? '_' last).symm
    · cases found
  · rintro rfl
    rw [if_pos (by simp), dropLast_concat]

/-- A path with these parts, whose numbers are written in this way. -/
def spelled (stem channel profile suffix : Text) : Text :=
  stem ++ '_' :: (channel ++ '_' :: (profile ++ suffix))

structure Reads (path : Text) (parsed : VendorProfilePath) (channel profile : Text) : Prop where
  whole : trim path = spelled parsed.stem channel profile parsed.suffix
  stem : isStem parsed.stem = true
  channelNumber : IsNumber channel parsed.channel
  profileNumber : IsNumber profile parsed.profile
  channelSafe : parsed.channel ≤ maxSafeInteger
  profileSmall : parsed.profile ≤ maxVendorProfileIndex
  letters : ∀ c ∈ parsed.suffix, isLetter c = true

theorem digit_not_letter (digit : isDigit c = true) : isLetter c = false := by
  have listed : c ∈ decimal.symbols := of_decide_eq_true digit
  have all : decimal.symbols.all (fun d => !isLetter d) = true := by decide
  rw [← Bool.not_eq_true']
  exact all_eq_true.mp all c listed

theorem last_digit (digits : ∀ c ∈ word, isDigit c = true) (some_ : word ≠ []) (front : Text) :
    ∀ c, (front ++ word).getLast? = some c → isDigit c = true := by
  intro c last
  rw [List.getLast?_append_of_ne_nil _ some_] at last
  exact digits c (List.mem_of_getLast? last)

variable {parsed : VendorProfilePath} {channel profile : Text}

theorem Reads.parse (reads : Reads path parsed channel profile) :
    parseVendorProfilePath path = some parsed := by
  obtain ⟨stem, channelValue, profileValue, suffix⟩ := parsed
  have underscore : isDigit '_' = false := by decide
  have first : normalizeIngestPath path =
      (stem ++ ['_'] ++ channel ++ ['_'] ++ profile) ++ suffix := by
    rw [normalizeIngestPath, reads.whole]
    simp [spelled]
  have stop : ∀ front : Text, ∀ c, (front ++ ['_']).getLast? = some c → isDigit c = false := by
    intro front c last
    rw [List.getLast?_concat] at last
    cases last
    exact underscore
  obtain ⟨one, two⟩ := split_end (stem ++ ['_'] ++ channel ++ ['_'] ++ profile) reads.letters
    fun c last => digit_not_letter
      (last_digit reads.profileNumber.digits reads.profileNumber.some_ _ c last)
  obtain ⟨three, four⟩ := split_end (stem ++ ['_'] ++ channel ++ ['_'])
    reads.profileNumber.digits (stop _)
  obtain ⟨five, six⟩ := split_end (stem ++ ['_']) reads.channelNumber.digits (stop _)
  have strip : beforeUnderscore (stem ++ ['_'] ++ channel ++ ['_']) =
      some (stem ++ ['_'] ++ channel) := (beforeUnderscore_iff _ _).mpr rfl
  have strip' : beforeUnderscore (stem ++ ['_']) = some stem := (beforeUnderscore_iff _ _).mpr rfl
  simp only [parseVendorProfilePath, first, one, two, three, four, strip, five, six, strip',
    Option.bind_eq_bind, Option.bind_some]
  rw [if_pos ⟨reads.stem, reads.channelNumber.some_, reads.profileNumber.some_,
    by rw [reads.channelNumber.value]; exact reads.channelSafe,
    by rw [reads.profileNumber.value]; exact reads.profileSmall⟩, reads.channelNumber.value,
    reads.profileNumber.value]

theorem reads_of_parse (found : parseVendorProfilePath path = some parsed) :
    ∃ channel profile, Reads path parsed channel profile := by
  simp only [parseVendorProfilePath, Option.bind_eq_bind, Option.bind_eq_some_iff] at found
  obtain ⟨channelled, strip, stem, strip', last⟩ := found
  split at last
  · rename_i fits
    obtain ⟨isStem_, channelSome, profileSome, safe, small⟩ := fits
    cases last
    refine ⟨_, _, ⟨?_, isStem_, ⟨channelSome, ?_, rfl⟩, ⟨profileSome, ?_, rfl⟩, safe, small, ?_⟩⟩
    · have whole := rdropWhile_append_rtakeWhile (p := isLetter) (l := normalizeIngestPath path)
      have numbered := rdropWhile_append_rtakeWhile
        (p := isDigit) (l := (normalizeIngestPath path).rdropWhile isLetter)
      have inner := rdropWhile_append_rtakeWhile (p := isDigit) (l := channelled)
      rw [(beforeUnderscore_iff _ _).mp strip] at numbered
      rw [(beforeUnderscore_iff _ _).mp strip'] at inner
      show normalizeIngestPath path = _
      conv_lhs => rw [← whole, ← numbered, ← inner]
      simp [spelled]
    all_goals
      intro c listed
      exact mem_rtakeWhile_imp listed
  · cases last

/-! The paths of one piece of equipment. -/

theorem stem_parts {stem : Text} (good : isStem stem = true) :
    ∃ folder name, stem = folder ++ '/' :: name ∧ '/' ∉ name ∧ 11 < name.length := by
  simp only [isStem, Bool.and_eq_true, decide_eq_true_eq] at good
  obtain ⟨⟨⟨⟨some_, -⟩, -⟩, long⟩, -⟩ := good
  have whole := rdropWhile_append_rtakeWhile (p := (· ≠ '/')) (l := stem)
  have last : (stem.rdropWhile (· ≠ '/')).getLast some_ = '/' := by
    by_contra other
    exact rdropWhile_last_not (· ≠ '/') stem some_ (decide_eq_true other)
  refine ⟨(stem.rdropWhile (· ≠ '/')).dropLast, stem.rtakeWhile (· ≠ '/'), ?_, ?_, long⟩
  · have parts := dropLast_append_getLast some_
    rw [last] at parts
    conv_lhs => rw [← whole, ← parts]
    simp
  · intro slash
    have apart := mem_rtakeWhile_imp slash
    simp at apart

theorem digit_path (digit : isDigit c = true) : isPathChar c = true := by
  have listed : c ∈ decimal.symbols := of_decide_eq_true digit
  have all : decimal.symbols.all isPathChar = true := by decide
  exact all_eq_true.mp all c listed

theorem tail_chars {channel profile suffix : Text} (channelDigits : ∀ c ∈ channel, isDigit c = true)
    (profileDigits : ∀ c ∈ profile, isDigit c = true) (path : ∀ c ∈ suffix, isPathChar c = true) :
    ∀ c ∈ '_' :: (channel ++ '_' :: (profile ++ suffix)), isPathChar c = true := by
  intro c listed
  have underscore : isPathChar '_' = true := by decide
  rcases mem_cons.mp listed with rfl | rest
  · exact underscore
  · rcases mem_append.mp rest with inChannel | later
    · exact digit_path (channelDigits c inChannel)
    · rcases mem_cons.mp later with rfl | last
      · exact underscore
      · rcases mem_append.mp last with inProfile | inSuffix
        · exact digit_path (profileDigits c inProfile)
        · exact path c inSuffix

theorem isLetter_path (letter : isLetter c = true) : isPathChar c = true := by
  simp only [isLetter, Bool.or_eq_true] at letter
  simp only [isPathChar, Bool.or_eq_true]
  exact Or.inl (Or.inl letter)

theorem slash_not_path : isPathChar '/' = false := by decide

theorem Reads.sibling (reads : Reads path parsed channel profile)
    (acceptable : isAcceptableIngestPath path = true) {channel' profile' : Text} {j : ℕ}
    (channelNumber : IsNumber channel' parsed.channel) (profileNumber : IsNumber profile' j)
    (small : j ≤ maxVendorProfileIndex)
    (short : (spelled parsed.stem channel' profile' parsed.suffix).length ≤ maxIngestPath) :
    isAcceptableIngestPath (spelled parsed.stem channel' profile' parsed.suffix) = true ∧
      Reads (spelled parsed.stem channel' profile' parsed.suffix) { parsed with profile := j }
        channel' profile' := by
  have chars := acceptable_chars acceptable
  rw [reads.whole] at chars
  have suffixPath : ∀ c ∈ parsed.suffix, isPathChar c = true := fun c listed =>
    isLetter_path (reads.letters c listed)
  have tail := tail_chars channelNumber.digits profileNumber.digits suffixPath
  have tailBefore := tail_chars reads.channelNumber.digits reads.profileNumber.digits suffixPath
  have solid : ∀ c ∈ spelled parsed.stem channel' profile' parsed.suffix,
      c = '/' ∨ isPathChar c = true := by
    intro c listed
    rcases mem_append.mp listed with inStem | inTail
    · exact chars c (mem_append_left _ inStem)
    · exact Or.inr (tail c inTail)
  have trimmed := trim_of_solid fun c listed => pathChar_solid (solid c listed)
  refine ⟨?_, ⟨trimmed, reads.stem, channelNumber, profileNumber, reads.channelSafe, small,
    reads.letters⟩⟩
  obtain ⟨folder, name, stem, plain, long⟩ := stem_parts reads.stem
  have plainTail : ∀ tail : Text, (∀ c ∈ tail, isPathChar c = true) → '/' ∉ name ++ tail := by
    intro tail path slash
    rcases mem_append.mp slash with inName | inTail
    · exact plain inName
    · exact absurd ((path _ inTail).symm.trans slash_not_path) (by decide)
  have parts : ∀ tail : Text, (∀ c ∈ tail, isPathChar c = true) →
      segments (parsed.stem ++ tail) = segments folder ++ [name ++ tail] := by
    intro tail path
    rw [stem, append_assoc, cons_append, segments_append, segments_single (plainTail tail path)]
  simp only [isAcceptableIngestPath, Bool.and_eq_true, all_eq_true, decide_eq_true_eq,
    Bool.not_eq_true', reads.whole] at acceptable
  obtain ⟨⟨⟨-, -⟩, segmentsGood⟩, free⟩ := acceptable
  simp only [isAcceptableIngestPath, Bool.and_eq_true, all_eq_true, decide_eq_true_eq,
    Bool.not_eq_true', trimmed]
  have stemLong : 4 ≤ parsed.stem.length := by
    rw [stem, length_append, length_cons]
    omega
  refine ⟨⟨⟨?_, short⟩, ?_⟩, ?_⟩
  · intro empty
    have length := congrArg List.length empty
    rw [spelled, length_append, length_nil] at length
    omega
  · have before := parts _ tailBefore
    have now := parts _ tail
    rw [spelled] at segmentsGood ⊢
    rw [before] at segmentsGood
    rw [now]
    intro part listed
    rcases mem_append.mp listed with inFolder | last
    · exact segmentsGood part (mem_append_left _ inFolder)
    · have good := segmentsGood _ (mem_append_right _ (mem_singleton_self _))
      rw [mem_singleton.mp last]
      simp only [isSegment, Bool.and_eq_true, all_eq_true, decide_eq_true_eq] at good ⊢
      refine ⟨⟨?_, ?_⟩, ?_⟩
      · intro empty
        have length := congrArg List.length empty
        rw [length_append, length_nil] at length
        omega
      · intro c inPart
        rcases mem_append.mp inPart with inName | inTail
        · exact good.1.2 c (mem_append_left _ inName)
        · exact tail c inTail
      · intro dots
        have lengths : ∀ text ∈ [".".toList, "..".toList], text.length ≤ 2 := by decide
        have length := lengths _ dots
        rw [length_append] at length
        omega
  · rw [← Bool.not_eq_true, isPrefixOf_iff_prefix] at free ⊢
    intro starts
    apply free
    rw [spelled, toLowerCase, map_append] at starts ⊢
    have inStem : deliveryStart <+: parsed.stem.map Char.toLower := by
      apply prefix_of_prefix_length_le starts (prefix_append _ _)
      rw [length_map]
      exact stemLong
    exact inStem.trans (prefix_append _ _)

variable (parsed : VendorProfilePath)

theorem path_spelled (j : ℕ) :
    parsed.path j = spelled parsed.stem (decimalOf parsed.channel) (decimalOf j) parsed.suffix :=
  rfl

theorem path_injective {j k : ℕ} (same : parsed.path j = parsed.path k) : j = k := by
  apply decimalOf_injective
  simpa [VendorProfilePath.path] using same

theorem spelled_length (stem channel profile suffix : Text) :
    (spelled stem channel profile suffix).length =
      stem.length + channel.length + profile.length + suffix.length + 2 := by
  simp only [spelled, length_append, length_cons]
  omega

theorem Reads.longer (reads : Reads path parsed channel profile) :
    (parsed.path parsed.profile).length ≤ (trim path).length := by
  have one := decimalOf_shortest reads.channelNumber
  have two := decimalOf_shortest reads.profileNumber
  rw [reads.whole, path_spelled, spelled_length, spelled_length]
  omega

theorem Reads.printed (reads : Reads path parsed channel profile)
    (short : (trim path).length ≤ (parsed.path parsed.profile).length) :
    trim path = parsed.path parsed.profile := by
  have one := decimalOf_shortest reads.channelNumber
  have two := decimalOf_shortest reads.profileNumber
  rw [reads.whole, path_spelled, spelled_length, spelled_length] at short
  rw [reads.whole, path_spelled, eq_decimalOf reads.channelNumber (by omega),
    eq_decimalOf reads.profileNumber (by omega)]

theorem decimalOf_small {j : ℕ} (small : j ≤ maxVendorProfileIndex) : (decimalOf j).length = 1 := by
  have all : ∀ k ≤ 7, (decimalOf k).length = 1 := by decide +kernel
  exact all j small

theorem path_length {j k : ℕ} (one : j ≤ maxVendorProfileIndex) (two : k ≤ maxVendorProfileIndex) :
    (parsed.path j).length = (parsed.path k).length := by
  rw [path_spelled, path_spelled, spelled_length, spelled_length, decimalOf_small one,
    decimalOf_small two]

theorem candidates_trim (path : Text) :
    ingestProfilePathCandidates (trim path) = ingestProfilePathCandidates path := by
  simp only [ingestProfilePathCandidates, normalizeIngestPath, JsString.trim_trim]

theorem parse_trim (path : Text) :
    parseVendorProfilePath (trim path) = parseVendorProfilePath path := by
  unfold parseVendorProfilePath normalizeIngestPath
  rw [JsString.trim_trim]

theorem candidates_plain (plain : parseVendorProfilePath path = none) :
    ingestProfilePathCandidates path = [trim path] := by
  simp only [ingestProfilePathCandidates, normalizeIngestPath, parse_trim, plain]

theorem candidates_family (read : parseVendorProfilePath path = some parsed) :
    ingestProfilePathCandidates path = parsed.indexes.map parsed.path := by
  simp only [ingestProfilePathCandidates, normalizeIngestPath, parse_trim, read]

theorem mem_indexes (j : ℕ) : j ∈ parsed.indexes ↔ j = 0 ∨ j = 1 ∨ j = parsed.profile := by
  unfold VendorProfilePath.indexes
  split
  · rename_i low
    simp only [mem_cons, not_mem_nil, or_false] at low ⊢
    omega
  · simp only [mem_cons, not_mem_nil, or_false]

end DracVms.RtmpIngest
