import DracVms.Library.Ffconcat
import DracVms.Library.JsDate
import DracVms.Recordings.RangeExportParts

/-! The manifest of an export, and what the demuxer reads in it. -/
namespace DracVms.RangeExport

open List Ffconcat

/-- `toFixed(3)` of a number that is not negative. -/
def toFixed3 (x : ℚ) : Text :=
  let n := (round (x * 1000)).toNat
  Nat.toDigits 10 (n / 1000) ++ '.' :: JsDate.padded 3 (n % 1000)

def partLines (part : RangeExportPart) : List Text :=
  ["file '".toList ++ escape part.filePath ++ ['\'']] ++
    (if 0 < part.inpointSeconds then ["inpoint".toList ++ ' ' :: toFixed3 part.inpointSeconds]
      else []) ++
    if part.outpointSeconds < part.fileDurationSeconds - 1 / 2000 then
      ["outpoint".toList ++ ' ' :: toFixed3 part.outpointSeconds] else []

/-- `none` is the error of a path with a line break, for which the format has no escape. -/
def buildConcatManifest (parts : List RangeExportPart) : Option Text :=
  if parts.any fun part => part.filePath.any fun c => c = '\r' ∨ c = '\n' then none
  else some (['\n'].intercalate ("ffconcat version 1.0".toList :: parts.flatMap partLines ++ [[]]))

/-! What the demuxer makes of it. -/

structure Entry where
  path : Text
  inpoint : Option ℚ
  outpoint : Option ℚ

/-- A time in seconds, of which six decimals count. -/
def parseTime (text : Text) : Option ℚ :=
  let whole : ℚ := Nat.ofDigitChars 10 (text.takeWhile Char.isDigit) 0
  match text.dropWhile Char.isDigit with
  | [] => some whole
  | '.' :: fraction =>
    let digits := (fraction.takeWhile Char.isDigit).take 6
    some (whole + Nat.ofDigitChars 10 digits 0 / 10 ^ digits.length)
  | _ => none

def timeOf (line : Text) : Option ℚ := parseTime (token (keyword line).2)

/-- A line of the script. A time belongs to the file before it. -/
def readLine (entries : List Entry) (line : Text) : List Entry :=
  match directive line with
  | some (.file path) => entries ++ [⟨path, none, none⟩]
  | some (.other word) =>
    if word = "inpoint".toList then
      entries.modifyLast fun entry => { entry with inpoint := timeOf line }
    else if word = "outpoint".toList then
      entries.modifyLast fun entry => { entry with outpoint := timeOf line }
    else entries
  | _ => entries

def readManifest (text : Text) : List Entry := (text.splitOn '\n').foldl readLine []

/-- A part as the plan makes it: times in whole milliseconds, and none behind the end of the file. -/
def Planned (part : RangeExportPart) : Prop :=
  ∃ i o d : ℕ, part.inpointSeconds = i / 1000 ∧ part.outpointSeconds = o / 1000 ∧
    part.fileDurationSeconds = d / 1000 ∧ o ≤ d

/-- The same file between the same instants, where no instant is the start or the end of the file. -/
def Plays (entry : Entry) (part : RangeExportPart) : Prop :=
  entry.path = part.filePath ∧ entry.inpoint.getD 0 = part.inpointSeconds ∧
    entry.outpoint.getD part.fileDurationSeconds = part.outpointSeconds

/-! A time. -/

def isTime (c : Char) : Bool := c.isDigit || c == '.'

theorem time_solid {c : Char} (time : isTime c = true) :
    isBlank c = false ∧ c ≠ '\'' ∧ c ≠ '\\' ∧ c ≠ '\n' := by
  refine ⟨?_, ?_, ?_, ?_⟩
  · by_contra blank
    simp only [isBlank, Bool.not_eq_false, Bool.or_eq_true, beq_iff_eq] at blank
    rcases blank with ((rfl | rfl) | rfl) | rfl
    all_goals simp [isTime, Char.isDigit] at time
  all_goals
    rintro rfl
    simp [isTime, Char.isDigit] at time

theorem token_time {text : Text} (time : ∀ c ∈ text, isTime c = true) : token text = text := by
  have same : escape text = text := by
    induction text with
    | nil => rfl
    | cons c text ih =>
      rw [escape_other (time_solid (time c mem_cons_self)).2.1,
        ih fun d later => time d (mem_cons_of_mem c later)]
  have plain : Plain text :=
    ⟨fun c inside => ⟨(time_solid (time c inside)).1, (time_solid (time c inside)).2.1⟩,
      fun inside => (time_solid (time _ (mem_of_mem_dropLast inside))).2.2.1 rfl⟩
  have read := (token_escape_iff text).mpr plain
  rw [same] at read
  exact read

theorem toDigits_digits {n : ℕ} {c : Char} (inside : c ∈ Nat.toDigits 10 n) : c.isDigit = true :=
  Nat.isDigit_of_mem_toDigits (by decide) (by decide) inside

theorem padded_digits {width n : ℕ} {c : Char} (inside : c ∈ JsDate.padded width n) :
    c.isDigit = true := by
  rcases mem_append.mp inside with zero | digit
  · rw [eq_of_mem_replicate zero]
    rfl
  · exact toDigits_digits digit

theorem padded_length {width n : ℕ} (some_ : 0 < width) (small : n < 10 ^ width) :
    (JsDate.padded width n).length = width := by
  have short := (Nat.length_toDigits_le_iff (by decide) some_).mpr small
  simp only [JsDate.padded, length_append, length_replicate]
  omega

theorem padded_value (width n : ℕ) : Nat.ofDigitChars 10 (JsDate.padded width n) 0 = n := by
  rw [JsDate.padded, Nat.ofDigitChars_append, Nat.ofDigitChars_replicate_zero, Nat.mul_zero]
  exact Nat.ofDigitChars_toDigits (by decide) (by decide)

theorem toFixed3_eq (n : ℕ) : toFixed3 (n / 1000) =
    Nat.toDigits 10 (n / 1000) ++ '.' :: JsDate.padded 3 (n % 1000) := by
  have scaled : (n / 1000 : ℚ) * 1000 = (n : ℤ) := by
    push_cast
    ring
  rw [toFixed3, scaled, round_int]
  rfl

theorem toFixed3_time (n : ℕ) : ∀ c ∈ toFixed3 (n / 1000), isTime c = true := by
  intro c inside
  rcases mem_append.mp inside with digit | rest
  · simp [isTime, toDigits_digits digit]
  · rcases mem_cons.mp rest with rfl | digit
    · rfl
    · simp [isTime, padded_digits digit]

theorem parseTime_toFixed3 (n : ℕ) : parseTime (toFixed3 (n / 1000)) = some ((n : ℚ) / 1000) := by
  have whole : ∀ c ∈ Nat.toDigits 10 (n / 1000), c.isDigit = true := fun c => toDigits_digits
  have fraction : ∀ c ∈ JsDate.padded 3 (n % 1000), c.isDigit = true := fun c => padded_digits
  have three : (JsDate.padded 3 (n % 1000)).length = 3 :=
    padded_length (by decide) (Nat.mod_lt n (by decide))
  have stop : ('.' :: JsDate.padded 3 (n % 1000)).takeWhile Char.isDigit = [] := rfl
  have rest : ('.' :: JsDate.padded 3 (n % 1000)).dropWhile Char.isDigit =
      '.' :: JsDate.padded 3 (n % 1000) := rfl
  have parts : ((n / 1000 : ℕ) : ℚ) * 1000 + (n % 1000 : ℕ) = n := by
    exact_mod_cast Nat.div_add_mod' n 1000
  rw [toFixed3_eq, parseTime, takeWhile_append_of_pos whole, dropWhile_append_of_pos whole, stop, rest,
    append_nil]
  simp only
  rw [takeWhile_eq_self_iff.mpr fraction, take_of_length_le (by rw [three]; decide), three,
    padded_value,
    Nat.ofDigitChars_toDigits (by decide) (by decide), Option.some.injEq]
  linarith

/-! A line. -/

theorem directive_time {word : Text} (known : word = "inpoint".toList ∨ word = "outpoint".toList)
    (text : Text) : directive (word ++ ' ' :: text) = some (.other word) ∧
      (keyword (word ++ ' ' :: text)).2 = text.dropWhile isBlank := by
  have solid : ∀ c ∈ word, isBlank c = false := by
    rcases known with rfl | rfl
    all_goals simp [isBlank]
  have some_ : word ≠ [] := by
    rcases known with rfl | rfl
    all_goals decide
  refine ⟨?_, by rw [keyword_word word solid some_]⟩
  rw [directive, keyword_word word solid some_]
  rcases known with rfl | rfl
  all_goals
    exact (if_neg (by decide)).trans ((if_neg (by decide)).trans
      ((if_neg (by decide)).trans (if_neg (by decide))))

theorem timeOf_time {word : Text} (known : word = "inpoint".toList ∨ word = "outpoint".toList)
    (n : ℕ) : timeOf (word ++ ' ' :: toFixed3 (n / 1000)) = some ((n : ℚ) / 1000) := by
  rw [timeOf, (directive_time known _).2, token_dropWhile, token_time (toFixed3_time n),
    parseTime_toFixed3]

variable (entries : List Entry)

theorem readLine_file (path : Text) :
    readLine entries ("file '".toList ++ escape path ++ ['\'']) = entries ++ [⟨path, none, none⟩] := by
  have line : "file '".toList ++ escape path ++ ['\''] =
      "file ".toList ++ ('\'' :: escape path ++ ['\'']) := rfl
  rw [readLine, line, directive_file, token_quoted]

theorem readLine_inpoint (entry : Entry) (n : ℕ) :
    readLine (entries ++ [entry]) ("inpoint".toList ++ ' ' :: toFixed3 (n / 1000)) =
      entries ++ [{ entry with inpoint := some ((n : ℚ) / 1000) }] := by
  have time := timeOf_time (Or.inl rfl) n
  rw [readLine, (directive_time (Or.inl rfl) _).1, time]
  exact (if_pos rfl).trans (modifyLast_concat _ _ _)

theorem readLine_outpoint (entry : Entry) (n : ℕ) :
    readLine (entries ++ [entry]) ("outpoint".toList ++ ' ' :: toFixed3 (n / 1000)) =
      entries ++ [{ entry with outpoint := some ((n : ℚ) / 1000) }] := by
  have time := timeOf_time (Or.inr rfl) n
  rw [readLine, (directive_time (Or.inr rfl) _).1, time]
  exact ((if_neg (by decide)).trans (if_pos rfl)).trans (modifyLast_concat _ _ _)

theorem readLine_part {part : RangeExportPart} (planned : Planned part) :
    ∃ entry, Plays entry part ∧ (partLines part).foldl readLine entries = entries ++ [entry] := by
  obtain ⟨i, o, d, inpoint, outpoint, duration, inside⟩ := planned
  have starts : ∃ start : Option ℚ, start.getD 0 = part.inpointSeconds ∧
      (if 0 < part.inpointSeconds then ["inpoint".toList ++ ' ' :: toFixed3 part.inpointSeconds] else
        []).foldl readLine (entries ++ [⟨part.filePath, none, none⟩]) =
      entries ++ [⟨part.filePath, start, none⟩] := by
    split
    · exact ⟨some (i / 1000), inpoint.symm, by rw [inpoint, foldl_cons, readLine_inpoint, foldl_nil]⟩
    · rename_i first
      have positive : (0 : ℚ) ≤ i / 1000 := by positivity
      rw [inpoint] at first ⊢
      exact ⟨none, le_antisymm positive (not_lt.mp first), rfl⟩
  obtain ⟨start, startsAt, first⟩ := starts
  have ends : ∃ stop : Option ℚ, stop.getD part.fileDurationSeconds = part.outpointSeconds ∧
      (if part.outpointSeconds < part.fileDurationSeconds - 1 / 2000 then
        ["outpoint".toList ++ ' ' :: toFixed3 part.outpointSeconds] else []).foldl readLine
        (entries ++ [⟨part.filePath, start, none⟩]) =
      entries ++ [⟨part.filePath, start, stop⟩] := by
    split
    · exact ⟨some (o / 1000), outpoint.symm,
        by rw [outpoint, foldl_cons, readLine_outpoint, foldl_nil]⟩
    · rename_i late
      rw [outpoint, duration] at late ⊢
      have last : d ≤ o := by
        by_contra before
        have before' : (o : ℚ) + 1 ≤ d := by exact_mod_cast not_le.mp before
        exact late (by linarith)
      exact ⟨none, by rw [Nat.le_antisymm inside last]; rfl, rfl⟩
  obtain ⟨stop, endsAt, second⟩ := ends
  refine ⟨⟨part.filePath, start, stop⟩, ⟨rfl, startsAt, endsAt⟩, ?_⟩
  rw [partLines, foldl_append, foldl_append, foldl_cons, foldl_nil, readLine_file, first, second]

theorem readLine_parts {parts : List RangeExportPart} (planned : ∀ part ∈ parts, Planned part)
    (entries : List Entry) : ∃ read, Forall₂ Plays read parts ∧
      (parts.flatMap partLines).foldl readLine entries = entries ++ read := by
  induction parts generalizing entries with
  | nil => exact ⟨[], .nil, (append_nil entries).symm⟩
  | cons part rest ih =>
    obtain ⟨entry, plays, first⟩ := readLine_part entries (planned part mem_cons_self)
    obtain ⟨read, others, later⟩ := ih (fun other listed => planned other (mem_cons_of_mem _ listed))
      (entries ++ [entry])
    refine ⟨entry :: read, .cons plays others, ?_⟩
    rw [flatMap_cons, foldl_append, first, later, append_assoc]
    rfl

/-! The plan. -/

theorem round_natCast {x : ℚ} (positive : 0 ≤ x) : ∃ n : ℕ, roundSeconds x = n / 1000 := by
  have whole : 0 ≤ round x := by
    have mono := round_mono 0 x positive
    rw [show (0 : ℚ) = ((0 : ℤ) : ℚ) from rfl, round_int] at mono
    exact mono
  obtain ⟨n, same⟩ := Int.eq_ofNat_of_zero_le whole
  exact ⟨n, by rw [roundSeconds, same]; rfl⟩

theorem joinPart_planned (fromMs toMs : Int) (margemMs : Rat) (so : Joined) (current : Candidate)
    (planned : ∀ part ∈ so.parts, Planned part) :
    ∀ part ∈ (joinPart fromMs toMs margemMs so current).parts, Planned part := by
  let piece := cut fromMs toMs margemMs current
  have starts : 0 ≤ piece.inMs := by
    simp only [piece, cut]
    split
    · exact le_max_left _ _
    · exact le_refl _
  have ends : piece.outMs ≤ current.endMs - current.startMs := by
    simp only [piece, cut]
    split
    · exact min_le_left _ _
    · exact le_refl _
  unfold joinPart
  dsimp only
  split
  · exact planned
  · rename_i lasts
    have later : 0 ≤ piece.outMs := by linarith
    intro part listed
    rcases mem_append.mp listed with older | new
    · exact planned part older
    · obtain ⟨i, inpoint⟩ := round_natCast starts
      obtain ⟨o, outpoint⟩ := round_natCast later
      obtain ⟨d, duration⟩ := round_natCast (later.trans ends)
      rw [mem_singleton.mp new]
      refine ⟨i, o, d, inpoint, outpoint, duration, ?_⟩
      have mono : (round piece.outMs : ℚ) ≤ round (current.endMs - current.startMs) := by
        exact_mod_cast round_mono _ _ ends
      have inside : (o : ℚ) / 1000 ≤ d / 1000 := by
        rw [← outpoint, ← duration, roundSeconds, roundSeconds]
        linarith
      have inside' : (o : ℚ) ≤ d := by linarith
      exact_mod_cast inside'

theorem planRangeExport_planned [JsString.Unicode] (localeCompare : Text → Text → Int)
    (input : PlanRangeExportInput)
    (plan : RangeExportPlan) (made : planRangeExport localeCompare input = .ok plan) :
    ∀ part ∈ plan.parts, Planned part := by
  have joined : ∀ (fromMs toMs : Int) (margemMs : Rat) (selected : List Candidate) (so : Joined),
      (∀ part ∈ so.parts, Planned part) →
      ∀ part ∈ (selected.foldl (joinPart fromMs toMs margemMs) so).parts, Planned part := by
    intro fromMs toMs margemMs selected
    induction selected with
    | nil => exact fun so planned => planned
    | cons current rest ih => exact fun so planned => ih _ (joinPart_planned _ _ _ so current planned)
  unfold planRangeExport at made
  split at made
  · split at made
    · cases made
    · cases made
      exact joined _ _ _ _ _ nofun
  · cases made

theorem partLines_line {part : RangeExportPart} (planned : Planned part)
    (clean : ∀ c ∈ part.filePath, c ≠ '\r' ∧ c ≠ '\n') : ∀ line ∈ partLines part, '\n' ∉ line := by
  obtain ⟨i, o, d, inpoint, outpoint, -⟩ := planned
  have path : '\n' ∉ escape part.filePath := by
    intro inside
    obtain ⟨c, listed, written⟩ := mem_flatMap.mp inside
    split at written
    · simp at written
    · exact (clean c listed).2 (mem_singleton.mp written).symm
  have time : ∀ n : ℕ, '\n' ∉ toFixed3 (n / 1000) := fun n inside =>
    (time_solid (toFixed3_time n _ inside)).2.2.2 rfl
  intro line listed
  rcases mem_append.mp listed with front | last
  · rcases mem_append.mp front with file | starts
    · rw [mem_singleton.mp file]
      simp [path]
    · split at starts
      · rw [mem_singleton.mp starts, inpoint]
        simp [time]
      · cases starts
  · split at last
    · rw [mem_singleton.mp last, outpoint]
      simp [time]
    · cases last

theorem manifest_read (parts : List RangeExportPart)
    (planned : ∀ part ∈ parts, Planned part)
    (clean : ∀ part ∈ parts, ∀ c ∈ part.filePath, c ≠ '\r' ∧ c ≠ '\n') :
    ∃ text, buildConcatManifest parts = some text ∧ Forall₂ Plays (readManifest text) parts := by
  have accepted : ¬(parts.any fun part => part.filePath.any fun c => c = '\r' ∨ c = '\n') = true := by
    simp only [any_eq_true, decide_eq_true_eq]
    rintro ⟨part, listed, c, inside, broken⟩
    rcases broken with same | same
    · exact (clean part listed c inside).1 same
    · exact (clean part listed c inside).2 same
  have whole : ∀ line ∈ "ffconcat version 1.0".toList :: parts.flatMap partLines ++ [[]],
      '\n' ∉ line := by
    intro line listed
    rcases mem_cons.mp listed with rfl | rest
    · decide
    · rcases mem_append.mp rest with inside | last
      · obtain ⟨part, present, line⟩ := mem_flatMap.mp inside
        exact partLines_line (planned part present) (clean part present) _ line
      · rw [mem_singleton.mp last]
        exact not_mem_nil
  refine ⟨_, if_neg accepted, ?_⟩
  obtain ⟨read, plays, lines⟩ := readLine_parts planned []
  have header : readLine [] "ffconcat version 1.0".toList = [] := rfl
  rw [readManifest, splitOn_intercalate '\n' whole (by simp), cons_append, foldl_cons, header,
    foldl_append, lines]
  exact plays

theorem readManifest_buildConcatManifest (parts : List RangeExportPart)
    (planned : ∀ part ∈ parts, Planned part)
    (clean : ∀ part ∈ parts, ∀ c ∈ part.filePath, c ≠ '\r' ∧ c ≠ '\n') :
    ∃ text, buildConcatManifest parts = some text ∧ Forall₂ Plays (readManifest text) parts :=
  manifest_read parts planned clean

/-- A path with a quote and a backslash, cut at both ends. -/
def quoted : RangeExportPart :=
  ⟨[], "/a'b\\ c.mp4".toList, 3 / 2, 4, 5 / 2, 0, 0, 5⟩

def uncut : RangeExportPart := ⟨[], "/ d.mp4".toList, 0, 5, 5, 5 / 2, 0, 5⟩

theorem quoted_read : ∃ text, buildConcatManifest [quoted, uncut] = some text ∧
    Forall₂ Plays (readManifest text) [quoted, uncut] := by
  apply readManifest_buildConcatManifest
  · intro part listed
    rcases mem_pair.mp listed with rfl | rfl
    · exact ⟨1500, 4000, 5000, by norm_num [quoted], by norm_num [quoted], by norm_num [quoted],
        by decide⟩
    · exact ⟨0, 5000, 5000, by norm_num [uncut], by norm_num [uncut], by norm_num [uncut],
        le_refl _⟩
  · simp [quoted, uncut]

/-- Every plan over paths without a line break, for which the code has no manifest, is read back. -/
theorem planRangeExport_read [JsString.Unicode] (localeCompare : Text → Text → Int)
    (input : PlanRangeExportInput) (plan : RangeExportPlan)
    (made : planRangeExport localeCompare input = .ok plan)
    (clean : ∀ part ∈ plan.parts, ∀ c ∈ part.filePath, c ≠ '\r' ∧ c ≠ '\n') :
    ∃ text, buildConcatManifest plan.parts = some text ∧
      Forall₂ Plays (readManifest text) plan.parts :=
  manifest_read plan.parts (planRangeExport_planned localeCompare input plan made) clean

end DracVms.RangeExport
