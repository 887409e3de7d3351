import DracVms.Library.JsString
import DracVms.Library.PosixShell

namespace DracVms.RtspUrl

open List

open PosixShell (Text plain inert)
open JsString (isBlank trimEnd trim notBlank_of_visible)

def decimal (n : Nat) : Text := Nat.toDigits 10 n

/-- A camera row that passed the create or the update validator. Only `IsIP` constrains what the
operator or the viewer may write; the three other texts are any strings. -/
structure CameraRow where
  id : Text
  ip : Text
  rtspPort : Nat
  username : Text
  password : Text
  rtspPath : Option Text
  channel : Option Int
  subtype : Option Int
  liveChannel : Option Int
  liveSubtype : Option Int
  recordingChannel : Option Int
  recordingSubtype : Option Int
  ip_written : ip.all (fun c => c.isAlphanum || c ∈ ['.', ':', '%', '-']) = true

structure Profile where
  channel : Nat
  subtype : Nat
deriving DecidableEq, Repr

/-- `Number(null)` is zero, which is below the first channel. -/
def normalizeChannel (value : Option Int) (fallback : Nat) : Nat :=
  match value with
  | none => fallback
  | some parsed => if parsed < 1 then fallback else parsed.toNat

/-- `Number(null)` is zero, which is a subtype of its own and not a missing one. -/
def normalizeSubtype (value : Option Int) (fallback : Nat) : Nat :=
  match value with
  | none => 0
  | some parsed => if parsed < 0 then fallback else parsed.toNat

def resolveLiveRtspProfile (camera : CameraRow) : Profile where
  channel := normalizeChannel camera.liveChannel (normalizeChannel camera.channel 1)
  subtype := normalizeSubtype camera.liveSubtype (normalizeSubtype camera.subtype 0)

def resolveRecordingRtspProfile (camera : CameraRow) : Profile where
  channel := normalizeChannel camera.recordingChannel (normalizeChannel camera.channel 1)
  subtype := normalizeSubtype camera.recordingSubtype (normalizeSubtype camera.subtype 0)

def resolveOriginalRtspProfile (camera : CameraRow) : Profile :=
  resolveRecordingRtspProfile camera

def resolveGridRtspProfile (camera : CameraRow) : Profile where
  channel := normalizeChannel camera.liveChannel (normalizeChannel camera.channel 1)
  subtype := 1

/-- A key of a camera path, compared without regard to ASCII case. -/
def matchKey : Text → Text → Option (Text × Text)
  | [], rest => some ([], rest)
  | _ :: _, [] => none
  | k :: key, c :: rest =>
    if c.toLower = k then (matchKey key rest).map fun found => (c :: found.1, found.2) else none

/-- The first place where an opening character, the key and an accepted run of digits stand
together: the run is replaced and the rest is kept. -/
def replaceDigitsAfter (opening : List Char) (key : Text) (accepted : Text → Text → Bool)
    (value : Text) : Text → Text
  | [] => []
  | c :: rest =>
    match if c ∈ opening then matchKey key rest else none with
    | some (found, after) =>
      let digits := after.takeWhile Char.isDigit
      let later := after.dropWhile Char.isDigit
      if accepted digits later then c :: (found ++ (value ++ later))
      else c :: replaceDigitsAfter opening key accepted value rest
    | none => c :: replaceDigitsAfter opening key accepted value rest

/-- `\d+` -/
def someDigits (digits _later : Text) : Bool := !digits.isEmpty

/-- `(\d+)(\d{2})(\b|\/|$)`: the whole run, at least three digits, not followed by a word. -/
def channelDigits (digits later : Text) : Bool :=
  3 ≤ digits.length && later.head?.all fun c => !(c.isAlphanum || c == '_')

/-- `(subtype + 1).toString().padStart(2, '0')` -/
def twoDigits (n : Nat) : Text :=
  if (decimal n).length < 2 then '0' :: decimal n else decimal n

def applyChannelSubtypeToPath (path : Text) (channel subtype : Nat) : Text :=
  let result := replaceDigitsAfter ['?', '&'] "channel=".toList someDigits (decimal channel) path
  let result := replaceDigitsAfter ['?', '&'] "subtype=".toList someDigits (decimal subtype) result
  replaceDigitsAfter ['/'] "streaming/channels/".toList channelDigits
    (decimal channel ++ twoDigits (subtype + 1)) result

/-- What decides about an address outside the repository's own text handling. -/
structure CameraNetwork where
  isIP : Text → Bool
  egressAllowed : Text → Bool

def normalizeIp (ip : Text) : Text :=
  if "::ffff:".toList.isPrefixOf ip then ip.drop 7 else ip

def assertCameraTargetAllowed (network : CameraNetwork) (ipRaw : Text) (port : Nat) :
    Option Text :=
  let ip := normalizeIp (trim ipRaw)
  if ip = [] ∨ network.isIP ip = false then none
  else if port < 1 ∨ 65535 < port then none
  else if network.egressAllowed ip then some ip
  else none

def isUnreserved (c : Char) : Bool :=
  c.isAlphanum || c ∈ ['-', '_', '.', '!', '~', '*', '\'', '(', ')']

def hexDigit (n : Nat) : Char :=
  if n < 10 then Char.ofNat (48 + n) else Char.ofNat (55 + n)

def percentByte (byte : UInt8) : Text :=
  ['%', hexDigit (byte.toNat / 16), hexDigit (byte.toNat % 16)]

def encodeURIComponent (text : Text) : Text :=
  text.flatMap fun c =>
    if isUnreserved c then [c] else (String.utf8EncodeChar c).flatMap percentByte

def authority (host : Text) : Text :=
  if ':' ∈ host then '[' :: host ++ [']'] else host

def rtspScheme : Text := "rtsp://".toList

def dahuaChannel : Text := "/cam/realmonitor?channel=".toList

def dahuaSubtype : Text := "&subtype=".toList

/-- The registered path, or the Dahua one when none is registered. -/
def configuredPath (rtspPath : Option Text) (profile : Profile) : Text :=
  if trim (rtspPath.getD []) = [] then
    dahuaChannel ++ decimal profile.channel ++ dahuaSubtype ++ decimal profile.subtype
  else rtspPath.getD []

def withLeadingSlash (path : Text) : Text :=
  if path.head? = some '/' then path else '/' :: path

/-- The path `buildRtspUrl` asks the camera for. -/
def requestPath (rtspPath : Option Text) (profile : Profile) : Text :=
  withLeadingSlash (applyChannelSubtypeToPath (configuredPath rtspPath profile)
    profile.channel profile.subtype)

def credentials (username password : Text) : Text :=
  encodeURIComponent username ++ ':' :: encodeURIComponent password

def buildRtspUrl (network : CameraNetwork) (camera : CameraRow) (profile : Profile) :
    Option Text :=
  (assertCameraTargetAllowed network camera.ip camera.rtspPort).map fun targetIp =>
    rtspScheme ++ (credentials camera.username camera.password ++ '@' :: (authority targetIp ++
      ':' :: (decimal camera.rtspPort ++ requestPath camera.rtspPath profile)))

variable (c : Char)

theorem plain_of_not_mark (quote : c ≠ '"') (backquote : c ≠ '`') (slash : c ≠ '\\')
    (dollar : c ≠ '$') : plain c = true := by
  simp only [plain, mem_cons, not_mem_nil, quote, backquote, slash, dollar, or_self,
    not_false_eq_true, decide_true]

/-- The four marks are neither letters nor digits. -/
theorem plain_of_alphanum (written : c.isAlphanum = true) : plain c = true := by
  apply plain_of_not_mark <;> rintro rfl <;> exact absurd written (by decide)

theorem plain_of_digit (digit : c.isDigit = true) : plain c = true := by
  apply plain_of_alphanum
  simp only [Char.isAlphanum, digit, Bool.or_true]

theorem decimal_digits (n : Nat) (c : Char) (member : c ∈ decimal n) : c.isDigit = true :=
  Nat.isDigit_of_mem_toDigits (by omega) (by omega) member

theorem decimal_plain (n : Nat) : (decimal n).all plain = true :=
  all_eq_true.mpr fun c member => plain_of_digit c (decimal_digits n c member)

theorem decimal_ne_nil (n : Nat) : decimal n ≠ [] := Nat.toDigits_ne_nil

theorem hexDigit_unreserved : ∀ n, n < 16 → isUnreserved (hexDigit n) = true := by
  decide

theorem percentByte_written (byte : UInt8) (c : Char) (member : c ∈ percentByte byte) :
    isUnreserved c = true ∨ c = '%' := by
  have bound : byte.toNat < 256 := byte.toNat_lt
  simp only [percentByte, mem_cons, not_mem_nil, or_false] at member
  rcases member with percent | high | low
  · exact Or.inr percent
  · rw [high]
    exact Or.inl (hexDigit_unreserved _ (by omega))
  · rw [low]
    exact Or.inl (hexDigit_unreserved _ (by omega))

variable (text : Text)

/-- Percent encoding writes only unreserved characters and percent signs. -/
theorem encodeURIComponent_written (c : Char) (member : c ∈ encodeURIComponent text) :
    isUnreserved c = true ∨ c = '%' := by
  obtain ⟨d, _, written⟩ := mem_flatMap.mp member
  split at written
  · rename_i kept
    rw [mem_singleton.mp written]
    exact Or.inl kept
  · obtain ⟨byte, _, inByte⟩ := mem_flatMap.mp written
    exact percentByte_written byte c inByte

theorem plain_of_unreserved (kept : isUnreserved c = true) : plain c = true := by
  apply plain_of_not_mark <;> rintro rfl <;> exact absurd kept (by decide)

theorem encodeURIComponent_plain : (encodeURIComponent text).all plain = true := by
  apply all_eq_true.mpr
  intro c member
  rcases encodeURIComponent_written text c member with kept | percent
  · exact plain_of_unreserved c kept
  · rw [percent]
    rfl

theorem credentials_delimited (username password : Text) (c : Char)
    (member : c ∈ credentials username password) : c ≠ '@' ∧ c ≠ '/' := by
  have encoded : ∀ text, c ∈ encodeURIComponent text → c ≠ '@' ∧ c ≠ '/' := by
    intro text inText
    rcases encodeURIComponent_written text c inText with kept | percent
    · constructor <;> rintro rfl <;> exact absurd kept (by decide)
    · subst percent
      decide
  rcases mem_append.mp member with inUser | rest
  · exact encoded username inUser
  · rcases mem_cons.mp rest with colon | inPassword
    · subst colon
      decide
    · exact encoded password inPassword

theorem credentials_plain (username password : Text) :
    (credentials username password).all plain = true := by
  simp only [credentials, all_append, all_cons, encodeURIComponent_plain, Bool.and_true,
    Bool.true_and]
  decide

theorem trimEnd_append (front back : Text) (kept : ∀ c ∈ front, isBlank c = false) :
    trimEnd (front ++ back) = front ++ trimEnd back := by
  have stops : front.reverse.dropWhile isBlank = front.reverse := by
    cases reversed : front.reverse with
    | nil => rfl
    | cons c rest =>
      have member : c ∈ front := by
        rw [← mem_reverse, reversed]
        exact mem_cons_self
      rw [dropWhile_cons_of_neg (by simp [kept c member])]
  rw [trimEnd, trimEnd, reverse_append, dropWhile_append]
  cases blank : (back.reverse.dropWhile isBlank).isEmpty with
  | true =>
    rw [if_pos rfl, stops, reverse_reverse, List.isEmpty_iff.mp blank, reverse_nil, append_nil]
  | false => rw [if_neg (by decide), reverse_append, reverse_reverse]

theorem trimEnd_append_cons (before : Text) (c : Char) (after : Text) (kept : isBlank c = false) :
    trimEnd (before ++ c :: after) = before ++ c :: trimEnd after := by
  induction before with
  | nil => exact trimEnd_append [c] after (by simpa using kept)
  | cons d rest ih =>
    have reversed : (rest ++ c :: after).reverse.dropWhile isBlank ≠ [] := by
      intro empty
      have all := dropWhile_eq_nil_iff.mp empty c (by simp)
      rw [kept] at all
      cases all
    rw [trimEnd] at ih ⊢
    rw [cons_append, reverse_cons, dropWhile_append, if_neg, reverse_append, ih]
    · rfl
    · simpa using reversed

/-- Two texts that a shell reads with the same success between double quotes, as they are and
after their last blanks are dropped. -/
structure Alike (first second : Text) : Prop where
  whole : inert first = inert second
  trimmed : inert (trimEnd first) = inert (trimEnd second)

theorem Alike.trans {first second third : Text} (left : Alike first second)
    (right : Alike second third) : Alike first third :=
  ⟨left.whole.trans right.whole, left.trimmed.trans right.trimmed⟩

/-- A character with no meaning for the shell and none for `trim`. -/
def isSolid (c : Char) : Bool := plain c && !isBlank c

theorem solid_of_digit (digit : c.isDigit = true) : isSolid c = true := by
  have safe := plain_of_digit c digit
  simp only [Char.isDigit, Bool.and_eq_true, decide_eq_true_eq, UInt32.le_iff_toNat_le] at digit
  have low : 48 ≤ c.toNat := digit.1
  have high : c.toNat ≤ 57 := digit.2
  rw [isSolid, safe, notBlank_of_visible c (by omega) (by omega)]
  rfl

theorem solid_of_toLower (solid : isSolid c.toLower = true) : isSolid c = true := by
  unfold Char.toLower at solid
  split at solid
  · rename_i upper
    have safe : plain c = true := by
      apply plain_of_alphanum
      simp only [Char.isAlphanum, Char.isAlpha, Char.isUpper, upper, and_self, decide_true,
        Bool.true_or]
    have low : 65 ≤ c.toNat := UInt32.le_iff_toNat_le.mp upper.1
    have high : c.toNat ≤ 90 := UInt32.le_iff_toNat_le.mp upper.2
    rw [isSolid, safe, notBlank_of_visible c (by omega) (by omega)]
    rfl
  · exact solid

theorem Alike.replace (before : Text) (c : Char) (old new after : Text) (solid : isSolid c = true)
    (oldSolid : ∀ d ∈ old, isSolid d = true) (newSolid : ∀ d ∈ new, isSolid d = true) :
    Alike (before ++ c :: (old ++ after)) (before ++ c :: (new ++ after)) := by
  have split : ∀ d, isSolid d = true → plain d = true ∧ isBlank d = false := by
    intro d known
    simpa only [isSolid, Bool.and_eq_true, Bool.not_eq_true'] using known
  have oldPlain : old.all plain = true :=
    all_eq_true.mpr fun d member => (split d (oldSolid d member)).1
  have newPlain : new.all plain = true :=
    all_eq_true.mpr fun d member => (split d (newSolid d member)).1
  have oldKept : ∀ d ∈ old, isBlank d = false := fun d member => (split d (oldSolid d member)).2
  have newKept : ∀ d ∈ new, isBlank d = false := fun d member => (split d (newSolid d member)).2
  constructor
  · exact PosixShell.inert_replace before c old new after (split c solid).1 oldPlain newPlain
  · rw [trimEnd_append_cons before c _ (split c solid).2,
      trimEnd_append_cons before c _ (split c solid).2, trimEnd_append old after oldKept,
      trimEnd_append new after newKept]
    exact PosixShell.inert_replace before c old new _ (split c solid).1 oldPlain newPlain

theorem matchKey_append (key text found rest : Text) (same : matchKey key text = some (found, rest)) :
    text = found ++ rest := by
  induction key generalizing text found with
  | nil =>
    cases same
    rfl
  | cons k key ih =>
    cases text with
    | nil => cases same
    | cons c more =>
      rw [matchKey] at same
      split at same
      · obtain ⟨⟨tail, left⟩, matched, pair⟩ := Option.map_eq_some_iff.mp same
        cases pair
        rw [ih more tail matched, cons_append]
      · cases same

theorem matchKey_solid (key text found rest : Text) (same : matchKey key text = some (found, rest))
    (keySolid : ∀ k ∈ key, isSolid k = true) : ∀ c ∈ found, isSolid c = true := by
  induction key generalizing text found with
  | nil =>
    cases same
    simp
  | cons k key ih =>
    cases text with
    | nil => cases same
    | cons c more =>
      rw [matchKey] at same
      split at same
      · rename_i lowered
        obtain ⟨⟨tail, left⟩, matched, pair⟩ := Option.map_eq_some_iff.mp same
        cases pair
        have later := ih more tail matched fun k member => keySolid k (mem_cons_of_mem _ member)
        have here : isSolid c = true := by
          apply solid_of_toLower
          rw [lowered]
          exact keySolid k mem_cons_self
        simp only [forall_mem_cons]
        exact ⟨here, later⟩
      · cases same

theorem replaceDigitsAfter_cases (opening : List Char) (key : Text)
    (accepted : Text → Text → Bool) (value path : Text)
    (keySolid : ∀ k ∈ key, isSolid k = true) (valueDigits : ∀ c ∈ value, c.isDigit = true) :
    replaceDigitsAfter opening key accepted value path = path ∨
      ∃ before c old new after, c ∈ opening ∧ (∀ d ∈ old, isSolid d = true) ∧
        (∀ d ∈ new, isSolid d = true) ∧ path = before ++ c :: (old ++ after) ∧
        replaceDigitsAfter opening key accepted value path = before ++ c :: (new ++ after) := by
  induction path with
  | nil => exact Or.inl rfl
  | cons c rest ih =>
    have skipped : replaceDigitsAfter opening key accepted value (c :: rest) =
        c :: replaceDigitsAfter opening key accepted value rest →
        replaceDigitsAfter opening key accepted value (c :: rest) = c :: rest ∨
        ∃ before d old new after, d ∈ opening ∧ (∀ d ∈ old, isSolid d = true) ∧
          (∀ d ∈ new, isSolid d = true) ∧ c :: rest = before ++ d :: (old ++ after) ∧
          replaceDigitsAfter opening key accepted value (c :: rest) =
            before ++ d :: (new ++ after) := by
      intro same
      rcases ih with unchanged | ⟨before, d, old, new, after, opens, oldSolid, newSolid, split, result⟩
      · exact Or.inl (by rw [same, unchanged])
      · exact Or.inr ⟨c :: before, d, old, new, after, opens, oldSolid, newSolid,
          by rw [split]; rfl, by rw [same, result]; rfl⟩
    rw [replaceDigitsAfter] at skipped ⊢
    by_cases opens : c ∈ opening
    · rw [if_pos opens] at skipped ⊢
      cases matched : matchKey key rest with
      | none =>
        rw [matched] at skipped
        exact skipped rfl
      | some pair =>
        obtain ⟨found, after⟩ := pair
        rw [matched] at skipped
        by_cases takes : accepted (after.takeWhile Char.isDigit) (after.dropWhile Char.isDigit) = true
        · refine Or.inr ⟨[], c, found ++ after.takeWhile Char.isDigit, found ++ value,
            after.dropWhile Char.isDigit, opens, ?_, ?_, ?_, ?_⟩
          · intro d member
            rcases mem_append.mp member with inKey | inRun
            · exact matchKey_solid key rest found after matched keySolid d inKey
            · exact solid_of_digit d (mem_takeWhile_imp inRun)
          · intro d member
            rcases mem_append.mp member with inKey | inValue
            · exact matchKey_solid key rest found after matched keySolid d inKey
            · exact solid_of_digit d (valueDigits d inValue)
          · rw [matchKey_append key rest found after matched, append_assoc,
              takeWhile_append_dropWhile, nil_append]
          · simp only [takes, ↓reduceIte, nil_append, append_assoc]
        · exact skipped (by simp only [takes, Bool.false_eq_true, ↓reduceIte])
    · rw [if_neg opens] at skipped ⊢
      exact skipped rfl

theorem replaceDigitsAfter_alike (opening : List Char) (key : Text) (accepted : Text → Text → Bool)
    (value path : Text) (openingSolid : ∀ c ∈ opening, isSolid c = true)
    (keySolid : ∀ k ∈ key, isSolid k = true) (valueDigits : ∀ c ∈ value, c.isDigit = true) :
    Alike (replaceDigitsAfter opening key accepted value path) path := by
  rcases replaceDigitsAfter_cases opening key accepted value path keySolid valueDigits with
    unchanged | ⟨before, c, old, new, after, opens, oldSolid, newSolid, split, result⟩
  · rw [unchanged]
    exact ⟨rfl, rfl⟩
  · rw [result, split]
    exact Alike.replace before c new old after (openingSolid c opens) newSolid oldSolid

theorem twoDigits_digits (n : Nat) (c : Char) (member : c ∈ twoDigits n) : c.isDigit = true := by
  unfold twoDigits at member
  split at member
  · rcases mem_cons.mp member with zero | digit
    · rw [zero]
      rfl
    · exact decimal_digits n c digit
  · exact decimal_digits n c member

theorem solid_of_all {text : Text} (all : text.all isSolid = true) : ∀ c ∈ text, isSolid c = true :=
  all_eq_true.mp all

/-- Choosing another profile in a path never adds or removes something active. -/
theorem applyChannelSubtypeToPath_alike (path : Text) (channel subtype : Nat) :
    Alike (applyChannelSubtypeToPath path channel subtype) path := by
  have hikvision : ∀ c ∈ decimal channel ++ twoDigits (subtype + 1), c.isDigit = true := by
    intro c member
    rcases mem_append.mp member with left | right
    · exact decimal_digits channel c left
    · exact twoDigits_digits _ c right
  refine Alike.trans (replaceDigitsAfter_alike _ _ _ _ _ (solid_of_all (by decide))
    (solid_of_all (by decide)) hikvision) ?_
  refine Alike.trans (replaceDigitsAfter_alike _ _ _ _ _ (solid_of_all (by decide))
    (solid_of_all (by decide)) (decimal_digits subtype)) ?_
  exact replaceDigitsAfter_alike _ _ _ _ _ (solid_of_all (by decide)) (solid_of_all (by decide))
    (decimal_digits channel)

theorem blank_of_trim_nil (empty : trim text = []) : ∀ c ∈ text, isBlank c = true := by
  have rest : ∀ c ∈ text.dropWhile isBlank, isBlank c = true := by
    intro c member
    have reversed := dropWhile_eq_nil_iff.mp (reverse_eq_nil_iff.mp empty)
    exact reversed c (mem_reverse.mpr member)
  have gone : text.dropWhile isBlank = [] := by
    cases left : text.dropWhile isBlank with
    | nil => rfl
    | cons c more =>
      have stopped := head_dropWhile_not isBlank (l := text) (by simp [left])
      have blank := rest c (by rw [left]; exact mem_cons_self)
      simp only [left, head_cons, blank] at stopped
      cases stopped
  exact dropWhile_eq_nil_iff.mp gone

theorem plain_of_blank (blank : isBlank c = true) : plain c = true := by
  apply plain_of_not_mark <;> rintro rfl <;> exact absurd blank (by decide)

theorem inert_of_plain (all : text.all plain = true) : inert text = true := by
  have safe := PosixShell.inert_plain_append text [] all
  rwa [append_nil] at safe

theorem trimEnd_sublist (c : Char) (member : c ∈ trimEnd text) : c ∈ text := by
  have kept := (dropWhile_sublist isBlank).mem (mem_reverse.mp member)
  exact mem_reverse.mp kept

theorem Alike.of_plain (first second : Text) (left : first.all plain = true)
    (right : second.all plain = true) : Alike first second := by
  have trimmed : ∀ text : Text, text.all plain = true → (trimEnd text).all plain = true := by
    intro text all
    exact all_eq_true.mpr fun c member =>
      all_eq_true.mp all c (trimEnd_sublist text c member)
  constructor
  · rw [inert_of_plain first left, inert_of_plain second right]
  · rw [inert_of_plain _ (trimmed first left), inert_of_plain _ (trimmed second right)]

theorem withLeadingSlash_alike (path : Text) : Alike (withLeadingSlash path) path := by
  unfold withLeadingSlash
  split
  · exact ⟨rfl, rfl⟩
  · have prefixed := trimEnd_append ['/'] path (forall_mem_singleton.mpr (by decide))
    rw [singleton_append] at prefixed
    constructor
    · exact PosixShell.inert_plain_append ['/'] path (by decide)
    · rw [prefixed]
      exact PosixShell.inert_plain_append ['/'] _ (by decide)

variable (rtspPath : Option Text)

theorem configuredPath_alike (profile : Profile) :
    Alike (configuredPath rtspPath profile) (rtspPath.getD []) := by
  unfold configuredPath
  split
  · rename_i blank
    apply Alike.of_plain
    · have channel : dahuaChannel.all plain = true := by decide
      have subtype : dahuaSubtype.all plain = true := by decide
      simp only [all_append, decimal_plain, channel, subtype, Bool.and_self]
    · exact all_eq_true.mpr fun c member =>
        plain_of_blank c (blank_of_trim_nil _ blank c member)
  · exact ⟨rfl, rfl⟩

theorem requestPath_alike (profile : Profile) :
    Alike (requestPath rtspPath profile) (rtspPath.getD []) :=
  (withLeadingSlash_alike _).trans
    ((applyChannelSubtypeToPath_alike _ _ _).trans (configuredPath_alike rtspPath profile))

theorem requestPath_starts (profile : Profile) :
    ∃ rest, requestPath rtspPath profile = '/' :: rest := by
  unfold requestPath withLeadingSlash
  split
  · rename_i slash
    exact ⟨_, List.eq_cons_of_mem_head? slash⟩
  · exact ⟨_, rfl⟩

theorem address_plain (camera : CameraRow) : camera.ip.all plain = true := by
  apply all_eq_true.mpr
  intro c member
  have written := all_eq_true.mp camera.ip_written c member
  rcases (Bool.or_eq_true _ _).mp written with letter | punctuation
  · exact plain_of_alphanum c letter
  · simp only [mem_cons, not_mem_nil, or_false, decide_eq_true_eq] at punctuation
    rcases punctuation with h | h | h | h <;> subst h <;> decide

theorem assertCameraTargetAllowed_plain (network : CameraNetwork) (camera : CameraRow) (ip : Text)
    (allowed : assertCameraTargetAllowed network camera.ip camera.rtspPort = some ip) :
    ip.all plain = true := by
  have fromRow : ∀ c ∈ normalizeIp (trim camera.ip), c ∈ camera.ip := by
    intro c member
    have inTrimmed : c ∈ trim camera.ip := by
      unfold normalizeIp at member
      split at member
      · exact mem_of_mem_drop member
      · exact member
    exact (dropWhile_sublist isBlank).mem (trimEnd_sublist _ c inTrimmed)
  have result : ip = normalizeIp (trim camera.ip) := by
    simp only [assertCameraTargetAllowed] at allowed
    split at allowed
    · cases allowed
    · split at allowed
      · cases allowed
      · split at allowed
        · exact (Option.some.inj allowed).symm
        · cases allowed
  rw [result]
  exact all_eq_true.mpr fun c member =>
    all_eq_true.mp (address_plain camera) c (fromRow c member)

end DracVms.RtspUrl
