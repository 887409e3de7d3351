import DracVms.Library.JsString
import DracVms.Library.Radix

namespace DracVms.RtmpIngest

open List

open Json (Text)
open JsString (trim toLowerCase)
open Radix (Alphabet)

/-! The keys that the system makes. -/

def hexadecimal : Alphabet where
  symbols := "0123456789abcdef".toList
  distinct := by decide
  many := by decide

def base64url : Alphabet where
  symbols := "ABCDEFGHIJKLMNOPQRSTUVWXYZabcdefghijklmnopqrstuvwxyz0123456789-_".toList
  distinct := by decide
  many := by decide

def isValidIngestKey (key : Text) : Bool := hexadecimal.Spells 32 key

/-- The 128 bits of the key in 22 symbols: four bits at the end are zero. -/
def encodeCompactIngestKey (key : Text) : Option Text :=
  if isValidIngestKey key then some (base64url.write 22 (hexadecimal.valueOf key * 16)) else none

/-- The decoder drops the four bits that are left; the bytes must encode to the same word. -/
def decodeCompactIngestKey (key : Text) : Option Text :=
  if base64url.Spells 22 key then
    let bytes := base64url.valueOf key / 16
    if base64url.write 22 (bytes * 16) = key then some (hexadecimal.write 32 bytes) else none
  else none

def rtmpIngestApp : Text := "drac/".toList

def rtmpIngestCompactApp : Text := "d/".toList

def ingestPathName (key : Text) : Text := rtmpIngestApp ++ key

/-- Without an answer the source throws. -/
def compactIngestPathName (key : Text) : Option Text :=
  (encodeCompactIngestKey key).map fun compact => rtmpIngestCompactApp ++ compact

def ingestPathNames (key : Text) : List Text :=
  (compactIngestPathName key).toList ++ [ingestPathName key]

/-- What follows the start of a path. -/
def after (start path : Text) : Option Text :=
  if start.isPrefixOf path then some (path.drop start.length) else none

def ingestKeyFromPathName (pathName : Text) : Option Text :=
  match (after rtmpIngestApp pathName).filter isValidIngestKey with
  | some key => some key
  | none => (after rtmpIngestCompactApp pathName).bind decodeCompactIngestKey

theorem after_eq_some (start path rest : Text) :
    after start path = some rest ↔ path = start ++ rest := by
  unfold after
  constructor
  · intro found
    split at found
    · rename_i starts
      cases found
      obtain ⟨more, rfl⟩ := isPrefixOf_iff_prefix.mp starts
      rw [drop_left]
    · cases found
  · rintro rfl
    have starts : start.isPrefixOf (start ++ rest) = true :=
      isPrefixOf_iff_prefix.mpr (prefix_append _ _)
    rw [if_pos starts, drop_left]

theorem valid_iff (key : Text) : isValidIngestKey key = true ↔ hexadecimal.Spells 32 key :=
  decide_eq_true_iff

theorem key_bits : hexadecimal.base ^ 32 * 16 = base64url.base ^ 22 := by decide +kernel

theorem key_small {key : Text} (valid : isValidIngestKey key = true) :
    hexadecimal.valueOf key * 16 < base64url.base ^ 22 := by
  have below := Alphabet.valueOf_lt ((valid_iff key).mp valid)
  have bits := key_bits
  omega

theorem encodeCompact_spells {key compact : Text}
    (encoded : encodeCompactIngestKey key = some compact) : base64url.Spells 22 compact := by
  unfold encodeCompactIngestKey at encoded
  split at encoded
  · rename_i valid
    cases encoded
    exact Alphabet.write_spells (key_small valid)
  · cases encoded

/-- Only a word whose last four bits are zero is what its bytes encode to. -/
theorem canonical_iff {key : Text} (spells : base64url.Spells 22 key) :
    base64url.write 22 (base64url.valueOf key / 16 * 16) = key ↔
      base64url.valueOf key / 16 * 16 = base64url.valueOf key := by
  have below := Alphabet.valueOf_lt spells
  have smaller : base64url.valueOf key / 16 * 16 < base64url.base ^ 22 := by omega
  constructor
  · intro same
    calc
      _ = base64url.valueOf (base64url.write 22 (base64url.valueOf key / 16 * 16)) :=
        (Alphabet.valueOf_write smaller).symm
      _ = base64url.valueOf key := by rw [same]
  · intro whole
    rw [whole]
    exact Alphabet.write_valueOf spells

theorem decodeCompact_iff (key compact : Text) :
    decodeCompactIngestKey compact = some key ↔ encodeCompactIngestKey key = some compact := by
  constructor
  · intro decoded
    unfold decodeCompactIngestKey at decoded
    split at decoded
    · rename_i spells
      simp only at decoded
      split at decoded
      · rename_i canonical
        cases decoded
        have whole := (canonical_iff spells).mp canonical
        have below := Alphabet.valueOf_lt spells
        rw [← key_bits] at below
        have small : base64url.valueOf compact / 16 < hexadecimal.base ^ 32 := by omega
        have valid := (valid_iff _).mpr (Alphabet.write_spells small)
        rw [encodeCompactIngestKey, if_pos valid, Alphabet.valueOf_write small, whole,
          Alphabet.write_valueOf spells]
      · cases decoded
    · cases decoded
  · intro encoded
    have spells := encodeCompact_spells encoded
    unfold encodeCompactIngestKey at encoded
    split at encoded
    · rename_i valid
      have same : base64url.valueOf compact = hexadecimal.valueOf key * 16 := by
        cases encoded
        exact Alphabet.valueOf_write (key_small valid)
      have half : base64url.valueOf compact / 16 = hexadecimal.valueOf key := by omega
      have canonical := (canonical_iff spells).mpr (by omega)
      rw [decodeCompactIngestKey, if_pos spells]
      simp only [canonical, if_true]
      rw [half, Alphabet.write_valueOf ((valid_iff key).mp valid)]
    · cases encoded

theorem apps_apart {key rest : Text} (valid : isValidIngestKey key = true) :
    ingestPathName key ≠ rtmpIngestCompactApp ++ rest := by
  intro same
  have second := congrArg (fun path => path[1]?) same
  cases key with
  | nil => exact absurd valid (by decide)
  | cons c key => exact absurd second (by simp [ingestPathName, rtmpIngestApp, rtmpIngestCompactApp])

theorem ingestKeyFromPathName_iff (path key : Text) : ingestKeyFromPathName path = some key ↔
      isValidIngestKey key = true ∧ path ∈ ingestPathNames key := by
  have encodes : ∀ compact, encodeCompactIngestKey key = some compact →
      isValidIngestKey key = true := by
    intro compact encoded
    unfold encodeCompactIngestKey at encoded
    split at encoded
    · assumption
    · cases encoded
  unfold ingestKeyFromPathName
  cases named : (after rtmpIngestApp path).filter isValidIngestKey with
  | some other =>
    obtain ⟨found, valid⟩ := Option.filter_eq_some_iff.mp named
    have here := (after_eq_some _ _ _).mp found
    constructor
    · intro same
      cases same
      refine ⟨valid, mem_append_right _ (mem_singleton.mpr here)⟩
    · rintro ⟨-, listed⟩
      rcases mem_append.mp listed with compact | canonical
      · obtain ⟨word, -, spelled⟩ := Option.map_eq_some_iff.mp (Option.mem_toList.mp compact)
        exact absurd (here.symm.trans spelled.symm) (apps_apart valid)
      · have same : rtmpIngestApp ++ other = rtmpIngestApp ++ key :=
          here.symm.trans (mem_singleton.mp canonical)
        rw [append_cancel_left same]
  | none =>
    have uncanonical : isValidIngestKey key = true → path ≠ ingestPathName key := by
      intro valid same
      have found : after rtmpIngestApp path = some key := (after_eq_some _ _ _).mpr same
      rw [found, Option.filter_some, if_pos valid] at named
      cases named
    constructor
    · intro found
      obtain ⟨word, tail, decoded⟩ := Option.bind_eq_some_iff.mp found
      have encoded := (decodeCompact_iff key word).mp decoded
      refine ⟨encodes word encoded, mem_append_left _ (Option.mem_toList.mpr ?_)⟩
      rw [compactIngestPathName, encoded, (after_eq_some _ _ _).mp tail]
      rfl
    · rintro ⟨valid, listed⟩
      rcases mem_append.mp listed with compact | canonical
      · obtain ⟨word, encoded, spelled⟩ := Option.map_eq_some_iff.mp (Option.mem_toList.mp compact)
        have tail : after rtmpIngestCompactApp path = some word :=
          (after_eq_some _ _ _).mpr spelled.symm
        show (after rtmpIngestCompactApp path).bind decodeCompactIngestKey = some key
        rw [tail, Option.bind_some, decodeCompact_iff]
        exact encoded
      · exact absurd (mem_singleton.mp canonical) (uncanonical valid)

/-! The paths that the equipment brings. -/

def maxIngestPath : ℕ := 128

/-- The parts between the slashes. -/
def segments : Text → List Text
  | [] => [[]]
  | c :: rest =>
    if c = '/' then [] :: segments rest
    else match segments rest with
      | [] => [[c]]
      | first :: others => (c :: first) :: others

def isPathChar (c : Char) : Bool :=
  ('A' ≤ c && c ≤ 'Z') || ('a' ≤ c && c ≤ 'z') || ('0' ≤ c && c ≤ '9') || c ∈ ['.', '_', '-']

def isSegment (text : Text) : Bool :=
  text ≠ [] && text.all isPathChar && text ∉ [".".toList, "..".toList]

def deliveryStart : Text := "cam_".toList

theorem delivery_carries_nothing {path : Text} (delivery : deliveryStart <+: path) :
    ingestKeyFromPathName path = none := by
  obtain ⟨rest, rfl⟩ := delivery
  cases carried : ingestKeyFromPathName (deliveryStart ++ rest) with
  | none => rfl
  | some key =>
    have listed := ((ingestKeyFromPathName_iff _ key).mp carried).2
    rcases mem_append.mp listed with compact | canonical
    · obtain ⟨word, -, spelled⟩ := Option.map_eq_some_iff.mp (Option.mem_toList.mp compact)
      have first : some 'd' = some 'c' := congrArg List.head? spelled
      exact absurd first (by decide)
    · have spelled := mem_singleton.mp canonical
      have first : some 'c' = some 'd' := congrArg List.head? spelled
      exact absurd first (by decide)

/-- A key and its two names tell each other; no delivery path names a key. -/
theorem ingest_names_tell (path key : Text) :
    (isValidIngestKey key = true → ∃ compact, encodeCompactIngestKey key = some compact ∧
      ingestPathNames key = [rtmpIngestCompactApp ++ compact, rtmpIngestApp ++ key] ∧
      ∀ name ∈ ingestPathNames key, ingestKeyFromPathName name = some key) ∧
    (ingestKeyFromPathName path = some key →
      isValidIngestKey key = true ∧ path ∈ ingestPathNames key) ∧
    (deliveryStart <+: path → ingestKeyFromPathName path = none) := by
  refine ⟨?_, (ingestKeyFromPathName_iff path key).mp, delivery_carries_nothing⟩
  intro valid
  refine ⟨_, if_pos valid, ?_, ?_⟩
  · rw [ingestPathNames, compactIngestPathName, encodeCompactIngestKey, if_pos valid]
    rfl
  · intro name listed
    exact (ingestKeyFromPathName_iff name key).mpr ⟨valid, listed⟩

theorem zeroKey_names : ingestKeyFromPathName (rtmpIngestApp ++ List.replicate 32 '0') =
      some (List.replicate 32 '0') := by
  obtain ⟨compact, -, names, told⟩ :=
    (ingest_names_tell [] (List.replicate 32 '0')).1 (by decide +kernel)
  apply told
  rw [names]
  exact mem_cons_of_mem _ mem_cons_self

def isAcceptableIngestPath (path : Text) : Bool :=
  let limpo := trim path
  limpo ≠ [] && limpo.length ≤ maxIngestPath && (segments limpo).all isSegment &&
    !deliveryStart.isPrefixOf (toLowerCase limpo)

def normalizeIngestPath (path : Text) : Text := trim path

/-! The profiles of one piece of equipment. -/

def decimal : Alphabet where
  symbols := "0123456789".toList
  distinct := by decide
  many := by decide

/-- A number as it is printed. -/
def decimalOf (n : ℕ) : Text :=
  if n = 0 then ['0'] else ((Nat.digits 10 n).map decimal.symbol).reverse

structure VendorProfilePath where
  stem : Text
  channel : ℕ
  profile : ℕ
  suffix : Text

def maxVendorProfileIndex : ℕ := 7

def maxSafeInteger : ℕ := 9007199254740991

def streamStart : Text := "livestream_".toList

def isLetter (c : Char) : Bool := ('A' ≤ c && c ≤ 'Z') || ('a' ≤ c && c ≤ 'z')

def isDigit (c : Char) : Bool := c ∈ decimal.symbols

def isLineTerminator (c : Char) : Bool := c.val ∈ [10, 13, 0x2028, 0x2029]

/-- A folder, and in it a name that goes on after `liveStream_`, in capitals or not. -/
def isStem (stem : Text) : Bool :=
  let folder := stem.rdropWhile (· ≠ '/')
  let name := stem.rtakeWhile (· ≠ '/')
  folder ≠ [] && !folder.any isLineTerminator && toLowerCase (name.take 11) = streamStart &&
    11 < name.length && (name.drop 11).all isPathChar

def beforeUnderscore (text : Text) : Option Text :=
  if text.getLast? = some '_' then some text.dropLast else none

/-- The letters and the digits at the end of a path can be read in one way only. -/
def parseVendorProfilePath (path : Text) : Option VendorProfilePath := do
  let text := normalizeIngestPath path
  let suffix := text.rtakeWhile isLetter
  let numbered := text.rdropWhile isLetter
  let profile := numbered.rtakeWhile isDigit
  let channelled ← beforeUnderscore (numbered.rdropWhile isDigit)
  let channel := channelled.rtakeWhile isDigit
  let stem ← beforeUnderscore (channelled.rdropWhile isDigit)
  if isStem stem ∧ channel ≠ [] ∧ profile ≠ [] ∧ decimal.valueOf channel ≤ maxSafeInteger ∧
      decimal.valueOf profile ≤ maxVendorProfileIndex then
    some ⟨stem, decimal.valueOf channel, decimal.valueOf profile, suffix⟩
  else none

def VendorProfilePath.path (parsed : VendorProfilePath) (profile : ℕ) : Text :=
  parsed.stem ++ '_' :: (decimalOf parsed.channel ++ '_' :: (decimalOf profile ++ parsed.suffix))

def VendorProfilePath.indexes (parsed : VendorProfilePath) : List ℕ :=
  if parsed.profile ∈ [0, 1] then [0, 1] else [0, 1, parsed.profile]

def ingestProfilePathCandidates (path : Text) : List Text :=
  match parseVendorProfilePath (normalizeIngestPath path) with
  | none => [normalizeIngestPath path]
  | some parsed => parsed.indexes.map parsed.path

example : ingestProfilePathCandidates "live/liveStream_H3ZL_0_2C".toList =
    ["live/liveStream_H3ZL_0_0C".toList, "live/liveStream_H3ZL_0_1C".toList,
      "live/liveStream_H3ZL_0_2C".toList] := by decide +kernel

/-! The origin of a camera. -/

def sourceModePull : Text := "rtsp_pull".toList

def sourceModePush : Text := "rtmp_push".toList

def isPushSourced (sourceMode : Text) : Bool := toLowerCase (trim sourceMode) = sourceModePush

end DracVms.RtmpIngest
