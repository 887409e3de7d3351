import DracVms.CameraStream.MemoriaDoMosaico
import DracVms.Common.SensitiveTextScan

namespace DracVms.RtspUrl

open List

open Json (Text)
open JsString (isBlank trimEnd trim notBlank_of_visible)
open JsReplace (replaceAll lastOf)
open SensitiveText (isWord isUserChar isPasswordChar Known authorityMatcher redactSensitiveText
  sanitizeRtspUrl)
open MemoriaDoMosaico (semSegredo comSegredo)

/-! Encoded names. -/

theorem unreserved_visible {c : Char} (kept : isUnreserved c = true) :
    33 ≤ c.toNat ∧ c.toNat ≤ 126 := by
  unfold isUnreserved at kept
  rw [Bool.or_eq_true] at kept
  rcases kept with word | mark
  · simp only [Char.isAlphanum, Char.isAlpha, Char.isUpper, Char.isLower, Char.isDigit,
      Bool.or_eq_true, Bool.and_eq_true, decide_eq_true_eq, UInt32.le_iff_toNat_le] at word
    change ((65 ≤ c.toNat ∧ c.toNat ≤ 90) ∨ (97 ≤ c.toNat ∧ c.toNat ≤ 122)) ∨
      (48 ≤ c.toNat ∧ c.toNat ≤ 57) at word
    omega
  · rw [decide_eq_true_eq] at mark
    simp only [mem_cons, not_mem_nil, or_false] at mark
    rcases mark with rfl | rfl | rfl | rfl | rfl | rfl | rfl | rfl | rfl <;> decide

theorem encoded_visible {text : Text} {c : Char} (member : c ∈ encodeURIComponent text) :
    isBlank c = false ∧ c ≠ '/' ∧ c ≠ '@' ∧ c ≠ ':' := by
  rcases encodeURIComponent_written text c member with kept | percent
  · have visible := unreserved_visible kept
    refine ⟨notBlank_of_visible c visible.1 visible.2, ?_, ?_, ?_⟩ <;> rintro rfl <;>
      exact absurd kept (by decide)
  · subst percent
    decide

variable (text : Text)

theorem encoded_user : ∀ c ∈ encodeURIComponent text, isUserChar c = true := by
  intro c member
  have visible := encoded_visible member
  simp [isUserChar, visible]

theorem encoded_password : ∀ c ∈ encodeURIComponent text, isPasswordChar c = true := by
  intro c member
  have visible := encoded_visible member
  simp [isPasswordChar, visible]

theorem encoded_append (first second : Text) :
    encodeURIComponent (first ++ second) = encodeURIComponent first ++ encodeURIComponent second :=
  flatMap_append

theorem encoded_eq_nil {text : Text} (empty : encodeURIComponent text = []) : text = [] := by
  cases text with
  | nil => rfl
  | cons c text =>
    have here := flatMap_eq_nil_iff.mp empty c mem_cons_self
    split at here
    · cases here
    · have bytes := flatMap_eq_nil_iff.mp here
      have some_ : String.utf8EncodeChar c ≠ [] := by
        have size := String.length_utf8EncodeChar c
        have width := Char.utf8Size_pos c
        intro none_
        rw [none_, length_nil] at size
        omega
      obtain ⟨byte, inside⟩ := exists_mem_of_ne_nil _ some_
      exact absurd (bytes byte inside) (by simp [percentByte])

theorem encoded_middle {first middle last : Text}
    (same : encodeURIComponent middle = encodeURIComponent (first ++ middle ++ last)) :
    first = [] ∧ last = [] := by
  rw [encoded_append, encoded_append] at same
  have sizes := congrArg List.length same
  rw [length_append, length_append] at sizes
  constructor
  all_goals exact encoded_eq_nil (length_eq_zero_iff.mp (by omega))

theorem trim_middle : ∃ first last, text = first ++ trim text ++ last := by
  obtain ⟨first, last, split, _⟩ := JsString.trim_split text
  exact ⟨first, last, by rw [append_assoc, ← split]⟩

theorem encoded_trim_iff :
    encodeURIComponent (trim text) = encodeURIComponent text ↔ trim text = text := by
  constructor
  · intro same
    obtain ⟨first, last, split⟩ := trim_middle text
    have both := same
    nth_rewrite 2 [split] at both
    obtain ⟨rfl, rfl⟩ := encoded_middle both
    rw [nil_append, append_nil] at split
    exact split.symm
  · intro same
    rw [same]

/-! The end of the path. -/

def endsBlank (text : Text) : Bool := text.getLast?.any isBlank

theorem trimEnd_eq_iff : trimEnd text = text ↔ endsBlank text = false := by
  rcases eq_nil_or_concat text with rfl | ⟨front, last, rfl⟩
  · exact ⟨fun _ => rfl, fun _ => rfl⟩
  · rw [concat_eq_append]
    have final : endsBlank (front ++ [last]) = isBlank last := by simp [endsBlank]
    rw [final]
    cases blank : isBlank last with
    | true =>
      have cut : trimEnd (front ++ [last]) = trimEnd front := by
        simp [trimEnd, blank]
      have shorter := (dropWhile_suffix isBlank (l := front.reverse)).length_le
      refine ⟨fun same => ?_, by simp⟩
      rw [cut] at same
      have sizes := congrArg List.length same
      simp only [trimEnd, length_reverse, length_append, length_singleton] at sizes shorter
      omega
    | false =>
      refine ⟨fun _ => rfl, fun _ => ?_⟩
      exact trimEnd_append_cons front last [] blank

theorem endsBlank_append (front : Text) {back : Text} (some_ : back ≠ []) :
    endsBlank (front ++ back) = endsBlank back := by
  obtain ⟨last, final⟩ := Option.isSome_iff_exists.mp (List.getLast?_isSome.mpr some_)
  simp [endsBlank, List.getLast?_append, final]

theorem endsBlank_solid {text : Text} (solid : ∀ c ∈ text, isBlank c = false) :
    endsBlank text = false := by
  unfold endsBlank
  cases last : text.getLast? with
  | none => rfl
  | some c => exact solid c (List.mem_of_getLast? last)

theorem notBlank_of_isSolid {c : Char} (solid : isSolid c = true) : isBlank c = false := by
  simp only [isSolid, Bool.and_eq_true, Bool.not_eq_true'] at solid
  exact solid.2

theorem replaceDigitsAfter_endsBlank (opening : List Char) (key : Text)
    (accepted : Text → Text → Bool) (value path : Text)
    (openingSolid : ∀ c ∈ opening, isSolid c = true) (keySolid : ∀ k ∈ key, isSolid k = true)
    (valueDigits : ∀ c ∈ value, c.isDigit = true) :
    endsBlank (replaceDigitsAfter opening key accepted value path) = endsBlank path := by
  rcases replaceDigitsAfter_cases opening key accepted value path keySolid valueDigits with
    unchanged | ⟨before, c, old, new, after, opens, oldSolid, newSolid, split, result⟩
  · rw [unchanged]
  · rw [result, split, endsBlank_append _ (cons_ne_nil _ _), endsBlank_append _ (cons_ne_nil _ _)]
    rcases after with _ | ⟨d, after⟩
    · have solid : ∀ text : Text, (∀ d ∈ text, isSolid d = true) →
          endsBlank (c :: (text ++ [])) = false := by
        intro text inside
        rw [append_nil]
        apply endsBlank_solid
        intro d member
        rcases mem_cons.mp member with rfl | later
        · exact notBlank_of_isSolid (openingSolid _ opens)
        · exact notBlank_of_isSolid (inside d later)
      rw [solid new newSolid, solid old oldSolid]
    · rw [← cons_append, ← cons_append, endsBlank_append _ (cons_ne_nil _ _),
        endsBlank_append _ (cons_ne_nil _ _)]

theorem applyChannelSubtypeToPath_endsBlank (path : Text) (channel subtype : Nat) :
    endsBlank (applyChannelSubtypeToPath path channel subtype) = endsBlank path := by
  have hikvision : ∀ c ∈ decimal channel ++ twoDigits (subtype + 1), c.isDigit = true := by
    intro c member
    rcases mem_append.mp member with left | right
    · exact decimal_digits channel c left
    · exact twoDigits_digits _ c right
  unfold applyChannelSubtypeToPath
  rw [replaceDigitsAfter_endsBlank _ _ _ _ _ (solid_of_all (by decide)) (solid_of_all (by decide))
      hikvision,
    replaceDigitsAfter_endsBlank _ _ _ _ _ (solid_of_all (by decide)) (solid_of_all (by decide))
      (decimal_digits subtype),
    replaceDigitsAfter_endsBlank _ _ _ _ _ (solid_of_all (by decide)) (solid_of_all (by decide))
      (decimal_digits channel)]

theorem decimal_endsBlank (n : Nat) : endsBlank (decimal n) = false :=
  endsBlank_solid fun c member => notBlank_of_isSolid (solid_of_digit c (decimal_digits n c member))

theorem requestPath_ne_nil (rtspPath : Option Text) (profile : Profile) :
    requestPath rtspPath profile ≠ [] := by
  unfold requestPath withLeadingSlash
  split
  · rename_i slash
    intro empty
    rw [empty] at slash
    cases slash
  · exact cons_ne_nil _ _

theorem requestPath_endsBlank (rtspPath : Option Text) (profile : Profile) :
    endsBlank (requestPath rtspPath profile) = false ↔
      trim (rtspPath.getD []) = [] ∨ trimEnd (rtspPath.getD []) = rtspPath.getD [] := by
  have slashed : ∀ path, endsBlank (withLeadingSlash path) = endsBlank path := by
    intro path
    unfold withLeadingSlash
    split
    · rfl
    · rcases path with _ | ⟨c, path⟩
      · rfl
      · exact endsBlank_append ['/'] (cons_ne_nil _ _)
  rw [requestPath, slashed, applyChannelSubtypeToPath_endsBlank, trimEnd_eq_iff, configuredPath]
  split
  · rename_i blank
    rw [endsBlank_append _ (decimal_ne_nil _), decimal_endsBlank]
    exact ⟨fun _ => Or.inl blank, fun _ => rfl⟩
  · rename_i written
    exact ⟨Or.inr, fun either => either.resolve_left written⟩

/-! The URL of a camera, apart from its credentials. -/

def hostAndPath (camera : CameraRow) (profile : Profile) (targetIp : Text) : Text :=
  authority targetIp ++ ':' :: (decimal camera.rtspPort ++ requestPath camera.rtspPath profile)

theorem hostAndPath_trimEnd_iff (camera : CameraRow) (profile : Profile) (targetIp : Text) :
    trimEnd (hostAndPath camera profile targetIp) = hostAndPath camera profile targetIp ↔
      trim (camera.rtspPath.getD []) = [] ∨
        trimEnd (camera.rtspPath.getD []) = camera.rtspPath.getD [] := by
  have request := requestPath_ne_nil camera.rtspPath profile
  have some_ : decimal camera.rtspPort ++ requestPath camera.rtspPath profile ≠ [] := by
    simp [request]
  rw [trimEnd_eq_iff, ← requestPath_endsBlank camera.rtspPath profile, hostAndPath,
    endsBlank_append _ (cons_ne_nil _ _), ← singleton_append,
    endsBlank_append _ some_, endsBlank_append _ request]

/-- The camera with other credentials. -/
def CameraRow.withCredentials (camera : CameraRow) (username password : Text) : CameraRow :=
  { camera with username, password }

variable {targetIp : Text}

theorem buildRtspUrl_withCredentials {network : CameraNetwork} {camera : CameraRow}
    {profile : Profile}
    (accepted : assertCameraTargetAllowed network camera.ip camera.rtspPort = some targetIp)
    (username password : Text) :
    buildRtspUrl network (camera.withCredentials username password) profile =
      some ("rtsp://".toList ++ (credentials username password ++ '@' ::
        hostAndPath camera profile targetIp)) := by
  have same : assertCameraTargetAllowed network (camera.withCredentials username password).ip
      (camera.withCredentials username password).rtspPort = some targetIp := accepted
  rw [buildRtspUrl, same]
  rfl

theorem credentials_flat (username password : Text) : '/' ∉ credentials username password :=
  fun inside => (credentials_delimited username password '/' inside).2 rfl

/-! Texts around the URL. -/

theorem known_schemes : Known SensitiveText.schemes := fun _ listed => listed

theorem known_rtsp : Known ["rtsp".toList] := by
  intro scheme listed
  rw [mem_singleton.mp listed]
  decide

theorem around (before secret rest after : Text) :
    before ++ ("rtsp://".toList ++ (secret ++ '@' :: rest)) ++ after =
      before ++ ("rtsp://".toList ++ (secret ++ '@' :: (rest ++ after))) := by
  simp

section Texts

variable {before : Text} {username : Text} (rest : Text)

theorem redactSensitiveText_hides (some_ : username ≠ [])
    (bounded : before.getLast?.any isWord = false) {password : Text} (secret : password ≠ []) :
    redactSensitiveText
        (before ++ ("rtsp://".toList ++ (credentials username password ++ '@' :: rest))) =
      replaceAll SensitiveText.sensitiveQueryValue 0 none
        (replaceAll SensitiveText.authorityWithRedactedCredentials 0 none
          (replaceAll SensitiveText.urlWithCredentials 0 none before ++
            ("rtsp://".toList ++ SensitiveText.redacted ++ ['@'] ++
              replaceAll SensitiveText.urlWithCredentials 0 (some '@') rest))) := by
  have free : (true && (lastOf none before).any isWord) = false := by
    rw [JsReplace.lastOf_eq, Option.or_none, Bool.true_and, bounded]
  have hidden := SensitiveText.text_hidden rest known_schemes (by decide) free
    (fun empty => some_ (encoded_eq_nil empty)) (encoded_user username)
    (fun empty => secret (encoded_eq_nil empty)) (encoded_password password)
  unfold redactSensitiveText credentials SensitiveText.urlWithCredentials
  rw [hidden]

theorem sanitizeRtspUrl_hides (some_ : username ≠ []) {password : Text} (secret : password ≠ []) :
    sanitizeRtspUrl
        (before ++ ("rtsp://".toList ++ (credentials username password ++ '@' :: rest))) =
      sanitizeRtspUrl before ++ ("rtsp://".toList ++ SensitiveText.redacted ++ ['@'] ++
        replaceAll (authorityMatcher ["rtsp".toList] false SensitiveText.credentialsLength) 0
          (some '@') rest) := by
  exact SensitiveText.text_hidden rest known_rtsp mem_cons_self rfl
    (fun empty => some_ (encoded_eq_nil empty)) (encoded_user username)
    (fun empty => secret (encoded_eq_nil empty)) (encoded_password password)

end Texts

/-- A password of apostrophes is written as it is. -/
theorem encoded_quotes (n : Nat) :
    encodeURIComponent (List.replicate n '\'') = List.replicate n '\'' := by
  induction n with
  | zero => rfl
  | succ n ih =>
    rw [replicate_succ, ← singleton_append, encoded_append, ih]
    rfl

/-- Without a user name the password stays in the sanitised text. -/
theorem sanitizeRtspUrl_leaks (before rest : Text) (n : Nat) :
    sanitizeRtspUrl (before ++ ("rtsp://".toList ++
        (credentials [] (List.replicate n '\'') ++ '@' :: rest))) =
      sanitizeRtspUrl before ++ ("rtsp://".toList ++
        (credentials [] (List.replicate n '\'') ++ '@' ::
          replaceAll (authorityMatcher ["rtsp".toList] false SensitiveText.credentialsLength) 0
            (some '@') rest)) := by
  have missed : ∀ previous, authorityMatcher ["rtsp".toList] false SensitiveText.credentialsLength
      previous ("rtsp://".toList ++ (credentials [] (List.replicate n '\'') ++ '@' :: rest)) =
        none := fun previous =>
    SensitiveText.missed_authority known_rtsp mem_cons_self
      (SensitiveText.credentialsLength_userless _)
  have nothing : '@' ∉ ([] : Text) := not_mem_nil
  exact SensitiveText.text_stays known_rtsp SensitiveText.credentialsLength_closed nothing (by simp)
    (credentials_flat _ _) (missed _)

/-- What stands in front of a URL that the redaction does not find. -/
def Overlooked (near username : Text) : Prop :=
  username = [] ∧ near = [] ∨ ∃ c, near = [c] ∧ isWord c = true

theorem Overlooked.near {near username : Text} (overlooked : Overlooked near username) :
    '@' ∉ near ∧ near.length ≤ 1 := by
  rcases overlooked with ⟨_, rfl⟩ | ⟨c, rfl, word⟩
  · exact ⟨not_mem_nil, by simp⟩
  · refine ⟨?_, by simp⟩
    rw [mem_singleton]
    rintro rfl
    exact absurd word (by decide)

theorem Overlooked.missed {near username : Text} (overlooked : Overlooked near username)
    {authority : Text → Option Nat} (userless : ∀ text, authority (':' :: text) = none)
    (front password rest : Text) :
    authorityMatcher SensitiveText.schemes true authority (lastOf none (front ++ near))
      ("rtsp://".toList ++ (credentials username password ++ '@' :: rest)) = none := by
  rcases overlooked with ⟨rfl, rfl⟩ | ⟨c, rfl, word⟩
  · exact SensitiveText.missed_authority known_schemes (by decide) (userless _)
  · apply SensitiveText.missed_word
    rw [JsReplace.lastOf_append]
    exact word

theorem redactSensitiveText_leaks {near username : Text} (overlooked : Overlooked near username)
    (front rest : Text) : ∃ shown behind, ∀ n, redactSensitiveText (front ++ (near ++
      "rtsp://".toList ++ (credentials username (List.replicate (n + 1) '\'') ++ '@' :: rest))) =
        shown ++ (List.replicate (n + 1) '\'' ++ '@' :: behind) := by
  obtain ⟨at_, short⟩ := overlooked.near
  let first := replaceAll SensitiveText.urlWithCredentials 0 none front
  let second := replaceAll SensitiveText.authorityWithRedactedCredentials 0 none first
  let restFirst := replaceAll SensitiveText.urlWithCredentials 0 (some '@') rest
  let restSecond :=
    replaceAll SensitiveText.authorityWithRedactedCredentials 0 (some '@') restFirst
  let before := second ++ (near ++ "rtsp://".toList ++ (encodeURIComponent username ++ [':']))
  refine ⟨replaceAll SensitiveText.sensitiveQueryValue 0 none before,
    replaceAll SensitiveText.sensitiveQueryValue 0 (some '@') restSecond, fun n => ?_⟩
  have one := SensitiveText.text_stays known_schemes SensitiveText.credentialsLength_closed
    at_ short (credentials_flat username (List.replicate (n + 1) '\''))
    (overlooked.missed SensitiveText.credentialsLength_userless front _ rest)
  have two := SensitiveText.text_stays known_schemes SensitiveText.redactedLength_closed
    at_ short (credentials_flat username (List.replicate (n + 1) '\''))
    (overlooked.missed SensitiveText.redactedLength_userless first _ restFirst)
  have written : second ++ (near ++ "rtsp://".toList ++
      (credentials username (List.replicate (n + 1) '\'') ++ '@' :: restSecond)) =
      before ++ (['\''] ++ (List.replicate n '\'' ++ '@' :: restSecond)) := by
    rw [credentials, encoded_quotes, replicate_succ]
    simp [before]
  have three := JsReplace.replaceAll_wall SensitiveText.sensitiveQuery_wall
    (List.replicate n '\'' ++ '@' :: restSecond) before 0 none (Nat.zero_le _)
  have quotes := JsReplace.replaceAll_none (lastOf none before) SensitiveText.sensitiveQueryValue
    (List.replicate (n + 1) '\'' ++ ['@']) restSecond (by
      intro front c back split
      have inside : c ∈ List.replicate (n + 1) '\'' ++ ['@'] := by
        rw [split]
        simp
      have other : ¬ (c = '?' ∨ c = '&') := by
        rcases mem_append.mp inside with quote | last
        · rw [eq_of_mem_replicate quote]
          decide
        · rw [mem_singleton.mp last]
          decide
      exact if_neg other)
  have last : lastOf (lastOf none before) (List.replicate (n + 1) '\'' ++ ['@']) = some '@' := by
    rw [JsReplace.lastOf_append]
    rfl
  have same : List.replicate (n + 1) '\'' ++ ['@'] ++ restSecond =
      ['\''] ++ (List.replicate n '\'' ++ '@' :: restSecond) := by
    simp [replicate_succ]
  rw [last, same] at quotes
  unfold redactSensitiveText
  rw [SensitiveText.urlWithCredentials, one, SensitiveText.authorityWithRedactedCredentials]
  refine (congrArg _ two).trans ?_
  refine (congrArg _ written).trans ?_
  rw [three, quotes]
  simp

/-! The camera. -/

section Secrecy

variable (network : CameraNetwork) (camera : CameraRow) (profile : Profile)

/-- Of the credentials of a URL nothing is shown but whether there is a user name: with any other
name and password the same would be shown. -/
def Hides {Shown : Type} (shown : Text → Shown) : Prop :=
  ∀ username password other url otherUrl, password ≠ [] → other ≠ [] →
    (username = [] ↔ camera.username = []) →
    buildRtspUrl network (camera.withCredentials camera.username password) profile = some url →
    buildRtspUrl network (camera.withCredentials username other) profile = some otherUrl →
    shown url = shown otherUrl

/-- No text around the URL shows its credentials, and the annotation gives the URL back. -/
structure Secret (before after : Text) : Prop where
  redacted : Hides network camera profile fun url => redactSensitiveText (before ++ url ++ after)
  sanitized : Hides network camera profile fun url => sanitizeRtspUrl (before ++ url ++ after)
  stripped : Hides network camera profile fun url => semSegredo (some url)
  restored : ∀ password url,
    buildRtspUrl network (camera.withCredentials camera.username password) profile = some url →
      comSegredo (semSegredo (some url)) (some camera.username) (some password) = some url

/-- When that is so. -/
structure Ordinary (before : Text) : Prop where
  named : camera.username ≠ []
  /-- The name is written without blanks around it. -/
  trimmed : trim camera.username = camera.username
  /-- The registered path has no blank at its end. -/
  path : trim (camera.rtspPath.getD []) = [] ∨
    trimEnd (camera.rtspPath.getD []) = camera.rtspPath.getD []
  /-- The text in front of the URL does not run into it as one word. -/
  apart : before.getLast?.any isWord = false

variable {network camera profile}

theorem hides_iff
    (accepted : assertCameraTargetAllowed network camera.ip camera.rtspPort = some targetIp)
    {Shown : Type} (shown : Text → Shown) : Hides network camera profile shown ↔
      ∀ username password other : Text, password ≠ [] → other ≠ [] →
        (username = [] ↔ camera.username = []) →
        shown ("rtsp://".toList ++ (credentials camera.username password ++ '@' ::
          hostAndPath camera profile targetIp)) =
        shown ("rtsp://".toList ++ (credentials username other ++ '@' ::
          hostAndPath camera profile targetIp)) := by
  constructor
  · intro hides username password other first second kind
    exact hides username password other _ _ first second kind
      (buildRtspUrl_withCredentials accepted _ _) (buildRtspUrl_withCredentials accepted _ _)
  · intro same username password other url otherUrl first second kind built builtOther
    rw [buildRtspUrl_withCredentials accepted] at built builtOther
    rw [← Option.some.inj built, ← Option.some.inj builtOther]
    exact same username password other first second kind

theorem redacted_iff
    (accepted : assertCameraTargetAllowed network camera.ip camera.rtspPort = some targetIp)
    (before after : Text) :
    (Hides network camera profile fun url => redactSensitiveText (before ++ url ++ after)) ↔
      camera.username ≠ [] ∧ before.getLast?.any isWord = false := by
  rw [hides_iff accepted]
  simp only [around]
  constructor
  · intro same
    by_contra failed
    -- A text that is overlooked shows a password of one apostrophe as another than one of two.
    obtain ⟨front, near, split, overlooked⟩ : ∃ front near, before = front ++ near ∧
        Overlooked near camera.username := by
      by_cases named : camera.username = []
      · exact ⟨before, [], (append_nil _).symm, Or.inl ⟨named, rfl⟩⟩
      · rcases eq_nil_or_concat before with rfl | ⟨front, c, rfl⟩
        · exact absurd ⟨named, rfl⟩ failed
        · rw [concat_eq_append] at failed ⊢
          refine ⟨front, [c], rfl, Or.inr ⟨c, rfl, ?_⟩⟩
          simpa [named] using failed
    obtain ⟨shown, behind, leaks⟩ := redactSensitiveText_leaks overlooked front
      (hostAndPath camera profile targetIp ++ after)
    have both := same camera.username (List.replicate 1 '\'') (List.replicate 2 '\'') (by simp)
      (by simp) Iff.rfl
    rw [split, append_assoc, append_assoc, ← append_assoc near,
      ← append_assoc near, leaks 0, leaks 1] at both
    have sizes := congrArg List.length both
    simp at sizes
  · rintro ⟨named, apart⟩ username password other first second kind
    have someName : username ≠ [] := fun empty => named (kind.mp empty)
    rw [redactSensitiveText_hides _ named apart first,
      redactSensitiveText_hides _ someName apart second]

theorem sanitized_iff
    (accepted : assertCameraTargetAllowed network camera.ip camera.rtspPort = some targetIp)
    (before after : Text) :
    (Hides network camera profile fun url => sanitizeRtspUrl (before ++ url ++ after)) ↔
      camera.username ≠ [] := by
  rw [hides_iff accepted]
  simp only [around]
  constructor
  · intro same named
    have both := same camera.username (List.replicate 1 '\'') (List.replicate 2 '\'') (by simp)
      (by simp) Iff.rfl
    rw [named, sanitizeRtspUrl_leaks, sanitizeRtspUrl_leaks, credentials, credentials,
      encoded_quotes, encoded_quotes] at both
    have sizes := congrArg List.length both
    simp at sizes
  · intro named username password other first second kind
    have someName : username ≠ [] := fun empty => named (kind.mp empty)
    rw [sanitizeRtspUrl_hides _ named first, sanitizeRtspUrl_hides _ someName second]

theorem stripped_url (username password rest : Text) :
    semSegredo (some ("rtsp://".toList ++ (credentials username password ++ '@' :: rest))) =
      some ("rtsp://".toList ++ trimEnd rest) :=
  MemoriaDoMosaico.semSegredo_url (credentials_delimited username password) rest

/-- The annotation keeps nothing of the credentials, whatever they are. -/
theorem stripped
    (accepted : assertCameraTargetAllowed network camera.ip camera.rtspPort = some targetIp) :
    Hides network camera profile fun url => semSegredo (some url) := by
  rw [hides_iff accepted]
  intro username password other _ _ _
  rw [stripped_url, stripped_url]

theorem credentials_split {first second rest other : Text} (left : '@' ∉ first)
    (right : '@' ∉ second) (same : first ++ '@' :: rest = second ++ '@' :: other) :
    first = second ∧ rest = other := by
  have upTo : ∀ text more : Text, '@' ∉ text →
      (text ++ '@' :: more).takeWhile (· ≠ '@') = text := by
    intro text more apart
    rw [takeWhile_append_of_pos]
    · simp
    · intro c inside
      simp only [decide_eq_true_eq]
      rintro rfl
      exact apart inside
  have names : first = second := by rw [← upTo first rest left, same, upTo second other right]
  rw [names] at same
  exact ⟨names, (List.cons.inj (append_cancel_left same)).2⟩

theorem restored_iff
    (accepted : assertCameraTargetAllowed network camera.ip camera.rtspPort = some targetIp) :
    (∀ password url,
      buildRtspUrl network (camera.withCredentials camera.username password) profile = some url →
        comSegredo (semSegredo (some url)) (some camera.username) (some password) = some url) ↔
      camera.username ≠ [] ∧ trim camera.username = camera.username ∧
        (trim (camera.rtspPath.getD []) = [] ∨
          trimEnd (camera.rtspPath.getD []) = camera.rtspPath.getD []) := by
  have noAt : ∀ username password, '@' ∉ credentials username password :=
    fun username password inside => (credentials_delimited username password '@' inside).1 rfl
  rw [← hostAndPath_trimEnd_iff camera profile targetIp]
  constructor
  · intro restores
    have whole := restores [] _ (buildRtspUrl_withCredentials accepted _ _)
    rw [stripped_url] at whole
    by_cases blank : trim camera.username = []
    · rw [MemoriaDoMosaico.comSegredo_userless _ _ blank] at whole
      have sizes := congrArg List.length (Option.some.inj whole)
      have shorter := (dropWhile_suffix isBlank
        (l := (hostAndPath camera profile targetIp).reverse)).length_le
      simp only [trimEnd, length_append, length_cons, length_reverse] at sizes shorter
      omega
    · rw [MemoriaDoMosaico.comSegredo_url _ _ blank] at whole
      have ends := append_cancel_left (Option.some.inj whole)
      obtain ⟨names, path⟩ := credentials_split (noAt _ _) (noAt _ _) ends
      have trimmed := (encoded_trim_iff _).mp (append_cancel_right names)
      exact ⟨trimmed ▸ blank, trimmed, path⟩
  · rintro ⟨named, trimmed, path⟩ password url built
    rw [buildRtspUrl_withCredentials accepted] at built
    rw [← Option.some.inj built, stripped_url,
      MemoriaDoMosaico.comSegredo_url _ _ (trimmed.symm ▸ named), trimmed, path]

/-- The credentials of a URL are secret exactly when user name, path and text are ordinary. -/
theorem secret_iff (network : CameraNetwork) (camera : CameraRow) (profile : Profile)
    (accepted : (buildRtspUrl network camera profile).isSome = true) (before after : Text) :
    Secret network camera profile before after ↔ Ordinary camera before := by
  obtain ⟨targetIp, allowed⟩ : ∃ targetIp,
      assertCameraTargetAllowed network camera.ip camera.rtspPort = some targetIp := by
    rw [buildRtspUrl, Option.isSome_map] at accepted
    exact Option.isSome_iff_exists.mp accepted
  constructor
  · intro secret
    obtain ⟨named, apart⟩ := (redacted_iff allowed before after).mp secret.redacted
    obtain ⟨_, trimmed, path⟩ := (restored_iff allowed).mp secret.restored
    exact ⟨named, trimmed, path, apart⟩
  · intro ordinary
    exact ⟨(redacted_iff allowed before after).mpr ⟨ordinary.named, ordinary.apart⟩,
      (sanitized_iff allowed before after).mpr ordinary.named, stripped allowed,
      (restored_iff allowed).mpr ⟨ordinary.named, ordinary.trimmed, ordinary.path⟩⟩

end Secrecy

def openNetwork : CameraNetwork where
  isIP _ := true
  egressAllowed _ := true

theorem dahua_written :
    ("10.0.0.9".toList.all fun c => c.isAlphanum || c ∈ ['.', ':', '%', '-']) = true := by decide

def dahua (username password : Text) : CameraRow where
  id := "camera-1".toList
  ip := "10.0.0.9".toList
  rtspPort := 554
  username
  password
  rtspPath := none
  channel := none
  subtype := none
  liveChannel := none
  liveSubtype := none
  recordingChannel := none
  recordingSubtype := none
  ip_written := dahua_written

theorem secret_dahua :
    Secret openNetwork (dahua "admin".toList "segredo".toList) ⟨1, 0⟩ "url=".toList [] :=
  (secret_iff openNetwork (dahua "admin".toList "segredo".toList) ⟨1, 0⟩ (by decide +kernel)
    "url=".toList []).mpr
    { named := by decide
      trimmed := by decide
      path := Or.inl (by decide)
      apart := by decide }

/-- Without a user name the password stands in the log, and the annotation loses it. -/
theorem userless_leaks : ∃ url,
    buildRtspUrl openNetwork (dahua [] "segredo".toList) ⟨1, 0⟩ = some url ∧
      credentials [] "segredo".toList <:+: redactSensitiveText ("url=".toList ++ url) ∧
      credentials [] "segredo".toList <:+: sanitizeRtspUrl ("url=".toList ++ url) ∧
      comSegredo (semSegredo (some url)) (some []) (some "segredo".toList) ≠ some url := by
  refine ⟨_, rfl, ?_, ?_, ?_⟩ <;> decide +kernel

end DracVms.RtspUrl
