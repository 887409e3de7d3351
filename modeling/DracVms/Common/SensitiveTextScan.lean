import DracVms.Common.SensitiveText

namespace DracVms.SensitiveText

open List

open Json (Text)
open JsReplace (Matcher replaceAll Wall lastOf)
open JsString (isBlank)
open RtspUrl (matchKey)

/-! The words that are looked for. -/

theorem matchKey_iff (key text found rest : Text) : matchKey key text = some (found, rest) ↔
      text = found ++ rest ∧ found.map Char.toLower = key := by
  induction key generalizing text found with
  | nil =>
    cases found <;> simp [matchKey, eq_comm]
  | cons k key ih =>
    cases text with
    | nil => cases found <;> simp [matchKey]
    | cons c text =>
      rw [matchKey]
      cases found with
      | nil => split <;> simp
      | cons d found =>
        split
        · rename_i lower
          simp only [Option.map_eq_some_iff, Prod.exists, Prod.mk.injEq, List.cons.injEq,
            cons_append, map_cons]
          constructor
          · rintro ⟨found', rest', matched, ⟨rfl, rfl⟩, rfl⟩
            obtain ⟨split_, lowers⟩ := (ih text found').mp matched
            exact ⟨⟨rfl, split_⟩, lower, lowers⟩
          · rintro ⟨⟨rfl, split_⟩, _, lowers⟩
            exact ⟨found, rest, (ih text found).mpr ⟨split_, lowers⟩, ⟨rfl, rfl⟩, rfl⟩
        · rename_i other
          simp only [reduceCtorEq, cons_append, List.cons.injEq, map_cons, false_iff, not_and]
          rintro ⟨rfl, _⟩ lower
          exact absurd lower other

variable {text : Text}

theorem not_mem_of_lower {c : Char} {key : Text} (lower : text.map Char.toLower = key)
    (fixed : c.toLower = c) (apart : c ∉ key) : c ∉ text := by
  intro inside
  rw [← lower] at apart
  exact apart (mem_map.mpr ⟨c, inside, fixed⟩)

theorem opening_unique {first second rest other : Text} (left : ':' ∉ first) (right : ':' ∉ second)
    (same : first ++ "://".toList ++ rest = second ++ "://".toList ++ other) : first = second := by
  have upTo : ∀ scheme more : Text, ':' ∉ scheme →
      (scheme ++ "://".toList ++ more).takeWhile (· ≠ ':') = scheme := by
    intro scheme more colon
    rw [append_assoc, takeWhile_append_of_pos]
    · simp
    · intro c inside
      simp only [decide_eq_true_eq]
      rintro rfl
      exact colon inside
  rw [← upTo first rest left, same, upTo second other right]

theorem opening_iff {schemes : List Text} (plain : ∀ scheme ∈ schemes, ':' ∉ scheme)
    (text found rest : Text) : opening schemes text = some (found, rest) ↔
      text = found ++ rest ∧
        ∃ scheme ∈ schemes, found.map Char.toLower = scheme ++ "://".toList := by
  have sound : ∀ found rest, opening schemes text = some (found, rest) →
      text = found ++ rest ∧
        ∃ scheme ∈ schemes, found.map Char.toLower = scheme ++ "://".toList := by
    intro found rest opened
    obtain ⟨scheme, listed, matched⟩ := List.exists_of_findSome?_eq_some opened
    obtain ⟨split_, lower⟩ := (matchKey_iff _ _ _ _).mp matched
    exact ⟨split_, scheme, listed, lower⟩
  refine ⟨sound found rest, ?_⟩
  rintro ⟨split_, scheme, listed, lower⟩
  cases opened : opening schemes text with
  | none =>
    have missed := List.findSome?_eq_none_iff.mp opened scheme listed
    rw [(matchKey_iff _ _ _ _).mpr ⟨split_, lower⟩] at missed
    cases missed
  | some pair =>
    obtain ⟨split', scheme', listed', lower'⟩ := sound pair.1 pair.2 opened
    have lowers : scheme ++ "://".toList ++ rest.map Char.toLower =
        scheme' ++ "://".toList ++ pair.2.map Char.toLower := by
      rw [← lower, ← lower', ← map_append, ← map_append, ← split_, ← split']
    have schemes_ := opening_unique (plain _ listed) (plain _ listed') lowers
    have sizes : found.length = pair.1.length := by
      rw [← length_map (f := Char.toLower), lower, schemes_, ← lower', length_map]
    obtain ⟨first, second⟩ := append_inj (split_.symm.trans split') sizes
    rw [first, second]

/-! What is looked for behind a scheme. -/

theorem credentialsLength_eq {user password : Text} (someUser : user ≠ [])
    (userChars : ∀ c ∈ user, isUserChar c = true) (somePassword : password ≠ [])
    (passwordChars : ∀ c ∈ password, isPasswordChar c = true) (more : Text) :
    credentialsLength (user ++ ':' :: (password ++ '@' :: more)) =
      some (user.length + 1 + password.length + 1) := by
  have colon : isUserChar ':' = false := by decide
  have at_ : isPasswordChar '@' = false := by decide
  have takeUser : (user ++ ':' :: (password ++ '@' :: more)).takeWhile isUserChar = user := by
    rw [takeWhile_append_of_pos userChars]
    simp [colon]
  have dropUser : (user ++ ':' :: (password ++ '@' :: more)).dropWhile isUserChar =
      ':' :: (password ++ '@' :: more) := by
    rw [dropWhile_append_of_pos userChars]
    simp [colon]
  have takePassword : (password ++ '@' :: more).takeWhile isPasswordChar = password := by
    rw [takeWhile_append_of_pos passwordChars]
    simp [at_]
  have dropPassword : (password ++ '@' :: more).dropWhile isPasswordChar = '@' :: more := by
    rw [dropWhile_append_of_pos passwordChars]
    simp [at_]
  simp [credentialsLength, takeUser, dropUser, takePassword, dropPassword, someUser, somePassword]

/-- It ends with an at sign, has no slash and does not depend on what follows. -/
def Closed (authority : Text → Option Nat) : Prop :=
  ∀ text length, authority text = some length → ∃ body more, text = body ++ '@' :: more ∧
    '/' ∉ body ∧ length = body.length + 1 ∧ ∀ other, authority (body ++ '@' :: other) = some length

theorem slash_not_user : isUserChar '/' = false := by decide

theorem slash_not_password : isPasswordChar '/' = false := by decide

theorem credentialsLength_closed : Closed credentialsLength := by
  intro text length found
  unfold credentialsLength at found
  dsimp only at found
  split at found
  · rename_i rest behindUser
    split at found
    · rename_i more behindPassword
      split at found
      · cases found
      · rename_i some_
        rw [not_or] at some_
        have userChars : ∀ c ∈ text.takeWhile isUserChar, isUserChar c = true :=
          fun c => mem_takeWhile_imp
        have passwordChars : ∀ c ∈ rest.takeWhile isPasswordChar, isPasswordChar c = true :=
          fun c => mem_takeWhile_imp
        refine ⟨text.takeWhile isUserChar ++ ':' :: rest.takeWhile isPasswordChar, more, ?_, ?_, ?_,
          fun other => ?_⟩
        · rw [append_assoc, cons_append, ← behindPassword,
            takeWhile_append_dropWhile, ← behindUser, takeWhile_append_dropWhile]
        · rw [mem_append, mem_cons, not_or, not_or]
          refine ⟨fun inside => ?_, by decide, fun inside => ?_⟩
          · exact absurd (userChars _ inside) (by simp [slash_not_user])
          · exact absurd (passwordChars _ inside) (by simp [slash_not_password])
        · rw [← Option.some.inj found]
          simp
          omega
        · rw [append_assoc, cons_append,
            credentialsLength_eq some_.1 userChars some_.2 passwordChars, ← found]
    · cases found
  · cases found

theorem marks_apart {stars word rest other : Text} (first : stars.map Char.toLower = "***".toList)
    (second : word.map Char.toLower = redacted) : stars ++ rest ≠ word ++ other := by
  intro same
  have one : (stars ++ rest).map Char.toLower = "***".toList ++ rest.map Char.toLower := by
    rw [map_append, first]
  have two : (word ++ other).map Char.toLower = redacted ++ other.map Char.toLower := by
    rw [map_append, second]
  have heads := one.symm.trans ((congrArg (List.map Char.toLower) same).trans two)
  have first := congrArg List.head? heads
  rw [List.head?_append_of_ne_nil _ (by decide), List.head?_append_of_ne_nil _ (by decide)] at first
  exact absurd first (by decide)

theorem redactedMark_iff (text found rest : Text) : redactedMark text = some (found, rest) ↔
    text = found ++ rest ∧
      (found.map Char.toLower = "***".toList ∨ found.map Char.toLower = redacted) := by
  unfold redactedMark
  cases stars : matchKey "***".toList text with
  | none =>
    rw [Option.none_or, matchKey_iff]
    refine ⟨fun ⟨split_, lower⟩ => ⟨split_, Or.inr lower⟩, ?_⟩
    rintro ⟨split_, lower | lower⟩
    · rw [(matchKey_iff _ _ _ _).mpr ⟨split_, lower⟩] at stars
      cases stars
    · exact ⟨split_, lower⟩
  | some pair =>
    obtain ⟨split', lower'⟩ := (matchKey_iff _ _ _ _).mp stars
    constructor
    · intro same
      cases same
      exact ⟨split', Or.inl lower'⟩
    rintro ⟨split_, lower | lower⟩
    · rw [(matchKey_iff _ _ _ _).mpr ⟨split_, lower⟩] at stars
      exact stars.symm
    · exact absurd (split'.symm.trans split_) (marks_apart lower' lower)

theorem redactedMark_slash {found rest : Text} (marked : redactedMark text = some (found, rest)) :
    '/' ∉ found := by
  rcases ((redactedMark_iff _ _ _).mp marked).2 with lower | lower
  all_goals exact not_mem_of_lower lower rfl (by decide)

theorem redactedLength_closed : Closed redactedLength := by
  intro text length found
  unfold redactedLength at found
  split at found
  · rename_i user rest first
    split at found
    · rename_i password more second
      obtain ⟨split_, lower⟩ := (redactedMark_iff _ _ _).mp first
      obtain ⟨splitRest, lowerRest⟩ := (redactedMark_iff _ _ _).mp second
      refine ⟨user ++ ':' :: password, more, ?_, ?_, ?_, fun other => ?_⟩
      · rw [append_assoc, cons_append, ← splitRest, ← split_]
      · rw [mem_append, mem_cons, not_or, not_or]
        exact ⟨redactedMark_slash first, by decide, redactedMark_slash second⟩
      · rw [← Option.some.inj found]
        simp
        omega
      · unfold redactedLength
        have markUser := (redactedMark_iff _ user (':' :: (password ++ '@' :: other))).mpr
          ⟨rfl, lower⟩
        have markPassword := (redactedMark_iff _ password ('@' :: other)).mpr ⟨rfl, lowerRest⟩
        rw [append_assoc, cons_append]
        simp only [markUser, markPassword]
        exact found
    · cases found
  · cases found

/-! A match. -/

def Known (words : List Text) : Prop := ∀ scheme ∈ words, scheme ∈ schemes

theorem Known.no_colon {words : List Text} (known : Known words) :
    ∀ scheme ∈ words, ':' ∉ scheme := by
  have apart : ∀ scheme ∈ schemes, ':' ∉ scheme := by decide
  exact fun scheme listed => apart scheme (known scheme listed)

theorem opened_length {written scheme : Text} (listed : scheme ∈ schemes)
    (lower : written.map Char.toLower = scheme ++ "://".toList) :
    written.length = scheme.length + 3 ∧ scheme.length ≤ 5 := by
  have sizes := congrArg List.length lower
  rw [length_map, length_append] at sizes
  have short : ∀ scheme ∈ schemes, scheme.length ≤ 5 := by decide
  exact ⟨sizes, short scheme listed⟩

/-- A match has its scheme, its body without slashes and its at sign; what follows is not read. -/
structure Matched (matcher : Matcher) (words : List Text) (previous : Option Char) (text : Text)
    (found : Text × Nat) (written body more scheme : Text) : Prop where
  split : text = written ++ body ++ '@' :: more
  listed : scheme ∈ words
  lower : written.map Char.toLower = scheme ++ "://".toList
  slash : '/' ∉ body
  length : found.2 = written.length + body.length + 1
  again : ∀ other, matcher previous (written ++ body ++ '@' :: other) = some found

section Authority

variable {words : List Text} {bounded : Bool} {authority : Text → Option Nat}
  {previous : Option Char}

variable {found : Text × Nat}

theorem matched_of_some (known : Known words) (closed : Closed authority)
    (hit : authorityMatcher words bounded authority previous text = some found) :
    ∃ written body more scheme, Matched (authorityMatcher words bounded authority) words previous
      text found written body more scheme := by
  unfold authorityMatcher at hit
  split at hit
  · cases hit
  · rename_i free
    split at hit
    · cases hit
    · rename_i written rest opened
      obtain ⟨length, long, same⟩ := Option.map_eq_some_iff.mp hit
      obtain ⟨split_, scheme, listed, lower⟩ := (opening_iff known.no_colon _ _ _).mp opened
      obtain ⟨body, more, splitRest, slash, size, again⟩ := closed rest length long
      refine ⟨written, body, more, scheme, ⟨?_, listed, lower, slash, ?_, fun other => ?_⟩⟩
      · rw [append_assoc, ← splitRest, split_]
      · rw [← same, size, Nat.add_assoc]
      · have reopened := (opening_iff known.no_colon _ written (body ++ '@' :: other)).mpr
          ⟨rfl, scheme, listed, lower⟩
        unfold authorityMatcher
        rw [if_neg free, append_assoc]
        simp only [reopened, again other, Option.map_some, same]

theorem opened_alone {written scheme front rest : Text} (listed : scheme ∈ schemes)
    (lower : written.map Char.toLower = scheme ++ "://".toList)
    (same : written = front ++ "rtsp://".toList ++ rest) : front = [] := by
  have sizes := congrArg List.length same
  have short := opened_length listed lower
  have width : "rtsp://".toList.length = 7 := rfl
  rw [length_append, length_append, width] at sizes
  rcases front with _ | ⟨d, front⟩
  · rfl
  · rw [length_cons] at sizes
    obtain rfl : front = [] := length_eq_zero_iff.mp (by omega)
    obtain rfl : rest = [] := length_eq_zero_iff.mp (by omega)
    rw [same, append_nil, map_append, map_singleton] at lower
    have heads := congrArg (fun text : Text => text[1]?) lower
    have second : ∀ scheme ∈ schemes, (scheme ++ "://".toList)[1]? = some 't' := by decide
    rw [second scheme listed] at heads
    change some 'r' = some 't' at heads
    exact absurd heads (by decide)

theorem matched_before {matcher : Matcher} {front rest : Text} {written body more scheme : Text}
    (known : Known words) (some_ : front ≠ [])
    (matched : Matched matcher words previous (front ++ ("rtsp://".toList ++ rest)) found written
      body more scheme) :
    ∃ left, front = written ++ body ++ '@' :: left := by
  have listed := known _ matched.listed
  have whole : (written ++ body ++ ['@']) ++ more = front ++ ("rtsp://".toList ++ rest) := by
    rw [append_assoc, singleton_append]
    exact matched.split.symm
  rcases append_eq_append_iff.mp whole with ⟨left, inFront, _⟩ | ⟨past, long, behind⟩
  · exact ⟨left, by rw [inFront, append_assoc, singleton_append]⟩
  rcases append_eq_append_iff.mp behind with ⟨deep, deeper, _⟩ | ⟨back, short, _⟩
  · have sides : written ++ (body ++ ['@']) = (front ++ "rtsp://".toList) ++ deep := by
      rw [← append_assoc, long, deeper, append_assoc]
    rcases append_eq_append_iff.mp sides with ⟨after, over_, inBody⟩ | ⟨after, over_, _⟩
    · cases last : after.getLast? with
      | none =>
        have empty := List.getLast?_eq_none_iff.mp last
        rw [empty, append_nil] at over_
        have alone : written = front ++ "rtsp://".toList ++ [] := by rw [append_nil, over_]
        exact absurd (opened_alone listed matched.lower alone) some_
      | some c =>
        have ends := congrArg List.getLast? over_
        rw [List.getLast?_append, List.getLast?_append, last] at ends
        obtain rfl : '/' = c := by simpa using ends
        have inside : '/' ∈ body ++ ['@'] := by
          rw [inBody]
          exact mem_append_left _ (List.mem_of_getLast? last)
        rw [mem_append] at inside
        exact absurd inside (not_or.mpr ⟨matched.slash, by decide⟩)
    · exact absurd (opened_alone listed matched.lower over_) some_
  · cases last : past.getLast? with
    | none =>
      have empty := List.getLast?_eq_none_iff.mp last
      rw [empty, append_nil] at long
      exact ⟨[], long.symm⟩
    | some c =>
      have ends := congrArg List.getLast? long
      simp only [List.getLast?_append, last] at ends
      obtain rfl : '@' = c := by simpa using ends
      have inside : '@' ∈ "rtsp://".toList := by
        rw [short]
        exact mem_append_left _ (List.mem_of_getLast? last)
      exact absurd inside (by decide)

theorem matched_size {matcher : Matcher} {written body more scheme : Text} (known : Known words)
    (matched : Matched matcher words previous text found written body more scheme) :
    3 ≤ found.2 ∧ found.2 ≤ text.length := by
  have opened := opened_length (known _ matched.listed) matched.lower
  have sizes := congrArg List.length matched.split
  rw [length_append, length_append, length_cons] at sizes
  have length := matched.length
  omega

theorem authority_wall (known : Known words) (closed : Closed authority) {near : Text}
    (at_ : '@' ∉ near) :
    Wall (authorityMatcher words bounded authority) (near ++ "rtsp://".toList) where
  same previous c front rest := by
    cases short : authorityMatcher words bounded authority previous (c :: front) with
    | some found =>
      obtain ⟨written, body, more, scheme, matched⟩ := matched_of_some known closed short
      rw [matched.split, append_assoc, cons_append]
      exact matched.again _
    | none =>
      cases long : authorityMatcher words bounded authority previous
          (c :: front ++ (near ++ "rtsp://".toList ++ rest)) with
      | none => rfl
      | some found =>
        rw [append_assoc, ← append_assoc (c :: front)] at long
        obtain ⟨written, body, more, scheme, matched⟩ := matched_of_some known closed long
        obtain ⟨left, split_⟩ := matched_before known (by simp) matched
        have inFront : ∃ left, c :: front = written ++ body ++ '@' :: left := by
          have whole : c :: front ++ near = written ++ body ++ ['@'] ++ left := by
            rw [split_, append_assoc _ ['@']]
            rfl
          rcases append_eq_append_iff.mp whole with
            ⟨past, over_, inNear⟩ | ⟨past, over_, _⟩
          · cases last : past.getLast? with
            | none =>
              have empty := List.getLast?_eq_none_iff.mp last
              rw [empty, append_nil] at over_
              exact ⟨[], over_.symm⟩
            | some d =>
              have ends := congrArg List.getLast? over_
              simp only [List.getLast?_append, last] at ends
              obtain rfl : '@' = d := by simpa using ends
              refine absurd ?_ at_
              rw [inNear]
              exact mem_append_left _ (List.mem_of_getLast? last)
          · exact ⟨past, by rw [over_, append_assoc]; rfl⟩
        obtain ⟨left, split_⟩ := inFront
        rw [split_, matched.again left] at short
        cases short
  inside previous c front found hit := by
    obtain ⟨written, body, more, scheme, matched⟩ := matched_of_some known closed hit
    exact (matched_size known matched).2

theorem authority_head (known : Known words) (closed : Closed authority) {c : Char} (rest : Text)
    (other : c.toLower ≠ 'r' ∧ c.toLower ≠ 'h') :
    authorityMatcher words bounded authority previous (c :: rest) = none := by
  cases hit : authorityMatcher words bounded authority previous (c :: rest) with
  | none => rfl
  | some found =>
    obtain ⟨written, body, more, scheme, matched⟩ := matched_of_some known closed hit
    have listed := known _ matched.listed
    have starts : ∀ scheme ∈ schemes, (scheme ++ "://".toList).head? = some 'r' ∨
        (scheme ++ "://".toList).head? = some 'h' := by decide
    have begins := starts scheme listed
    rw [← matched.lower] at begins
    cases written with
    | nil => simp at begins
    | cons d written =>
      have same := matched.split
      obtain rfl := (List.cons.inj same).1
      simp at begins
      tauto

/-- No match begins in front of an at sign where no slash is left. -/
theorem authority_flat (known : Known words) (closed : Closed authority) {text : Text}
    (flat : '/' ∉ text) (rest : Text) :
    authorityMatcher words bounded authority previous (text ++ '@' :: rest) = none := by
  cases hit : authorityMatcher words bounded authority previous (text ++ '@' :: rest) with
  | none => rfl
  | some found =>
    obtain ⟨written, body, more, scheme, matched⟩ := matched_of_some known closed hit
    have slash : '/' ∈ written := by
      have lower : '/' ∈ written.map Char.toLower := by
        rw [matched.lower]
        simp
      obtain ⟨c, inside, lowered⟩ := mem_map.mp lower
      rwa [(JsString.toLower_eq_iff (by decide)).mp lowered] at inside
    have noAt : '@' ∉ written := by
      refine not_mem_of_lower matched.lower rfl ?_
      have apart : ∀ scheme ∈ schemes, '@' ∉ scheme ++ "://".toList := by decide
      exact apart scheme (known _ matched.listed)
    have whole : written ++ (body ++ '@' :: more) = text ++ '@' :: rest := by
      rw [← append_assoc]
      exact matched.split.symm
    rcases append_eq_append_iff.mp whole with ⟨left, over_, _⟩ | ⟨past, over_, behind⟩
    · exact absurd (by rw [over_]; exact mem_append_left _ slash) flat
    · cases past with
      | nil =>
        rw [over_, append_nil] at slash
        exact absurd slash flat
      | cons d past =>
        obtain rfl := (List.cons.inj behind).1
        exact absurd (by rw [over_]; simp) noAt

end Authority

/-! Keys in a query. -/

theorem matchKey_wall {key : Text} {mark : Char} (apart : mark ∉ key) (fixed : mark.toLower = mark)
    (front rest : Text) : matchKey key (front ++ mark :: rest) =
      (matchKey key front).map fun found => (found.1, found.2 ++ mark :: rest) := by
  induction key generalizing front with
  | nil => rfl
  | cons k key ih =>
    rw [mem_cons, not_or] at apart
    cases front with
    | nil =>
      have other : mark.toLower ≠ k := by rw [fixed]; exact apart.1
      simp [matchKey, other]
    | cons c front =>
      rw [cons_append, matchKey, matchKey]
      split
      · rw [ih apart.2, Option.map_map, Option.map_map]
        rfl
      · rfl

theorem keys_wall {keys : List Text} (apart : ∀ key ∈ keys, '\'' ∉ key ++ ['=']) (front rest : Text) :
    (keys.findSome? fun key => matchKey (key ++ ['=']) (front ++ '\'' :: rest)) =
      (keys.findSome? fun key => matchKey (key ++ ['=']) front).map fun found =>
        (found.1, found.2 ++ '\'' :: rest) := by
  induction keys with
  | nil => rfl
  | cons key keys ih =>
    have later := ih fun other listed => apart other (mem_cons_of_mem _ listed)
    have here := matchKey_wall (apart key mem_cons_self) rfl front rest
    rw [List.findSome?_cons, List.findSome?_cons, here, later]
    cases matchKey (key ++ ['=']) front <;> rfl

theorem sensitiveQuery_wall : Wall sensitiveQueryValue ['\''] where
  same previous c front rest := by
    have mark : isQueryValueChar '\'' = false := by decide
    have values : ∀ text : Text, (text ++ '\'' :: rest).takeWhile isQueryValueChar =
        text.takeWhile isQueryValueChar := by
      intro text
      rw [takeWhile_append]
      split
      · rename_i whole
        rw [takeWhile_cons_of_neg (by simp [mark]), append_nil]
        exact (( takeWhile_prefix _).eq_of_length whole).symm
      · rfl
    have apart : ∀ key ∈ sensitiveQueryKeys, '\'' ∉ key ++ ['='] := by decide +kernel
    rw [cons_append, singleton_append]
    simp only [sensitiveQueryValue]
    split
    · rw [keys_wall apart]
      cases sensitiveQueryKeys.findSome? fun key => matchKey (key ++ ['=']) front with
      | none => rfl
      | some found => simp only [Option.map_some, values]
    · rfl
  inside previous c front found hit := by
    simp only [sensitiveQueryValue] at hit
    split at hit
    · split at hit
      · cases hit
      · rename_i key rest found'
        obtain ⟨word, _, matched⟩ := List.exists_of_findSome?_eq_some found'
        have sizes := congrArg List.length ((matchKey_iff _ _ _ _).mp matched).1
        rw [length_append] at sizes
        have short := ( takeWhile_prefix isQueryValueChar (l := rest)).length_le
        split at hit
        · cases hit
        · rw [← Option.some.inj hit]
          omega
    · cases hit

/-! Texts around the URL of a camera. -/

section Camera

variable {words : List Text} {bounded : Bool} {authority : Text → Option Nat}
  {previous : Option Char}

theorem url_stays (known : Known words) (closed : Closed authority) {secret rest : Text}
    (flat : '/' ∉ secret)
    (missed : authorityMatcher words bounded authority previous ("rtsp://".toList ++
      (secret ++ '@' :: rest)) = none) :
    replaceAll (authorityMatcher words bounded authority) 0 previous
        ("rtsp://".toList ++ (secret ++ '@' :: rest)) =
      "rtsp://".toList ++ (secret ++ '@' ::
        replaceAll (authorityMatcher words bounded authority) 0 (some '@') rest) := by
  have first := JsReplace.replaceAll_none previous _ ['r']
    ("tsp://".toList ++ (secret ++ '@' :: rest)) (by
      intro front c back split
      cases front with
      | nil =>
        obtain ⟨rfl, rfl⟩ := List.cons.inj split
        exact missed
      | cons d front => simp at split)
  have second := JsReplace.replaceAll_none (some 'r') (authorityMatcher words bounded authority)
    "tsp://".toList (secret ++ '@' :: rest) (by
      intro front c back split
      have inside : c ∈ ['t', 's', 'p', ':', '/', '/'] := by
        change c ∈ "tsp://".toList
        rw [split]
        simp
      apply authority_head known closed
      simp only [mem_cons, not_mem_nil, or_false] at inside
      rcases inside with rfl | rfl | rfl | rfl | rfl | rfl <;> decide)
  have third := JsReplace.replaceAll_none (some '/') (authorityMatcher words bounded authority)
    (secret ++ ['@']) rest (by
      intro front c back split
      rcases eq_nil_or_concat back with empty | ⟨back', last, whole⟩
      · rw [empty, ← concat_eq_append, ← concat_eq_append] at split
        obtain rfl : '@' = c := (concat_inj.mp split).2
        exact authority_head known closed _ (by decide)
      · rw [whole, concat_eq_append, ← cons_append, ← append_assoc,
          ← concat_eq_append, ← concat_eq_append] at split
        obtain ⟨same, rfl⟩ := concat_inj.mp split
        rw [whole, concat_eq_append, cons_append, append_assoc, singleton_append, ← cons_append]
        exact authority_flat known closed (fun inside => flat (by rw [same]; simp [inside])) rest)
  have last : JsReplace.lastOf (some '/') (secret ++ ['@']) = some '@' := by
    rw [JsReplace.lastOf_append]
    rfl
  rw [last, append_assoc, singleton_append] at third
  have fromT : JsReplace.lastOf (some 'r') "tsp://".toList = some '/' := by decide
  rw [fromT, third] at second
  have fromR : JsReplace.lastOf previous ['r'] = some 'r' := rfl
  rw [fromR, second] at first
  rw [append_assoc] at first
  exact first

theorem replaceAll_short (known : Known words) (closed : Closed authority)
    (previous : Option Char) {near : Text} (short : near.length ≤ 1) :
    replaceAll (authorityMatcher words bounded authority) 0 previous near = near := by
  rcases near with _ | ⟨c, _ | ⟨d, near⟩⟩
  · rfl
  · cases hit : authorityMatcher words bounded authority previous [c] with
    | none => rw [replaceAll, hit]; rfl
    | some found =>
      obtain ⟨written, body, more, scheme, matched⟩ := matched_of_some known closed hit
      have sizes := matched_size known matched
      omega
  · simp only [length_cons] at short
    omega

theorem text_stays (known : Known words) (closed : Closed authority) {front near secret rest : Text}
    (at_ : '@' ∉ near) (short : near.length ≤ 1) (flat : '/' ∉ secret)
    (missed : authorityMatcher words bounded authority (lastOf none (front ++ near))
      ("rtsp://".toList ++ (secret ++ '@' :: rest)) = none) :
    replaceAll (authorityMatcher words bounded authority) 0 none
        (front ++ (near ++ "rtsp://".toList ++ (secret ++ '@' :: rest))) =
      replaceAll (authorityMatcher words bounded authority) 0 none front ++
        (near ++ "rtsp://".toList ++ (secret ++ '@' ::
          replaceAll (authorityMatcher words bounded authority) 0 (some '@') rest)) := by
  rw [JsReplace.lastOf_append] at missed
  rw [JsReplace.replaceAll_wall (authority_wall known closed at_) _ _ _ _ (Nat.zero_le _)]
  have alone : Wall (authorityMatcher words bounded authority) ([] ++ "rtsp://".toList) :=
    authority_wall known closed not_mem_nil
  have wall := JsReplace.replaceAll_wall alone (secret ++ '@' :: rest) near 0 (lastOf none front)
    (Nat.zero_le _)
  rw [nil_append, replaceAll_short known closed _ short, url_stays known closed flat missed] at wall
  rw [append_assoc near, wall, append_assoc near]

theorem opening_rtsp (known : Known words) (listed : "rtsp".toList ∈ words) (rest : Text) :
    opening words ("rtsp://".toList ++ rest) = some ("rtsp://".toList, rest) :=
  (opening_iff known.no_colon _ _ _).mpr ⟨rfl, "rtsp".toList, listed, by decide⟩

theorem missed_word (word : previous.any isWord = true) (text : Text) :
    authorityMatcher words true authority previous text = none := by
  simp [authorityMatcher, word]

theorem missed_authority (known : Known words) (listed : "rtsp".toList ∈ words)
    (missed : authority text = none) :
    authorityMatcher words bounded authority previous ("rtsp://".toList ++ text) = none := by
  unfold authorityMatcher
  split
  · rfl
  · rw [opening_rtsp known listed]
    dsimp only
    rw [missed, Option.map_none]

/-- Neither of the two reads credentials without a user name. -/
theorem credentialsLength_userless (text : Text) : credentialsLength (':' :: text) = none := by
  have colon : isUserChar ':' = false := by decide
  have user : (':' :: text).takeWhile isUserChar = [] := by simp [colon]
  unfold credentialsLength
  rw [user]
  split
  · split <;> simp
  · rfl

theorem redactedLength_userless (text : Text) : redactedLength (':' :: text) = none := by
  have missed : ∀ k key, k ≠ ':' → matchKey (k :: key) (':' :: text) = none :=
    fun k key other => if_neg (Ne.symm other)
  have mark : redactedMark (':' :: text) = none := by
    unfold redactedMark
    rfl
  unfold redactedLength
  rw [mark]

theorem text_hidden (rest : Text) (known : Known words) (listed : "rtsp".toList ∈ words)
    {front : Text} (free : (bounded && (lastOf none front).any isWord) = false)
    {user password : Text} (someUser : user ≠ []) (userChars : ∀ c ∈ user, isUserChar c = true)
    (somePassword : password ≠ []) (passwordChars : ∀ c ∈ password, isPasswordChar c = true) :
    replaceAll (authorityMatcher words bounded credentialsLength) 0 none
        (front ++ ("rtsp://".toList ++ (user ++ ':' :: password ++ '@' :: rest))) =
      replaceAll (authorityMatcher words bounded credentialsLength) 0 none front ++
        ("rtsp://".toList ++ redacted ++ ['@'] ++
          replaceAll (authorityMatcher words bounded credentialsLength) 0 (some '@') rest) := by
  have length := credentialsLength_eq someUser userChars somePassword passwordChars rest
  have wall : Wall (authorityMatcher words bounded credentialsLength) ([] ++ "rtsp://".toList) :=
    authority_wall known credentialsLength_closed not_mem_nil
  rw [nil_append] at wall
  rw [JsReplace.replaceAll_wall wall _ _ _ _ (Nat.zero_le _)]
  have written : "rtsp://".toList ++ (user ++ ':' :: password ++ '@' :: rest) =
      'r' :: ("tsp://".toList ++ (user ++ ':' :: password ++ ['@'])) ++ rest := by
    simp
  have hit : authorityMatcher words bounded credentialsLength (lastOf none front)
      ('r' :: ("tsp://".toList ++ (user ++ ':' :: password ++ ['@'])) ++ rest) =
      some ("rtsp://".toList ++ redacted ++ ['@'],
        ("tsp://".toList ++ (user ++ ':' :: password ++ ['@'])).length + 1) := by
    rw [← written]
    unfold authorityMatcher
    rw [free, opening_rtsp known listed]
    rw [append_assoc, cons_append]
    simp only [Bool.false_eq_true, if_false, length, Option.map_some]
    simp
    omega
  have last : lastOf (lastOf none front)
      ('r' :: ("tsp://".toList ++ (user ++ ':' :: password ++ ['@']))) = some '@' := by
    rw [← append_assoc, ← append_assoc, ← cons_append, JsReplace.lastOf_append]
    rfl
  rw [written, JsReplace.replaceAll_some _ hit, last]

end Camera

end DracVms.SensitiveText
