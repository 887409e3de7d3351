import DracVms.Library.JsString

/-! `String.prototype.replace` with a global regular expression. -/
namespace DracVms.JsReplace

open List

open Json (Text)

/-- A regular expression at a point of a text: from the character in front of the point and the
text behind it to the replacement and the number of characters that it stands for. -/
abbrev Matcher := Option Char → Text → Option (Text × Nat)

/-- The characters of a match are skipped one by one. -/
def replaceAll (matcher : Matcher) : Nat → Option Char → Text → Text
  | _, _, [] => []
  | skip + 1, _, c :: rest => replaceAll matcher skip (some c) rest
  | 0, previous, c :: rest =>
    match matcher previous (c :: rest) with
    | some (replacement, length) => replacement ++ replaceAll matcher (length - 1) (some c) rest
    | none => c :: replaceAll matcher 0 (some c) rest

def lastOf : Option Char → Text → Option Char
  | previous, [] => previous
  | _, c :: rest => lastOf (some c) rest

variable (previous : Option Char)

theorem lastOf_append (first second : Text) :
    lastOf previous (first ++ second) = lastOf (lastOf previous first) second := by
  induction first generalizing previous with
  | nil => rfl
  | cons c first ih => exact ih (some c)

theorem lastOf_eq (text : Text) : lastOf previous text = text.getLast?.or previous := by
  induction text generalizing previous with
  | nil => rfl
  | cons c text ih =>
    rw [lastOf, ih (some c), List.getLast?_cons]
    cases text.getLast? <;> rfl

section Replace

variable (matcher : Matcher)

theorem replaceAll_skip (text rest : Text) :
    replaceAll matcher text.length previous (text ++ rest) =
      replaceAll matcher 0 (lastOf previous text) rest := by
  induction text generalizing previous with
  | nil => rfl
  | cons c text ih => exact ih (some c)

theorem replaceAll_some {previous : Option Char} {c : Char} {text rest replacement : Text}
    (found : matcher previous (c :: text ++ rest) = some (replacement, text.length + 1)) :
    replaceAll matcher 0 previous (c :: text ++ rest) =
      replacement ++ replaceAll matcher 0 (lastOf previous (c :: text)) rest := by
  rw [cons_append] at found ⊢
  rw [replaceAll, found]
  dsimp only
  rw [Nat.add_sub_cancel, replaceAll_skip, lastOf]

theorem replaceAll_none (text rest : Text)
    (none_ : ∀ front c back, text = front ++ c :: back → matcher (lastOf previous front) (c ::
      back ++ rest) = none) : replaceAll matcher 0 previous (text ++ rest) =
      text ++ replaceAll matcher 0 (lastOf previous text) rest := by
  induction text generalizing previous with
  | nil => rfl
  | cons c text ih =>
    have here := none_ [] c text rfl
    rw [lastOf, cons_append] at here
    rw [cons_append, replaceAll, here]
    dsimp only
    rw [ih (some c) fun front d back split => none_ (c :: front) d back (by rw [split]; rfl)]
    rfl

/-- A wall: in front of it a text is read as if it ended there. -/
structure Wall (wall : Text) : Prop where
  same : ∀ previous c front rest,
    matcher previous (c :: front ++ (wall ++ rest)) = matcher previous (c :: front)
  inside : ∀ previous c front found,
    matcher previous (c :: front) = some found → found.2 ≤ front.length + 1

variable {matcher}

theorem replaceAll_wall {wall : Text} (stands : Wall matcher wall) (rest front : Text) (skip : Nat)
    (previous : Option Char) (inside : skip ≤ front.length) :
    replaceAll matcher skip previous (front ++ (wall ++ rest)) =
      replaceAll matcher skip previous front ++
        replaceAll matcher 0 (lastOf previous front) (wall ++ rest) := by
  induction front generalizing skip previous with
  | nil =>
    obtain rfl : skip = 0 := Nat.le_zero.mp inside
    rfl
  | cons c front ih =>
    rw [length_cons] at inside
    cases skip with
    | succ skip => exact ih skip (some c) (by omega)
    | zero =>
      have same := stands.same previous c front rest
      rw [cons_append] at same
      rw [cons_append, replaceAll, replaceAll, same]
      cases found : matcher previous (c :: front) with
      | none =>
        dsimp only
        rw [ih 0 (some c) (Nat.zero_le _)]
        rfl
      | some match_ =>
        have short := stands.inside _ _ _ _ found
        dsimp only
        rw [ih (match_.2 - 1) (some c) (by omega), append_assoc]
        rfl

end Replace

end DracVms.JsReplace
