import DracVms.Common.SensitiveText

namespace DracVms.MemoriaDoMosaico

open Json (Text)
open JsString (isBlank trim trimEnd trimEnd_trimEnd)
open RtspUrl (credentials trimEnd_append_cons)
open SensitiveText (isWord)

/-- `^(\w+:\/\/)` and what follows. -/
def esquema (texto : Text) : Option (Text × Text) :=
  let palavra := texto.takeWhile isWord
  match texto.dropWhile isWord with
  | ':' :: '/' :: '/' :: resto =>
    if palavra = [] then none else some (palavra ++ "://".toList, resto)
  | _ => none

/-- `^(\w+:\/\/)[^@/]*@`, replaced by its first group. -/
def semCredencial (bruto : Text) : Text :=
  match esquema bruto with
  | none => bruto
  | some (inicio, resto) =>
    match resto.dropWhile fun c => c ≠ '@' && c ≠ '/' with
    | '@' :: depois => inicio ++ depois
    | _ => bruto

def semSegredo (url : Option Text) : Option Text :=
  let bruto := trim (url.getD [])
  if bruto = [] then none else some (semCredencial bruto)

/-- The credentials have no `$`, so the replacement is inserted as it is written. -/
def comSegredo (urlSemSegredo usuario senha : Option Text) : Option Text :=
  let base := trim (urlSemSegredo.getD [])
  if base = [] then none
  else
    let u := trim (usuario.getD [])
    if u = [] then some base
    else
      match esquema base with
      | none => some base
      | some (inicio, resto) => some (inicio ++ credentials u (senha.getD []) ++ '@' :: resto)

theorem esquema_rtsp (resto : Text) :
    esquema ("rtsp://".toList ++ resto) = some ("rtsp://".toList, resto) := rfl

/-- Nothing is trimmed in front of a URL. -/
theorem trim_rtsp (resto : Text) :
    trim ("rtsp://".toList ++ resto) = "rtsp://".toList ++ trimEnd resto := by
  have slash := trimEnd_append_cons "rtsp:/".toList '/' resto (by decide)
  have begins : ("rtsp://".toList ++ resto).dropWhile isBlank = "rtsp://".toList ++ resto := rfl
  rw [trim, begins]
  exact slash

theorem semSegredo_url {secret : Text} (apart : ∀ c ∈ secret, c ≠ '@' ∧ c ≠ '/') (resto : Text) :
    semSegredo (some ("rtsp://".toList ++ (secret ++ '@' :: resto))) =
      some ("rtsp://".toList ++ trimEnd resto) := by
  have inside : ∀ c ∈ secret, (decide (c ≠ '@') && decide (c ≠ '/')) = true := by
    intro c member
    simp [apart c member]
  have past : (secret ++ '@' :: trimEnd resto).dropWhile (fun c => c ≠ '@' && c ≠ '/') =
      '@' :: trimEnd resto := by
    rw [List.dropWhile_append_of_pos inside]
    rfl
  have trimmed := trim_rtsp (secret ++ '@' :: resto)
  rw [trimEnd_append_cons secret '@' resto (by decide)] at trimmed
  have some_ : "rtsp://".toList ++ (secret ++ '@' :: trimEnd resto) ≠ [] := by simp
  unfold semSegredo
  rw [Option.getD_some, trimmed]
  dsimp only
  rw [if_neg some_, semCredencial, esquema_rtsp]
  dsimp only
  rw [past]
  rfl

theorem comSegredo_url {usuario : Text} (senha resto : Text) (some_ : trim usuario ≠ []) :
    comSegredo (some ("rtsp://".toList ++ trimEnd resto)) (some usuario) (some senha) =
      some ("rtsp://".toList ++ (credentials (trim usuario) senha ++ '@' :: trimEnd resto)) := by
  have trimmed := trim_rtsp (trimEnd resto)
  rw [trimEnd_trimEnd] at trimmed
  have begins : "rtsp://".toList ++ trimEnd resto ≠ [] := by simp
  unfold comSegredo
  rw [Option.getD_some, Option.getD_some, Option.getD_some, trimmed]
  dsimp only
  rw [if_neg begins, if_neg some_, esquema_rtsp]
  simp only [List.append_assoc]

/-- Without a user name the annotated URL is returned as it is. -/
theorem comSegredo_userless {usuario : Text} (senha resto : Text) (none_ : trim usuario = []) :
    comSegredo (some ("rtsp://".toList ++ trimEnd resto)) (some usuario) (some senha) =
      some ("rtsp://".toList ++ trimEnd resto) := by
  have trimmed := trim_rtsp (trimEnd resto)
  rw [trimEnd_trimEnd] at trimmed
  have begins : "rtsp://".toList ++ trimEnd resto ≠ [] := by simp
  unfold comSegredo
  rw [Option.getD_some, Option.getD_some, Option.getD_some, trimmed]
  dsimp only
  rw [if_neg begins, if_pos none_]

end DracVms.MemoriaDoMosaico
