import DracVms.CameraStream.PublisherCommand

namespace DracVms.SourceUrl

open List

open PosixShell (Text plain inert)
open JsString (trim trimEnd)
open RtspUrl (decimal)
open PublisherCommand

theorem authority_plain (host : Text) (safe : host.all plain = true) :
    (RtspUrl.authority host).all plain = true := by
  unfold RtspUrl.authority
  split
  · simp only [cons_append, all_cons, all_append, safe, all_nil, Bool.and_true, Bool.true_and]
    decide
  · exact safe

variable (channel : Nat)

theorem dahuaPath_plain (subtype : Char) (safe : plain subtype = true) :
    (dahuaPath channel subtype).all plain = true := by
  have front : RtspUrl.dahuaChannel.all plain = true := by decide
  have middle : RtspUrl.dahuaSubtype.all plain = true := by decide
  simp only [dahuaPath, all_append, all_cons, all_nil, safe, RtspUrl.decimal_plain,
    front, middle, Bool.and_self]

theorem hikvisionPath_plain (stream : Char) (safe : plain stream = true) :
    (hikvisionPath channel stream).all plain = true := by
  have front : hikvisionChannels.all plain = true := by decide
  have zero : plain '0' = true := by decide
  simp only [hikvisionPath, all_append, all_cons, all_nil, safe,
    RtspUrl.decimal_plain, front, zero, Bool.and_self]

theorem mediaVideoPath_plain : (mediaVideoPath channel).all plain = true := by
  have front : mediaVideo.all plain = true := by decide
  simp only [mediaVideoPath, all_append, RtspUrl.decimal_plain, front, Bool.and_self]

/-- Where a URL of the row points, apart from its credentials: a plain location and a path. -/
structure Located (camera : StreamCamera) (url location path : Text) : Prop where
  shape : url = RtspUrl.rtspScheme ++
    (RtspUrl.credentials camera.username camera.password ++ '@' :: (location ++ path))
  plain_location : location.all plain = true
  path_starts : ∃ rest, path = '/' :: rest

variable (camera : StreamCamera)

theorem location_plain (host : Text) (safe : host.all plain = true) :
    (host ++ ':' :: decimal camera.rtspPort).all plain = true := by
  have colon : plain ':' = true := by decide
  simp only [all_append, all_cons, safe, RtspUrl.decimal_plain, colon, Bool.and_self]

/-- The path of a probed source: the one asked for with the row, or one made of numbers. -/
def probedPath (camera : StreamCamera) : ProbedSource → Text
  | .registered profile => RtspUrl.requestPath camera.rtspPath profile
  | .fixedPath path => path

variable (deployment : Deployment) (camera : StreamCamera)

theorem probedUrl_located (source : ProbedSource) (url : Text)
    (starts : ∃ rest, probedPath camera source = '/' :: rest)
    (found : probedUrl deployment camera source = some url) :
    ∃ location, Located camera url location (probedPath camera source) := by
  cases source with
  | registered profile =>
    obtain ⟨ip, allowed, built⟩ := Option.map_eq_some_iff.mp found
    have safe := RtspUrl.assertCameraTargetAllowed_plain _ _ ip allowed
    refine ⟨RtspUrl.authority ip ++ ':' :: decimal camera.rtspPort, ?_,
      location_plain camera _ (authority_plain ip safe), starts⟩
    rw [← built, append_assoc, cons_append]
    rfl
  | fixedPath path =>
    refine ⟨camera.ip ++ ':' :: decimal camera.rtspPort, ?_,
      location_plain camera _ (RtspUrl.address_plain camera.toCameraRow), starts⟩
    rw [← Option.some.inj found, append_assoc, cons_append]
    rfl

theorem Located.inert {camera : StreamCamera} {url location path : Text}
    (located : Located camera url location path) :
    PosixShell.inert url = PosixShell.inert path := by
  have scheme : RtspUrl.rtspScheme.all plain = true := by decide
  have sign : plain '@' = true := by decide
  have front : (RtspUrl.rtspScheme ++ (RtspUrl.credentials camera.username camera.password ++
      '@' :: location)).all plain = true := by
    simp only [all_append, all_cons, scheme, RtspUrl.credentials_plain, sign,
      located.plain_location, Bool.and_self]
  have whole := PosixShell.inert_plain_append _ path front
  rw [located.shape, ← whole]
  simp only [append_assoc, cons_append]

theorem trim_scheme (rest : Text) (c : Char) (after : Text) (before : Text)
    (shape : rest = before ++ c :: after) (kept : JsString.isBlank c = false) :
    trim (RtspUrl.rtspScheme ++ rest) = RtspUrl.rtspScheme ++ (before ++ c :: trimEnd after) := by
  have unchanged : (RtspUrl.rtspScheme ++ rest).dropWhile JsString.isBlank =
      RtspUrl.rtspScheme ++ rest := rfl
  rw [trim, unchanged, shape, ← append_assoc,
    RtspUrl.trimEnd_append_cons (RtspUrl.rtspScheme ++ before) c after kept, append_assoc]

theorem splitScheme_rtsp (rest : Text) :
    splitScheme (RtspUrl.rtspScheme ++ rest) = some (RtspUrl.rtspScheme, rest) := rfl

theorem semSegredo_located {camera : StreamCamera} {url location rest : Text}
    (located : Located camera url location ('/' :: rest)) :
    semSegredo url = some (RtspUrl.rtspScheme ++ (location ++ '/' :: trimEnd rest)) := by
  have solid : JsString.isBlank '/' = false := by decide
  have trimmed : trim url = RtspUrl.rtspScheme ++
      (RtspUrl.credentials camera.username camera.password ++
        '@' :: (location ++ '/' :: trimEnd rest)) := by
    rw [located.shape, trim_scheme _ '/' rest
      (RtspUrl.credentials camera.username camera.password ++ '@' :: location) (by simp) solid]
    simp only [append_assoc, cons_append]
  have written : trim url ≠ [] := by
    rw [trimmed]
    exact cons_ne_nil _ _
  have signed : (RtspUrl.credentials camera.username camera.password ++
      '@' :: (location ++ '/' :: trimEnd rest)).dropWhile (fun c => c != '@' && c != '/') =
      '@' :: (location ++ '/' :: trimEnd rest) := by
    rw [dropWhile_append_of_pos, dropWhile_cons_of_neg (by decide)]
    intro c member
    have delimited := RtspUrl.credentials_delimited _ _ c member
    simp only [bne_iff_ne.mpr delimited.1, bne_iff_ne.mpr delimited.2, Bool.and_self]
  simp only [semSegredo, written, ↓reduceIte]
  rw [trimmed, splitScheme_rtsp]
  simp only [signed]

theorem comSegredo_inert {camera : StreamCamera} {url location path noted : Text}
    (located : Located camera url location path)
    (found : comSegredo (semSegredo url) camera.username camera.password = some noted) :
    PosixShell.inert noted = PosixShell.inert (trimEnd path) := by
  obtain ⟨rest, begins⟩ := located.path_starts
  subst begins
  have solid : JsString.isBlank '/' = false := by decide
  have scheme : RtspUrl.rtspScheme.all plain = true := by decide
  have base : trim (RtspUrl.rtspScheme ++ (location ++ '/' :: trimEnd rest)) =
      RtspUrl.rtspScheme ++ (location ++ '/' :: trimEnd rest) := by
    rw [trim_scheme _ '/' (trimEnd rest) location rfl solid, JsString.trimEnd_trimEnd]
  have written : RtspUrl.rtspScheme ++ (location ++ '/' :: trimEnd rest) ≠ [] :=
    cons_ne_nil _ _
  have trimmedPath : trimEnd ('/' :: rest) = '/' :: trimEnd rest :=
    RtspUrl.trimEnd_append_cons [] '/' rest solid
  have bare : PosixShell.inert (RtspUrl.rtspScheme ++ (location ++ '/' :: trimEnd rest)) =
      PosixShell.inert (trimEnd ('/' :: rest)) := by
    rw [trimmedPath, PosixShell.inert_plain_append _ _ scheme,
      PosixShell.inert_plain_append _ _ located.plain_location]
  rw [semSegredo_located located] at found
  simp only [comSegredo, Option.getD_some, base, written, ↓reduceIte] at found
  split at found
  · rw [← Option.some.inj found]
    exact bare
  · rw [splitScheme_rtsp] at found
    rw [← Option.some.inj found, trimmedPath, PosixShell.inert_plain_append _ _ scheme,
      PosixShell.inert_plain_append _ _ (RtspUrl.credentials_plain _ _),
      ← singleton_append, PosixShell.inert_plain_append ['@'] _ (by decide),
      PosixShell.inert_plain_append _ _ located.plain_location]

/-- A path the service composes itself, of a vendor's words and of numbers. -/
inductive Composed : Text → Prop where
  | dahua (channel : Nat) (subtype : Char) (digit : subtype.isDigit = true) :
      Composed (dahuaPath channel subtype)
  | hikvision (channel : Nat) (stream : Char) (digit : stream.isDigit = true) :
      Composed (hikvisionPath channel stream)
  | mediaVideo (channel : Nat) : Composed (mediaVideoPath channel)

theorem Composed.plain {path : Text} (composed : Composed path) : path.all plain = true := by
  cases composed with
  | dahua channel subtype digit =>
    exact dahuaPath_plain channel subtype (RtspUrl.plain_of_digit subtype digit)
  | hikvision channel stream digit =>
    exact hikvisionPath_plain channel stream (RtspUrl.plain_of_digit stream digit)
  | mediaVideo channel => exact mediaVideoPath_plain channel

theorem Composed.starts {path : Text} (composed : Composed path) : ∃ rest, path = '/' :: rest := by
  cases composed with
  | dahua channel subtype digit | hikvision channel stream digit | mediaVideo channel =>
    exact ⟨_, rfl⟩

theorem alternateMainPath_composed (rtspPath : Option Text) (channel : Nat) (path : Text)
    (found : alternateMainPath rtspPath channel = some path) : Composed path := by
  simp only [alternateMainPath] at found
  split at found
  · rw [← Option.some.inj found]
    exact .hikvision channel '1' rfl
  · split at found
    · rw [← Option.some.inj found]
      exact .dahua channel '0' rfl
    · cases found

theorem alternateSubPath_composed (rtspPath : Option Text) (channel : Nat) (path : Text)
    (found : alternateSubPath rtspPath channel = some path) : Composed path := by
  simp only [alternateSubPath] at found
  split at found
  · rw [← Option.some.inj found]
    exact .dahua channel '1' rfl
  · split at found
    · rw [← Option.some.inj found]
      exact .hikvision channel '2' rfl
    · cases found

theorem liveSources_composed (profile : RtspUrl.Profile) (path : Text)
    (offered : .fixedPath path ∈ liveSources camera profile) : Composed path := by
  simp only [liveSources, mem_cons, reduceCtorEq, mem_map, Option.mem_toList, false_or] at offered
  obtain ⟨alternate, found, same⟩ := offered
  cases same
  exact alternateMainPath_composed _ _ _ found

theorem gridSources_composed (path : Text) (offered : .fixedPath path ∈ gridSources camera) :
    Composed path := by
  simp only [gridSources, cons_append, mem_cons, reduceCtorEq, mem_append,
    mem_map, Option.mem_toList, not_mem_nil, or_false, false_or,
    ProbedSource.fixedPath.injEq] at offered
  rcases offered with ⟨alternate, found, same⟩ | media | dahua | hikvision
  · cases same
    exact alternateSubPath_composed _ _ _ found
  · rw [media]
    exact .mediaVideo _
  · rw [dahua]
    exact .dahua _ _ rfl
  · rw [hikvision]
    exact .hikvision _ _ rfl

theorem sourceChoices_composed (mode : LiveViewMode) (path : Text)
    (offered : .probed (.fixedPath path) ∈ sourceChoices camera mode ∨
      .noted (.fixedPath path) ∈ sourceChoices camera mode) :
    Composed path := by
  have listed : (∃ profile, .fixedPath path ∈ liveSources camera profile) ∨
      .fixedPath path ∈ gridSources camera := by
    unfold sourceChoices at offered
    split at offered
    · simp at offered
    · cases mode <;> simp only [mem_append, mem_map, SourceChoice.probed.injEq,
        SourceChoice.noted.injEq, reduceCtorEq, and_false, exists_false, exists_eq_right, or_false,
        false_or] at offered
      case original => exact Or.inl ⟨_, offered⟩
      case originalAudio => exact Or.inl ⟨_, offered⟩
      all_goals
        rcases offered with (inGrid | inLive) | noted
        · exact Or.inr inGrid
        · exact Or.inl ⟨_, inLive⟩
        · exact Or.inr noted
  rcases listed with ⟨profile, inLive⟩ | inGrid
  · exact liveSources_composed camera profile path inLive
  · exact gridSources_composed camera path inGrid

/-- Whether the row's own text, as it stands in the URL of a source, means nothing to a shell
between double quotes. -/
def shellSafe (deployment : Deployment) (camera : StreamCamera) : SourceChoice → Bool
  | .probed (.registered _) => inert (camera.rtspPath.getD [])
  | .noted (.registered _) => inert (trimEnd (camera.rtspPath.getD []))
  | .probed (.fixedPath _) => true
  | .noted (.fixedPath _) => true
  | .published => inert (deployment.internalRtspUrl ++ ['/'])

theorem published_inert : PosixShell.inert (deployment.internalRtspUrl ++
      '/' :: RtspUrl.encodeURIComponent camera.ingestPath) =
      PosixShell.inert (deployment.internalRtspUrl ++ ['/']) := by
  rw [PosixShell.inert_append_cons _ '/' _ (by decide),
    RtspUrl.inert_of_plain _ (RtspUrl.encodeURIComponent_plain _), Bool.and_true]

theorem sourceUrl_inert (mode : LiveViewMode) (choice : SourceChoice) (url : Text)
    (offered : choice ∈ sourceChoices camera mode)
    (found : sourceUrl deployment camera choice = some url) :
    PosixShell.inert url = shellSafe deployment camera choice := by
  cases choice with
  | published =>
    rw [← Option.some.inj found]
    exact published_inert deployment camera
  | probed source =>
    cases source with
    | registered profile =>
      obtain ⟨location, located⟩ := probedUrl_located deployment camera (.registered profile) url
        (RtspUrl.requestPath_starts _ _) found
      rw [located.inert]
      exact (RtspUrl.requestPath_alike camera.rtspPath profile).whole
    | fixedPath path =>
      have composed := sourceChoices_composed camera mode path (Or.inl offered)
      obtain ⟨location, located⟩ := probedUrl_located deployment camera (.fixedPath path) url
        composed.starts found
      rw [located.inert]
      exact RtspUrl.inert_of_plain path composed.plain
  | noted source =>
    obtain ⟨first, probed, noted⟩ := Option.bind_eq_some_iff.mp found
    cases source with
    | registered profile =>
      obtain ⟨location, located⟩ := probedUrl_located deployment camera (.registered profile) first
        (RtspUrl.requestPath_starts _ _) probed
      rw [comSegredo_inert located noted]
      exact (RtspUrl.requestPath_alike camera.rtspPath profile).trimmed
    | fixedPath path =>
      have composed := sourceChoices_composed camera mode path (Or.inr offered)
      obtain ⟨location, located⟩ := probedUrl_located deployment camera (.fixedPath path) first
        composed.starts probed
      rw [comSegredo_inert located noted]
      have trimmed : (trimEnd path).all plain = true :=
        all_eq_true.mpr fun c member =>
          all_eq_true.mp composed.plain c (RtspUrl.trimEnd_sublist path c member)
      exact RtspUrl.inert_of_plain _ trimmed

end DracVms.SourceUrl
