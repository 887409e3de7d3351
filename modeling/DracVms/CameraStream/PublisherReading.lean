import DracVms.CameraStream.SourceUrl

namespace DracVms.PublisherReading

open List PosixShell
open PublisherCommand
open RtspUrl (decimal)

/-- A text read from one state to another, and the events it leaves after quote removal. -/
def Passes (before : Reader) (text : Text) (after : Reader) (events : List Event) : Prop :=
  (run before text).1 = after ∧ quoteRemoval (run before text).2 = events

instance (before : Reader) (text : Text) (after : Reader) (events : List Event) :
    Decidable (Passes before text after events) := by
  unfold Passes
  infer_instance

theorem Passes.append {before middle after : Reader} {first second : Text} {left right : List Event}
    (here : Passes before first middle left) (next : Passes middle second after right) :
    Passes before (first ++ second) after (left ++ right) := by
  constructor
  · rw [run_append, here.1, next.1]
  · rw [run_append, quoteRemoval_append, here.1, here.2, next.2]

def plainWord (text : String) : Lexeme := .word [.bare text.toList]

def plainWords (texts : List String) : List Lexeme := texts.map plainWord

/-- `2>/dev/null` -/
def silenced : List Lexeme := [.ioNumber ['2'], .operator ['>'], plainWord "/dev/null"]

/-- The loop over the processes up to the word that holds the path. -/
def cleanUpSearch : List Lexeme :=
  plainWords ["for", "d", "in", "/proc/[0-9]*"] ++ [.operator [';'], plainWord "do",
    .word [.bare "c=".toList, .substitution false
      ([plainWord "cat", .word [.parameter true ['d'], .quoted "/comm".toList]] ++ silenced)],
    .operator [';'], plainWord "[", .word [.parameter true ['c']], plainWord "=",
    plainWord "ffmpeg", plainWord "]", .operator "||".toList, plainWord "continue",
    .operator [';'], plainWord "tr", .word [.quoted "\\0".toList], .word [.quoted [' ']],
    .operator ['<'], .word [.parameter true ['d'], .quoted "/cmdline".toList]] ++ silenced ++
    [.operator ['|'], plainWord "grep", plainWord "-qF"]

/-- The rest of the loop, up to its last word. -/
def cleanUpKill : List Lexeme :=
  [.operator "&&".toList, plainWord "kill", plainWord "-9",
    .word [.substitution true [plainWord "basename", .word [.parameter true ['d']]]]] ++ silenced ++
    [.operator [';']]

/-- The intended clean-up loop of a path. -/
def cleanUpLoop (pathName : Text) : List Lexeme :=
  cleanUpSearch ++ [.word [.quoted ('/' :: (pathName ++ [' ']))]] ++ cleanUpKill ++ [plainWord "done"]

/-- The options of the invocation up to its input. -/
def optionsBeforeInput (transport : Transport) : List Lexeme :=
  plainWords ["exec", "ffmpeg", "-nostdin", "-hide_banner", "-loglevel", "warning", "-fflags",
    "+genpts+discardcorrupt+nobuffer", "-analyzeduration", "1000000", "-probesize", "1000000",
    "-flags", "low_delay", "-err_detect", "careful", "-rtsp_transport"] ++
    [.word [.bare transport.text], plainWord "-i"]

def optionsAfterInput : List Lexeme := plainWords ["-map", "0:v:0"]

def encodeOptions : List Lexeme :=
  plainWords ["-threads", "2", "-c:v", "libx264", "-preset", "veryfast", "-tune", "zerolatency",
    "-profile:v", "main", "-crf", "23", "-maxrate"]

def pictureOptions : List Lexeme :=
  plainWords ["-pix_fmt", "yuv420p", "-g", "30", "-keyint_min", "15", "-sc_threshold", "0",
    "-bf", "0", "-refs", "2", "-vf"]

def videoLexemes (deployment : Deployment) (mode : LiveViewMode) (selected : SelectedSource) :
    List Lexeme :=
  if copiesVideo mode selected then plainWords ["-c:v", "copy"]
  else
    let rate : Lexeme :=
      .word [.bare (decimal (deliveryBitrateKbps deployment mode selected)), .bare ['k']]
    encodeOptions ++ [rate] ++ plainWords ["-bufsize"] ++ [rate] ++ pictureOptions ++
      [.word [.quoted (gridScaleFilter deployment)]]

def audioLexemes (mode : LiveViewMode) : List Lexeme :=
  if wantsAudio mode then
    plainWords ["-map", "0:a:0?", "-c:a", "libopus", "-b:a", "64k", "-ac", "1", "-ar", "48000"]
  else plainWords ["-an"]

def outputOptions : List Lexeme :=
  plainWords ["-f", "rtsp", "-rtsp_transport", "tcp", "-muxdelay", "0.1", "-pkt_size", "1200"]

/-- The media server itself, whose port its environment gives. -/
def internalHost : List Part :=
  [.quoted "rtsp://127.0.0.1:".toList, .parameter true "RTSP_PORT".toList]

def internalUrl (pathName : Text) : List Part := internalHost ++ [.quoted ('/' :: pathName)]

/-- The intended invocation, `-i` being followed by the given word. -/
def ffmpegInvocation (deployment : Deployment) (camera : StreamCamera) (mode : LiveViewMode)
    (selected : SelectedSource) (input : List Part) : List Lexeme :=
  optionsBeforeInput (rtspTransport deployment camera) ++ [.word input] ++ optionsAfterInput ++
    videoLexemes deployment mode selected ++ audioLexemes mode ++ outputOptions ++
    [.word (internalUrl (pathNameFromCameraId camera.id mode))]

/-- The word after `-i`: the source URL itself, or the private relay of the same camera. -/
def intendedInput (deployment : Deployment) (camera : StreamCamera) (mode : LiveViewMode)
    (url : Text) : List Part :=
  if hasHop deployment camera then
    internalUrl (privateSourcePathName (pathNameFromCameraId camera.id mode))
  else [.quoted url]

def insideQuotes : Reader := within .double []

def inWord : Reader := ⟨[], .none, .inside⟩

theorem search_passes : Passes start searchText insideQuotes
      (lexemesEvents cleanUpSearch ++ [.literal .quoted '/']) := by
  decide +kernel

theorem kill_passes : Passes insideQuotes killText inWord
      ([.literal .quoted ' ', .wordEnd] ++ lexemesEvents cleanUpKill ++
        partsEvents [.bare "done".toList]) := by
  decide +kernel

theorem beforeInput_passes (transport : Transport) :
    Passes inWord (execText ++ beforeInput transport) insideQuotes
      ([.wordEnd] ++ ([.operator [';']] ++ lexemesEvents (optionsBeforeInput transport))) := by
  cases transport <;> decide +kernel

theorem map_passes :
    Passes inWord mapText start ([.wordEnd] ++ lexemesEvents optionsAfterInput) := by
  decide +kernel

theorem copy_passes :
    Passes start (copyArgs ++ [' ']) start (lexemesEvents (plainWords ["-c:v", "copy"])) := by
  decide +kernel

theorem encode_passes : Passes start encodeText start (lexemesEvents encodeOptions) := by
  decide +kernel

theorem buffer_passes : Passes ⟨[], .none, .digits⟩ bufferText start
      ([.literal .bare 'k', .wordEnd] ++ lexemesEvents (plainWords ["-bufsize"])) := by
  decide +kernel

theorem picture_passes : Passes ⟨[], .none, .digits⟩ pictureText insideQuotes
      ([.literal .bare 'k', .wordEnd] ++ lexemesEvents pictureOptions) := by
  decide +kernel

theorem audio_passes (mode : LiveViewMode) :
    Passes start (audioArgs mode ++ [' ']) start (lexemesEvents (audioLexemes mode)) := by
  cases mode <;> decide +kernel

theorem output_passes : Passes start outputText insideQuotes (lexemesEvents outputOptions) := by
  decide +kernel

theorem blank_passes : Passes inWord [' '] start [.wordEnd] := by
  decide +kernel

theorem internalHost_passes : Passes insideQuotes internalHostText insideQuotes
      (partsEvents internalHost ++ [.literal .quoted '/']) := by
  decide +kernel

theorem quoted_passes (text : Text) (safe : text.all plain = true) :
    Passes insideQuotes text insideQuotes (text.map (.literal .quoted)) := by
  rw [Passes, insideQuotes, run_double_plain [] text safe]
  exact ⟨rfl, quoteRemoval_quoted text⟩

theorem closed_passes (text : Text) (safe : inert text = true) :
    Passes insideQuotes (text ++ ['"']) inWord (text.map (.literal .quoted)) := by
  rw [Passes, insideQuotes, run_double_inert [] text safe, quoteRemoval_append, quoteRemoval_quoted]
  exact ⟨rfl, append_nil _⟩

theorem internalUrl_passes (pathName : Text) (safe : pathName.all plain = true) :
    Passes insideQuotes (buildInternalPublishRtspUrl pathName ++ ['"']) inWord
      (partsEvents (internalUrl pathName)) := by
  have back := closed_passes pathName (RtspUrl.inert_of_plain pathName safe)
  have whole := internalHost_passes.append back
  rw [internalUrl, partsEvents_append, partsEvents_quoted, map_cons,
    buildInternalPublishRtspUrl, append_assoc]
  rwa [append_assoc, singleton_append] at whole

theorem rate_passes (n : Nat) (rest : Text) (after : Reader) (events : List Event)
    (next : Passes ⟨[], .none, .digits⟩ rest after ([.literal .bare 'k', .wordEnd] ++ events)) :
    Passes start (decimal n ++ rest) after
      (lexemesEvents [.word [.bare (decimal n), .bare ['k']]] ++ events) := by
  have digits : (decimal n).all Char.isDigit = true :=
    all_eq_true.mpr fun c member => RtspUrl.decimal_digits n c member
  have here : Passes start (decimal n) ⟨[], .none, .digits⟩ ((decimal n).map (.literal .bare)) := by
    rw [Passes, start, run_bare_digits .outside (decimal n) (by decide) (RtspUrl.decimal_ne_nil n)
      digits]
    exact ⟨rfl, quoteRemoval_bare _⟩
  have whole := here.append next
  rw [lexemesEvents_word, partsEvents, partsEvents, partsEvents, Part.events, Part.events]
  simpa only [append_assoc, append_nil, map_cons, map_nil, cons_append, nil_append] using whole

variable (deployment : Deployment)

theorem gridScaleFilter_plain : (gridScaleFilter deployment).all plain = true := by
  have width : scaleWidthText.all plain = true := by decide +kernel
  have height : scaleHeightText.all plain = true := by decide +kernel
  have rate : scaleRateText.all plain = true := by decide +kernel
  simp only [gridScaleFilter, all_append, width, height, rate, RtspUrl.decimal_plain, Bool.and_true]

theorem encodeArgs_passes (n : Nat) :
    Passes start (encodeArgs n (gridScaleFilter deployment) ++ [' ']) start
      (lexemesEvents (encodeOptions ++ [.word [.bare (decimal n), .bare ['k']]] ++
        plainWords ["-bufsize"] ++ [.word [.bare (decimal n), .bare ['k']]] ++ pictureOptions ++
        [.word [.quoted (gridScaleFilter deployment)]])) := by
  have filter := closed_passes (gridScaleFilter deployment)
    (RtspUrl.inert_of_plain _ (gridScaleFilter_plain deployment))
  have picture := picture_passes.append (filter.append blank_passes)
  rw [append_assoc] at picture
  have buffer := buffer_passes.append (rate_passes n _ _ _ picture)
  rw [append_assoc] at buffer
  have whole := encode_passes.append (rate_passes n _ _ _ buffer)
  simp only [encodeArgs, lexemesEvents_append, lexemesEvents_word, partsEvents_quoted,
    append_assoc] at whole ⊢
  exact whole

theorem pathName_plain (cameraId : Text) (mode : LiveViewMode) :
    (pathNameFromCameraId cameraId mode).all plain = true := by
  have front : pathPrefix.all plain = true := by decide
  have suffix : (pathSuffix mode).all plain = true := by cases mode <;> decide
  have kept : (cameraId.filter Char.isAlphanum).all plain = true := by
    apply all_eq_true.mpr
    intro c member
    exact RtspUrl.plain_of_alphanum c (mem_filter.mp member).2
  simp only [pathNameFromCameraId, all_append, front, kept, suffix, Bool.and_self]

theorem prekill_passes (pathName : Text) (safe : pathName.all plain = true) :
    Passes start (prekill pathName) inWord
      (lexemesEvents (cleanUpSearch ++ [.word [.quoted ('/' :: (pathName ++ [' ']))]] ++
        cleanUpKill) ++ partsEvents [.bare "done".toList]) := by
  have whole := search_passes.append ((quoted_passes pathName safe).append kill_passes)
  rw [lexemesEvents_append, lexemesEvents_append, lexemesEvents_word, partsEvents_quoted]
  simp only [map_cons, map_append, map_nil, append_assoc, cons_append, nil_append] at whole ⊢
  exact whole

theorem Passes.reads {text : Text} {lexemes : List Lexeme} {parts : List Part}
    (passes : Passes start text inWord (lexemesEvents lexemes ++ partsEvents parts)) :
    ReadsAs text (lexemes ++ [.word parts]) := by
  have ended : inWord.stack = [] ∨ inWord.stack = [.comment] := Or.inl rfl
  rw [ReadsAs, readText]
  simp only [passes.1]
  rw [if_pos ended, Option.map_some, quoteRemoval_append, passes.2, lexemesEvents_append,
    lexemesEvents_word, append_assoc]
  rfl

theorem prekill_reads (pathName : Text) (safe : pathName.all plain = true) :
    ReadsAs (prekill pathName) (cleanUpLoop pathName) :=
  (prekill_passes pathName safe).reads

theorem shellQuote_reads (script : Text) : ReadsAs (shText ++ shellQuote script)
      (plainWords ["sh", "-c"] ++ [.word [.quoted script]]) := by
  obtain ⟨events, reading, removed⟩ := run_single_embedded script
  have command : Passes start shText start (lexemesEvents (plainWords ["sh", "-c"])) := by
    decide +kernel
  have opening : Passes start ['\''] (within .single []) [] := by
    decide +kernel
  have middle : Passes (within .single []) (script.flatMap embedQuote) (within .single [])
      (script.map (.literal .quoted)) := by
    rw [Passes, reading]
    exact ⟨rfl, removed⟩
  have closing : Passes (within .single []) ['\''] inWord [] := by
    decide +kernel
  have whole := command.append (opening.append (middle.append closing))
  rw [nil_append, append_nil, ← partsEvents_quoted] at whole
  exact whole.reads

theorem video_passes (mode : LiveViewMode) (selected : SelectedSource) :
    Passes start (videoArgs deployment mode selected ++ [' ']) start
      (lexemesEvents (videoLexemes deployment mode selected)) := by
  unfold videoArgs videoLexemes
  split
  · exact copy_passes
  · exact encodeArgs_passes deployment _

theorem runOnDemandScript_reads (camera : StreamCamera) (mode : LiveViewMode)
    (selected : SelectedSource) (input : List Part)
    (inputPasses : Passes insideQuotes
      (privateSourceUrl deployment camera mode selected.sourceUrl ++ ['"']) inWord
      (partsEvents input)) :
    ReadsAs (runOnDemandScript deployment camera mode selected)
      (cleanUpLoop (pathNameFromCameraId camera.id mode) ++ [.operator [';']] ++
        ffmpegInvocation deployment camera mode selected input) := by
  have safe := pathName_plain camera.id mode
  have last : lexemesEvents [plainWord "done"] =
      partsEvents [.bare "done".toList] ++ [.wordEnd] := lexemesEvents_word _
  have options := beforeInput_passes (rtspTransport deployment camera)
  have output := output_passes.append (internalUrl_passes _ safe)
  have audio := (audio_passes mode).append output
  have video := (video_passes deployment mode selected).append audio
  have after := map_passes.append video
  have whole := (prekill_passes _ safe).append (options.append (inputPasses.append after))
  have arranged : Passes start (runOnDemandScript deployment camera mode selected) inWord
      (lexemesEvents (cleanUpLoop (pathNameFromCameraId camera.id mode) ++ [.operator [';']] ++
        optionsBeforeInput (rtspTransport deployment camera) ++ [.word input] ++
        optionsAfterInput ++ videoLexemes deployment mode selected ++ audioLexemes mode ++
        outputOptions) ++ partsEvents (internalUrl (pathNameFromCameraId camera.id mode))) := by
    simp only [runOnDemandScript, ffmpegCommand, afterInput, cleanUpLoop, lexemesEvents_append,
      last, lexemesEvents_word, append_assoc] at whole ⊢
    exact whole
  have reads := arranged.reads
  rw [ffmpegInvocation]
  simpa only [append_assoc] using reads

end DracVms.PublisherReading
