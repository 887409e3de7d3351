import DracVms.Cameras.RtspUrl

namespace DracVms.PublisherCommand

open PosixShell (Text)
open JsString (trim)
open RtspUrl (CameraRow CameraNetwork Profile decimal encodeURIComponent)

inductive LiveViewMode where
  | grid
  | gridAudio
  | gridHevc
  | original
  | originalAudio
deriving DecidableEq, Repr

inductive Transport where
  | tcp
  | udp
deriving DecidableEq, Repr

def Transport.text : Transport → Text
  | .tcp => "tcp".toList
  | .udp => "udp".toList

/-- What the installation fixes, and no camera row can change. -/
structure Deployment where
  network : CameraNetwork
  usePrivateSourceHop : Bool
  internalRtspUrl : Text
  ffmpegRtspTransport : Transport
  gridLiveMaxWidth : Nat
  gridLiveMaxHeight : Nat
  gridLiveTargetFps : Nat
  gridLiveBitrateKbps : Nat

/-- The row with the fields that only live delivery reads. -/
structure StreamCamera extends CameraRow where
  pushSourced : Bool
  ingestPath : Text
  preferredRtspTransport : Option Transport

def pathSuffix : LiveViewMode → Text
  | .grid => "_grid".toList
  | .gridAudio => "_grid_audio".toList
  | .gridHevc => "_grid_hevc".toList
  | .originalAudio => "_orig_audio".toList
  | .original => "_orig".toList

def pathPrefix : Text := "cam_".toList

def pathNameFromCameraId (cameraId : Text) (mode : LiveViewMode) : Text :=
  pathPrefix ++ (cameraId.filter Char.isAlphanum ++ pathSuffix mode)

def sourceSuffix : Text := "_source".toList

def privateSourcePathName (pathName : Text) : Text := pathName ++ sourceSuffix

/-- `text.toLowerCase().includes(part)` for a lower-case ASCII part. -/
def mentions (text part : Text) : Bool :=
  (text.map Char.toLower).tails.any fun rest => part.isPrefixOf rest

def dahuaPath (channel : Nat) (subtype : Char) : Text :=
  RtspUrl.dahuaChannel ++ decimal channel ++ RtspUrl.dahuaSubtype ++ [subtype]

def hikvisionChannels : Text := "/Streaming/Channels/".toList

def hikvisionPath (channel : Nat) (stream : Char) : Text :=
  hikvisionChannels ++ decimal channel ++ ['0', stream]

def mediaVideo : Text := "/media/video".toList

def mediaVideoPath (channel : Nat) : Text := mediaVideo ++ decimal (channel + 1)

def alternateMainPath (rtspPath : Option Text) (channel : Nat) : Option Text :=
  let p := rtspPath.getD []
  if mentions p "realmonitor".toList then some (hikvisionPath channel '1')
  else if mentions p "/streaming/channels".toList then some (dahuaPath channel '0')
  else none

def alternateSubPath (rtspPath : Option Text) (channel : Nat) : Option Text :=
  let p := rtspPath.getD []
  if mentions p "/streaming/channels".toList then some (dahuaPath channel '1')
  else if mentions p "realmonitor".toList then some (hikvisionPath channel '2')
  else none

/-- A source that is asked for with the credentials of the row. -/
inductive ProbedSource where
  | registered (profile : Profile)
  | fixedPath (path : Text)
deriving DecidableEq, Repr

/-- Which source a selection ended with: a probed one, the note of an earlier probe, or the
publication of a camera that pushes its own stream. -/
inductive SourceChoice where
  | probed (source : ProbedSource)
  | noted (source : ProbedSource)
  | published
deriving DecidableEq, Repr

def probedUrl (deployment : Deployment) (camera : StreamCamera) : ProbedSource → Option Text
  | .registered profile => RtspUrl.buildRtspUrl deployment.network camera.toCameraRow profile
  | .fixedPath path =>
    some (RtspUrl.rtspScheme ++ (RtspUrl.credentials camera.username camera.password ++
      '@' :: (camera.ip ++ ':' :: (decimal camera.rtspPort ++ path))))

/-- `^(\w+:\/\/)` -/
def splitScheme (url : Text) : Option (Text × Text) :=
  let scheme := url.takeWhile fun c => c.isAlphanum || c == '_'
  let rest := url.dropWhile fun c => c.isAlphanum || c == '_'
  if scheme ≠ [] ∧ [':', '/', '/'].isPrefixOf rest then
    some (scheme ++ [':', '/', '/'], rest.drop 3)
  else none

/-- The note keeps the URL without what stands between the scheme and the first at sign. -/
def semSegredo (url : Text) : Option Text :=
  let bruto := trim url
  if bruto = [] then none
  else match splitScheme bruto with
    | none => some bruto
    | some (scheme, rest) =>
      match rest.dropWhile fun c => c != '@' && c != '/' with
      | '@' :: after => some (scheme ++ after)
      | _ => some bruto

def comSegredo (urlSemSegredo : Option Text) (usuario senha : Text) : Option Text :=
  let base := trim (urlSemSegredo.getD [])
  if base = [] then none
  else
    let u := trim usuario
    if u = [] then some base
    else match splitScheme base with
      | none => some base
      | some (scheme, rest) => some (scheme ++ (RtspUrl.credentials u senha ++ '@' :: rest))

def sourceUrl (deployment : Deployment) (camera : StreamCamera) : SourceChoice → Option Text
  | .probed source => probedUrl deployment camera source
  | .noted source =>
    (probedUrl deployment camera source).bind fun url =>
      comSegredo (semSegredo url) camera.username camera.password
  | .published =>
    some (deployment.internalRtspUrl ++ '/' :: encodeURIComponent camera.ingestPath)

def liveSources (camera : StreamCamera) (profile : Profile) : List ProbedSource :=
  .registered profile :: (alternateMainPath camera.rtspPath profile.channel).toList.map .fixedPath

def gridSources (camera : StreamCamera) : List ProbedSource :=
  let subProfile := RtspUrl.resolveGridRtspProfile camera.toCameraRow
  .registered subProfile ::
    (alternateSubPath camera.rtspPath subProfile.channel).toList.map .fixedPath ++
    [.fixedPath (mediaVideoPath subProfile.channel),
     .fixedPath (dahuaPath subProfile.channel '2'),
     .fixedPath (hikvisionPath subProfile.channel '3')]

/-- Every source the selection of a delivery mode can end with, whatever the probes answer. -/
def sourceChoices (camera : StreamCamera) (mode : LiveViewMode) : List SourceChoice :=
  if camera.pushSourced then [.published]
  else match mode with
    | .original | .originalAudio =>
      (liveSources camera (RtspUrl.resolveOriginalRtspProfile camera.toCameraRow)).map .probed
    | .grid | .gridAudio | .gridHevc =>
      (gridSources camera).map .probed ++ (gridSources camera).map .noted ++
        (liveSources camera (RtspUrl.resolveLiveRtspProfile camera.toCameraRow)).map .probed

/-- What the probes said about the selected source. -/
structure SelectedSource where
  sourceUrl : Text
  isHevc : Bool
  requiresSanitization : Bool
  usedSubStream : Bool
  copiar : Bool
  instantBitrateKbps : Nat

def wantsAudio (mode : LiveViewMode) : Bool := mode = .gridAudio || mode = .originalAudio

def sanitizeGridSource (mode : LiveViewMode) (selected : SelectedSource) : Bool :=
  (mode = .grid || mode = .gridAudio) && !selected.isHevc && selected.requiresSanitization

def needsPublisher (mode : LiveViewMode) (selected : SelectedSource) : Bool :=
  let codecPassthroughMode := mode = .original || mode = .gridHevc
  wantsAudio mode ||
    (!codecPassthroughMode && (selected.isHevc || sanitizeGridSource mode selected))

def scaleWidthText : Text := "scale=w='min(iw,".toList

def scaleHeightText : Text := ")':h='min(ih,".toList

def scaleRateText : Text :=
  ")':force_original_aspect_ratio=decrease:force_divisible_by=2,fps=".toList

def gridScaleFilter (deployment : Deployment) : Text :=
  scaleWidthText ++ (decimal deployment.gridLiveMaxWidth ++
    (scaleHeightText ++ (decimal deployment.gridLiveMaxHeight ++
      (scaleRateText ++ decimal deployment.gridLiveTargetFps))))

/-- Whether the publisher copies the video, as `videoArgs` decides it. -/
def copiesVideo (mode : LiveViewMode) (selected : SelectedSource) : Bool :=
  let copiaNaGrade :=
    (mode = .grid || (mode = .gridAudio && selected.usedSubStream)) && selected.copiar
  let videoJaServe :=
    !selected.isHevc && ((mode ≠ .grid && mode ≠ .gridAudio) || copiaNaGrade)
  (sanitizeGridSource mode selected && mode = .grid) || videoJaServe

def deliveryBitrateKbps (deployment : Deployment) (mode : LiveViewMode)
    (selected : SelectedSource) : Nat :=
  if mode = .gridAudio then selected.instantBitrateKbps else deployment.gridLiveBitrateKbps

def encodeText : Text :=
  "-threads 2 -c:v libx264 -preset veryfast -tune zerolatency -profile:v main ".toList ++
    "-crf 23 -maxrate ".toList

def bufferText : Text := "k -bufsize ".toList

def pictureText : Text :=
  "k -pix_fmt yuv420p ".toList ++ "-g 30 -keyint_min 15 -sc_threshold 0 -bf 0 -refs 2 -vf \"".toList

def encodeArgs (bitrateKbps : Nat) (filter : Text) : Text :=
  encodeText ++ (decimal bitrateKbps ++ (bufferText ++ (decimal bitrateKbps ++
    (pictureText ++ (filter ++ ['"'])))))

def copyArgs : Text := "-c:v copy".toList

def videoArgs (deployment : Deployment) (mode : LiveViewMode) (selected : SelectedSource) : Text :=
  if copiesVideo mode selected then copyArgs
  else encodeArgs (deliveryBitrateKbps deployment mode selected) (gridScaleFilter deployment)

def audioArgs (mode : LiveViewMode) : Text :=
  if wantsAudio mode then "-map 0:a:0? -c:a libopus -b:a 64k -ac 1 -ar 48000".toList
  else "-an".toList

def shellQuote (value : Text) : Text :=
  ['\''] ++ (value.flatMap PosixShell.embedQuote ++ ['\''])

/-- The media server fills its own port in. -/
def internalHostText : Text := "rtsp://127.0.0.1:$RTSP_PORT/".toList

def buildInternalPublishRtspUrl (pathName : Text) : Text := internalHostText ++ pathName

def searchText : Text :=
  "for d in /proc/[0-9]*; do ".toList ++
    ("c=$(cat \"$d/comm\" 2>/dev/null); [ \"$c\" = ffmpeg ] || continue; ".toList ++
      "tr \"\\0\" \" \" < \"$d/cmdline\" 2>/dev/null | grep -qF \"/".toList)

def killText : Text := " \" && kill -9 \"$(basename \"$d\")\" 2>/dev/null; done".toList

def prekill (pathName : Text) : Text := searchText ++ (pathName ++ killText)

def optionsText : Text :=
  "ffmpeg -nostdin -hide_banner -loglevel warning ".toList ++
    ("-fflags +genpts+discardcorrupt+nobuffer ".toList ++
      ("-analyzeduration 1000000 -probesize 1000000 ".toList ++
        "-flags low_delay -err_detect careful -rtsp_transport ".toList))

/-- The text of the command up to the opening quote of its input. -/
def beforeInput (transport : Transport) : Text :=
  optionsText ++ (transport.text ++ " -i \"".toList)

def mapText : Text := " -map 0:v:0 ".toList

def outputText : Text :=
  "-f rtsp -rtsp_transport tcp -muxdelay 0.1 -pkt_size 1200 \"".toList

/-- The text of the command after the closing quote of its input. -/
def afterInput (video audio publishUrl : Text) : Text :=
  mapText ++ (video ++ ([' '] ++ (audio ++ ([' '] ++ (outputText ++ (publishUrl ++ ['"']))))))

def ffmpegCommand (transport : Transport) (input video audio publishUrl : Text) : Text :=
  beforeInput transport ++ (input ++ (['"'] ++ afterInput video audio publishUrl))

structure PublisherCommands where
  runOnDemand : Text
  runOnUnDemand : Text

def hasHop (deployment : Deployment) (camera : StreamCamera) : Bool :=
  !camera.pushSourced && deployment.usePrivateSourceHop

/-- The text between the quotes of `-i`. -/
def privateSourceUrl (deployment : Deployment) (camera : StreamCamera) (mode : LiveViewMode)
    (url : Text) : Text :=
  if hasHop deployment camera then
    buildInternalPublishRtspUrl (privateSourcePathName (pathNameFromCameraId camera.id mode))
  else url

def rtspTransport (deployment : Deployment) (camera : StreamCamera) : Transport :=
  if camera.pushSourced then .tcp
  else camera.preferredRtspTransport.getD deployment.ffmpegRtspTransport

def execText : Text := "; exec ".toList

def runOnDemandScript (deployment : Deployment) (camera : StreamCamera) (mode : LiveViewMode)
    (selected : SelectedSource) : Text :=
  let pathName := pathNameFromCameraId camera.id mode
  prekill pathName ++ (execText ++
    ffmpegCommand (rtspTransport deployment camera)
      (privateSourceUrl deployment camera mode selected.sourceUrl)
      (videoArgs deployment mode selected) (audioArgs mode)
      (buildInternalPublishRtspUrl pathName))

def shText : Text := "sh -c ".toList

/-- The two commands of a path, when its delivery needs an FFmpeg publisher. -/
def configureResolvedPathForCamera (deployment : Deployment) (camera : StreamCamera)
    (mode : LiveViewMode) (selected : SelectedSource) : Option PublisherCommands :=
  if needsPublisher mode selected then
    some {
      runOnDemand := shText ++ shellQuote (runOnDemandScript deployment camera mode selected)
      runOnUnDemand := shText ++ shellQuote (prekill (pathNameFromCameraId camera.id mode)) }
  else none

end DracVms.PublisherCommand
