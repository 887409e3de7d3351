import DracVms.Library.Ffconcat

namespace DracVms.SecretUrl

open Ffconcat (Text escape)

def secretInputUrl : Text := "pipe:3".toList

def inputProtocols : Text := "file,pipe,tcp,udp,rtp,rtsp,http,https,tls".toList

def maxSecretUrlBytes : Nat := 16 * 1024

def secretInputOptionNames : List Text :=
  ["-analyzeduration".toList, "-err_detect".toList, "-fflags".toList, "-flags".toList,
    "-max_delay".toList, "-probesize".toList, "-rtsp_transport".toList, "-rw_timeout".toList,
    "-stimeout".toList, "-timeout".toList, "-user_agent".toList]

inductive Failure
  | secretUrl
  | protocol
  | option
  | occurrences
  | noValue (name : Text)
  deriving DecidableEq

def Failure.message : Failure → Text
  | .secretUrl => "URL secreta inválida para o processo de mídia.".toList
  | .protocol => "Protocolo não permitido para o processo de mídia.".toList
  | .option => "Opção inválida para o canal privado de mídia.".toList
  | .occurrences =>
    "O comando de mídia deve conter exatamente uma ocorrência da URL secreta.".toList
  | .noValue name => "Opção ".toList ++ name ++ " sem valor no comando de mídia.".toList

/-- `Buffer.byteLength(value, 'utf8')` -/
def byteLength (value : Text) : Nat := (value.flatMap String.utf8EncodeChar).length

/-- `/[\0\r\n]/` -/
def hasControl (value : Text) : Bool := value.any fun c => c.toNat == 0 || c == '\r' || c == '\n'

/-- `/^[a-z0-9_]+$/i` -/
def isOptionName (name : Text) : Bool :=
  !name.isEmpty && name.all fun c => c.isAlphanum || c == '_'

section Document

/-! `protocolOf` is the protocol of `new URL(value)`, where it takes the value. -/
variable (protocolOf : Text → Option Text)

def assertSecretUrl (value : Text) : Except Failure Unit :=
  if value.isEmpty || byteLength value > maxSecretUrlBytes || hasControl value then
    .error .secretUrl
  else
    match protocolOf value with
    | none => .error .secretUrl
    | some protocol =>
      if protocol ∈ ["rtsp:".toList, "rtsps:".toList, "http:".toList, "https:".toList] then
        .ok ()
      else .error .protocol

def optionLine (option : Text × Text) : Except Failure Text :=
  if !isOptionName option.1 || option.2.isEmpty || byteLength option.2 > 4096 ||
      hasControl option.2 then
    .error .option
  else .ok ("option ".toList ++ option.1 ++ ' ' :: escape option.2)

def buildSecretConcatDocument (secretUrl : Text) (inputOptions : List (Text × Text)) :
    Except Failure Text := do
  assertSecretUrl protocolOf secretUrl
  let optionLines ← inputOptions.mapM optionLine
  return ['\n'].intercalate
    (["ffconcat version 1.0".toList, "file ".toList ++ '\'' :: escape secretUrl ++ ['\'']] ++
      optionLines ++ [[]])

/-- The loop over the arguments in front of the input; `left` of them are still to be looked at. -/
def scan : Nat → List Text → Except Failure (List Text × List (Text × Text))
  | 0, _ => .ok ([], [])
  | _ + 1, [] => .ok ([], [])
  | _ + 1, [name] =>
    if name ∈ secretInputOptionNames then .error (.noValue name) else .ok ([name], [])
  | left + 1, name :: value :: rest =>
    if name ∈ secretInputOptionNames then do
      let (before, inputOptions) ← scan (left - 1) rest
      return (before, (name.drop 1, value) :: inputOptions)
    else do
      let (before, inputOptions) ← scan left (value :: rest)
      return (name :: before, inputOptions)

structure Prepared where
  args : List Text
  document : Text

/-- What stands in the place of the secret input. -/
def pipeInput : List Text :=
  ["-protocol_whitelist".toList, inputProtocols, "-f".toList, "concat".toList, "-safe".toList,
    "0".toList, "-i".toList, secretInputUrl]

def occurrences (args : List Text) (secretUrl : Text) : List Nat :=
  args.zipIdx.filterMap fun (value, index) => if value = secretUrl then some index else none

def inputStart (args : List Text) (index : Nat) : Nat :=
  if 0 < index ∧ args[index - 1]? = some "-i".toList then index - 1 else index

def prepareSecretInput (args : List Text) (secretUrl : Text) : Except Failure Prepared := do
  assertSecretUrl protocolOf secretUrl
  match occurrences args secretUrl with
  | [index] =>
    let (before, inputOptions) ← scan (inputStart args index) args
    let document ← buildSecretConcatDocument protocolOf secretUrl inputOptions
    return { args := before ++ pipeInput ++ args.drop (index + 1), document }
  | _ => throw .occurrences

end Document

end DracVms.SecretUrl
