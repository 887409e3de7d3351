import DracVms.AccessControl.AccessControl

namespace DracVms.PushService

open Json (Text field setField)
open AccessControl (unique)

/-- What `.` does not match. -/
def isLineTerminator (c : Char) : Bool := c.val ∈ [10, 13, 0x2028, 0x2029]

/-- `/^<kind>\[.+\]$/` -/
def isBracketed (kind token : Text) : Bool :=
  let opening := kind ++ ['[']
  opening.isPrefixOf token &&
    let rest := token.drop opening.length
    rest.getLast? = some ']' && rest.dropLast ≠ [] && rest.dropLast.all fun c => !isLineTerminator c

def isExpoPushToken (token : Text) : Bool :=
  isBracketed "ExponentPushToken".toList token || isBracketed "ExpoPushToken".toList token

/-- `/^[A-Za-z0-9:_-]{20,4096}$/` -/
def isFcmBody (body : Text) : Bool :=
  20 ≤ body.length && body.length ≤ 4096 &&
    body.all fun c => c.isAlphanum || c = ':' || c = '_' || c = '-'

def fcmPrefix : Text := "fcm:".toList

def isFcmPushToken (token : Text) : Bool :=
  fcmPrefix.isPrefixOf token && isFcmBody (token.drop 4)

structure ExpoTicket where
  ok : Bool
  id : Option Text
  error : Option Text

/-- What the providers answer: the configuration of the direct route, and each request. -/
structure Providers where
  directFcmConfig : Except Text Unit
  postFcm : List Text → Except Text (List Text)
  postExpo : List Text → Except Text (List ExpoTicket)

structure Sent where
  invalidTokens : List Text
  receiptIds : List (Text × Text)

def CHUNK : ℕ := 100

def shouldRemoveToken (error : Option Text) : Bool := error = some "DeviceNotRegistered".toList

/-- The tokens of one request after the other; the first one that fails ends it. -/
def sendFcmChunks (providers : Providers) : List (List Text) → Except Text (List Text)
  | [] => .ok []
  | chunk :: rest => do
      let refused ← providers.postFcm (chunk.map fun token => token.drop 4)
      let later ← sendFcmChunks providers rest
      return (refused.filter isFcmBody).map (fcmPrefix ++ ·) ++ later

def sendFcmDirect (providers : Providers) (tokens : List Text) : Except Text (List Text) := do
  let tokens := unique (tokens.filter isFcmPushToken)
  if tokens.isEmpty then return []
  providers.directFcmConfig
  sendFcmChunks providers (tokens.toChunks CHUNK)

/-- The tickets of one request: the receipts to ask for, and the tokens that are dead. -/
def readTickets (chunk : List Text) (tickets : List ExpoTicket) (sent : Sent) : Sent :=
  tickets.zipIdx.foldl (fun sent (ticket, index) =>
    match ticket.ok, ticket.id.filter (· ≠ []) with
    | true, some id =>
      { sent with receiptIds := setField sent.receiptIds (id, (chunk[index]?).getD []) }
    | true, none => sent
    | false, _ =>
      if shouldRemoveToken ticket.error then
        { sent with invalidTokens := sent.invalidTokens ++ (chunk[index]?).toList }
      else sent) sent

def sendExpoChunks (providers : Providers) : List (List Text) → Sent → Except Text Sent
  | [], sent => .ok sent
  | chunk :: rest, sent => do
      let tickets ← providers.postExpo chunk
      sendExpoChunks providers rest (readTickets chunk tickets sent)

def sendToTokens (providers : Providers) (tokens : List Text) : Except Text Sent := do
  let valid := unique (tokens.filter isExpoPushToken)
  let directFcm := unique (tokens.filter isFcmPushToken)
  if valid.isEmpty && directFcm.isEmpty then return ⟨[], []⟩
  let invalidTokens ← sendFcmDirect providers directFcm
  if valid.isEmpty then return ⟨invalidTokens, []⟩
  sendExpoChunks providers (valid.toChunks CHUNK) ⟨invalidTokens, []⟩

example : isExpoPushToken "ExpoPushToken[x]".toList = true := by decide

end DracVms.PushService
