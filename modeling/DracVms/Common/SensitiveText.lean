import DracVms.Library.JsReplace
import DracVms.Cameras.RtspUrl

namespace DracVms.SensitiveText

open Json (Text)
open JsReplace (Matcher replaceAll)
open JsString (isBlank)
open RtspUrl (matchKey)

/-- `\w` -/
def isWord (c : Char) : Bool := c.isAlphanum || c == '_'

def redacted : Text := "<redacted>".toList

/-- `(?:rtsp|rtsps|http|https):\/\/`: what is written there and what follows. -/
def opening (schemes : List Text) (text : Text) : Option (Text × Text) :=
  schemes.findSome? fun scheme => matchKey (scheme ++ "://".toList) text

/-- `[^\s/@:]` -/
def isUserChar (c : Char) : Bool := !isBlank c && c ∉ ['/', '@', ':']

/-- `[^\s/@]` -/
def isPasswordChar (c : Char) : Bool := !isBlank c && c ∉ ['/', '@']

/-- `([^\s/@:]+):([^\s/@]+)@`: the number of its characters. -/
def credentialsLength (text : Text) : Option Nat :=
  let user := text.takeWhile isUserChar
  match text.dropWhile isUserChar with
  | ':' :: rest =>
    let password := rest.takeWhile isPasswordChar
    match rest.dropWhile isPasswordChar with
    | '@' :: _ =>
      if user = [] ∨ password = [] then none else some (user.length + 1 + password.length + 1)
    | _ => none
  | _ => none

/-- `(?:\*{3}|<redacted>)` -/
def redactedMark (text : Text) : Option (Text × Text) :=
  (matchKey "***".toList text).or (matchKey redacted text)

/-- `(?:\*{3}|<redacted>):(?:\*{3}|<redacted>)@`: the number of its characters. -/
def redactedLength (text : Text) : Option Nat :=
  match redactedMark text with
  | some (user, ':' :: rest) =>
    match redactedMark rest with
    | some (password, '@' :: _) => some (user.length + 1 + password.length + 1)
    | _ => none
  | _ => none

/-- A scheme and what stands between it and the host, replaced by `$1<redacted>@`. -/
def authorityMatcher (schemes : List Text) (bounded : Bool) (authority : Text → Option Nat) :
    Matcher := fun previous text =>
  if bounded && previous.any isWord then none
  else
    match opening schemes text with
    | none => none
    | some (found, rest) =>
      (authority rest).map fun length => (found ++ redacted ++ ['@'], found.length + length)

def schemes : List Text := ["rtsp".toList, "rtsps".toList, "http".toList, "https".toList]

def urlWithCredentials : Matcher := authorityMatcher schemes true credentialsLength

def authorityWithRedactedCredentials : Matcher := authorityMatcher schemes true redactedLength

/-- `first[_-]?second` -/
def joined (first second : String) : List Text :=
  [first.toList ++ second.toList, first.toList ++ '_' :: second.toList,
    first.toList ++ '-' :: second.toList]

def sensitiveQueryKeys : List Text :=
  joined "access" "token" ++ joined "refresh" "token" ++ joined "stream" "token" ++
    ["token".toList] ++ joined "api" "key" ++ ["signature".toList]

/-- `[^&\s#"'<>]` -/
def isQueryValueChar (c : Char) : Bool :=
  !isBlank c && c ∉ ['&', '#', '"', '\'', '<', '>']

def sensitiveQueryValue : Matcher := fun _ text =>
  match text with
  | [] => none
  | c :: rest =>
    if c = '?' ∨ c = '&' then
      match sensitiveQueryKeys.findSome? fun key => matchKey (key ++ ['=']) rest with
      | none => none
      | some (found, rest) =>
        let value := rest.takeWhile isQueryValueChar
        if value = [] then none
        else some (c :: found ++ redacted, 1 + found.length + value.length)
    else none

def redactSensitiveText (text : Text) : Text :=
  let text := replaceAll urlWithCredentials 0 none text
  let text := replaceAll authorityWithRedactedCredentials 0 none text
  replaceAll sensitiveQueryValue 0 none text

/-- `sanitizeRtspUrl` of the RTSP helper knows one scheme and asks for no word boundary. -/
def sanitizeRtspUrl (url : Text) : Text :=
  replaceAll (authorityMatcher ["rtsp".toList] false credentialsLength) 0 none url

end DracVms.SensitiveText
