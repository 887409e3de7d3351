import DracVms.Library.JsonText

namespace DracVms.Evidence

open Json

/-- A leaf of a value that lives in the process: what JSON knows, and a `Date`. -/
inductive Leaf (N : Type) where
  | scalar (s : Scalar N)
  | date (iso : Text)

/-- `Date.prototype.toJSON`: a date is written as its ISO text. -/
def Leaf.toJson {N : Type} : Leaf N → Value (Scalar N)
  | .scalar s => .atom s
  | .date iso => .atom (.string iso)

/-- What `JSON.stringify` makes of a live value. -/
def toJson {N : Type} (value : Value (Leaf N)) : Value (Scalar N) := value.mapLeaves Leaf.toJson

/-- A parsed value is a live value without dates. -/
def ofJson {N : Type} (value : Value (Scalar N)) : Value (Leaf N) :=
  value.mapLeaves fun s => .atom (.scalar s)

def isHex (c : Char) : Bool := (hexValue c).isSome

/-- What a digest is written with: whole bytes, in lower case. -/
structure IsDigest (text : Text) : Prop where
  nonempty : text ≠ []
  even : text.length % 2 = 0
  lower : ∀ c ∈ text, (48 ≤ c.toNat ∧ c.toNat ≤ 57) ∨ (97 ≤ c.toNat ∧ c.toNat ≤ 102)

/-- The service's configuration, and the parts of its platform it computes with. -/
structure EvidenceService where
  numbers : NumberFormat
  localeCompare : Text → Text → Int
  hmacSecret : Text
  hmacKeyId : Text
  sha256Hex : Text → Text
  hmacSha256Hex : Text → Text → Text
  sha256Hex_digest : ∀ text, IsDigest (sha256Hex text)
  hmacSha256Hex_digest : ∀ key text, IsDigest (hmacSha256Hex key text)

section Service

variable (service : EvidenceService)

abbrev Live := Value (Leaf service.numbers.Number)

abbrev Parsed := Value (Scalar service.numbers.Number)

def byLocale {β : Type} (fields : List (Text × β)) : List (Text × β) :=
  fields.insertionSort fun a b => service.localeCompare a.1 b.1 ≤ 0

mutual

/-- Objects are rebuilt from their sorted entries. A `Date` is an object without entries. -/
def normalizeForStableJson : Live service → Parsed service
  | .atom (.scalar s) => .atom s
  | .atom (.date _) => .object (buildFields (byLocale service []))
  | .array items => .array (normalizeItems items)
  | .object fields => .object (buildFields (byLocale service (normalizeFields fields)))

def normalizeItems : List (Live service) → List (Parsed service)
  | [] => []
  | value :: rest => normalizeForStableJson value :: normalizeItems rest

/-- The comparison reads the keys alone, so the entries are normalised before they are sorted. -/
def normalizeFields : List (Text × Live service) → List (Text × Parsed service)
  | [] => []
  | (key, value) :: rest => (key, normalizeForStableJson value) :: normalizeFields rest

end

def leafSyntax : LeafSyntax (Scalar service.numbers.Number) := scalarSyntax service.numbers

def stableStringify (value : Live service) : Text :=
  stringify (leafSyntax service) (normalizeForStableJson service value)

def secretConfigured : Bool := 16 ≤ utf16Length service.hmacSecret

structure PackageSignature where
  packageHash : Text
  signature : Text
  keyId : Text
  signedAt : Text

/-- None stands for the exceptions: no secret, or a payload over the size limit. -/
def signPackage (payload : List (Text × Live service)) (signedAt : Text) :
    Option PackageSignature :=
  if secretConfigured service then
    let payloadCanonical := stableStringify service (.object payload)
    if 10000000 < utf16Length payloadCanonical then none
    else
      let packageHashValue := service.sha256Hex payloadCanonical
      some {
        packageHash := packageHashValue
        signature := service.hmacSha256Hex service.hmacSecret packageHashValue
        keyId := service.hmacKeyId
        signedAt := signedAt }
  else none

def packageHashKey : Text := "packageHash".toList

def signatureKey : Text := "signature".toList

def signedAtKey : Text := "signedAt".toList

def valueKey : Text := "value".toList

def stringLeaf (value : Text) : Live service := .atom (.scalar (.string value))

/-- The three fields `signPackage` returns, as they stand in a package. -/
def signatureFields (signed : PackageSignature) : List (Text × Live service) :=
  [(packageHashKey, .object [("algorithm".toList, stringLeaf service "SHA-256".toList),
      (valueKey, stringLeaf service signed.packageHash)]),
   (signatureKey, .object [("algorithm".toList, stringLeaf service "HMAC-SHA-256".toList),
      (valueKey, stringLeaf service signed.signature),
      ("keyId".toList, stringLeaf service signed.keyId)]),
   (signedAtKey, stringLeaf service signed.signedAt)]

/-- `{ ...payload, packageHash, signature, signedAt }` -/
def flatPackage (payload : List (Text × Live service)) (signed : PackageSignature) :
    List (Text × Live service) :=
  buildFields (payload ++ signatureFields service signed)

/-- A live value as it comes back after it was serialised and parsed. -/
def reparsed (value : Live service) : Option (Live service) :=
  (parse (leafSyntax service) (stringify (leafSyntax service) (toJson value))).map ofJson

def extractObject (value : Option (Live service)) : Option (List (Text × Live service)) :=
  match value with
  | some (.object fields) => some fields
  | some (.atom (.date _)) => some []
  | _ => none

/-- `typeof entry?.value === 'string' ? entry.value : null` -/
def stringValue (entry : Option (List (Text × Live service))) : Option Text :=
  match entry.bind fun fields => field fields valueKey with
  | some (.atom (.scalar (.string value))) => some value
  | _ => none

def internalKeys : List Text := [packageHashKey, signatureKey, signedAtKey]

def omitInternalFields (package : List (Text × Live service)) : List (Text × Live service) :=
  package.filter fun entry => entry.1 ∉ internalKeys

/-- `Buffer.from(text, 'hex')`, for a text of hexadecimal digits: a last lone digit is dropped. -/
def decodeHex : Text → List Nat
  | a :: b :: rest => ((hexValue a).getD 0 * 16 + (hexValue b).getD 0) :: decodeHex rest
  | _ => []

def safeCompareHex (provided : Option Text) (computed : Text) : Bool :=
  match provided with
  | none => false
  | some provided =>
    !provided.isEmpty && provided.all isHex && !computed.isEmpty && computed.all isHex &&
      decide (decodeHex provided = decodeHex computed)

structure Verification where
  ok : Bool
  hashValid : Bool
  signatureValid : Bool
  details : List String
  providedPackageHash : Option Text
  providedSignature : Option Text
  expectedKeyId : Text

def verifyPackage (evidencePackage : List (Text × Live service)) : Option Verification :=
  if secretConfigured service then
    let packageHashEntry := extractObject service (field evidencePackage packageHashKey)
    let signatureEntry := extractObject service (field evidencePackage signatureKey)
    let canonical := stableStringify service (.object (omitInternalFields service evidencePackage))
    let computedHash := service.sha256Hex canonical
    let computedSignature := service.hmacSha256Hex service.hmacSecret computedHash
    let providedHash := stringValue service packageHashEntry
    let providedSignature := stringValue service signatureEntry
    let hashValid := safeCompareHex providedHash computedHash
    let signatureValid := safeCompareHex providedSignature computedSignature
    some {
      ok := hashValid && signatureValid
      hashValid := hashValid
      signatureValid := signatureValid
      details :=
        [if hashValid then "Hash SHA-256 válido." else "Hash SHA-256 inválido.",
         if signatureValid then "Assinatura HMAC válida."
          else "Assinatura HMAC inválida ou ausente."]
      providedPackageHash := providedHash
      providedSignature := providedSignature
      expectedKeyId := service.hmacKeyId }
  else none

end Service

end DracVms.Evidence
