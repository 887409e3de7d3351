import DracVms.Evidence.Export

namespace DracVms.EvidenceExport

open List Json Evidence

structure InvestigationItem where
  id : Text
  type : Text
  label : Text
  cameraId : Option Text
  recordingId : Option Text
  timestamp : Text

structure Investigation where
  id : Text
  title : Text
  items : List InvestigationItem

structure ExecuteExportJob where
  investigationId : Text
  requestId : Text
  packageItemId : Text
  executionReason : Text
  executedByUserId : Text
  executedByUserName : Text

inductive ExportError where
  | requestNotFound
  | requestNotApproved
  | investigationNotFound
  deriving DecidableEq

def ExportError.message : ExportError → String
  | .requestNotFound => "request_not_found"
  | .requestNotApproved => "request_not_approved"
  | .investigationNotFound => "investigation_not_found"

section Export

variable (service : EvidenceService)

/-- A JSON column as the database returns it. -/
abbrev StoredJson := { value : Parsed service // value.IsLive }

/-- Anything but an object has no `status`, and is refused like an empty object. -/
def requestFields : StoredJson service → List (Text × Parsed service)
  | ⟨.object fields, _⟩ => fields
  | _ => []

def statusKey : Text := "status".toList

def isApproved (reqMeta : List (Text × Parsed service)) : Bool :=
  match field reqMeta statusKey with
  | some (.atom (.string status)) => decide (status = "APPROVED".toList)
  | _ => false

def evidenceTypes : List Text :=
  ["event".toList, "clip".toList, "snapshot".toList, "bookmark".toList]

def evidenceItems (items : List InvestigationItem) : List InvestigationItem :=
  items.filter fun item => item.type ∈ evidenceTypes

def optionalLeaf : Option Text → Live service
  | none => .atom (.scalar .null)
  | some text => stringLeaf service text

def itemFields (item : InvestigationItem) : List (Text × Live service) :=
  [("id".toList, stringLeaf service item.id),
   ("type".toList, stringLeaf service item.type),
   ("label".toList, stringLeaf service item.label),
   ("cameraId".toList, optionalLeaf service item.cameraId),
   ("recordingId".toList, optionalLeaf service item.recordingId),
   ("timestamp".toList, .atom (.date item.timestamp))]

def payloadFields (data : ExecuteExportJob) (reqMeta : List (Text × Parsed service))
    (inv : Investigation) (exportedAt : Text) : List (Text × Live service) :=
  [("investigationId".toList, stringLeaf service inv.id),
   ("investigationTitle".toList, stringLeaf service inv.title),
   ("exportedAt".toList, stringLeaf service exportedAt),
   ("executedByUserId".toList, stringLeaf service data.executedByUserId),
   ("executedByUserName".toList, stringLeaf service data.executedByUserName),
   ("executionReason".toList, stringLeaf service data.executionReason),
   ("requestId".toList, stringLeaf service data.requestId),
   ("request".toList, ofJson (.object reqMeta)),
   ("evidenceItems".toList,
     .array ((evidenceItems inv.items).map fun item => .object (itemFields service item)))]

/-- The payload that an `execute-export` job builds from the rows it finds. -/
def executeExport (data : ExecuteExportJob) (reqItem : Option (StoredJson service))
    (inv : Option Investigation) (exportedAt : Text) :
    Except ExportError (List (Text × Live service)) :=
  match reqItem with
  | none => .error .requestNotFound
  | some metadata =>
    let reqMeta := requestFields service metadata
    if isApproved service reqMeta then
      match inv with
      | none => .error .investigationNotFound
      | some inv => .ok (payloadFields service data reqMeta inv exportedAt)
    else .error .requestNotApproved

variable (data : ExecuteExportJob)

theorem executeExport_ok (reqItem : Option (StoredJson service)) (inv : Option Investigation)
    (exportedAt : Text) (payload : List (Text × Live service))
    (built : executeExport service data reqItem inv exportedAt = .ok payload) :
    ∃ metadata found, reqItem = some metadata ∧ inv = some found ∧
      payload = payloadFields service data (requestFields service metadata) found exportedAt := by
  unfold executeExport at built
  cases reqItem with
  | none => cases built
  | some metadata =>
    simp only at built
    split at built
    · cases inv with
      | none => cases built
      | some found =>
        cases built
        exact ⟨metadata, found, rfl, rfl, rfl⟩
    · cases built

theorem requestFields_live (metadata : StoredJson service) :
    (Value.object (requestFields service metadata)).IsLive := by
  unfold requestFields
  split
  · rename_i fields live
    exact live
  · exact ⟨nodup_nil, (propertyOrder_perm []).eq_nil, trivial⟩

def itemKeys : List Text :=
  ["id".toList, "type".toList, "label".toList, "cameraId".toList, "recordingId".toList,
   "timestamp".toList]

def payloadKeys : List Text :=
  ["investigationId".toList, "investigationTitle".toList, "exportedAt".toList,
   "executedByUserId".toList, "executedByUserName".toList, "executionReason".toList,
   "requestId".toList, "request".toList, "evidenceItems".toList]

theorem itemFields_keys (item : InvestigationItem) :
    (itemFields service item).map Prod.fst = itemKeys := rfl

variable (reqMeta : List (Text × Parsed service))

theorem payloadFields_keys (inv : Investigation) (exportedAt : Text) :
    (payloadFields service data reqMeta inv exportedAt).map Prod.fst = payloadKeys := rfl

theorem itemKeys_named : itemKeys.Nodup ∧ ∀ key ∈ itemKeys, indexOf key = none := by
  decide +kernel

theorem payloadKeys_named : payloadKeys.Nodup ∧
    (∀ key ∈ payloadKeys, indexOf key = none) ∧ ∀ key ∈ payloadKeys, key ∉ internalKeys := by
  decide +kernel

theorem object_live (fields : List (Text × Live service)) (keys : List Text)
    (same : fields.map Prod.fst = keys) (distinct : keys.Nodup)
    (named : ∀ key ∈ keys, indexOf key = none) (values : fieldsLive fields) :
    (Value.object fields).IsLive := by
  subst same
  refine ⟨distinct, propertyOrder_named fields ?_, values⟩
  intro entry member
  rw [isIndex, named entry.1 (mem_map_of_mem member)]
  rfl

theorem optionalLeaf_live (text : Option Text) : (optionalLeaf service text).IsLive := by
  cases text <;> exact trivial

theorem item_live (item : InvestigationItem) : (Value.object (itemFields service item)).IsLive := by
  refine object_live service _ itemKeys (itemFields_keys service item) itemKeys_named.1
    itemKeys_named.2 ?_
  exact ⟨trivial, trivial, trivial, optionalLeaf_live service _, optionalLeaf_live service _,
    trivial, trivial⟩

variable (items : List InvestigationItem)

theorem items_live : itemsLive (items.map fun item => Value.object (itemFields service item)) := by
  induction items with
  | nil => exact trivial
  | cons item rest ih => exact ⟨item_live service item, ih⟩

theorem ofJson_live {N : Type} (value : Value (Scalar N)) (live : value.IsLive) :
    (ofJson value).IsLive := by
  refine mapLeaves_live _ ?_ value live
  intro leaf
  exact trivial

theorem payloadFields_signable (inv : Investigation) (exportedAt : Text)
    (live : (Value.object reqMeta).IsLive) :
    Signable service (payloadFields service data reqMeta inv exportedAt) := by
  have keys := payloadFields_keys service data reqMeta inv exportedAt
  refine ⟨?_, ?_⟩
  · refine object_live service _ payloadKeys keys payloadKeys_named.1 payloadKeys_named.2.1 ?_
    exact ⟨trivial, trivial, trivial, trivial, trivial, trivial, trivial, ofJson_live _ live,
      items_live service _, trivial⟩
  · intro entry member
    apply payloadKeys_named.2.2
    rw [← keys]
    exact mem_map_of_mem member

theorem dates_ofJson {N : Type} (value : Value (Scalar N)) : dates (ofJson value) = 0 := by
  have counted := weight_toJson (ofJson value)
  rw [toJson_ofJson, dateless_ofJson] at counted
  omega

theorem dates_items :
    dates (Value.array (items.map fun item => Value.object (itemFields service item))) =
      items.length := by
  induction items with
  | nil => rfl
  | cons item rest ih =>
    have one : dates (Value.object (itemFields service item)) = 1 := by
      cases camera : item.cameraId <;> cases recording : item.recordingId <;>
        simp only [itemFields, optionalLeaf, camera, recording] <;> rfl
    rw [dates, map_cons, Value.weight, itemsWeight, length_cons]
    rw [dates] at one
    rw [dates, Value.weight] at ih
    omega

theorem dates_payloadFields (inv : Investigation) (exportedAt : Text) :
    dates (Value.object (payloadFields service data reqMeta inv exportedAt)) =
      (evidenceItems inv.items).length := by
  have request := dates_ofJson (Value.object reqMeta)
  have items := dates_items service (evidenceItems inv.items)
  have split : dates (Value.object (payloadFields service data reqMeta inv exportedAt)) =
      dates (ofJson (Value.object reqMeta)) + dates (Value.array ((evidenceItems inv.items).map
        fun item => Value.object (itemFields service item))) := by
    simp only [dates, payloadFields, Value.weight, fieldsWeight, stringLeaf]
    omega
  omega

/-- What a reader of the stored package answers: `JSON.parse`, then `verifyPackage`. -/
def verifyStored (payload : List (Text × Live service)) (signed : PackageSignature) :
    Option Verification :=
  match reparsed service (.object (flatPackage service payload signed)) with
  | some (.object package) => verifyPackage service package
  | _ => none

def RoundTrips (payload : List (Text × Live service)) (signed : PackageSignature) : Prop :=
  ∃ result, verifyStored service payload signed = some result ∧ result.ok = true

theorem roundTrips_iff (payload : List (Text × Live service)) (signedAt : Text)
    (signed : PackageSignature) (signable : Signable service payload)
    (secure : CollisionFree service) (success : signPackage service payload signedAt = some signed) :
    RoundTrips service payload signed ↔ dates (Value.object payload) = 0 := by
  obtain ⟨answer, verifies, accepts⟩ := verifyPackage_stored_iff service payload signedAt signed
    signable secure success
  have stored : verifyStored service payload signed = some answer := by
    rw [verifyStored, reparsed_flatPackage service payload signed signable]
    exact verifies
  constructor
  · rintro ⟨result, answered, ok⟩
    rw [stored] at answered
    cases answered
    exact accepts.mp ok
  · intro dateFree
    exact ⟨answer, stored, accepts.mpr dateFree⟩

/-- Exported packages round-trip and bind their content exactly when they list no evidence. -/
theorem executeExport_verifies_iff (data : ExecuteExportJob) (reqItem : Option (StoredJson service))
    (inv : Option Investigation) (exportedAt signedAt : Text) (payload : List (Text × Live service))
    (signed : PackageSignature) (secure : CollisionFree service)
    (built : executeExport service data reqItem inv exportedAt = .ok payload)
    (success : signPackage service payload signedAt = some signed) :
    (RoundTrips service payload signed ∧ Binds service) ↔
      ∀ found, inv = some found → ∀ item ∈ found.items, item.type ∉ evidenceTypes := by
  obtain ⟨metadata, found, -, rfl, rfl⟩ :=
    executeExport_ok service data reqItem inv exportedAt payload built
  have signable := payloadFields_signable service data _ found exportedAt
    (requestFields_live service metadata)
  rw [roundTrips_iff service _ signedAt signed signable secure success, dates_payloadFields,
    length_eq_zero_iff, evidenceItems, filter_eq_nil_iff]
  constructor
  · rintro ⟨empty, -⟩ other same item member evidence
    cases same
    exact empty item member (decide_eq_true evidence)
  · intro without
    refine ⟨?_, verifyPackage_binds service secure⟩
    intro item member evidence
    exact without found rfl item member (of_decide_eq_true evidence)

end Export

/-- Six hexadecimal digits write any character. -/
def spellChar (c : Char) : Text :=
  [hexDigit (c.toNat / 1048576 % 16), hexDigit (c.toNat / 65536 % 16),
   hexDigit (c.toNat / 4096 % 16), hexDigit (c.toNat / 256 % 16),
   hexDigit (c.toNat / 16 % 16), hexDigit (c.toNat % 16)]

def spell (text : Text) : Text := '0' :: '0' :: text.flatMap spellChar

theorem hexDigit_injective (a b : Nat) (aSmall : a < 16) (bSmall : b < 16)
    (same : hexDigit a = hexDigit b) : a = b := by
  have first := hexValue_hexDigit a aSmall
  rw [same, hexValue_hexDigit b bSmall] at first
  exact (Option.some.inj first).symm

theorem hexDigit_lower (n : Nat) (small : n < 16) :
    (48 ≤ (hexDigit n).toNat ∧ (hexDigit n).toNat ≤ 57) ∨
      (97 ≤ (hexDigit n).toNat ∧ (hexDigit n).toNat ≤ 102) := by
  revert n
  decide

theorem spellChar_injective (a b : Char) (same : spellChar a = spellChar b) : a = b := by
  simp only [spellChar, List.cons.injEq, and_true] at same
  obtain ⟨d5, d4, d3, d2, d1, d0⟩ := same
  have digit := fun m n => hexDigit_injective (m % 16) (n % 16) (Nat.mod_lt _ (by omega))
    (Nat.mod_lt _ (by omega))
  have bound : ∀ c : Char, c.toNat < 1114112 := by
    intro c
    have valid : c.toNat < 55296 ∨ (57343 < c.toNat ∧ c.toNat < 1114112) := c.valid
    omega
  have aBound := bound a
  have bBound := bound b
  have h5 := digit _ _ d5
  have h4 := digit _ _ d4
  have h3 := digit _ _ d3
  have h2 := digit _ _ d2
  have h1 := digit _ _ d1
  have h0 := digit _ _ d0
  apply Char.toNat_inj.mp
  omega

theorem spell_injective (first second : Text) (same : spell first = spell second) :
    first = second := by
  simp only [spell, List.cons.injEq, true_and] at same
  induction first generalizing second with
  | nil =>
    cases second with
    | nil => rfl
    | cons d rest => cases same
  | cons c more ih =>
    cases second with
    | nil => cases same
    | cons d rest =>
      rw [flatMap_cons, flatMap_cons] at same
      obtain ⟨head, tail⟩ := append_inj same rfl
      rw [spellChar_injective c d head, ih rest tail]

theorem spell_digest (text : Text) : IsDigest (spell text) := by
  refine ⟨cons_ne_nil _ _, ?_, ?_⟩
  · have blocks : (text.flatMap spellChar).length = 6 * text.length := by
      induction text with
      | nil => rfl
      | cons c rest ih =>
        rw [flatMap_cons, length_append, ih, length_cons]
        have six : (spellChar c).length = 6 := rfl
        omega
    rw [spell, length_cons, length_cons, blocks]
    omega
  · intro d member
    simp only [spell, mem_cons, mem_flatMap] at member
    have zero : (48 ≤ '0'.toNat ∧ '0'.toNat ≤ 57) ∨ (97 ≤ '0'.toNat ∧ '0'.toNat ≤ 102) := by
      decide
    rcases member with rfl | rfl | ⟨c, -, inBlock⟩
    · exact zero
    · exact zero
    · simp only [spellChar, mem_cons, not_mem_nil, or_false] at inBlock
      rcases inBlock with rfl | rfl | rfl | rfl | rfl | rfl <;>
        exact hexDigit_lower _ (Nat.mod_lt _ (by omega))

/-- Digests of some known texts. -/
structure DigestTable where
  known : List (Text × Text)
  distinct : (known.map Prod.snd).Nodup
  digests : ∀ entry ∈ known, IsDigest entry.2
  unspelled : ∀ entry ∈ known, ¬ ['0', '0'] <+: entry.2

/-- The known digests, completed to a function that never gives two texts one digest. -/
def DigestTable.digest (table : DigestTable) (text : Text) : Text :=
  match table.known.find? fun entry => entry.1 = text with
  | some entry => entry.2
  | none => spell text

variable (table : DigestTable)

theorem DigestTable.digest_cases (text : Text) :
    (∃ entry ∈ table.known, entry.1 = text ∧ table.digest text = entry.2) ∨
      table.digest text = spell text := by
  unfold DigestTable.digest
  cases found : table.known.find? fun entry => entry.1 = text with
  | none => exact Or.inr rfl
  | some entry =>
    have named := List.find?_some found
    exact Or.inl ⟨entry, List.mem_of_find?_eq_some found, of_decide_eq_true named, rfl⟩

theorem DigestTable.digest_digest (text : Text) : IsDigest (table.digest text) := by
  rcases table.digest_cases text with ⟨entry, member, -, same⟩ | same
  · rw [same]
    exact table.digests entry member
  · rw [same]
    exact spell_digest text

theorem DigestTable.digest_injective : Function.Injective table.digest := by
  intro first second same
  have spelled : ∀ text, ['0', '0'] <+: spell text := fun text => ⟨text.flatMap spellChar, rfl⟩
  rcases table.digest_cases first with ⟨a, inFirst, nameA, digestA⟩ | digestA <;>
    rcases table.digest_cases second with ⟨b, inSecond, nameB, digestB⟩ | digestB <;>
    rw [digestA, digestB] at same
  · rw [← nameA, ← nameB, inj_on_of_nodup_map table.distinct inFirst inSecond same]
  · exact absurd (same ▸ spelled second) (table.unspelled a inFirst)
  · exact absurd (same ▸ spelled first) (table.unspelled b inSecond)
  · exact spell_injective first second same

/-- `localeCompare` on the unaccented keys of a payload. -/
def ignoringCase (a b : Text) : Int :=
  let first := a.map Char.toLower
  let second := b.map Char.toLower
  if first = second then 0 else if first ≤ second then -1 else 1

def configured (hashes signatures : DigestTable) : EvidenceService where
  numbers := digits
  localeCompare := ignoringCase
  hmacSecret := "segredo-de-evidencia".toList
  hmacKeyId := "local-v1".toList
  sha256Hex := hashes.digest
  hmacSha256Hex _ := signatures.digest
  sha256Hex_digest := hashes.digest_digest
  hmacSha256Hex_digest _ := signatures.digest_digest

theorem configured_collisionFree (hashes signatures : DigestTable) :
    CollisionFree (configured hashes signatures) :=
  ⟨hashes.digest_injective, signatures.digest_injective⟩

def plainService : EvidenceService :=
  configured ⟨[], nodup_nil, fun _ => nofun, fun _ => nofun⟩
    ⟨[], nodup_nil, fun _ => nofun, fun _ => nofun⟩

def exportJob : ExecuteExportJob where
  investigationId := "inv-1".toList
  requestId := "req-1".toList
  packageItemId := "pkg-1".toList
  executionReason := "ocorrencia".toList
  executedByUserId := "u-1".toList
  executedByUserName := "Ana".toList

def clipItem : InvestigationItem where
  id := "item-1".toList
  type := "clip".toList
  label := "Portaria".toList
  cameraId := some "cam-1".toList
  recordingId := none
  timestamp := "2026-01-05T12:00:00.000Z".toList

def theft (items : List InvestigationItem) : Investigation :=
  ⟨"inv-1".toList, "Furto".toList, items⟩

def exportTime : Text := "2026-01-06T08:00:00.000Z".toList

def approvedRequest (service : EvidenceService) : StoredJson service :=
  ⟨.object [(statusKey, .atom (.string "APPROVED".toList))],
    ⟨nodup_singleton _, rfl, trivial, trivial⟩⟩

def exported (service : EvidenceService) (items : List InvestigationItem) :
    List (Text × Live service) :=
  payloadFields service exportJob (requestFields service (approvedRequest service)) (theft items)
    exportTime

def hexText : Nat → Nat → Text
  | 0, _ => []
  | digits + 1, n => hexText digits (n / 16) ++ [hexDigit (n % 16)]

theorem hexText_length (digits n : Nat) : (hexText digits n).length = digits := by
  induction digits generalizing n with
  | zero => rfl
  | succ digits ih => rw [hexText, length_append, ih, length_singleton]

theorem hexText_digest (bytes n : Nat) (positive : 0 < bytes) : IsDigest (hexText (2 * bytes) n) := by
  refine ⟨?_, ?_, ?_⟩
  · apply ne_nil_of_length_pos
    rw [hexText_length]
    omega
  · rw [hexText_length]
    omega
  · generalize 2 * bytes = digits
    induction digits generalizing n with
    | zero => exact fun c member => nomatch member
    | succ digits ih =>
      intro c member
      rcases mem_append.mp member with earlier | last
      · exact ih (n / 16) c earlier
      · rw [mem_singleton.mp last]
        exact hexDigit_lower _ (Nat.mod_lt _ (by omega))

def digestOf (n : Nat) : Text := hexText 64 n

def clipHash : Text :=
  digestOf 0xfd5626b0340e7ab54cffef9383c41c3627ea605dad7f2d7ead5fb5c5d824d7da

def emptyHash : Text :=
  digestOf 0xa234b3994c6dec6a7bb755eba74bc302d4a440692c8de129733f4971035c27d6

def clipSignature : Text :=
  digestOf 0xf7ed0b41568938738bfede007ffd602bfa594742beb22089ba02996fd171a96c

def emptySignature : Text :=
  digestOf 0xe0aead477a0bbd44cbb4e111b4fc65ae4a1d679a64811abe8e4ece7fcc8c23dd

def canonicalExport (items : List InvestigationItem) : Text :=
  stableStringify plainService (.object (exported plainService items))

/-- SHA-256 of the canonical exports with the clip and without it. -/
def exportHashes : DigestTable where
  known := [(canonicalExport [clipItem], clipHash), (canonicalExport [], emptyHash)]
  distinct := by
    show [clipHash, emptyHash].Nodup
    decide +kernel
  digests := by
    intro entry member
    simp only [mem_cons, not_mem_nil, or_false] at member
    rcases member with rfl | rfl <;> exact hexText_digest 32 _ (by omega)
  unspelled := by
    intro entry member
    simp only [mem_cons, not_mem_nil, or_false] at member
    rcases member with rfl | rfl
    · show ¬ ['0', '0'] <+: clipHash
      decide +kernel
    · show ¬ ['0', '0'] <+: emptyHash
      decide +kernel

/-- HMAC-SHA-256 of these digests. -/
def exportSignatures : DigestTable where
  known := [(clipHash, clipSignature), (emptyHash, emptySignature)]
  distinct := by
    show [clipSignature, emptySignature].Nodup
    decide +kernel
  digests := by
    intro entry member
    simp only [mem_cons, not_mem_nil, or_false] at member
    rcases member with rfl | rfl <;> exact hexText_digest 32 _ (by omega)
  unspelled := by
    intro entry member
    simp only [mem_cons, not_mem_nil, or_false] at member
    rcases member with rfl | rfl
    · show ¬ ['0', '0'] <+: clipSignature
      decide +kernel
    · show ¬ ['0', '0'] <+: emptySignature
      decide +kernel

def exportService : EvidenceService := configured exportHashes exportSignatures

/-- A signature is given to the export of an investigation with one clip, and its package is then
rejected. -/
theorem clip_export_rejected : ∃ payload signed,
    executeExport exportService exportJob (some (approvedRequest exportService))
        (some (theft [clipItem])) exportTime = .ok payload ∧
      signPackage exportService payload exportTime = some signed ∧
      signed.packageHash = clipHash ∧ CollisionFree exportService ∧
      ¬ RoundTrips exportService payload signed := by
  have signs : (signPackage exportService (exported exportService [clipItem])
      exportTime).isSome = true := by
    decide +kernel
  obtain ⟨signed, success⟩ := Option.isSome_iff_exists.mp signs
  have secure : CollisionFree exportService := configured_collisionFree _ _
  have hash := (signPackage_cases exportService _ exportTime signed success).2.1
  refine ⟨exported exportService [clipItem], signed, rfl, success, ?_, secure, ?_⟩
  · rw [hash]
    decide +kernel
  · have signable : Signable exportService (exported exportService [clipItem]) :=
      payloadFields_signable exportService _ _ _ _ (requestFields_live _ _)
    rw [roundTrips_iff exportService _ exportTime signed signable secure success, exported,
      dates_payloadFields]
    decide +kernel

/-- An investigation without evidence items is exported, and its package is accepted. -/
theorem empty_export_accepted : ∃ signed,
    signPackage exportService (exported exportService []) exportTime = some signed ∧
      RoundTrips exportService (exported exportService []) signed ∧ Binds exportService := by
  have signs : (signPackage exportService (exported exportService []) exportTime).isSome = true := by
    decide +kernel
  obtain ⟨signed, success⟩ := Option.isSome_iff_exists.mp signs
  have accepted := executeExport_verifies_iff exportService exportJob
    (some (approvedRequest exportService)) (some (theft [])) exportTime exportTime
    (exported exportService []) signed (configured_collisionFree _ _) rfl success
  refine ⟨signed, success, accepted.mpr ?_⟩
  rintro found same item member
  cases same
  cases member

end DracVms.EvidenceExport
