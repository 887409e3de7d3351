import DracVms.Evidence.RoundTrip

namespace DracVms.Evidence

open Json

section Verification

variable (service : EvidenceService)

/-- Without collisions, different texts have different signatures. -/
structure CollisionFree : Prop where
  hash : Function.Injective service.sha256Hex
  hmac : Function.Injective (service.hmacSha256Hex service.hmacSecret)

variable (payload : List (Text × Live service))

theorem signPackage_cases (signedAt : Text) (signed : PackageSignature)
    (success : signPackage service payload signedAt = some signed) :
    secretConfigured service = true ∧
      signed.packageHash = service.sha256Hex (stableStringify service (.object payload)) ∧
      signed.signature = service.hmacSha256Hex service.hmacSecret signed.packageHash := by
  unfold signPackage at success
  split at success
  · rename_i configured
    simp only at success
    split at success
    · cases success
    · cases success
      exact ⟨configured, rfl, rfl⟩
  · cases success

theorem verifyPackage_stored_iff (signedAt : Text) (signed : PackageSignature)
    (signable : Signable service payload) (secure : CollisionFree service)
    (success : signPackage service payload signedAt = some signed) :
    ∃ result, verifyPackage service (storedFields service payload ++
        signatureFields service signed) = some result ∧
      (result.ok = true ↔ dates (Value.object payload) = 0) := by
  obtain ⟨configured, hash, signature⟩ := signPackage_cases service payload signedAt signed success
  obtain ⟨readsHash, readsSignature, kept⟩ := storedPackage_reads service
    (storedFields service payload) signed (storedFields_apart service payload signable)
  have canonical := stableStringify_toJson_iff service (.object payload) signable.live
  have stored : Value.object (storedFields service payload) =
      ofJson (toJson (Value.object payload)) := rfl
  refine ⟨_, by rw [verifyPackage, if_pos configured], ?_⟩
  simp only [readsHash, readsSignature, kept, stored, Bool.and_eq_true]
  rw [hash, safeCompareHex_digests_iff _ _ (service.sha256Hex_digest _) (service.sha256Hex_digest _),
    signature, hash, safeCompareHex_digests_iff _ _ (service.hmacSha256Hex_digest _ _)
      (service.hmacSha256Hex_digest _ _), ← canonical]
  constructor
  · intro accepted
    exact (secure.hash accepted.1).symm
  · intro same
    rw [same]
    exact ⟨rfl, rfl⟩

def fromJson (fields : List (Text × Parsed service)) : List (Text × Live service) :=
  mapFields (fun s => .atom (.scalar s)) fields

/-- The payload of a parsed package. -/
def payloadOf (fields : List (Text × Parsed service)) : List (Text × Parsed service) :=
  fields.filter fun entry => entry.1 ∉ internalKeys

/-- Packages that are accepted with one signature have the same payload. -/
def Binds : Prop :=
  ∀ (first second : List (Text × Parsed service)) (left right : Verification),
    (Value.object first).IsLive → (Value.object second).IsLive →
    verifyPackage service (fromJson service first) = some left →
    verifyPackage service (fromJson service second) = some right →
    left.ok = true → right.ok = true → left.providedSignature = right.providedSignature →
    SameJson (Value.object (payloadOf service first)) (Value.object (payloadOf service second))

variable (fields : List (Text × Parsed service))

theorem payloadOf_live (live : (Value.object fields).IsLive) :
    (Value.object (payloadOf service fields)).IsLive := by
  refine ⟨?_, propertyOrder_filter _ fields ?_ live.2.1, fieldsLive_filter _ fields live.2.2⟩
  · exact (List.filter_sublist.map Prod.fst).nodup live.1
  · intro entry index
    apply decide_eq_true
    intro internal
    simp only [internalKeys, List.mem_cons, List.not_mem_nil, or_false] at internal
    have named : indexOf entry.1 = none := by
      rcases internal with h | h | h <;> rw [h] <;> rfl
    rw [isIndex, named] at index
    cases index

theorem omitInternalFields_fromJson :
    Value.object (omitInternalFields service (fromJson service fields)) =
      ofJson (Value.object (payloadOf service fields)) := by
  rw [omitInternalFields, fromJson, payloadOf, ofJson, Value.mapLeaves, mapFields_map,
    mapFields_map, List.filter_map]
  rfl

theorem verifyPackage_signature (result : Verification)
    (verified : verifyPackage service (fromJson service fields) = some result)
    (ok : result.ok = true) : ∃ provided, result.providedSignature = some provided ∧
      decodeHex provided = decodeHex (service.hmacSha256Hex service.hmacSecret
        (service.sha256Hex (stableStringify service
          (ofJson (Value.object (payloadOf service fields)))))) := by
  unfold verifyPackage at verified
  split at verified
  · simp only [omitInternalFields_fromJson] at verified
    cases verified
    simp only [Bool.and_eq_true] at ok
    cases provided : stringValue service (extractObject service
        (field (fromJson service fields) signatureKey)) with
    | none =>
      rw [provided] at ok
      cases ok.2
    | some value =>
      rw [provided] at ok
      exact ⟨value, rfl, safeCompareHex_decodes _ _ ok.2⟩
  · cases verified

theorem verifyPackage_binds (secure : CollisionFree service) : Binds service := by
  intro first second left right firstLive secondLive verifiedFirst verifiedSecond okFirst okSecond same
  obtain ⟨provided, readsFirst, decodesFirst⟩ :=
    verifyPackage_signature service first left verifiedFirst okFirst
  obtain ⟨other, readsSecond, decodesSecond⟩ :=
    verifyPackage_signature service second right verifiedSecond okSecond
  have one : provided = other := by
    rw [readsFirst, readsSecond] at same
    exact Option.some.inj same
  subst one
  have digest := fun text => service.hmacSha256Hex_digest service.hmacSecret text
  have signatures := decodeHex_injective _ _ (digest _).even (digest _).even (digest _).lower
    (digest _).lower (decodesFirst.symm.trans decodesSecond)
  exact sameJson_of_stableStringify service _ _ (payloadOf_live service first firstLive)
    (payloadOf_live service second secondLive) (secure.hash (secure.hmac signatures))

end Verification

end DracVms.Evidence
