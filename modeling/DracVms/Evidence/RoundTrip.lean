import DracVms.Evidence.Signing

namespace DracVms.Evidence

open List Json

section Canonical

variable (service : EvidenceService)

def Leaf.dateless {N : Type} : Leaf N → Value (Scalar N)
  | .scalar s => .atom s
  | .date _ => .object []

/-- What the signature sees of a live value: a date leaves nothing behind. -/
def dateless {N : Type} (value : Value (Leaf N)) : Value (Scalar N) := value.mapLeaves Leaf.dateless

def arrange {β : Type} (fields : List (Text × β)) : List (Text × β) :=
  buildFields (byLocale service fields)

theorem arrange_perm {β : Type} (fields : List (Text × β))
    (distinct : (fields.map Prod.fst).Nodup) : (arrange service fields).Perm fields := by
  have sorted : (byLocale service fields).Perm fields := perm_insertionSort _ _
  have keys : ((byLocale service fields).map Prod.fst).Nodup :=
    (sorted.map Prod.fst).nodup_iff.mpr distinct
  exact (buildFields_perm _ keys).trans sorted

mutual

theorem normalizeForStableJson_eq : ∀ value : Live service,
    normalizeForStableJson service value = (dateless value).rearrange (arrange service)
  | .atom (.scalar s) => rfl
  | .atom (.date _) => rfl
  | .array items => by
      rw [normalizeForStableJson, normalizeItems_eq items, dateless, Value.mapLeaves,
        Value.rearrange]
  | .object fields => by
      rw [normalizeForStableJson, normalizeFields_eq fields, dateless, Value.mapLeaves,
        Value.rearrange, arrange]

theorem normalizeItems_eq : ∀ items : List (Live service),
    normalizeItems service items = rearrangeItems (arrange service) (mapItems Leaf.dateless items)
  | [] => rfl
  | value :: rest => by
      rw [normalizeItems, normalizeForStableJson_eq value, normalizeItems_eq rest, dateless,
        mapItems, rearrangeItems]

theorem normalizeFields_eq : ∀ fields : List (Text × Live service),
    normalizeFields service fields =
      rearrangeFields (arrange service) (mapFields Leaf.dateless fields)
  | [] => rfl
  | (key, value) :: rest => by
      rw [normalizeFields, normalizeForStableJson_eq value, normalizeFields_eq rest, dateless,
        mapFields, rearrangeFields]

end

theorem dateless_ofJson {N : Type} (value : Value (Scalar N)) : dateless (ofJson value) = value := by
  rw [dateless, ofJson, mapLeaves_mapLeaves]
  exact mapLeaves_atom value

theorem toJson_ofJson {N : Type} (value : Value (Scalar N)) : toJson (ofJson value) = value := by
  rw [toJson, ofJson, mapLeaves_mapLeaves]
  exact mapLeaves_atom value

/-- How many dates a value holds, at any depth. -/
def dates {N : Type} (value : Value (Leaf N)) : Nat :=
  value.weight fun leaf =>
    match leaf with
    | .scalar _ => 0
    | .date _ => 1

section

variable {N : Type} (value : Value (Leaf N))

include N

/-- Serialising keeps one leaf for each date, and the canonical form keeps none. -/
theorem weight_toJson :
    (toJson value).weight (fun _ => 1) = (dateless value).weight (fun _ => 1) + dates value := by
  rw [toJson, dateless, dates, weight_mapLeaves, weight_mapLeaves, ← weight_add]
  congr 1
  funext leaf
  cases leaf <;> rfl

theorem toJson_of_dates_zero (none : dates value = 0) : toJson value = dateless value := by
  refine mapLeaves_congr _ _ _ ?_ value none
  intro leaf weightless
  cases leaf with
  | scalar s => rfl
  | date iso => cases weightless

theorem dateless_live (live : value.IsLive) : (dateless value).IsLive := by
  refine mapLeaves_live _ ?_ value live
  intro leaf
  cases leaf with
  | scalar s => exact trivial
  | date iso => exact ⟨nodup_nil, (propertyOrder_perm []).eq_nil, trivial⟩

theorem toJson_live (live : value.IsLive) : (toJson value).IsLive := by
  refine mapLeaves_live _ ?_ value live
  intro leaf
  cases leaf <;> exact trivial

end

/-- Equal canonical texts come from equal values, up to the dates that the text leaves out. -/
theorem stableStringify_injective (first second : Live service)
    (same : stableStringify service first = stableStringify service second) :
    (dateless first).rearrange (arrange service) = (dateless second).rearrange (arrange service) := by
  have normalized := stringify_injective (leafSyntax service) _ _ same
  rwa [normalizeForStableJson_eq, normalizeForStableJson_eq] at normalized

theorem sameJson_of_stableStringify (first second : Parsed service) (firstLive : first.IsLive)
    (secondLive : second.IsLive)
    (same : stableStringify service (ofJson first) = stableStringify service (ofJson second)) :
    SameJson first second := by
  have arranged := stableStringify_injective service _ _ same
  rw [dateless_ofJson, dateless_ofJson] at arranged
  have left := sortKeys_rearrange first (arrange service) (fun fields => arrange_perm service fields)
    firstLive
  have right := sortKeys_rearrange second (arrange service)
    (fun fields => arrange_perm service fields) secondLive
  rw [SameJson, sortKeys, sortKeys, ← left, ← right, arranged]

/-- The canonical text survives serialisation exactly when the value holds no date. -/
theorem stableStringify_toJson_iff (value : Live service) (live : value.IsLive) :
    stableStringify service (ofJson (toJson value)) = stableStringify service value ↔
      dates value = 0 := by
  constructor
  · intro same
    have arranged := stableStringify_injective service _ _ same
    rw [dateless_ofJson] at arranged
    have permutes : ∀ fields : List (Text × Parsed service), (fields.map Prod.fst).Nodup →
        (arrange service fields).Perm fields := fun fields => arrange_perm service fields
    have left := weight_rearrange (arrange service) permutes (fun _ => 1) (toJson value)
      (toJson_live value live)
    have right := weight_rearrange (arrange service) permutes (fun _ => 1) (dateless value)
      (dateless_live value live)
    have counted := weight_toJson value
    rw [arranged] at left
    omega
  · intro none
    rw [stableStringify, stableStringify, normalizeForStableJson_eq, normalizeForStableJson_eq,
      dateless_ofJson, toJson_of_dates_zero value none]

end Canonical

theorem hexValue_lower (c : Char)
    (lower : (48 ≤ c.toNat ∧ c.toNat ≤ 57) ∨ (97 ≤ c.toNat ∧ c.toNat ≤ 102)) :
    hexValue c = some (if c.toNat ≤ 57 then c.toNat - 48 else c.toNat - 87) := by
  unfold hexValue
  rcases lower with digit | letter
  · rw [if_pos digit, if_pos digit.2]
  · rw [if_neg (by omega), if_pos letter, if_neg (by omega)]

theorem char_of_hexValue (a b : Char)
    (aLower : (48 ≤ a.toNat ∧ a.toNat ≤ 57) ∨ (97 ≤ a.toNat ∧ a.toNat ≤ 102))
    (bLower : (48 ≤ b.toNat ∧ b.toNat ≤ 57) ∨ (97 ≤ b.toNat ∧ b.toNat ≤ 102))
    (same : (hexValue a).getD 0 = (hexValue b).getD 0) : a = b := by
  rw [hexValue_lower a aLower, hexValue_lower b bLower, Option.getD_some, Option.getD_some] at same
  apply Char.toNat_inj.mp
  split at same <;> split at same <;> omega

theorem hexValue_small (c : Char)
    (lower : (48 ≤ c.toNat ∧ c.toNat ≤ 57) ∨ (97 ≤ c.toNat ∧ c.toNat ≤ 102)) :
    (hexValue c).getD 0 < 16 := by
  rw [hexValue_lower c lower, Option.getD_some]
  split <;> omega

theorem decodeHex_injective (first second : Text) (firstEven : first.length % 2 = 0)
    (secondEven : second.length % 2 = 0)
    (firstLower : ∀ c ∈ first, (48 ≤ c.toNat ∧ c.toNat ≤ 57) ∨ (97 ≤ c.toNat ∧ c.toNat ≤ 102))
    (secondLower : ∀ c ∈ second, (48 ≤ c.toNat ∧ c.toNat ≤ 57) ∨ (97 ≤ c.toNat ∧ c.toNat ≤ 102))
    (same : decodeHex first = decodeHex second) : first = second := by
  induction first using decodeHex.induct generalizing second with
  | case1 a b rest ih =>
    match second with
    | [] => cases same
    | [c] => simp at secondEven
    | c :: d :: more =>
      simp only [forall_mem_cons] at firstLower secondLower
      simp only [length_cons] at firstEven secondEven
      simp only [decodeHex, List.cons.injEq] at same
      have smallA := hexValue_small b firstLower.2.1
      have smallB := hexValue_small d secondLower.2.1
      have high : (hexValue a).getD 0 = (hexValue c).getD 0 := by omega
      have low : (hexValue b).getD 0 = (hexValue d).getD 0 := by omega
      rw [char_of_hexValue a c firstLower.1 secondLower.1 high,
        char_of_hexValue b d firstLower.2.1 secondLower.2.1 low,
        ih more (by omega) (by omega) firstLower.2.2 secondLower.2.2 same.2]
  | case2 text short =>
    match text, short with
    | [], _ =>
      match second with
      | [] => rfl
      | [c] => simp at secondEven
      | c :: d :: more => cases same
    | [c], _ => simp at firstEven
    | c :: d :: more, short => exact absurd rfl (short c d more)

theorem IsDigest.all_hex {text : Text} (digest : IsDigest text) : text.all isHex = true := by
  apply all_eq_true.mpr
  intro c member
  rw [isHex, hexValue_lower c (digest.lower c member)]
  rfl

theorem IsDigest.isEmpty {text : Text} (digest : IsDigest text) : text.isEmpty = false := by
  cases text with
  | nil => exact absurd rfl digest.nonempty
  | cons c rest => rfl

theorem safeCompareHex_decodes (provided computed : Text)
    (same : safeCompareHex (some provided) computed = true) :
    decodeHex provided = decodeHex computed := by
  simp only [safeCompareHex, Bool.and_eq_true, decide_eq_true_eq] at same
  exact same.2

theorem safeCompareHex_digests_iff (first second : Text) (firstDigest : IsDigest first)
    (secondDigest : IsDigest second) :
    safeCompareHex (some first) second = true ↔ first = second := by
  constructor
  · intro same
    exact decodeHex_injective first second firstDigest.even secondDigest.even firstDigest.lower
      secondDigest.lower (safeCompareHex_decodes first second same)
  · intro same
    subst same
    simp only [safeCompareHex, firstDigest.isEmpty, firstDigest.all_hex, Bool.not_false,
      Bool.and_self, decide_true]

section Package

variable (service : EvidenceService)

/-- A payload that can be signed: its own fields are in enumeration order, and none of them has
the name of a field that the signature adds. -/
structure Signable (payload : List (Text × Live service)) : Prop where
  live : (Value.object payload).IsLive
  apart : ∀ entry ∈ payload, entry.1 ∉ internalKeys

variable (signed : PackageSignature)

theorem signatureFields_named :
    ∀ entry ∈ signatureFields service signed, isIndex entry = false := by
  intro entry member
  simp only [signatureFields, mem_cons, not_mem_nil, or_false] at member
  rcases member with rfl | rfl | rfl <;> rfl

theorem signatureFields_keys : (signatureFields service signed).map Prod.fst = internalKeys := rfl

theorem strings_live (fields : List (Text × Text)) (distinct : (fields.map Prod.fst).Nodup)
    (named : ∀ entry ∈ fields, indexOf entry.1 = none) :
    (Value.object (fields.map fun entry => (entry.1, stringLeaf service entry.2))).IsLive := by
  refine ⟨?_, propertyOrder_named _ ?_, ?_⟩
  · rw [map_map]
    exact distinct
  · intro entry member
    obtain ⟨original, inFields, rfl⟩ := mem_map.mp member
    rw [isIndex, named original inFields]
    rfl
  · clear distinct named
    induction fields with
    | nil => exact trivial
    | cons entry rest ih => exact ⟨trivial, ih⟩

theorem signatureFields_live : fieldsLive (signatureFields service signed) := by
  have hash := strings_live service [("algorithm".toList, "SHA-256".toList),
    (valueKey, signed.packageHash)]
    (show (["algorithm".toList, valueKey] : List Text).Nodup by decide) (by
      intro entry member
      simp only [mem_cons, not_mem_nil, or_false] at member
      rcases member with rfl | rfl <;> rfl)
  have hmac := strings_live service [("algorithm".toList, "HMAC-SHA-256".toList),
    (valueKey, signed.signature), ("keyId".toList, signed.keyId)]
    (show (["algorithm".toList, valueKey, "keyId".toList] : List Text).Nodup by decide) (by
      intro entry member
      simp only [mem_cons, not_mem_nil, or_false] at member
      rcases member with rfl | rfl | rfl <;> rfl)
  exact ⟨hash, hmac, trivial, trivial⟩

variable (payload : List (Text × Live service))

theorem flatPackage_eq (signed : PackageSignature) (signable : Signable service payload) :
    flatPackage service payload signed = payload ++ signatureFields service signed ∧
      (Value.object (payload ++ signatureFields service signed)).IsLive := by
  have distinct : ((payload ++ signatureFields service signed).map Prod.fst).Nodup := by
    rw [map_append, signatureFields_keys]
    refine nodup_append.mpr ⟨signable.live.1, by decide, ?_⟩
    rintro key inPayload other internal rfl
    obtain ⟨entry, member, rfl⟩ := mem_map.mp inPayload
    exact signable.apart entry member internal
  have ordered : propertyOrder (payload ++ signatureFields service signed) =
      payload ++ signatureFields service signed := by
    rw [propertyOrder_append _ _ (signatureFields_named service signed), signable.live.2.1]
  refine ⟨buildFields_of_ordered _ distinct ordered, distinct, ordered, ?_⟩
  exact (fieldsLive_append _ _).mpr ⟨signable.live.2.2, signatureFields_live service signed⟩

/-- A payload's fields as they come back after serialisation. -/
def storedFields (payload : List (Text × Live service)) : List (Text × Live service) :=
  mapFields (fun s => .atom (.scalar s)) (mapFields Leaf.toJson payload)

theorem reparsed_flatPackage (signed : PackageSignature) (signable : Signable service payload) :
    reparsed service (.object (flatPackage service payload signed)) =
      some (.object (storedFields service payload ++ signatureFields service signed)) := by
  obtain ⟨flat, live⟩ := flatPackage_eq service payload signed signable
  rw [flat, reparsed, parse_stringify _ _ (toJson_live _ live), Option.map_some]
  have split : ∀ fields : List (Text × Live service),
      ofJson (toJson (Value.object fields)) = .object (storedFields service fields) := fun _ => rfl
  rw [split, storedFields, mapFields_map Leaf.toJson, map_append, ← mapFields_map,
    mapFields_map, map_append, ← mapFields_map]
  rfl

theorem storedFields_keys : (storedFields service payload).map Prod.fst = payload.map Prod.fst := by
  rw [storedFields, mapFields_map, mapFields_map, map_map, map_map]
  rfl

theorem storedFields_apart (signable : Signable service payload) :
    ∀ entry ∈ storedFields service payload, entry.1 ∉ internalKeys := by
  intro entry member internal
  have key : entry.1 ∈ payload.map Prod.fst := by
    rw [← storedFields_keys service payload]
    exact mem_map_of_mem member
  obtain ⟨original, inPayload, same⟩ := mem_map.mp key
  rw [← same] at internal
  exact signable.apart original inPayload internal

theorem storedPackage_reads (fields : List (Text × Live service)) (signed : PackageSignature)
    (apart : ∀ entry ∈ fields, entry.1 ∉ internalKeys) : stringValue service (extractObject service
        (field (fields ++ signatureFields service signed) packageHashKey)) =
        some signed.packageHash ∧
      stringValue service (extractObject service
        (field (fields ++ signatureFields service signed) signatureKey)) = some signed.signature ∧
      omitInternalFields service (fields ++ signatureFields service signed) = fields := by
  have other : ∀ key ∈ internalKeys, ∀ entry ∈ fields, entry.1 ≠ key := by
    rintro key internal entry member rfl
    exact apart entry member internal
  refine ⟨?_, ?_, ?_⟩
  · rw [field_append_right fields _ packageHashKey (other _ (by decide))]
    rfl
  · rw [field_append_right fields _ signatureKey (other _ (by decide))]
    rfl
  · have kept : fields.filter (fun entry => decide (entry.1 ∉ internalKeys)) = fields := by
      apply filter_eq_self.mpr
      intro entry member
      exact decide_eq_true (apart entry member)
    have dropped : (signatureFields service signed).filter
        (fun entry => decide (entry.1 ∉ internalKeys)) = [] := by
      rfl
    rw [omitInternalFields, filter_append, kept, dropped, append_nil]

end Package

end DracVms.Evidence
