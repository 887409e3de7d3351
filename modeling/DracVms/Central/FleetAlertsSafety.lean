import DracVms.Central.FleetAlerts
import DracVms.Library.KeyedList

namespace DracVms.FleetAlerts

open List KeyedList

open Json (Text)
open JsString (sliceUnits Unicode)
open JsString.Unicode (toLowerCase)
open Database (Instant)

variable {key : Text}

section Index

variable (canonical : Entry → Text)

/-! The index. -/

section

variable (index : Text → Option ℕ) (entry : Entry) (n : ℕ)

theorem indexEntry_own : indexEntry canonical index (entry, n) entry.key = some n := by
  unfold indexEntry
  split
  · exact Function.update_self entry.key (some n) index
  · rename_i absent
    have apart : entry.key ≠ canonical entry := by
      intro same
      apply absent
      rw [← same, Function.update_self]
      rfl
    rw [Function.update_of_ne apart, Function.update_self]

theorem indexEntry_canonical (apart : canonical entry ≠ entry.key) :
    indexEntry canonical index (entry, n) (canonical entry) =
      (index (canonical entry)).or (some n) := by
  unfold indexEntry
  rw [Function.update_of_ne apart]
  cases held : index (canonical entry) with
  | none => exact Function.update_self _ _ _
  | some i =>
    show Function.update index entry.key (some n) (canonical entry) = some i
    rw [Function.update_of_ne apart]
    exact held

theorem indexEntry_other (key : Text) (apart : key ≠ entry.key) (apart' : key ≠ canonical entry) :
    indexEntry canonical index (entry, n) key = index key := by
  unfold indexEntry
  split
  · exact Function.update_of_ne apart _ _
  · rw [Function.update_of_ne apart', Function.update_of_ne apart]

end

theorem indexByKey_spec (history : List Entry) (distinct : (history.map Entry.key).Nodup)
    (key : Text) :
    (indexByKey canonical history key).bind (history[·]?) = entryFor canonical history key ∧
      ∀ i, indexByKey canonical history key = some i → i < history.length := by
  induction history using List.reverseRecOn with
  | nil => exact ⟨rfl, by simp [indexByKey]⟩
  | append_singleton earlier entry ih =>
    rw [map_append] at distinct
    obtain ⟨distinct', -, fresh⟩ := nodup_append.mp distinct
    obtain ⟨found, bounded⟩ := ih distinct'
    have last : indexByKey canonical (earlier ++ [entry]) =
        indexEntry canonical (indexByKey canonical earlier) (entry, earlier.length) := by
      unfold indexByKey
      rw [zipIdx_append, foldl_append]
      simp
    have kept : ∀ i, indexByKey canonical earlier key = some i →
        (earlier ++ [entry])[i]? = earlier[i]? := by
      intro i here
      exact List.getElem?_append_left (bounded i here)
    unfold entryFor at found ⊢
    rw [last, List.find?_append, List.find?_append]
    by_cases own : key = entry.key
    · have absent : earlier.find? (fun old => old.key = key) = none := by
        apply List.find?_eq_none.mpr
        intro old listed named
        apply fresh old.key (mem_map_of_mem listed) entry.key (by simp)
        rw [of_decide_eq_true named, own]
      rw [own] at absent ⊢
      rw [indexEntry_own, absent]
      constructor
      · simp
      · intro i here
        cases here
        simp
    · have notOwn : [entry].find? (fun old => old.key = key) = none := by
        simp [Ne.symm own]
      rw [notOwn, Option.or_none]
      by_cases would : key = canonical entry
      · rw [would, indexEntry_canonical canonical _ entry _ (by rw [← would]; exact own), ← would]
        cases here : indexByKey canonical earlier key with
        | none =>
          rw [here] at found
          have nothing := Option.or_eq_none_iff.mp found.symm
          rw [nothing.1, nothing.2]
          constructor
          · simp [would]
          · intro i there
            cases there
            simp
        | some i =>
          rw [here] at found
          have small : i < earlier.length := bounded i here
          have known : earlier[i]? = some earlier[i] := List.getElem?_eq_getElem small
          constructor
          · show (earlier ++ [entry])[i]? = _
            rw [kept i here, ← Option.or_assoc, ← found]
            show earlier[i]? = (earlier[i]?).or _
            rw [known]
            rfl
          · intro j there
            cases there
            rw [length_append]
            exact Nat.lt_add_right _ (bounded i here)
      · have notWould : [entry].find? (fun old => canonical old = key) = none := by
          simp [Ne.symm would]
        rw [indexEntry_other canonical _ entry _ key own would, notWould, Option.or_none, ← found]
        constructor
        · cases here : indexByKey canonical earlier key with
          | none => rfl
          | some i => exact kept i here
        · intro i here
          rw [length_append]
          exact Nat.lt_add_right _ (bounded i here)

theorem entryFor_names {history : List Entry} {entry : Entry}
    (found : entryFor canonical history key = some entry) : entry ∈ history ∧
      (entry.key = key ∨ (∀ old ∈ history, old.key ≠ key) ∧ canonical entry = key) := by
  unfold entryFor at found
  cases own : history.find? (fun old => old.key = key) with
  | some old =>
    rw [own] at found
    cases found
    have named := List.find?_some own
    exact ⟨List.mem_of_find?_eq_some own, Or.inl (of_decide_eq_true named)⟩
  | none =>
    rw [own, Option.none_or] at found
    have would := List.find?_some found
    refine ⟨List.mem_of_find?_eq_some found, Or.inr ⟨?_, of_decide_eq_true would⟩⟩
    intro old listed named
    exact List.find?_eq_none.mp own old listed (decide_eq_true named)

theorem entryFor_none {history : List Entry} (absent : entryFor canonical history key = none) :
    ∀ old ∈ history, old.key ≠ key := by
  intro old listed named
  have nothing := (Option.or_eq_none_iff.mp absent).1
  exact List.find?_eq_none.mp nothing old listed (decide_eq_true named)

end Index

section Pass

variable [Unicode] (index : Text → Option ℕ) (now : Instant)

/-! One pass over the alerts. -/

def isAt (i : Option ℕ) (alert : Alert) : Bool := index (alertKey alert) = i

theorem pass_history (alerts : List Alert) (history : List Entry) (novos : List Notice)
    (bounded : ∀ alert ∈ alerts, ∀ i, index (alertKey alert) = some i → i < history.length) :
    (alerts.foldl (takeAlert index now) ⟨history, novos⟩).history =
      history.mapIdx (fun i entry =>
        (alerts.filter (isAt index (some i))).foldl (reopen now) entry) ++
        (alerts.filter (isAt index none)).map (create now) := by
  induction alerts generalizing history novos with
  | nil =>
    apply List.ext_getElem?
    simp
  | cons alert rest ih =>
    have bounded' : ∀ other ∈ rest, ∀ i, index (alertKey other) = some i → i < history.length :=
      fun other listed => bounded other (mem_cons_of_mem _ listed)
    rw [foldl_cons]
    cases place : index (alertKey alert) with
    | none =>
      have taken : (takeAlert index now ⟨history, novos⟩ alert).history =
          history ++ [create now alert] := by
        unfold takeAlert
        rw [place]
        rfl
      have noneHere : rest.filter (isAt index (some history.length)) = [] := by
        apply filter_eq_nil_iff.mpr
        intro other listed here
        have small := bounded' other listed history.length (of_decide_eq_true here)
        exact Nat.lt_irrefl _ small
      have same : ∀ i, (alert :: rest).filter (isAt index (some i)) =
          rest.filter (isAt index (some i)) := by
        intro i
        simp [isAt, place]
      have fresh : (alert :: rest).filter (isAt index none) =
          alert :: rest.filter (isAt index none) := by
        simp [isAt, place]
      have step := ih (takeAlert index now ⟨history, novos⟩ alert).history
        (takeAlert index now ⟨history, novos⟩ alert).novos (by
          intro other listed i here
          rw [taken, length_append]
          exact Nat.lt_add_right _ (bounded' other listed i here))
      have whole : takeAlert index now ⟨history, novos⟩ alert =
          ⟨history ++ [create now alert], (takeAlert index now ⟨history, novos⟩ alert).novos⟩ := by
        rw [← taken]
      rw [taken] at step
      rw [fresh, whole, step]
      simp only [same]
      simp [noneHere]
    | some i =>
      have small : i < history.length := bounded alert mem_cons_self i place
      have taken : (takeAlert index now ⟨history, novos⟩ alert).history =
          history.set i (reopen now (history[i]) alert) := by
        unfold takeAlert
        rw [place]
        simp [List.getElem?_eq_getElem small]
      have step := ih (takeAlert index now ⟨history, novos⟩ alert).history
        (takeAlert index now ⟨history, novos⟩ alert).novos (by
          intro other listed j here
          rw [taken, length_set]
          exact bounded' other listed j here)
      have whole : takeAlert index now ⟨history, novos⟩ alert =
          ⟨history.set i (reopen now (history[i]) alert),
            (takeAlert index now ⟨history, novos⟩ alert).novos⟩ := by
        rw [← taken]
      rw [taken] at step
      have fresh : (alert :: rest).filter (isAt index none) =
          rest.filter (isAt index none) := by
        simp [isAt, place]
      rw [fresh, whole, step]
      congr 1
      apply List.ext_getElem?
      intro j
      rw [List.getElem?_mapIdx, List.getElem?_mapIdx, List.getElem?_set]
      by_cases here : i = j
      · have first : (alert :: rest).filter (isAt index (some j)) =
            alert :: rest.filter (isAt index (some j)) := by
          simp [isAt, place, here]
        rw [first, if_pos here, if_pos (here ▸ small), ← here, List.getElem?_eq_getElem small]
        rfl
      · have other : (alert :: rest).filter (isAt index (some j)) =
            rest.filter (isAt index (some j)) := by
          simp [isAt, place, here]
        rw [other, if_neg here]

/-- What is announced of the alerts of one key, from its entry on. -/
def news : Entry → List Alert → List Notice
  | _, [] => []
  | entry, alert :: rest =>
    if isNews entry alert then noticeOf entry alert :: news (reopen now entry alert) rest
    else news (reopen now entry alert) rest

variable (entry : Entry)

theorem news_cons (alert : Alert) (rest : List Alert) : news now entry (alert :: rest) =
      if isNews entry alert then noticeOf entry alert :: news now (reopen now entry alert) rest
      else news now (reopen now entry alert) rest := rfl

def hasKey (key : Text) (alert : Alert) : Bool := alertKey alert = key

def announces (key : Text) (notice : Notice) : Bool := notice.key = key

theorem pass_novos (key : Text) (i : ℕ) (place : index key = some i) (alerts : List Alert)
    (apart : ∀ alert ∈ alerts, alertKey alert ≠ key → index (alertKey alert) ≠ some i)
    (history : List Entry) (novos : List Notice) (entry : Entry) (here : history[i]? = some entry) :
    (alerts.foldl (takeAlert index now) ⟨history, novos⟩).novos.filter (announces key) =
      novos.filter (announces key) ++ news now entry (alerts.filter (hasKey key)) := by
  induction alerts generalizing history novos entry with
  | nil => simp [news]
  | cons alert rest ih =>
    have apart' : ∀ other ∈ rest, alertKey other ≠ key → index (alertKey other) ≠ some i :=
      fun other listed => apart other (mem_cons_of_mem _ listed)
    have small : i < history.length := (List.getElem?_eq_some_iff.mp here).1
    rw [foldl_cons]
    by_cases named : alertKey alert = key
    · have taken : takeAlert index now ⟨history, novos⟩ alert =
          ⟨history.set i (reopen now entry alert),
            if isNews entry alert then novos ++ [noticeOf entry alert] else novos⟩ := by
        unfold takeAlert
        rw [named, place]
        simp [here]
      have chosen : (alert :: rest).filter (hasKey key) = alert :: rest.filter (hasKey key) := by
        simp [hasKey, named]
      have after : (history.set i (reopen now entry alert))[i]? =
          some (reopen now entry alert) := by
        rw [List.getElem?_set_self small]
      rw [taken, ih apart' _ _ _ after, chosen]
      have told : announces key (noticeOf entry alert) = true := decide_eq_true named
      rw [news_cons]
      split
      · rw [filter_append, filter_cons, if_pos told, filter_nil, append_assoc]
        rfl
      · rfl
    · have skipped : (alert :: rest).filter (hasKey key) = rest.filter (hasKey key) := by
        simp [hasKey, named]
      have untold : ∀ notice : Notice, notice.key = alertKey alert →
          (novos ++ [notice]).filter (announces key) = novos.filter (announces key) := by
        intro notice same
        simp [announces, same, named]
      have step : ∃ history' novos', takeAlert index now ⟨history, novos⟩ alert =
          ⟨history', novos'⟩ ∧ history'[i]? = some entry ∧
            novos'.filter (announces key) = novos.filter (announces key) := by
        unfold takeAlert
        cases elsewhere : (index (alertKey alert)).bind fun j => history[j]?.map (j, ·) with
        | none =>
          refine ⟨_, _, rfl, ?_, untold _ rfl⟩
          rw [List.getElem?_append_left small]
          exact here
        | some found =>
          obtain ⟨j, placed, known⟩ := Option.bind_eq_some_iff.mp elsewhere
          obtain ⟨old, -, same⟩ := Option.map_eq_some_iff.mp known
          cases same
          refine ⟨_, _, rfl, ?_, ?_⟩
          · have differ : j ≠ i := by
              intro equal
              rw [equal] at placed
              exact apart alert mem_cons_self named placed
            rw [List.getElem?_set_ne differ]
            exact here
          · split
            · exact untold _ rfl
            · rfl
      obtain ⟨history', novos', taken, still, told⟩ := step
      rw [taken, ih apart' history' novos' entry still, told, skipped]

theorem pass_novos_fresh (key : Text) (place : index key = none) (alerts : List Alert)
    (history : List Entry) (novos : List Notice) :
    ((alerts.foldl (takeAlert index now) ⟨history, novos⟩).novos.filter (announces key)).length =
      (novos.filter (announces key)).length + (alerts.filter (hasKey key)).length := by
  induction alerts generalizing history novos with
  | nil => simp
  | cons alert rest ih =>
    rw [foldl_cons, ih]
    unfold takeAlert
    by_cases named : alertKey alert = key
    · rw [named, place]
      simp [announces, hasKey, named]
      omega
    · cases elsewhere : (index (alertKey alert)).bind fun j => history[j]?.map (j, ·) with
      | none => simp [announces, hasKey, named]
      | some found =>
        dsimp only
        split
        · simp [announces, hasKey, named, noticeOf]
        · simp [hasKey, named]

theorem pass_novos_listed (alerts : List Alert) (history : List Entry) (novos : List Notice) :
    ∀ notice ∈ (alerts.foldl (takeAlert index now) ⟨history, novos⟩).novos,
      notice ∈ novos ∨ notice.key ∈ alerts.map alertKey := by
  induction alerts generalizing history novos with
  | nil =>
    intro notice listed
    exact Or.inl listed
  | cons alert rest ih =>
    intro notice listed
    rcases ih (takeAlert index now ⟨history, novos⟩ alert).history
      (takeAlert index now ⟨history, novos⟩ alert).novos notice listed with earlier | later
    · unfold takeAlert at earlier
      split at earlier
      · rcases mem_append.mp earlier with old | new
        · exact Or.inl old
        · right
          rw [mem_singleton.mp new]
          exact mem_cons_self
      · split at earlier
        · rcases mem_append.mp earlier with old | new
          · exact Or.inl old
          · right
            rw [mem_singleton.mp new]
            exact mem_cons_self
        · exact Or.inl earlier
    · exact Or.inr (mem_cons_of_mem _ later)

/-! The alerts of one key. -/

omit [Unicode] in
theorem rank_le (level : Level) : alertLevelRank level ≤ 2 := by
  cases level <;> decide

def rank (alert : Alert) : ℕ := alertLevelRank alert.level

theorem news_nil (alerts : List Alert) (active : entry.status = .active)
    (falling : (alertLevelRank entry.level :: alerts.map rank).Pairwise (· ≥ ·)) :
    news now entry alerts = [] := by
  induction alerts generalizing entry with
  | nil => rfl
  | cons alert rest ih =>
    obtain ⟨first, falling'⟩ := pairwise_cons.mp falling
    have lower : rank alert ≤ alertLevelRank entry.level := first (rank alert) mem_cons_self
    have silent : isNews entry alert = false := by
      unfold isNews escalated
      unfold rank at lower
      simp [active, lower]
    rw [news_cons, silent]
    exact ih (reopen now entry alert) rfl falling'

theorem news_length (alerts : List Alert) (last : Alert)
    (steady : Steady entry ((alerts ++ [last]).map rank)) :
    (news now entry (alerts ++ [last])).length =
      if entry.status = .active ∧ rank last ≤ alertLevelRank entry.level then 0 else 1 := by
  unfold Steady at steady
  by_cases active : entry.status = .active
  · by_cases low : entry.level = .warning
    · rw [if_pos ⟨active, low⟩] at steady
      induction alerts generalizing entry with
      | nil =>
        rw [nil_append, news_cons]
        unfold news isNews escalated rank
        by_cases above : alertLevelRank entry.level < alertLevelRank last.level
        all_goals simp [active, above]
      | cons alert rest ih =>
        obtain ⟨first, steady'⟩ := pairwise_cons.mp steady
        have lowRank : alertLevelRank entry.level = 1 := by
          rw [low]
          rfl
        rw [cons_append, news_cons]
        cases level : alert.level with
        | warning =>
          have silent : isNews entry alert = false := by
            unfold isNews escalated
            simp [active, low, level]
          rw [silent, if_neg Bool.false_ne_true, ih (reopen now entry alert) steady' rfl level]
          simp [reopen, level, low, active]
        | critical =>
          have told : isNews entry alert = true := by
            unfold isNews escalated
            simp [active, low, level, alertLevelRank]
          have high : ∀ r ∈ (rest ++ [last]).map rank, r = 2 := by
            intro r listed
            have above := first r listed
            obtain ⟨other, -, same⟩ := mem_map.mp listed
            have below := rank_le other.level
            unfold rank at above same
            rw [level] at above
            have two : alertLevelRank .critical = 2 := rfl
            omega
          have nothing : news now (reopen now entry alert) (rest ++ [last]) = [] := by
            apply news_nil now _ _ rfl
            have same : (rest ++ [last]).map rank =
                List.replicate ((rest ++ [last]).map rank).length 2 :=
              eq_replicate_of_mem high
            rw [same]
            show (alertLevelRank alert.level :: _).Pairwise _
            rw [level]
            show (List.replicate (_ + 1) 2).Pairwise _
            apply pairwise_replicate.mpr
            right
            exact Nat.le_refl 2
          have lastHigh : rank last = 2 := high (rank last) (by simp)
          rw [told, if_pos rfl, nothing]
          simp [lastHigh, lowRank]
    · rw [if_neg (fun both => low both.2)] at steady
      have high : entry.level = .critical := by
        cases level : entry.level with
        | warning => exact absurd level low
        | critical => rfl
      have highRank : alertLevelRank entry.level = 2 := by
        rw [high]
        rfl
      have below : rank last ≤ alertLevelRank entry.level := by
        rw [highRank]
        exact rank_le last.level
      rw [if_pos ⟨active, below⟩]
      rw [news_nil now entry _ active]
      · rfl
      · apply pairwise_cons.mpr
        refine ⟨?_, steady⟩
        intro r listed
        obtain ⟨other, -, same⟩ := mem_map.mp listed
        rw [highRank, ← same]
        exact rank_le other.level
  · rw [if_neg (fun both => active both.1)] at steady
    rw [if_neg (fun both => active both.1)]
    have first : ∃ alert rest, alerts ++ [last] = alert :: rest := by
      cases alerts with
      | nil => exact ⟨last, [], rfl⟩
      | cons alert rest => exact ⟨alert, rest ++ [last], rfl⟩
    obtain ⟨alert, rest, whole⟩ := first
    rw [whole] at steady ⊢
    have told : isNews entry alert = true := by
      unfold isNews
      simp [active]
    rw [news_cons, told, if_pos rfl]
    have nothing : news now (reopen now entry alert) rest = [] := news_nil now _ _ rfl steady
    rw [nothing]
    rfl

theorem reopened (alerts : List Alert) (last : Alert) :
    ((alerts ++ [last]).foldl (reopen now) entry).status = .active ∧
      ((alerts ++ [last]).foldl (reopen now) entry).key = alertKey last ∧
      ((alerts ++ [last]).foldl (reopen now) entry).level = last.level ∧
      ((alerts ++ [last]).foldl (reopen now) entry).lastSeenAt = now := by
  rw [foldl_append]
  exact ⟨rfl, rfl, rfl, rfl⟩

end Pass

section Touched

variable [Unicode] {canonical : Entry → Text} {history : List Entry} {alerts : List Alert}
  (now : Instant)

/-! The entries after the pass. -/

variable {key : Text}

theorem key_cases (distinct : (history.map Entry.key).Nodup)
    (orderly : Orderly canonical history alerts key) :
    (indexByKey canonical history key = none ∧ (∀ old ∈ history, old.key ≠ key) ∧
        (alerts.map alertKey).count key = 1) ∨
      ∃ i entry, indexByKey canonical history key = some i ∧ history[i]? = some entry ∧
        entryFor canonical history key = some entry ∧
        (entry.key = key ∨ entry.status ≠ .active ∧ entry.key ∉ alerts.map alertKey) ∧
        Steady entry (ranksOf alerts key) := by
  obtain ⟨found, bounded⟩ := indexByKey_spec canonical history distinct key
  unfold Orderly at orderly
  cases place : indexByKey canonical history key with
  | none =>
    rw [place] at found
    have absent : entryFor canonical history key = none := found.symm
    rw [absent] at orderly
    exact Or.inl ⟨rfl, entryFor_none canonical absent, orderly⟩
  | some i =>
    rw [place] at found
    have small : i < history.length := bounded i place
    have here : history[i]? = some history[i] := List.getElem?_eq_getElem small
    have entry : entryFor canonical history key = some history[i] := by
      rw [← found]
      exact here
    rw [entry] at orderly
    exact Or.inr ⟨i, _, rfl, here, entry, orderly.1, orderly.2⟩

theorem index_apart (distinct : (history.map Entry.key).Nodup)
    (orderly : ∀ key ∈ alerts.map alertKey, Orderly canonical history alerts key)
    {first second : Text}
    (listed : first ∈ alerts.map alertKey) (listed' : second ∈ alerts.map alertKey) {i : ℕ}
    (place : indexByKey canonical history first = some i)
    (place' : indexByKey canonical history second = some i) : first = second := by
  rcases key_cases distinct (orderly first listed) with
    ⟨nowhere, -⟩ | ⟨j, entry, placed, here, found, own, -⟩
  · rw [place] at nowhere
    cases nowhere
  rcases key_cases distinct (orderly second listed') with
    ⟨nowhere, -⟩ | ⟨j', entry', placed', here', found', own', -⟩
  · rw [place'] at nowhere
    cases nowhere
  rw [place] at placed
  rw [place'] at placed'
  cases placed
  cases placed'
  rw [here] at here'
  cases here'
  rcases own with named | ⟨-, unlisted⟩
  · rcases own' with named' | ⟨-, unlisted'⟩
    · rw [← named, ← named']
    · rw [named] at unlisted'
      exact absurd listed unlisted'
  · rcases own' with named' | -
    · rw [named'] at unlisted
      exact absurd listed' unlisted
    · rcases (entryFor_names canonical found).2 with named | ⟨-, would⟩
      · rw [named] at unlisted
        exact absurd listed unlisted
      · rcases (entryFor_names canonical found').2 with named' | ⟨-, would'⟩
        · rw [named'] at unlisted
          exact absurd listed' unlisted
        · rw [← would, ← would']

omit [Unicode] in
theorem index_own (distinct : (history.map Entry.key).Nodup) {i : ℕ} {entry : Entry}
    (here : history[i]? = some entry) : indexByKey canonical history entry.key = some i := by
  obtain ⟨found, -⟩ := indexByKey_spec canonical history distinct entry.key
  have listed : entry ∈ history := List.mem_of_getElem? here
  have own : entryFor canonical history entry.key = some entry := by
    have first : history.find? (fun old => old.key = entry.key) = some entry :=
      lookup_eq_some distinct listed
    unfold entryFor
    rw [first]
    rfl
  rw [own] at found
  obtain ⟨j, place, there⟩ := Option.bind_eq_some_iff.mp found
  rw [place]
  obtain ⟨small, atI⟩ := List.getElem?_eq_some_iff.mp here
  obtain ⟨small', atJ⟩ := List.getElem?_eq_some_iff.mp there
  have insideI : i < (history.map Entry.key).length := by
    rw [length_map]
    exact small
  have insideJ : j < (history.map Entry.key).length := by
    rw [length_map]
    exact small'
  have equal : (history.map Entry.key)[j] = (history.map Entry.key)[i] := by
    rw [getElem_map, getElem_map, atI, atJ]
  rw [(distinct.getElem_inj_iff).mp equal]

theorem last_of_key (listed : key ∈ alerts.map alertKey) :
    ∃ front last, alerts.filter (hasKey key) = front ++ [last] ∧ alertKey last = key := by
  obtain ⟨alert, here, named⟩ := mem_map.mp listed
  have chosen : alert ∈ alerts.filter (hasKey key) :=
    mem_filter.mpr ⟨here, decide_eq_true named⟩
  have some_ := ne_nil_of_mem chosen
  refine ⟨_, _, (dropLast_append_getLast some_).symm, ?_⟩
  have last := getLast_mem some_
  exact of_decide_eq_true (mem_filter.mp last).2

variable {entry : Entry}

theorem place_cases (distinct : (history.map Entry.key).Nodup)
    (orderly : ∀ key ∈ alerts.map alertKey, Orderly canonical history alerts key) {i : ℕ}
    (here : history[i]? = some entry) :
    (alerts.filter (isAt (indexByKey canonical history) (some i)) = [] ∧
        entry.key ∉ alerts.map alertKey) ∨
      ∃ key ∈ alerts.map alertKey, indexByKey canonical history key = some i ∧
        alerts.filter (isAt (indexByKey canonical history) (some i)) =
          alerts.filter (hasKey key) := by
  cases chosen : alerts.filter (isAt (indexByKey canonical history) (some i)) with
  | nil =>
    left
    refine ⟨rfl, ?_⟩
    intro listed
    obtain ⟨alert, known, named⟩ := mem_map.mp listed
    apply filter_eq_nil_iff.mp chosen alert known
    unfold isAt
    rw [named, index_own distinct here]
    exact decide_eq_true rfl
  | cons alert rest =>
    right
    have first : alert ∈ alerts.filter (isAt (indexByKey canonical history) (some i)) := by
      rw [chosen]
      exact mem_cons_self
    obtain ⟨known, placed⟩ := mem_filter.mp first
    have place : indexByKey canonical history (alertKey alert) = some i :=
      of_decide_eq_true placed
    have listed : alertKey alert ∈ alerts.map alertKey := mem_map_of_mem known
    refine ⟨alertKey alert, listed, place, ?_⟩
    rw [← chosen]
    apply filter_congr
    intro other known'
    apply decide_eq_decide.mpr
    constructor
    · intro place'
      exact index_apart distinct orderly (mem_map_of_mem known') listed place' place
    · intro named
      rw [named]
      exact place

/-- The entries after the pass, where nothing has been announced before. -/
def touched (canonical : Entry → Text) (history : List Entry) (alerts : List Alert)
    (now : Instant) : Pass :=
  alerts.foldl (takeAlert (indexByKey canonical history) now) ⟨history, []⟩

/-- An entry that was taken by the alerts of its key, or added for it. -/
structure Taken (alerts : List Alert) (now : Instant) (entry : Entry) : Prop where
  listed : entry.key ∈ alerts.map alertKey
  active : entry.status = .active
  seen : entry.lastSeenAt = now
  level : ∀ front last, alerts.filter (hasKey entry.key) = front ++ [last] →
    entry.level = last.level

def Kept (history : List Entry) (alerts : List Alert) (entry : Entry) : Prop :=
  entry ∈ history ∧ entry.key ∉ alerts.map alertKey

/-- The entry at a place after the alerts that are about it. -/
def atPlace (canonical : Entry → Text) (history : List Entry) (alerts : List Alert) (now : Instant)
    (i : ℕ) (entry : Entry) : Entry :=
  (alerts.filter (isAt (indexByKey canonical history) (some i))).foldl (reopen now) entry

section

variable (distinct : (history.map Entry.key).Nodup)

include distinct

theorem touched_history : (touched canonical history alerts now).history =
      history.mapIdx (atPlace canonical history alerts now) ++
      (alerts.filter (isAt (indexByKey canonical history) none)).map (create now) := by
  apply pass_history
  intro alert _ i place
  exact (indexByKey_spec canonical history distinct (alertKey alert)).2 i place

variable (orderly : ∀ key ∈ alerts.map alertKey, Orderly canonical history alerts key)

include orderly

theorem place_after {i : ℕ} (here : history[i]? = some entry) :
    (atPlace canonical history alerts now i entry = entry ∧ entry.key ∉ alerts.map alertKey) ∨
      ∃ key, indexByKey canonical history key = some i ∧
        (atPlace canonical history alerts now i entry).key = key ∧
          Taken alerts now (atPlace canonical history alerts now i entry) := by
  unfold atPlace
  rcases place_cases distinct orderly here with ⟨none_, unlisted⟩ | ⟨key, listed, place, same⟩
  · left
    rw [none_]
    exact ⟨rfl, unlisted⟩
  · right
    obtain ⟨front, last, whole, named⟩ := last_of_key listed
    rw [same, whole]
    obtain ⟨active, keyed, level, seen⟩ := reopened now entry front last
    rw [named] at keyed
    refine ⟨key, place, keyed, ?_, active, seen, ?_⟩
    · rw [keyed]
      exact listed
    · intro front' last' whole'
      rw [keyed, whole] at whole'
      rw [level, (append_inj' whole' rfl).2 |> singleton_inj.mp]

theorem mem_touched (listed : entry ∈ (touched canonical history alerts now).history) :
    Taken alerts now entry ∨ Kept history alerts entry := by
  rw [touched_history now distinct] at listed
  rcases mem_append.mp listed with old | new
  · obtain ⟨i, small, same⟩ := mem_mapIdx.mp old
    have here : history[i]? = some history[i] := List.getElem?_eq_getElem small
    rcases place_after now distinct orderly here with ⟨unchanged, unlisted⟩ | ⟨key, -, -, taken⟩
    · rw [unchanged] at same
      rw [← same]
      exact Or.inr ⟨getElem_mem small, unlisted⟩
    · rw [same] at taken
      exact Or.inl taken
  · left
    obtain ⟨alert, chosen, same⟩ := mem_map.mp new
    obtain ⟨known, placed⟩ := mem_filter.mp chosen
    have nowhere : indexByKey canonical history (alertKey alert) = none := of_decide_eq_true placed
    have named : entry.key = alertKey alert := by
      rw [← same]
      rfl
    have inKeys : alertKey alert ∈ alerts.map alertKey := mem_map_of_mem known
    refine ⟨?_, ?_, ?_, ?_⟩
    · rw [named]
      exact inKeys
    · rw [← same]
      rfl
    · rw [← same]
      rfl
    · intro front last whole
      rcases key_cases distinct (orderly _ inKeys) with ⟨-, -, once⟩ | ⟨i, -, place, -⟩
      · rw [named] at whole
        have length : (alerts.filter (hasKey (alertKey alert))).length = 1 := by
          rw [← countP_eq_length_filter, ← once, count_eq_countP, countP_map]
          apply countP_congr
          intro other _
          unfold hasKey
          simp
        have here : alert ∈ alerts.filter (hasKey (alertKey alert)) :=
          mem_filter.mpr ⟨known, decide_eq_true rfl⟩
        obtain ⟨only, alone⟩ := length_eq_one_iff.mp length
        rw [alone] at here whole
        have first : front = [] ∧ only = last := by
          cases front with
          | nil => exact ⟨rfl, (List.cons.inj whole).1⟩
          | cons a rest =>
            have sizes := congrArg List.length whole
            simp at sizes
        rw [← same, ← first.2, ← mem_singleton.mp here]
        rfl
      · rw [nowhere] at place
        cases place

theorem touched_of_key (listed : key ∈ alerts.map alertKey) :
    ∃ entry ∈ (touched canonical history alerts now).history, entry.key = key := by
  rw [touched_history now distinct]
  rcases key_cases distinct (orderly key listed) with
    ⟨nowhere, -⟩ | ⟨i, entry, place, here, -⟩
  · obtain ⟨alert, known, named⟩ := mem_map.mp listed
    refine ⟨create now alert, ?_, named⟩
    apply mem_append_right
    apply mem_map_of_mem
    apply mem_filter.mpr
    refine ⟨known, ?_⟩
    unfold isAt
    rw [named, nowhere]
    exact decide_eq_true rfl
  · obtain ⟨small, same⟩ := List.getElem?_eq_some_iff.mp here
    refine ⟨_, mem_append_left _ (mem_mapIdx.mpr ⟨i, small, rfl⟩), ?_⟩
    have chosen : alerts.filter (isAt (indexByKey canonical history) (some i)) ≠ [] := by
      obtain ⟨alert, known, named⟩ := mem_map.mp listed
      apply ne_nil_of_mem (a := alert)
      apply mem_filter.mpr
      refine ⟨known, ?_⟩
      unfold isAt
      rw [named, place]
      exact decide_eq_true rfl
    rcases place_cases distinct orderly here with ⟨none_, -⟩ | ⟨key', listed', place', same'⟩
    · exact absurd none_ chosen
    · obtain ⟨front, last, whole, named⟩ := last_of_key listed'
      unfold atPlace
      rw [same', whole, same, (reopened now entry front last).2.1, named]
      exact index_apart distinct orderly listed' listed place' place

theorem touched_of_stopped (listed : entry ∈ history) (active : entry.status = .active)
    (unlisted : entry.key ∉ alerts.map alertKey) :
    entry ∈ (touched canonical history alerts now).history := by
  rw [touched_history now distinct]
  apply mem_append_left
  obtain ⟨i, here⟩ := List.mem_iff_getElem?.mp listed
  obtain ⟨small, same⟩ := List.getElem?_eq_some_iff.mp here
  refine mem_mapIdx.mpr ⟨i, small, ?_⟩
  rw [same]
  rcases place_cases distinct orderly here with ⟨none_, -⟩ | ⟨key, listed', place, -⟩
  · unfold atPlace
    rw [none_]
    rfl
  · rcases key_cases distinct (orderly key listed') with
      ⟨nowhere, -⟩ | ⟨j, other, place', there, -, own, -⟩
    · rw [place] at nowhere
      cases nowhere
    · rw [place] at place'
      cases place'
      rw [here] at there
      cases there
      rcases own with named | ⟨inactive, -⟩
      · rw [named] at unlisted
        exact absurd listed' unlisted
      · exact absurd active inactive

theorem touched_distinct :
    ((touched canonical history alerts now).history.map Entry.key).Nodup := by
  rw [touched_history now distinct, map_append]
  have freshOf : ∀ key ∈ ((alerts.filter (isAt (indexByKey canonical history) none)).map
      (create now)).map Entry.key, indexByKey canonical history key = none ∧
        key ∈ alerts.map alertKey := by
    intro key listed
    rw [map_map] at listed
    obtain ⟨alert, chosen, named⟩ := mem_map.mp listed
    obtain ⟨known, placed⟩ := mem_filter.mp chosen
    rw [← named]
    exact ⟨of_decide_eq_true placed, mem_map_of_mem known⟩
  apply nodup_append.mpr
  refine ⟨?_, ?_, ?_⟩
  · apply pairwise_iff_getElem.mpr
    intro i j smallI smallJ before same
    rw [length_map, length_mapIdx] at smallI smallJ
    rw [getElem_map, getElem_map, getElem_mapIdx, getElem_mapIdx] at same
    have hereI : history[i]? = some history[i] := List.getElem?_eq_getElem smallI
    have hereJ : history[j]? = some history[j] := List.getElem?_eq_getElem smallJ
    rcases place_after now distinct orderly hereI with
      ⟨unchanged, unlisted⟩ | ⟨key, place, named, taken⟩
    · rcases place_after now distinct orderly hereJ with
        ⟨unchanged', -⟩ | ⟨key', -, named', taken'⟩
      · rw [unchanged, unchanged'] at same
        have ownI := @index_own canonical history distinct i _ hereI
        have ownJ := @index_own canonical history distinct j _ hereJ
        rw [same, ownJ] at ownI
        cases ownI
        exact Nat.lt_irrefl _ before
      · rw [unchanged] at same
        rw [same] at unlisted
        exact unlisted taken'.listed
    · rcases place_after now distinct orderly hereJ with
        ⟨unchanged', unlisted'⟩ | ⟨key', place', named', -⟩
      · rw [unchanged'] at same
        rw [← same] at unlisted'
        exact unlisted' taken.listed
      · rw [named, named'] at same
        rw [same, place'] at place
        cases place
        exact Nat.lt_irrefl _ before
  · rw [map_map]
    apply nodup_iff_count_le_one.mpr
    intro key
    by_cases listed : key ∈ (alerts.filter (isAt (indexByKey canonical history) none)).map alertKey
    · have both := freshOf key (by rw [map_map]; exact listed)
      rcases key_cases distinct (orderly key both.2) with ⟨-, -, once⟩ | ⟨i, -, place, -⟩
      · have fewer : ((alerts.filter (isAt (indexByKey canonical history) none)).map alertKey).count
            key ≤ (alerts.map alertKey).count key :=
          (List.Sublist.map alertKey filter_sublist).count_le key
        rw [once] at fewer
        exact fewer
      · rw [both.1] at place
        cases place
    · have absent := count_eq_zero_of_not_mem listed
      exact Nat.le_trans (Nat.le_of_eq absent) (Nat.zero_le 1)
  · intro key old key' new same
    obtain ⟨nowhere, listed⟩ := freshOf key' new
    obtain ⟨entry, here, named⟩ := mem_map.mp old
    obtain ⟨i, small, made⟩ := mem_mapIdx.mp here
    rcases place_after now distinct orderly (List.getElem?_eq_getElem small) with
      ⟨unchanged, unlisted⟩ | ⟨key'', place, named', -⟩
    · rw [made] at unchanged
      rw [← unchanged, named, same] at unlisted
      exact unlisted listed
    · rw [made, named, same] at named'
      rw [← named', nowhere] at place
      cases place

/-! What is announced. -/

theorem novos_count (listed : key ∈ alerts.map alertKey) {front : List Alert} {last : Alert}
    (whole : alerts.filter (hasKey key) = front ++ [last]) :
    ((touched canonical history alerts now).novos.map Notice.key).count key =
      if ∃ old ∈ history, old.status = .active ∧ old.key = key ∧
        rank last ≤ alertLevelRank old.level then 0 else 1 := by
  have counted : ((touched canonical history alerts now).novos.map Notice.key).count key =
      ((touched canonical history alerts now).novos.filter (announces key)).length := by
    rw [← countP_eq_length_filter, count_eq_countP, countP_map]
    apply countP_congr
    intro notice _
    unfold announces
    simp
  rw [counted]
  rcases key_cases distinct (orderly key listed) with
    ⟨nowhere, unowned, once⟩ | ⟨i, entry, place, here, found, own, steady⟩
  · have length : (alerts.filter (hasKey key)).length = 1 := by
      rw [← countP_eq_length_filter, ← once, count_eq_countP, countP_map]
      apply countP_congr
      intro other _
      unfold hasKey
      simp
    have noOld : ¬∃ old ∈ history, old.status = .active ∧ old.key = key ∧
        rank last ≤ alertLevelRank old.level := by
      rintro ⟨old, known, -, named, -⟩
      exact unowned old known named
    unfold touched
    rw [pass_novos_fresh _ now key nowhere, length, if_neg noOld]
    rfl
  · have apart : ∀ alert ∈ alerts, alertKey alert ≠ key →
        indexByKey canonical history (alertKey alert) ≠ some i := by
      intro alert known other place'
      exact other (index_apart distinct orderly (mem_map_of_mem known) listed place' place)
    have ranks : ranksOf alerts key = (front ++ [last]).map rank := by
      rw [← whole]
      rfl
    rw [ranks] at steady
    unfold touched
    rw [pass_novos _ now key i place alerts apart history [] entry here, filter_nil,
      nil_append, whole, news_length now entry front last steady]
    have same : (entry.status = .active ∧ rank last ≤ alertLevelRank entry.level) ↔
        ∃ old ∈ history, old.status = .active ∧ old.key = key ∧
          rank last ≤ alertLevelRank old.level := by
      have member : entry ∈ history := (entryFor_names canonical found).1
      constructor
      · rintro ⟨active, below⟩
        rcases own with named | ⟨inactive, -⟩
        · exact ⟨entry, member, active, named, below⟩
        · exact absurd active inactive
      · rintro ⟨old, known, active, named, below⟩
        rcases (entryFor_names canonical found).2 with named' | ⟨unowned, -⟩
        · have equal := eq_of_key distinct known member (named.trans named'.symm)
          rw [← equal]
          exact ⟨active, below⟩
        · exact absurd named (unowned old known)
    simp only [same]

end

theorem novos_unlisted (unlisted : key ∉ alerts.map alertKey) :
    ((touched canonical history alerts now).novos.map Notice.key).count key = 0 := by
  apply count_eq_zero_of_not_mem
  intro announced
  obtain ⟨notice, here, named⟩ := mem_map.mp announced
  rcases pass_novos_listed _ now alerts history [] notice here with old | listed
  · cases old
  · rw [named] at listed
    exact unlisted listed

end Touched

section Updates

variable [Unicode] {canonical : Entry → Text} {history : List Entry} {alerts : List Alert}
  {now : Instant}
  {limit : ℕ}

/-! One update of the history. -/

omit [Unicode] in
theorem resolve_key (activeKeys : List Text) (entry : Entry) :
    (resolve now activeKeys entry).key = entry.key := by
  unfold resolve
  split
  all_goals rfl

theorem update_entries (canonical : Entry → Text) (limit : ℕ) (history : List Entry)
    (alerts : List Alert) (now : Instant) :
    (updateAlertHistory canonical limit history alerts now).entries =
      (touched canonical history alerts now).history.map (resolve now (alerts.map alertKey)) := rfl

theorem history_entries {entry : Entry}
    (listed : entry ∈ (updateAlertHistory canonical limit history alerts now).history) :
    entry ∈ (updateAlertHistory canonical limit history alerts now).entries := by
  have inSorted := mem_of_mem_take listed
  exact (perm_insertionSort later _).mem_iff.mp inSorted

theorem resolve_inactive {old : Entry} (unlisted : old.key ∉ alerts.map alertKey) :
    (resolve now (alerts.map alertKey) old).status ≠ .active := by
  unfold resolve
  split
  · intro active
    cases active
  · rename_i stays
    intro active
    apply stays
    unfold stops
    simp [active, unlisted]

section

variable (distinct : (history.map Entry.key).Nodup)
  (orderly : ∀ key ∈ alerts.map alertKey, Orderly canonical history alerts key)

include distinct orderly

theorem mem_entries {entry : Entry}
    (listed : entry ∈ (updateAlertHistory canonical limit history alerts now).entries) :
    Taken alerts now entry ∨
      ∃ old, Kept history alerts old ∧ entry = resolve now (alerts.map alertKey) old := by
  obtain ⟨before, here, same⟩ := mem_map.mp listed
  rcases mem_touched now distinct orderly here with taken | kept
  · left
    have stays : stops (alerts.map alertKey) before = false := by
      unfold stops
      simp only [taken.listed, not_true_eq_false, decide_false, Bool.and_false]
    have unchanged : resolve now (alerts.map alertKey) before = before := by
      unfold resolve
      rw [stays]
      rfl
    have equal : entry = before := same.symm.trans unchanged
    rw [equal]
    exact taken
  · exact Or.inr ⟨before, kept, same.symm⟩

theorem entries_distinct :
    ((updateAlertHistory canonical limit history alerts now).entries.map Entry.key).Nodup := by
  rw [update_entries, map_map]
  have same : (Entry.key ∘ resolve now (alerts.map alertKey)) = Entry.key := by
    funext entry
    exact resolve_key _ entry
  rw [same]
  exact touched_distinct now distinct orderly

theorem taken_stays (few : (recent history alerts now).length ≤ limit) {entry : Entry}
    (listed : entry ∈ (updateAlertHistory canonical limit history alerts now).entries)
    (seen : now ≤ entry.lastSeenAt) :
    entry ∈ (updateAlertHistory canonical limit history alerts now).history := by
  have sorted := insertionSort_byKey later (fun entry : Entry => OrderDual.toDual
    entry.lastSeenAt) (fun a b before => before) (fun a b behind => Nat.le_of_not_le behind)
    (updateAlertHistory canonical limit history alerts now).entries
  have perm := perm_insertionSort later
    (updateAlertHistory canonical limit history alerts now).entries
  have within : ((((updateAlertHistory canonical limit history alerts now).entries.insertionSort
      later).filter fun a => now ≤ a.lastSeenAt).map Entry.key).length ≤
        (recent history alerts now).length := by
    have nodup : ((((updateAlertHistory canonical limit history alerts now).entries.insertionSort
        later).filter fun a => now ≤ a.lastSeenAt).map Entry.key).Nodup := by
      apply (List.Sublist.map Entry.key filter_sublist).nodup
      exact (perm.map Entry.key).nodup_iff.mpr (entries_distinct distinct orderly)
    apply (subperm_of_subset nodup _).length_le
    intro key keyed
    obtain ⟨other, chosen, named⟩ := mem_map.mp keyed
    obtain ⟨inSorted, reaches⟩ := mem_filter.mp chosen
    rcases mem_entries distinct orderly (perm.mem_iff.mp inSorted) with
      taken | ⟨old, kept, same⟩
    · apply mem_append_left
      rw [← named]
      exact mem_dedup.mpr taken.listed
    · apply mem_append_right
      have sameKey : other.key = old.key := by
        rw [same]
        exact resolve_key _ old
      have sameSeen : other.lastSeenAt = old.lastSeenAt := by
        rw [same]
        unfold resolve
        split
        all_goals rfl
      rw [← named, sameKey]
      apply mem_map_of_mem
      apply mem_filter.mpr
      refine ⟨kept.1, ?_⟩
      rw [sameSeen] at reaches
      simp only [Bool.and_eq_true, decide_eq_true_eq]
      exact ⟨of_decide_eq_true reaches, kept.2⟩
  rw [length_map] at within
  exact mem_take_of_sorted (fun entry : Entry => entry.lastSeenAt) sorted
    (le_trans within few) (perm.mem_iff.mpr listed) seen

theorem update_distinct :
    ((updateAlertHistory canonical limit history alerts now).history.map Entry.key).Nodup := by
  have perm := perm_insertionSort later
    (updateAlertHistory canonical limit history alerts now).entries
  have whole := (perm.map Entry.key).nodup_iff.mpr (entries_distinct distinct orderly)
  exact (List.Sublist.map Entry.key (take_sublist limit _)).nodup whole

theorem taken_of_key (few : (recent history alerts now).length ≤ limit)
    (listed : key ∈ alerts.map alertKey) :
    ∃ entry ∈ (updateAlertHistory canonical limit history alerts now).history,
      entry.key = key ∧ Taken alerts now entry := by
  obtain ⟨before, here, named⟩ := touched_of_key now distinct orderly listed
  have inEntries : resolve now (alerts.map alertKey) before ∈
      (updateAlertHistory canonical limit history alerts now).entries := mem_map_of_mem here
  have keyed : (resolve now (alerts.map alertKey) before).key = key := by
    rw [resolve_key, named]
  rcases mem_entries distinct orderly inEntries with taken | ⟨old, kept, same⟩
  · refine ⟨_, taken_stays distinct orderly few inEntries ?_, keyed, taken⟩
    rw [taken.seen]
  · rw [same, resolve_key] at keyed
    rw [← keyed] at listed
    exact absurd listed kept.2

theorem update_active (few : (recent history alerts now).length ≤ limit) (key : Text) :
    ActiveKey (updateAlertHistory canonical limit history alerts now).history key ↔
      key ∈ alerts.map alertKey := by
  constructor
  · rintro ⟨entry, here, active, named⟩
    rcases mem_entries distinct orderly (history_entries here) with taken | ⟨old, kept, same⟩
    · rw [← named]
      exact taken.listed
    · rw [same] at active
      exact absurd active (resolve_inactive kept.2)
  · intro listed
    obtain ⟨entry, here, named, taken⟩ := taken_of_key distinct orderly few listed
    exact ⟨entry, here, taken.active, named⟩

theorem update_novos (few : (recent history alerts now).length ≤ limit) (key : Text) :
    ((updateAlertHistory canonical limit history alerts now).novos.map Notice.key).count key ≤ 1 ∧
      (key ∈ (updateAlertHistory canonical limit history alerts now).novos.map Notice.key ↔
        BecameOrRose history (updateAlertHistory canonical limit history alerts now).history
          key) := by
  by_cases listed : key ∈ alerts.map alertKey
  · obtain ⟨front, last, whole, -⟩ := last_of_key listed
    have counted := novos_count now distinct orderly listed whole
    have once : ((touched canonical history alerts now).novos.map Notice.key).count key ≤ 1 := by
      rw [counted]
      split
      · exact Nat.zero_le 1
      · exact Nat.le_refl 1
    refine ⟨once, ?_⟩
    obtain ⟨entry, here, named, taken⟩ := taken_of_key distinct orderly few listed
    have level : entry.level = last.level := by
      apply taken.level front last
      rw [named]
      exact whole
    show key ∈ (touched canonical history alerts now).novos.map Notice.key ↔ _
    rw [← count_pos_iff, counted]
    constructor
    · intro announced
      refine ⟨entry, here, taken.active, named, ?_⟩
      intro old known active named'
      by_contra below
      have under : rank last ≤ alertLevelRank old.level := by
        rw [level] at below
        exact Nat.le_of_not_lt below
      rw [if_pos ⟨old, known, active, named', under⟩] at announced
      exact Nat.lt_irrefl 0 announced
    · rintro ⟨other, here', -, named', rises⟩
      have equal := eq_of_key (update_distinct distinct orderly) here' here
        (named'.trans named.symm)
      rw [if_neg]
      · exact Nat.one_pos
      · rintro ⟨old, known, active, named'', below⟩
        have above := rises old known active named''
        rw [equal, level] at above
        exact Nat.not_lt.mpr below above
  · have none_ := @novos_unlisted _ canonical history alerts now key listed
    refine ⟨Nat.le_trans (Nat.le_of_eq none_) (Nat.zero_le 1), ?_⟩
    constructor
    · intro announced
      exact absurd (count_pos_iff.mpr announced) (by
        show ¬0 < ((touched canonical history alerts now).novos.map Notice.key).count key
        rw [none_]
        exact Nat.lt_irrefl 0)
    · rintro ⟨entry, here, active, named, -⟩
      have active' := (update_active distinct orderly few key).mp ⟨entry, here, active, named⟩
      exact absurd active' listed

theorem update_resolvidos (few : (recent history alerts now).length ≤ limit) :
    ((updateAlertHistory canonical limit history alerts now).resolvidos.map Notice.key).Nodup ∧
      ∀ key, key ∈ (updateAlertHistory canonical limit history alerts now).resolvidos.map
          Notice.key ↔
        ActiveKey history key ∧
          ¬ActiveKey (updateAlertHistory canonical limit history alerts now).history key := by
  have keys : (updateAlertHistory canonical limit history alerts now).resolvidos.map Notice.key =
      ((touched canonical history alerts now).history.filter
        (stops (alerts.map alertKey))).map Entry.key := by
    show List.map Notice.key (List.map resolvedNotice _) = _
    rw [map_map]
    rfl
  rw [keys]
  refine ⟨(List.Sublist.map Entry.key filter_sublist).nodup
    (touched_distinct now distinct orderly), ?_⟩
  intro key
  rw [update_active distinct orderly few]
  constructor
  · intro stopped
    obtain ⟨entry, chosen, named⟩ := mem_map.mp stopped
    obtain ⟨here, stop⟩ := mem_filter.mp chosen
    unfold stops at stop
    simp only [Bool.and_eq_true, decide_eq_true_eq] at stop
    rcases mem_touched now distinct orderly here with taken | kept
    · exact absurd taken.listed stop.2
    · rw [← named]
      exact ⟨⟨entry, kept.1, stop.1, rfl⟩, stop.2⟩
  · rintro ⟨⟨entry, known, active, named⟩, unlisted⟩
    rw [← named] at unlisted ⊢
    apply mem_map_of_mem
    apply mem_filter.mpr
    refine ⟨touched_of_stopped now distinct orderly known active unlisted, ?_⟩
    unfold stops
    simp [active, unlisted]

end

end Updates

section Runs

variable [Unicode] (settings : Settings)

/-! Runs. -/

/-- A key that is given is the key of the alert. -/
theorem normalizarAlertaOperacional_key (numeral : Text → Text) (alerta : RawAlert)
    (given : sliceUnits 160 (toLowerCase (JsString.trim alerta.key)) ≠ []) :
    (normalizarAlertaOperacional numeral alerta).key =
      sliceUnits 160 (toLowerCase (JsString.trim alerta.key)) := by
  have kept : ∀ other, orText (sliceUnits 160 (toLowerCase (JsString.trim alerta.key))) other =
      sliceUnits 160 (toLowerCase (JsString.trim alerta.key)) := fun other => if_neg given
  unfold normalizarAlertaOperacional
  dsimp only
  split
  · exact kept _
  · split
    all_goals exact kept _

theorem offline_key (lower : toLowerCase connectivityKey = connectivityKey)
    (numeral : Text → Text) (ageSeconds : ℕ) :
    alertKey (normalizarAlertaOperacional numeral (offlineAlert ageSeconds)) = connectivityKey := by
  have key : sliceUnits 160 (toLowerCase (JsString.trim connectivityKey)) = connectivityKey := by
    have trimmed : JsString.trim connectivityKey = connectivityKey := by decide
    rw [trimmed, lower]
    decide
  have given : connectivityKey ≠ [] := by decide
  have own : (normalizarAlertaOperacional numeral (offlineAlert ageSeconds)).key =
      connectivityKey := by
    rw [normalizarAlertaOperacional_key]
    · exact key
    · exact key.trans_ne given
  unfold alertKey
  rw [own, key, if_pos given]

variable {item : Installation}

/-- Where nothing changes, nothing is announced. -/
theorem Exact.quiet (exact_ : Exact item) : Exact (quiet item) where
  distinct := exact_.distinct
  active := exact_.active
  novosOnce := nodup_nil
  novos := by
    intro key
    constructor
    · intro announced
      cases announced
    · rintro ⟨entry, here, active, named, rises⟩
      exact absurd (rises entry here active named) (Nat.lt_irrefl _)
  resolvidosOnce := nodup_nil
  resolvidos := by
    intro key
    constructor
    · intro announced
      cases announced
    · rintro ⟨active, inactive⟩
      exact absurd active inactive

theorem Exact.heartbeat (exact_ : Exact item) (received : List RawAlert) (now : Instant)
    (clean : CleanStep settings item (.heartbeat received now)) :
    Exact (item.heartbeat settings received now) where
  distinct := update_distinct exact_.distinct clean.1
  active := by
    intro key
    show ActiveKey (updateAlertHistory _ _ _ _ _).history key ↔ _
    rw [update_active exact_.distinct clean.1 clean.2]
    constructor
    · intro listed
      exact Or.inl listed
    · rintro (listed | ⟨silent, -⟩)
      · exact listed
      · cases silent
  novosOnce := nodup_iff_count_le_one.mpr fun key =>
    (update_novos exact_.distinct clean.1 clean.2 key).1
  novos := fun key => (update_novos exact_.distinct clean.1 clean.2 key).2
  resolvidosOnce := (update_resolvidos exact_.distinct clean.1 clean.2).1
  resolvidos := (update_resolvidos exact_.distinct clean.1 clean.2).2

variable (lower : toLowerCase connectivityKey = connectivityKey)

include lower

theorem mem_offlineAlerts {history : List Entry} {ageSeconds : ℕ}
    (unmarked : connectivityActive history = false)
    (relists : ∀ entry ∈ history, entry.status = .active → alertKey (relisted entry) = entry.key)
    (key : Text) : key ∈ (offlineAlerts settings history ageSeconds).map alertKey ↔
      ActiveKey history key ∨ key = connectivityKey := by
  unfold offlineAlerts
  rw [map_append, mem_append, map_singleton, mem_singleton, offline_key lower]
  have others : key ∈ ((history.filter fun entry => entry.status = .active &&
      entry.key ≠ connectivityKey).map relisted).map alertKey ↔ ActiveKey history key := by
    constructor
    · intro listed
      obtain ⟨alert, here, named⟩ := mem_map.mp listed
      obtain ⟨entry, chosen, same⟩ := mem_map.mp here
      obtain ⟨known, kept⟩ := mem_filter.mp chosen
      rw [Bool.and_eq_true, decide_eq_true_eq] at kept
      rw [← same, relists entry known kept.1] at named
      exact ⟨entry, known, kept.1, named⟩
    · rintro ⟨entry, known, active, named⟩
      have other : entry.key ≠ connectivityKey := by
        intro same
        have found : connectivityActive history = true := by
          apply any_eq_true.mpr
          exact ⟨entry, known, by simp [active, same]⟩
        rw [unmarked] at found
        cases found
      rw [← named, ← relists entry known active]
      apply mem_map_of_mem
      apply mem_map_of_mem
      apply mem_filter.mpr
      exact ⟨known, by simp [active, other]⟩
  rw [others]

theorem Exact.check (exact_ : Exact item) (now : Instant) (saved : Bool)
    (clean : CleanStep settings item (.check now saved)) :
    Exact (item.check settings now saved) := by
  unfold Installation.check
  cases age : silence settings item now with
  | none => exact exact_.quiet
  | some ageSeconds =>
    dsimp only
    cases unmarked : connectivityActive item.alertHistory with
    | true =>
      have still := exact_.quiet
      refine ⟨still.distinct, ?_, still.novosOnce, still.novos, still.resolvidosOnce,
        still.resolvidos⟩
      intro key
      constructor
      · intro active
        rcases (exact_.active key).mp active with listed | ⟨-, named⟩
        · exact Or.inl listed
        · exact Or.inr ⟨rfl, named⟩
      · rintro (listed | ⟨-, named⟩)
        · exact (exact_.active key).mpr (Or.inl listed)
        · obtain ⟨entry, here, marks⟩ := any_eq_true.mp unmarked
          rw [Bool.and_eq_true, decide_eq_true_eq, decide_eq_true_eq] at marks
          exact ⟨entry, here, marks.1, marks.2.trans named.symm⟩
    | false =>
      obtain ⟨relists, orderly, few⟩ := clean ageSeconds age unmarked
      have member := @mem_offlineAlerts _ settings lower _ ageSeconds unmarked relists
      have distinct := exact_.distinct
      have active := update_active distinct orderly few
      have novos := update_novos distinct orderly few
      have unsilent : ¬ActiveKey item.alertHistory connectivityKey := by
        rintro ⟨entry, known, active, named⟩
        have found : connectivityActive item.alertHistory = true := by
          apply any_eq_true.mpr
          exact ⟨entry, known, by simp [active, named]⟩
        rw [unmarked] at found
        cases found
      have told : connectivityKey ∈ (updateAlertHistory (canonicalKey settings.numeral)
          settings.alertHistoryLimit item.alertHistory
          (offlineAlerts settings item.alertHistory ageSeconds) now).novos.map Notice.key := by
        apply (novos connectivityKey).2.mpr
        obtain ⟨entry, here, active', named⟩ := (active connectivityKey).mpr
          ((member connectivityKey).mpr (Or.inr rfl))
        refine ⟨entry, here, active', named, ?_⟩
        intro old known wasActive named'
        exact absurd ⟨old, known, wasActive, named'⟩ unsilent
      have news : (updateAlertHistory (canonicalKey settings.numeral)
          settings.alertHistoryLimit item.alertHistory
          (offlineAlerts settings item.alertHistory ageSeconds) now).novos ≠ [] := by
        intro nothing
        rw [nothing] at told
        cases told
      rw [if_pos news]
      refine ⟨update_distinct distinct orderly, ?_,
        nodup_iff_count_le_one.mpr fun key => (novos key).1, fun key => (novos key).2,
        nodup_nil, ?_⟩
      · intro key
        show ActiveKey (updateAlertHistory _ _ _ _ _).history key ↔
          key ∈ item.alerts.map alertKey ∨ true = true ∧ key = connectivityKey
        rw [active key, member key, exact_.active key]
        constructor
        · rintro ((listed | ⟨-, named⟩) | named)
          · exact Or.inl listed
          all_goals exact Or.inr ⟨rfl, named⟩
        · rintro (listed | ⟨-, named⟩)
          · exact Or.inl (Or.inl listed)
          · exact Or.inr named
      · intro key
        constructor
        · intro announced
          cases announced
        · rintro ⟨wasActive, stopped⟩
          apply absurd _ stopped
          apply (active key).mpr
          exact (member key).mpr (Or.inl wasActive)

theorem exact_preserved :
    Runs.Preserves (fun item a => some (step settings item a)) (CleanStep settings) Exact := by
  intro item a after clean exact_ taken
  cases taken
  cases a with
  | heartbeat received now => exact exact_.heartbeat settings received now clean
  | check now saved => exact exact_.check settings lower now saved clean

omit lower in
theorem exact_start : Exact .start where
  distinct := nodup_nil
  active := by
    intro key
    constructor
    · rintro ⟨entry, here, -⟩
      cases here
    · rintro (listed | ⟨silent, -⟩)
      · cases listed
      · cases silent
  novosOnce := nodup_nil
  novos := by
    intro key
    constructor
    · intro announced
      cases announced
    · rintro ⟨entry, here, -⟩
      cases here
  resolvidosOnce := nodup_nil
  resolvidos := by
    intro key
    constructor
    · intro announced
      cases announced
    · rintro ⟨⟨entry, here, -⟩, -⟩
      cases here

/-- While every list of alerts is clean for the history that it meets, the history and what is
announced are exact after every heartbeat and every check. -/
theorem alerts_exact (steps : List Step) (item : Installation)
    (allowed : Runs.Allowed (fun item a => some (step settings item a)) (CleanStep settings)
      .start steps)
    (reached : Runs.run (fun item a => some (step settings item a)) .start steps = some item) :
    Exact item :=
  Runs.run_invariant _ (exact_preserved settings lower) .start item steps allowed exact_start reached

end Runs

section Instances

local instance : Unicode := JsString.ascii

def plain : Settings := ⟨id, 180, 500⟩

def raw (code key level : String) : RawAlert := ⟨code.toList, [], key.toList, level.toList⟩

def diskHigh : RawAlert := raw "disk_usage_high" "" ""

def diskAttention : RawAlert := raw "disk_usage_attention" "" ""

/-- A disk alert under a key of its own. -/
def ownDisk : RawAlert := raw "disk_usage_high" "disco-2" ""

def lifeCycle : List Step :=
  [.heartbeat [diskAttention] 1000, .check 2000 false, .check 900000 false,
    .heartbeat [diskHigh, diskHigh] 1000000]

theorem lifeCycle_exact :
    ∃ item, Runs.run (fun item a => some (step plain item a)) .start lifeCycle = some item ∧
      Exact item := by
  refine ⟨_, rfl, ?_⟩
  apply alerts_exact plain (by decide) lifeCycle _ _ rfl
  apply Runs.allowedBy_allowed
  decide +kernel

/-- A new alert that comes twice has two entries and is announced twice; an alert whose own key is
another takes over its entry, so that one of the two is neither active nor announced. -/
theorem repeated_alert_breaks : (∃ item, Runs.run (fun item a => some (step plain item a)) .start
        [.heartbeat [diskHigh, diskHigh] 1000] = some item ∧
      ¬(item.alertHistory.map Entry.key).Nodup ∧ ¬(item.novos.map Notice.key).Nodup) ∧
    ∃ item, Runs.run (fun item a => some (step plain item a)) .start
        [.heartbeat [ownDisk] 1000, .heartbeat [ownDisk, diskHigh] 61000] = some item ∧
      "disco-2".toList ∈ item.alerts.map alertKey ∧
        "disco-2".toList ∉ item.alertHistory.map Entry.key ∧ item.novos = [] ∧
          item.resolvidos = [] := by
  refine ⟨⟨_, rfl, ?_⟩, ⟨_, rfl, ?_⟩⟩
  all_goals decide +kernel

end Instances

end DracVms.FleetAlerts
