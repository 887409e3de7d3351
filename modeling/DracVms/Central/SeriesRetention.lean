import DracVms.Library.Binary64
import DracVms.Library.Grouping

/-! The retention of the samples of the fleet: what is kept, and the hours that the rest is rolled up
into. -/
namespace DracVms.TimeSeries

open List
open Binary64 (double)

/-- `METRIC_KEYS`. -/
inductive Metric where
  | camerasTotal
  | camerasOnline
  | camerasOffline
  | camerasError
  | camerasStalled
  | recordingsActive
  | diskUsagePercent
  | alertsCritical

/-- A sample that is an object: what `toMs` and `toNumber` read in it. -/
structure Row where
  t : Option ℚ
  value : Metric → Option ℚ

/-- `none` is what is no object. -/
abbrev Sample := Option Row

structure Accumulated where
  min : ℚ
  max : ℚ
  sum : ℚ
  count : ℕ

structure Stat where
  min : ℚ
  avg : ℚ
  max : ℚ
  count : ℕ

structure Aggregate where
  samples : ℕ
  stats : Metric → Option Stat

def round2 (n : ℚ) : ℚ := double (⌊double (n * 100) + 1 / 2⌋ / 100)

def accumulate (current : Option Accumulated) (value : ℚ) : Accumulated :=
  match current with
  | none => ⟨value, value, value, 1⟩
  | some current =>
    { min := if value < current.min then value else current.min
      max := if current.max < value then value else current.max
      sum := double (current.sum + value)
      count := current.count + 1 }

structure Progress where
  total : ℕ
  acc : Metric → Option Accumulated

/-- One sample of the loop of `aggregateSamples`. -/
def addSample (p : Progress) : Sample → Progress
  | none => p
  | some row =>
    { total := p.total + 1
      acc := fun key =>
        match row.value key with
        | none => p.acc key
        | some value => some (accumulate (p.acc key) value) }

def collect (samples : List Sample) : Progress := samples.foldl addSample ⟨0, fun _ => none⟩

def toStat (value : Accumulated) : Stat :=
  ⟨round2 value.min, round2 (double (value.sum / value.count)), round2 value.max, value.count⟩

def aggregateSamples (samples : List Sample) : Aggregate :=
  ⟨(collect samples).total, fun key => ((collect samples).acc key).map toStat⟩

def HOUR_MS : ℚ := 3600000

def DEFAULT_RAW_RETENTION_HOURS : ℚ := 48

/-- No instant is further from the first of 1970. -/
def maxDate : ℚ := 8640000000000000

/-- `new Date(ms).toISOString()`, which throws for what is no instant. -/
def dateAt (ms : ℚ) : Option ℤ :=
  if |ms| ≤ maxDate then some (if 0 ≤ ms then ⌊ms⌋ else ⌈ms⌉) else none

def bucketStartMs (ms bucketSeconds : ℚ) : ℚ :=
  let size : ℤ := max 1 ⌊if bucketSeconds = 0 then 3600 else bucketSeconds⌋ * 1000
  ⌊ms / size⌋ * size

structure Placed where
  kept : List Sample
  pruned : List Sample
  invalid : List Sample
  byBucket : List (ℤ × List Sample)

structure Bucket where
  bucket : ℤ
  aggregate : Aggregate

structure Plan where
  cutoff : ℤ
  kept : List Sample
  pruned : List Sample
  invalid : List Sample
  buckets : List Bucket

def timeOf (sample : Sample) : Option ℚ := sample.bind Row.t

/-- One sample of the loop. -/
def place (cutoffMs : ℚ) (p : Placed) (sample : Sample) : Option Placed :=
  match timeOf sample with
  | none => some { p with invalid := p.invalid ++ [sample] }
  | some ms =>
    if cutoffMs ≤ ms then some { p with kept := p.kept ++ [sample] }
    else (dateAt (bucketStartMs ms 3600)).map fun bucket =>
      { p with pruned := p.pruned ++ [sample],
               byBucket := Grouping.push p.byBucket bucket sample }

def cutoffOf (nowMs : ℚ) (rawRetentionHours : Option ℚ) : ℚ :=
  let hours := match rawRetentionHours with
    | some hoursRaw => if 0 ≤ hoursRaw then hoursRaw else DEFAULT_RAW_RETENTION_HOURS
    | none => DEFAULT_RAW_RETENTION_HOURS
  nowMs - hours * HOUR_MS

section Plan

variable (before : ℤ → ℤ → Prop) [DecidableRel before] (nowMs : ℚ) (rawRetentionHours : Option ℚ)
  (samples : List Sample)

/-- `before` is how the texts of two instants compare. -/
def planRetention : Option Plan := do
  let cutoffMs := cutoffOf nowMs rawRetentionHours
  let p ← samples.foldlM (place cutoffMs) ⟨[], [], [], []⟩
  let cutoff ← dateAt cutoffMs
  let buckets := (p.byBucket.insertionSort fun a b => before a.1 b.1).map fun group =>
    ⟨group.1, aggregateSamples group.2⟩
  some ⟨cutoff, p.kept, p.pruned, p.invalid, buckets⟩

end Plan

/-- The hour of a sample, as the plan names it. -/
def hourOf (sample : Sample) : Option ℤ :=
  (timeOf sample).bind fun ms => dateAt (bucketStartMs ms 3600)

/-- Every sample is kept, pruned or invalid, and every pruned one is in the aggregate of its hour and
in no other. -/
structure Lossless (cutoffMs : ℚ) (samples : List Sample) (plan : Plan) : Prop where
  partition : (plan.kept ++ plan.pruned ++ plan.invalid).Perm samples
  kept : ∀ sample ∈ plan.kept, ∃ ms, timeOf sample = some ms ∧ cutoffMs ≤ ms
  pruned : ∀ sample ∈ plan.pruned, ∃ ms, timeOf sample = some ms ∧ ms < cutoffMs
  invalid : ∀ sample ∈ plan.invalid, timeOf sample = none
  hours : (plan.buckets.map Bucket.bucket).Nodup
  accounted : ∀ bucket ∈ plan.buckets, bucket.aggregate =
    aggregateSamples (plan.pruned.filter fun sample => hourOf sample = some bucket.bucket)
  met : ∀ sample ∈ plan.pruned, ∃ bucket ∈ plan.buckets, ∃ ms, timeOf sample = some ms ∧
    bucket.bucket = ⌊ms / HOUR_MS⌋ * HOUR_MS
  counted : (plan.buckets.map fun bucket => bucket.aggregate.samples).sum = plan.pruned.length

theorem collect_total (samples : List Sample) :
    (collect samples).total = samples.countP Option.isSome := by
  have onward : ∀ p : Progress,
      (samples.foldl addSample p).total = p.total + samples.countP Option.isSome := by
    induction samples with
    | nil => exact fun p => rfl
    | cons sample rest ih =>
      intro p
      rw [foldl_cons, ih]
      cases sample with
      | none => simp [addSample]
      | some row =>
        simp [addSample]
        omega
  exact (onward _).trans (Nat.zero_add _)

/-! The hour of an instant. -/

theorem bucketStartMs_hour (ms : ℚ) : bucketStartMs ms 3600 = ⌊ms / HOUR_MS⌋ * HOUR_MS := by
  have size : max 1 ⌊(if (3600 : ℚ) = 0 then 3600 else 3600 : ℚ)⌋ * 1000 = (3600000 : ℤ) := by
    norm_num
  unfold bucketStartMs HOUR_MS
  norm_num

theorem hour_le (ms : ℚ) : ⌊ms / HOUR_MS⌋ * HOUR_MS ≤ ms := by
  have below := Int.floor_le (ms / HOUR_MS)
  unfold HOUR_MS at below ⊢
  linarith

theorem dateAt_int (n : ℤ) : dateAt n = if |(n : ℚ)| ≤ maxDate then some n else none := by
  simp [dateAt]

theorem bucket_eq {ms : ℚ} {bucket : ℤ} (named : dateAt (bucketStartMs ms 3600) = some bucket) :
    bucket = ⌊ms / HOUR_MS⌋ * HOUR_MS := by
  have whole : bucketStartMs ms 3600 = ((⌊ms / HOUR_MS⌋ * 3600000 : ℤ) : ℚ) := by
    rw [bucketStartMs_hour, HOUR_MS]
    norm_num
  rw [whole, dateAt_int] at named
  obtain ⟨-, same⟩ := Option.ite_none_right_eq_some.mp named
  cases same
  rw [HOUR_MS]
  norm_num

theorem dateAt_hour {cutoffMs ms : ℚ} (instant : cutoffMs ≤ maxDate) (older : ms < cutoffMs) :
    (dateAt (bucketStartMs ms 3600)).isSome ↔ -maxDate ≤ ms := by
  have below := hour_le ms
  rw [bucketStartMs_hour, dateAt, Option.isSome_ite, abs_le]
  constructor
  · exact fun inside => inside.1.trans below
  · intro recent
    refine ⟨?_, by linarith⟩
    have hours : (-2400000000 : ℤ) ≤ ⌊ms / HOUR_MS⌋ := by
      rw [Int.le_floor, HOUR_MS, le_div_iff₀ (by norm_num)]
      unfold maxDate at recent
      push_cast
      linarith
    have hours' : (-2400000000 : ℚ) ≤ ⌊ms / HOUR_MS⌋ := by exact_mod_cast hours
    unfold maxDate HOUR_MS at *
    linarith

/-! The loop. -/

/-- What is placed so far. -/
structure Places (cutoffMs : ℚ) (front : List Sample) (p : Placed) : Prop where
  partition : (p.kept ++ p.pruned ++ p.invalid).Perm front
  kept : ∀ sample ∈ p.kept, ∃ ms, timeOf sample = some ms ∧ cutoffMs ≤ ms
  pruned : ∀ sample ∈ p.pruned, ∃ ms, timeOf sample = some ms ∧ ms < cutoffMs
  invalid : ∀ sample ∈ p.invalid, timeOf sample = none
  grouped : ∃ items, Grouping.Groups p.byBucket items ∧ items.map Prod.snd = p.pruned ∧
    ∀ item ∈ items, hourOf item.2 = some item.1

theorem forall_append_singleton {P : Sample → Prop} {front : List Sample} {sample : Sample}
    (each : ∀ s ∈ front, P s) (last : P sample) : ∀ s ∈ front ++ [sample], P s := by
  intro s listed
  rcases mem_append.mp listed with older | new
  · exact each s older
  · rw [mem_singleton.mp new]
    exact last

section Loop

variable {cutoffMs : ℚ} {front : List Sample} {p q : Placed} {sample : Sample}

theorem place_places (placed : Places cutoffMs front p) (taken : place cutoffMs p sample = some q) :
    Places cutoffMs (front ++ [sample]) q := by
  have last : (sample :: (p.kept ++ p.pruned ++ p.invalid)).Perm (front ++ [sample]) :=
    (placed.partition.cons sample).trans (perm_append_singleton _ _).symm
  unfold place at taken
  cases time : timeOf sample with
  | none =>
    rw [time] at taken
    cases taken
    refine ⟨?_, placed.kept, placed.pruned, forall_append_singleton placed.invalid time,
      placed.grouped⟩
    rw [← append_assoc]
    exact (perm_append_singleton _ _).trans last
  | some ms =>
    rw [time] at taken
    dsimp only at taken
    split at taken
    · rename_i recent
      cases taken
      refine ⟨?_, forall_append_singleton placed.kept ⟨ms, time, recent⟩, placed.pruned,
        placed.invalid, placed.grouped⟩
      simp only [append_assoc, singleton_append] at last ⊢
      exact perm_middle.trans last
    · rename_i older
      obtain ⟨bucket, named, same⟩ := Option.map_eq_some_iff.mp taken
      cases same
      obtain ⟨items, grouped, listed, hours⟩ := placed.grouped
      refine ⟨?_, placed.kept, forall_append_singleton placed.pruned ⟨ms, time, not_le.mp older⟩,
        placed.invalid, items ++ [(bucket, sample)], grouped.push bucket sample, ?_, ?_⟩
      · simp only [append_assoc, singleton_append] at last ⊢
        rw [← append_assoc] at last ⊢
        exact perm_middle.trans last
      · rw [map_append, listed]
        rfl
      · intro item present
        rcases mem_append.mp present with older | new
        · exact hours item older
        · rw [mem_singleton.mp new, hourOf, time]
          exact named

theorem place_isSome (instant : |cutoffMs| ≤ maxDate) : (place cutoffMs p sample).isSome ↔
    ∀ ms, timeOf sample = some ms → -maxDate ≤ ms := by
  obtain ⟨early, late⟩ := abs_le.mp instant
  unfold place
  cases time : timeOf sample with
  | none => simp
  | some ms =>
    simp only [Option.some.injEq, forall_eq']
    split
    · rename_i recent
      exact iff_of_true rfl (early.trans recent)
    · rename_i older
      rw [Option.isSome_map, dateAt_hour late (not_le.mp older)]

theorem foldlM_places {samples : List Sample} (placed : Places cutoffMs front p)
    (taken : samples.foldlM (place cutoffMs) p = some q) : Places cutoffMs (front ++ samples) q := by
  induction samples generalizing front p with
  | nil =>
    cases taken
    rw [append_nil]
    exact placed
  | cons sample rest ih =>
    obtain ⟨next, first, later⟩ := Option.bind_eq_some_iff.mp taken
    have onward := ih (place_places placed first) later
    rw [append_assoc] at onward
    exact onward

theorem foldlM_isSome {samples : List Sample} (instant : |cutoffMs| ≤ maxDate) :
    (samples.foldlM (place cutoffMs) p).isSome ↔
      ∀ sample ∈ samples, ∀ ms, timeOf sample = some ms → -maxDate ≤ ms := by
  induction samples generalizing p with
  | nil => exact iff_of_true rfl nofun
  | cons sample rest ih =>
    rw [foldlM_cons, forall_mem_cons, ← place_isSome (p := p) instant]
    cases place cutoffMs p sample with
    | none => simp
    | some next => simpa using ih

end Loop

/-! The plan. -/

theorem values_hour {items : List (ℤ × Sample)} (bucket : ℤ)
    (hours : ∀ item ∈ items, hourOf item.2 = some item.1) : Grouping.values bucket items =
      (items.map Prod.snd).filter fun sample => hourOf sample = some bucket := by
  rw [filter_map, Grouping.values]
  congr 1
  apply filter_congr
  intro item listed
  simp [hours item listed]

theorem aggregate_samples {group : List Sample} (timed : ∀ sample ∈ group, (timeOf sample).isSome) :
    (aggregateSamples group).samples = group.length := by
  show (collect group).total = _
  rw [collect_total, countP_eq_length]
  intro sample listed
  have some_ := timed sample listed
  cases sample with
  | none => cases some_
  | some row => rfl

section Plan

variable (before : ℤ → ℤ → Prop) [DecidableRel before] (nowMs : ℚ) (rawRetentionHours : Option ℚ)
  (samples : List Sample)

theorem plan_lossless {plan : Plan}
    (planned : planRetention before nowMs rawRetentionHours samples = some plan) :
    Lossless (cutoffOf nowMs rawRetentionHours) samples plan := by
  obtain ⟨p, placed, rest⟩ := Option.bind_eq_some_iff.mp planned
  obtain ⟨cutoff, -, same⟩ := Option.bind_eq_some_iff.mp rest
  cases same
  have start : Places (cutoffOf nowMs rawRetentionHours) [] ⟨[], [], [], []⟩ :=
    ⟨Perm.refl _, nofun, nofun, nofun, [], Grouping.groups_group [], rfl, nofun⟩
  have places := foldlM_places start placed
  obtain ⟨items, grouped, listed, hours⟩ := places.grouped
  have sorted := perm_insertionSort (fun a b : ℤ × List Sample => before a.1 b.1) p.byBucket
  have inBucket : ∀ group ∈ p.byBucket, group.2 =
      p.pruned.filter fun sample => hourOf sample = some group.1 := by
    intro group present
    rw [grouped.listed group present, values_hour group.1 hours, listed]
  refine ⟨places.partition, places.kept, places.pruned, places.invalid, ?_, ?_, ?_, ?_⟩
  · rw [map_map]
    exact ((sorted.map Prod.fst).nodup_iff).mpr grouped.keys
  · intro bucket present
    obtain ⟨group, inside, rfl⟩ := mem_map.mp present
    exact congrArg aggregateSamples (inBucket group (sorted.mem_iff.mp inside))
  · intro sample inside
    rw [← listed] at inside
    obtain ⟨item, present, rfl⟩ := mem_map.mp inside
    obtain ⟨group, met, key⟩ := mem_map.mp ((grouped.met item.1).mpr (mem_map_of_mem present))
    obtain ⟨ms, time, named⟩ := Option.bind_eq_some_iff.mp (hours item present)
    refine ⟨_, mem_map.mpr ⟨group, sorted.mem_iff.mpr met, rfl⟩, ms, time, ?_⟩
    rw [← bucket_eq named, ← key]
  · rw [map_map]
    have counts : ∀ group ∈ p.byBucket, (aggregateSamples group.2).samples = group.2.length := by
      intro group present
      apply aggregate_samples
      intro sample inside
      rw [inBucket group present] at inside
      obtain ⟨ms, time, -⟩ := places.pruned sample (mem_filter.mp inside).1
      rw [time]
      rfl
    rw [(sorted.map _).sum_eq, ← listed, length_map, ← grouped.size]
    exact congrArg sum (map_congr_left counts)

theorem lossless_iff :
    (∃ plan, planRetention before nowMs rawRetentionHours samples = some plan ∧
      Lossless (cutoffOf nowMs rawRetentionHours) samples plan) ↔
    |cutoffOf nowMs rawRetentionHours| ≤ maxDate ∧
      ∀ sample ∈ samples, ∀ ms, timeOf sample = some ms → -maxDate ≤ ms := by
  constructor
  · rintro ⟨plan, planned, -⟩
    obtain ⟨p, placed, rest⟩ := Option.bind_eq_some_iff.mp planned
    obtain ⟨cutoff, named, -⟩ := Option.bind_eq_some_iff.mp rest
    have instant := (Option.ite_none_right_eq_some.mp named).1
    exact ⟨instant, (foldlM_isSome instant).mp (Option.isSome_of_eq_some placed)⟩
  · rintro ⟨instant, dated⟩
    obtain ⟨p, placed⟩ := Option.isSome_iff_exists.mp ((foldlM_isSome instant).mpr dated)
    have planned : (planRetention before nowMs rawRetentionHours samples).isSome := by
      unfold planRetention
      dsimp only
      rw [placed, Option.bind_eq_bind, Option.bind_some, dateAt, if_pos instant]
      rfl
    obtain ⟨plan, planned⟩ := Option.isSome_iff_exists.mp planned
    exact ⟨plan, planned, plan_lossless before nowMs rawRetentionHours samples planned⟩

end Plan

/-- A number that is no instant is taken for a time, and then nothing is planned. -/
theorem ancient_sample :
    planRetention (· < ·) 0 none [some ⟨some (-10000000000000000), fun _ => none⟩] = none := by
  decide +kernel

end DracVms.TimeSeries
