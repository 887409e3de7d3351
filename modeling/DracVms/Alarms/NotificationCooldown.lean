import DracVms.Alarms.AlarmNotifications

/-! The notifications of opened alarms, and what each of them silences. -/
namespace DracVms.Alarms

open List Function
open Json (Text)
open Database

def suppressionKey (alarm : AlarmInstance) : Text :=
  "alarm:notif:suppress:".toList ++ (alarm.type ++ ':' :: priorityText alarm.priority ++
    ':' :: alarm.cameraId.getD "none".toList)

/-- An alarm is opened, or opened again: whether redis is reached, whether its answer comes, and
whether the queue takes the job. -/
structure Announcement where
  alarm : AlarmInstance
  ruleId : Option Text
  now : ℤ
  reaches : Bool
  answers : Bool
  accepts : Bool

def Announcement.key (a : Announcement) : Text := suppressionKey a.alarm

/-- The settings, the policy also as `JSON.parse` reads it, and the lower case of Unicode. -/
structure NotificationConfig where
  suppressSeconds : ℕ
  policyRaw : Text
  parsed : Option Metadata
  toLowerCase : Text → Text

/-- The keys of redis with the instants they expire at, and the jobs of the queue. `heard` is not in
the code: the announcements that were not suppressed. -/
structure Notifier where
  suppress : Text → Option ℤ
  queue : List NotificationJob
  heard : List Announcement

section Service

variable (config : NotificationConfig)

/-- `SET key 1 EX seconds NX` finds the key, unless nothing is to be silenced. -/
def Notifier.isSuppressed (s : Notifier) (a : Announcement) : Bool :=
  decide (0 < config.suppressSeconds) && (s.suppress a.key).any (a.now < ·)

def NotificationConfig.job (suppressed : Bool) (a : Announcement) : Option NotificationJob :=
  notifyOnOpen config.toLowerCase config.policyRaw config.parsed suppressed a.alarm a.ruleId

/-- Redis is not asked when nothing is to be silenced. -/
def NotificationConfig.asks (answer : Bool) : Bool := config.suppressSeconds = 0 || answer

def NotificationConfig.queues (a : Announcement) : Bool := config.asks a.answers && a.accepts

/-- The key is set before the queue is asked. -/
def Notifier.pass (s : Notifier) (a : Announcement) (job : NotificationJob) : Notifier where
  suppress :=
    if 0 < config.suppressSeconds then
      update s.suppress a.key (some (a.now + 1000 * config.suppressSeconds))
    else s.suppress
  queue := if config.queues a then s.queue ++ [job] else s.queue
  heard := s.heard ++ [a]

/-- Without an answer the call fails, and the alarms go on without it. -/
def Notifier.announce (s : Notifier) (a : Announcement) : Notifier :=
  match config.job (s.isSuppressed config a) a with
  | none => s
  | some job => if config.asks a.reaches then s.pass config a job else s

def announceAll (news : List Announcement) : Notifier :=
  news.foldl (Notifier.announce config) ⟨fun _ => none, [], []⟩

/-- It was not suppressed, or another of its kind was not a moment ago. -/
def Announcement.Heard (heard : List Announcement) (a : Announcement) : Prop :=
  ∃ b ∈ heard, b.key = a.key ∧ b.now ≤ a.now ∧
    (b.now = a.now ∨ a.now < b.now + 1000 * config.suppressSeconds)

/-- What holds after the announcements. -/
structure Announced (news : List Announcement) (s : Notifier) : Prop where
  once : s.heard.Sublist news
  spaced : s.heard.Pairwise fun first second =>
    first.key = second.key → first.now + 1000 * (config.suppressSeconds : ℤ) ≤ second.now
  heard : ∀ a ∈ news, config.asks a.reaches = true → a.Heard config s.heard
  queued : s.queue = (s.heard.filter config.queues).filterMap (config.job false)
  pushes : ∀ job ∈ s.queue, .push ∈ job.channels

/-- With what the keys of redis stand for. -/
structure Keyed (news : List Announcement) (s : Notifier) : Prop
    extends Announced config news s where
  set : 0 < config.suppressSeconds → ∀ a ∈ s.heard, ∃ expires,
    s.suppress a.key = some expires ∧
      a.now + 1000 * config.suppressSeconds ≤ expires
  kept : ∀ key expires, s.suppress key = some expires → ∃ a ∈ s.heard,
    a.key = key ∧ expires = a.now + 1000 * config.suppressSeconds

/-! The plan of the channels. -/

theorem push_defaultPlan (priority : AlarmPriority) : .push ∈ defaultPlan priority := by
  cases priority <;> decide

theorem push_withPush (channels : List Channel) : .push ∈ withPush channels := by
  unfold withPush
  split
  · assumption
  · exact mem_append_right _ mem_cons_self

/-- Whatever the policy says, or does not say in a way that can be read. -/
theorem push_resolveChannelPlan (toLowerCase : Text → Text) (policyRaw : Text)
    (parsed : Option Metadata) (priority : AlarmPriority) :
    .push ∈ resolveChannelPlan toLowerCase policyRaw parsed priority := by
  unfold resolveChannelPlan plannedBy
  dsimp only
  repeat' split
  all_goals first
    | exact push_defaultPlan _
    | exact push_withPush _

/-! The keys. -/

theorem split_last {first second third fourth : Text} (left : ':' ∉ second) (right : ':' ∉ fourth)
    (same : first ++ ':' :: second = third ++ ':' :: fourth) : first = third ∧ second = fourth := by
  rcases append_eq_append_iff.mp same with ⟨between, rfl, rest⟩ | ⟨between, rfl, rest⟩
  · cases between with
    | nil => simpa using rest
    | cons c between =>
      obtain ⟨-, rfl⟩ := cons.inj rest
      simp at left
  · cases between with
    | nil => simpa using rest.symm
    | cons c between =>
      obtain ⟨-, rfl⟩ := cons.inj rest
      simp at right

/-- A camera of the database has such an id. -/
def Identified (alarm : AlarmInstance) : Prop :=
  ∀ id, alarm.cameraId = some id → ':' ∉ id ∧ id ≠ "none".toList

theorem suppressionKey_eq {first second : AlarmInstance} (left : Identified first)
    (right : Identified second) (same : suppressionKey first = suppressionKey second) :
    first.type = second.type ∧ first.priority = second.priority ∧
      first.cameraId = second.cameraId := by
  have plain : ∀ alarm, Identified alarm → ':' ∉ alarm.cameraId.getD "none".toList := by
    intro alarm identified
    cases known : alarm.cameraId with
    | none => decide
    | some id => exact (identified id known).1
  have short : ∀ priority, ':' ∉ priorityText priority := by
    intro priority
    cases priority <;> decide
  obtain ⟨front, cameras⟩ := split_last (plain _ left) (plain _ right) (append_cancel_left same)
  obtain ⟨types, priorities⟩ := split_last (short _) (short _) front
  refine ⟨types, ?_, ?_⟩
  · cases named : first.priority <;> cases named' : second.priority <;>
      simp_all [priorityText]
  · cases known : first.cameraId <;> cases known' : second.cameraId <;>
      rw [known, known'] at cameras
    · exact absurd cameras.symm (right _ known').2
    · exact absurd cameras (left _ known).2
    · exact congrArg some cameras

/-! The run. -/

variable {config} {earlier : List Announcement} {s : Notifier}

theorem Keyed.skip (keyed : Keyed config earlier s) (a : Announcement)
    (heard : config.asks a.reaches = true → a.Heard config s.heard) :
    Keyed config (earlier ++ [a]) s where
  once := keyed.once.trans (sublist_append_left _ _)
  spaced := keyed.spaced
  heard := by
    intro b listed asked
    rcases mem_append.mp listed with old | new
    · exact keyed.heard b old asked
    · obtain rfl := mem_singleton.mp new
      exact heard asked
  queued := keyed.queued
  pushes := keyed.pushes
  set := keyed.set
  kept := keyed.kept

theorem Keyed.pass (keyed : Keyed config earlier s) (a : Announcement)
    (older : ∀ b ∈ s.heard, b.now ≤ a.now) (free : s.isSuppressed config a = false)
    {job : NotificationJob} (made : config.job false a = some job) :
    Keyed config (earlier ++ [a]) (s.pass config a job) := by
  have expired : ∀ expires, 0 < config.suppressSeconds → s.suppress a.key = some expires →
      expires ≤ a.now := by
    intro expires silences set
    simpa [Notifier.isSuppressed, silences, set] using free
  refine ⟨⟨keyed.once.append (Sublist.refl _), ?_, ?_, ?_, ?_⟩, ?_, ?_⟩ <;>
    dsimp only [Notifier.pass]
  · refine pairwise_append.mpr ⟨keyed.spaced, pairwise_singleton _ _, ?_⟩
    intro b heard new inside same
    obtain rfl := mem_singleton.mp inside
    rcases Nat.eq_zero_or_pos config.suppressSeconds with none_ | silences
    · simpa [none_] using older b heard
    · obtain ⟨expires, set, apart⟩ := keyed.set silences b heard
      rw [same] at set
      exact apart.trans (expired expires silences set)
  · intro b listed asked
    rcases mem_append.mp listed with old | new
    · obtain ⟨c, heard, rest⟩ := keyed.heard b old asked
      exact ⟨c, mem_append_left _ heard, rest⟩
    · obtain rfl := mem_singleton.mp new
      exact ⟨b, mem_append_right _ mem_cons_self, rfl, le_rfl, .inl rfl⟩
  · rw [keyed.queued]
    cases queues : config.queues a <;> simp [queues, filter_append, made]
  · intro other listed
    split at listed
    · rcases mem_append.mp listed with old | new
      · exact keyed.pushes other old
      · rw [mem_singleton.mp new, ← Option.some.inj made]
        exact push_resolveChannelPlan ..
    · exact keyed.pushes other listed
  · intro silences b heard
    rw [if_pos silences]
    by_cases same : b.key = a.key
    · refine ⟨_, by rw [same, update_self], ?_⟩
      rcases mem_append.mp heard with old | new
      · have before := older b old
        omega
      · rw [mem_singleton.mp new]
    · rw [update_of_ne same]
      refine keyed.set silences b ((mem_append.mp heard).resolve_right fun new => same ?_)
      rw [mem_singleton.mp new]
  · intro key expires set
    by_cases fresh : 0 < config.suppressSeconds ∧ key = a.key
    · obtain ⟨silences, rfl⟩ := fresh
      rw [if_pos silences, update_self, Option.some.injEq] at set
      exact ⟨a, mem_append_right _ mem_cons_self, rfl, set.symm⟩
    · have before : s.suppress key = some expires := by
        split at set
        · rename_i silences
          rwa [update_of_ne fun same => fresh ⟨silences, same⟩] at set
        · exact set
      obtain ⟨b, heard, rest⟩ := keyed.kept key expires before
      exact ⟨b, mem_append_left _ heard, rest⟩

theorem Keyed.announce (keyed : Keyed config earlier s) (a : Announcement)
    (later : ∀ b ∈ earlier, b.now ≤ a.now) :
    Keyed config (earlier ++ [a]) (s.announce config a) := by
  have older : ∀ b ∈ s.heard, b.now ≤ a.now := fun b heard => later b (keyed.once.subset heard)
  unfold Notifier.announce
  cases suppressed : s.isSuppressed config a with
  | true =>
    simp only [Notifier.isSuppressed, Bool.and_eq_true, decide_eq_true_eq,
      Option.any_eq_true] at suppressed
    obtain ⟨-, expires, set, live⟩ := suppressed
    obtain ⟨b, heard, same, until_⟩ := keyed.kept _ _ set
    exact keyed.skip a fun _ => ⟨b, heard, same, older b heard, .inr (until_ ▸ live)⟩
  | false =>
    rw [show config.job false a = some _ from rfl]
    dsimp only
    split
    · exact keyed.pass a older suppressed rfl
    · rename_i missed
      exact keyed.skip a fun asked => absurd asked missed

theorem keyed_announceAll (news : List Announcement)
    (onward : news.Pairwise fun first second => first.now ≤ second.now) :
    Keyed config news (announceAll config news) := by
  induction news using List.reverseRecOn with
  | nil => refine ⟨⟨.slnil, ?_, ?_, ?_, ?_⟩, ?_, ?_⟩ <;> simp [announceAll]
  | append_singleton earlier a ih =>
    obtain ⟨before, -, later⟩ := pairwise_append.mp onward
    unfold announceAll at ih ⊢
    rw [foldl_append]
    exact (ih before).announce a fun b inside => later b inside a mem_cons_self

variable (config) in
/-- While the clock does not go back, no two alarms of one kind are let through within the time of
silence, every alarm that reaches redis is heard, and every job pushes. The alarms of other cameras
silence nothing. -/
theorem announcements_heard (news : List Announcement)
    (onward : news.Pairwise fun first second => first.now ≤ second.now) :
    Announced config news (announceAll config news) ∧
    ∀ first second : AlarmInstance, Identified first → Identified second →
      (suppressionKey first = suppressionKey second ↔ first.type = second.type ∧
        first.priority = second.priority ∧ first.cameraId = second.cameraId) := by
  refine ⟨(keyed_announceAll news onward).toAnnounced,
    fun first second left right => ⟨suppressionKey_eq left right, ?_⟩⟩
  rintro ⟨types, priorities, cameras⟩
  unfold suppressionKey
  rw [types, priorities, cameras]

end Service

def motionAlarm : AlarmInstance :=
  ⟨['a'], some ['c'], none, .motion, "motion".toList, [], [], [], .p1, .open, none, none, 1, 0, 0,
    none, none, none, none, none, none⟩

/-- The same alarm three times, with a queue that fails for the first. -/
def threeTimes : List Announcement :=
  [⟨motionAlarm, none, 0, true, true, false⟩, ⟨motionAlarm, none, 10000, true, true, true⟩,
    ⟨motionAlarm, none, 300000, true, true, true⟩]

def fiveMinutes : NotificationConfig := ⟨300, [], none, id⟩

theorem threeTimes_heard : Announced fiveMinutes threeTimes (announceAll fiveMinutes threeTimes) :=
  (announcements_heard fiveMinutes threeTimes (by decide)).1

end DracVms.Alarms
