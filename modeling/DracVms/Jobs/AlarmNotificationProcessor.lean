import DracVms.Alarms.AlarmNotifications
import DracVms.Jobs.AlarmDelivery
import DracVms.Notifications.PushService

namespace DracVms.Jobs

open List

open Json (Text)
open Database
open Alarms (Channel NotificationJob)
open KeyedList (lookup updateAt)
open PushService (Providers sendToTokens)

inductive Answer where
  | skipped (reason : Text)
  | sent
  | failed (message : Text)
  deriving DecidableEq

def Answer.hasFailed : Answer → Bool
  | .failed _ => true
  | _ => false

/-- What the channels come to in one attempt: the webhook and the mail as their servers answer, the
push as the devices of the camera and their providers have it. -/
structure World where
  webhook : Answer
  email : Answer
  tokens : List Text
  providers : Providers

def notifyPush (world : World) : Answer :=
  if world.tokens.isEmpty then .skipped "no_registered_devices".toList
  else match sendToTokens world.providers world.tokens with
    | .ok _ => .sent
    | .error message => .failed message

def notify (world : World) : Channel → Answer
  | .webhook => world.webhook
  | .email => world.email
  | .push => notifyPush world

/-- A job without channels goes to all of them. -/
def channelsOf (job : NotificationJob) : List Channel :=
  if job.channels.isEmpty then [.webhook, .email, .push] else job.channels

/-- The channels that an attempt has come to, and whether it has failed as a whole. -/
structure Attempt where
  tried : List (Channel × Answer)
  threw : Bool

/-- The loop over the channels. Only a webhook that fails ends it. -/
def processChannels (world : World) : List Channel → Attempt
  | [] => ⟨[], false⟩
  | channel :: rest =>
    let answer := notify world channel
    if answer.hasFailed && channel = .webhook then ⟨[(channel, answer)], true⟩
    else
      let later := processChannels world rest
      ⟨(channel, answer) :: later.tried, later.threw⟩

def channelText : Channel → Text
  | .webhook => "webhook".toList
  | .email => "email".toList
  | .push => "push".toList

def statusText (channel : Channel) : Answer → Text
  | .skipped _ => "SKIPPED".toList
  | .sent => if channel = .push then "ACCEPTED".toList else "DELIVERED".toList
  | .failed _ => "FAILED".toList

def reasonOf : Answer → Option Text
  | .skipped reason => some reason
  | .sent => none
  | .failed message => some message

def deliveryOf (jobId : Text) (attempt : ℕ) (now : Instant) (tried : Channel × Answer) :
    DeliveryEntry where
  time := JsDate.toISOString now
  channel := channelText tried.1
  status := statusText tried.1 tried.2
  reason := reasonOf tried.2
  more := [("jobId".toList, Alarms.text jobId), ("attempt".toList, .atom (.number attempt))]

def recordDelivery (entry : DeliveryEntry) (alarm : AlarmInstance) : AlarmInstance :=
  { alarm with metadata := some (appendDelivery entry alarm.metadata) }

/-- The entries of an attempt, each with its own time. -/
def recordAttempt (jobId alarmId : Text) (attempt : ℕ) (clock : ℕ → Instant)
    (tried : List (Channel × Answer)) (rows : List AlarmInstance) : List AlarmInstance :=
  tried.zipIdx.foldl (fun rows (one, index) =>
    updateAt AlarmInstance.id rows alarmId
      (recordDelivery (deliveryOf jobId attempt (clock index) one))) rows

def process (world : World) (clock : ℕ → Instant) (jobId : Text) (job : NotificationJob)
    (attemptsMade : ℕ) (rows : List AlarmInstance) : Attempt × List AlarmInstance :=
  match lookup AlarmInstance.id rows job.alarmId with
  | none => (⟨[], false⟩, rows)
  | some _ =>
    let attempt := processChannels world (channelsOf job)
    (attempt, recordAttempt jobId job.alarmId (attemptsMade + 1) clock attempt.tried rows)

section Queue

variable (world : ℕ → World) (clock : ℕ → ℕ → Instant) (jobId : Text) (job : NotificationJob)

/-- The attempts of a job: one that throws is followed by the next, as long as the queue grants
one. -/
def attemptsFrom : ℕ → ℕ → List AlarmInstance → List Attempt
  | 0, _, _ => []
  | granted + 1, made, rows =>
    let (attempt, after) := process (world made) (clock made) jobId job made rows
    attempt :: if attempt.threw then attemptsFrom granted (made + 1) after else []

/-- The attempts of a job that the queue grants `retries` more after the first. -/
def attempts (retries : ℕ) (rows : List AlarmInstance) : List Attempt :=
  attemptsFrom world clock jobId job (retries + 1) 0 rows

def Attempt.reached (attempt : Attempt) (channel : Channel) : Prop :=
  channel ∈ attempt.tried.map Prod.fst

/-- The channels of a job stand for themselves. -/
structure Independent (retries : ℕ) (rows : List AlarmInstance) : Prop where
  first : ∀ channel ∈ channelsOf job, ∃ attempt : Attempt,
    (attempts world clock jobId job retries rows)[0]? = some attempt ∧ attempt.reached channel
  again : ∀ (made : ℕ) (attempt : Attempt) channel message,
    (attempts world clock jobId job retries rows)[made]? = some attempt →
    (channel, .failed message) ∈ attempt.tried → made < retries →
      ∃ next : Attempt, (attempts world clock jobId job retries rows)[made + 1]? = some next ∧
        next.reached channel
  once : ∀ (made later : ℕ) (attempt next : Attempt) channel, made < later →
    (attempts world clock jobId job retries rows)[made]? = some attempt →
    (attempts world clock jobId job retries rows)[later]? = some next →
    (channel, .sent) ∈ attempt.tried → ¬next.reached channel

/-- The webhook of the job fails in this attempt. -/
def WebhookFails (made : ℕ) : Prop :=
  .webhook ∈ channelsOf job ∧ (notify (world made) .webhook).hasFailed = true

/-- The webhook comes after all other channels. -/
def WebhookLast : Prop :=
  ∀ channel ∈ channelsOf job, channel ∈ (channelsOf job).takeWhile (· ≠ .webhook) ∨
    channel = .webhook

/-- In every attempt that comes about, where the webhook fails it is the last channel and, unless no
attempt is left, nothing was sent; and where it does not, nothing else fails while one is left. -/
def Aligned (retries : ℕ) : Prop :=
  ∀ made ≤ retries, (∀ before < made, WebhookFails world job before) →
    (WebhookFails world job made → WebhookLast job ∧
      (made < retries → ∀ channel ∈ channelsOf job, notify (world made) channel ≠ .sent)) ∧
    (¬WebhookFails world job made → made < retries →
      ∀ channel ∈ channelsOf job, (notify (world made) channel).hasFailed = false)

/-! One attempt. -/

/-- The channels up to the webhook. -/
def untilWebhook (channels : List Channel) : List Channel :=
  channels.takeWhile (· ≠ .webhook) ++ [.webhook]

/-- The channels that an attempt comes to. -/
def reachedIn (made : ℕ) [Decidable (WebhookFails world job made)] : List Channel :=
  if WebhookFails world job made then untilWebhook (channelsOf job)
  else channelsOf job

instance (made : ℕ) : Decidable (WebhookFails world job made) :=
  inferInstanceAs (Decidable (_ ∧ _))

theorem processChannels_passed (world : World) (channels : List Channel)
    (passes : ¬(.webhook ∈ channels ∧ (notify world .webhook).hasFailed = true)) :
    processChannels world channels =
      ⟨channels.map fun channel => (channel, notify world channel), false⟩ := by
  induction channels with
  | nil => rfl
  | cons channel rest ih =>
    have later := ih fun both => passes ⟨mem_cons_of_mem _ both.1, both.2⟩
    have goes : ¬((notify world channel).hasFailed && decide (channel = .webhook)) = true := by
      rw [Bool.and_eq_true, decide_eq_true_eq]
      rintro ⟨failed, rfl⟩
      exact passes ⟨mem_cons_self, failed⟩
    rw [processChannels]
    rw [if_neg goes, later, map_cons]

theorem processChannels_failed (world : World) (channels : List Channel)
    (planned : .webhook ∈ channels) (fails : (notify world .webhook).hasFailed = true) :
    processChannels world channels =
      ⟨(untilWebhook channels).map fun channel => (channel, notify world channel), true⟩ := by
  induction channels with
  | nil => cases planned
  | cons channel rest ih =>
    rw [processChannels]
    by_cases here : channel = .webhook
    · rw [here, if_pos (by simp [fails])]
      rfl
    · have later := ih ((mem_cons.mp planned).resolve_left (Ne.symm here))
      rw [if_neg (by simp [here]), later, untilWebhook, untilWebhook,
        takeWhile_cons_of_pos (by simp [here]), cons_append, map_cons]

theorem processChannels_job (made : ℕ) : processChannels (world made) (channelsOf job) =
      ⟨(reachedIn world job made).map fun channel => (channel, notify (world made) channel),
        decide (WebhookFails world job made)⟩ := by
  by_cases fails : WebhookFails world job made
  · rw [processChannels_failed (world made) (channelsOf job) fails.1 fails.2, reachedIn,
      if_pos fails, decide_eq_true fails]
  · rw [processChannels_passed (world made) (channelsOf job) fails, reachedIn, if_neg fails,
      decide_eq_false fails]

theorem takeWhile_subset (channels : List Channel) :
    ∀ channel ∈ channels.takeWhile (· ≠ .webhook), channel ∈ channels :=
  fun _ listed => (takeWhile_sublist _).subset listed

theorem reachedIn_planned (made : ℕ) :
    ∀ channel ∈ reachedIn world job made, channel ∈ channelsOf job := by
  intro channel listed
  unfold reachedIn at listed
  split at listed
  · rename_i fails
    rcases mem_append.mp listed with before | last
    · exact takeWhile_subset _ channel before
    · rw [mem_singleton.mp last]
      exact fails.1
  · exact listed

theorem reachedIn_all (made : ℕ) (last : WebhookFails world job made → WebhookLast job) :
    ∀ channel ∈ channelsOf job, channel ∈ reachedIn world job made := by
  intro channel planned
  unfold reachedIn
  split
  · rename_i fails
    rcases last fails channel planned with before | rfl
    · exact mem_append_left _ before
    · exact mem_append_right _ (mem_singleton_self _)
  · exact planned

/-! The attempts. -/

theorem recordAttempt_known (alarmId : Text) (attempt : ℕ) (clock : ℕ → Instant)
    (tried : List (Channel × Answer)) (rows : List AlarmInstance) :
    (lookup AlarmInstance.id (recordAttempt jobId alarmId attempt clock tried rows)
      alarmId).isSome = (lookup AlarmInstance.id rows alarmId).isSome := by
  unfold recordAttempt
  induction tried.zipIdx generalizing rows with
  | nil => rfl
  | cons one rest ih =>
    have keeps : ∀ alarm, (recordDelivery (deliveryOf jobId attempt (clock one.2) one.1)
        alarm).id = alarm.id := fun _ => rfl
    rw [foldl_cons, ih, KeyedList.lookup_updateAt_self _ _ _ keeps, Option.isSome_map]

theorem attemptsFrom_get (granted made : ℕ) (rows : List AlarmInstance)
    (known : (lookup AlarmInstance.id rows job.alarmId).isSome = true) (k : ℕ) (attempt : Attempt) :
    (attemptsFrom world clock jobId job granted made rows)[k]? = some attempt ↔
      k < granted ∧ (∀ before < k, WebhookFails world job (made + before)) ∧
        attempt = processChannels (world (made + k)) (channelsOf job) := by
  induction granted generalizing made rows k with
  | zero => simp [attemptsFrom]
  | succ granted ih =>
    obtain ⟨alarm, found⟩ := Option.isSome_iff_exists.mp known
    rw [attemptsFrom, process, found]
    have threw : (processChannels (world made) (channelsOf job)).threw =
        decide (WebhookFails world job made) := by
      rw [processChannels_job]
    cases k with
    | zero =>
      rw [List.getElem?_cons_zero, Option.some.injEq, Nat.add_zero]
      simp only [Nat.zero_lt_succ, Nat.not_lt_zero, false_implies, implies_true, true_and]
      exact eq_comm
    | succ k =>
      rw [List.getElem?_cons_succ, threw]
      by_cases fails : WebhookFails world job made
      · have kept : (lookup AlarmInstance.id (recordAttempt jobId job.alarmId (made + 1)
            (clock made) (processChannels (world made) (channelsOf job)).tried rows)
            job.alarmId).isSome = true := by
          rw [recordAttempt_known]
          exact known
        rw [if_pos (decide_eq_true fails), ih (made + 1) _ kept]
        have shift : ∀ n, made + 1 + n = made + (n + 1) := by
          intro n
          omega
        rw [shift]
        constructor
        · rintro ⟨within, before, same⟩
          refine ⟨by omega, ?_, same⟩
          intro j below
          cases j with
          | zero => exact fails
          | succ j =>
            rw [← shift]
            exact before j (by omega)
        · rintro ⟨within, before, same⟩
          refine ⟨by omega, ?_, same⟩
          intro j below
          rw [shift]
          exact before (j + 1) (by omega)
      · rw [if_neg (by simp [fails]), List.getElem?_nil]
        refine iff_of_false nofun ?_
        rintro ⟨-, before, -⟩
        exact fails (before 0 (by omega))

theorem attempts_get (retries : ℕ) (rows : List AlarmInstance)
    (known : (lookup AlarmInstance.id rows job.alarmId).isSome = true) (made : ℕ)
    (attempt : Attempt) : (attempts world clock jobId job retries rows)[made]? = some attempt ↔
      made ≤ retries ∧ (∀ before < made, WebhookFails world job before) ∧
        attempt = processChannels (world made) (channelsOf job) := by
  rw [attempts, attemptsFrom_get world clock jobId job (retries + 1) 0 rows known]
  simp only [Nat.zero_add, Nat.lt_succ_iff]

theorem reached_iff (made : ℕ) (channel : Channel) :
    (processChannels (world made) (channelsOf job)).reached channel ↔
      channel ∈ reachedIn world job made := by
  rw [processChannels_job, Attempt.reached, map_map]
  simp

theorem tried_iff (made : ℕ) (channel : Channel) (answer : Answer) :
    (channel, answer) ∈ (processChannels (world made) (channelsOf job)).tried ↔
      channel ∈ reachedIn world job made ∧ notify (world made) channel = answer := by
  rw [processChannels_job]
  simp

theorem channelsOf_some : ∃ channel, channel ∈ channelsOf job := by
  unfold channelsOf
  split
  · exact ⟨.webhook, mem_cons_self⟩
  · rename_i planned
    rw [List.isEmpty_iff] at planned
    exact exists_mem_of_ne_nil _ planned

/-- The channels of a job stand for themselves exactly where its alarm exists and, in every attempt,
either nothing fails, or all that is left to do is a webhook at the end of the plan. -/
theorem channels_independent_iff (retries : ℕ) (rows : List AlarmInstance) :
    Independent world clock jobId job retries rows ↔
      (lookup AlarmInstance.id rows job.alarmId).isSome = true ∧ Aligned world job retries := by
  by_cases known : (lookup AlarmInstance.id rows job.alarmId).isSome = true
  · have get := attempts_get world clock jobId job retries rows known
    rw [and_iff_right known]
    constructor
    · intro independent
      -- A webhook that fails in the first attempt has nothing behind it.
      have last : WebhookFails world job 0 → WebhookLast job := by
        intro fails channel planned
        obtain ⟨attempt, started, reached⟩ := independent.first channel planned
        obtain ⟨-, -, rfl⟩ := (get 0 attempt).mp started
        rw [reached_iff, reachedIn, if_pos fails] at reached
        rcases mem_append.mp reached with before | here
        · exact Or.inl before
        · exact Or.inr (mem_singleton.mp here)
      have first : ∀ made, (∀ before < made, WebhookFails world job before) →
          WebhookFails world job made → WebhookLast job := by
        intro made earlier fails
        cases made with
        | zero => exact last fails
        | succ made => exact last (earlier 0 (by omega))
      intro made within earlier
      have here := (get made _).mpr ⟨within, earlier, rfl⟩
      refine ⟨fun fails => ⟨first made earlier fails, ?_⟩, ?_⟩
      · intro more channel planned sent
        have all := reachedIn_all world job made fun _ => first made earlier fails
        have next := (get (made + 1) _).mpr
          ⟨more, fun before below => (Nat.lt_succ_iff_lt_or_eq.mp below).elim (earlier before)
            (fun same => same ▸ fails), rfl⟩
        apply independent.once made (made + 1) _ _ channel (by omega) here next
        · exact (tried_iff world job made channel .sent).mpr ⟨all channel planned, sent⟩
        · rw [reached_iff]
          exact reachedIn_all world job (made + 1) (fun _ => first made earlier fails) channel
            planned
      · intro passes more channel planned
        by_contra failing
        have all := reachedIn_all world job made fun fails => absurd fails passes
        obtain ⟨message, failed⟩ : ∃ message, notify (world made) channel = .failed message := by
          cases answer : notify (world made) channel with
          | failed message => exact ⟨message, rfl⟩
          | skipped reason | sent =>
            rw [answer] at failing
            exact absurd rfl failing
        obtain ⟨next, follows, -⟩ := independent.again made _ channel message here
          ((tried_iff world job made channel _).mpr ⟨all channel planned, failed⟩) more
        obtain ⟨-, before, -⟩ := (get (made + 1) next).mp follows
        exact passes (before made (by omega))
    · intro aligned
      have last : ∀ made ≤ retries, (∀ before < made, WebhookFails world job before) →
          WebhookFails world job made → WebhookLast job :=
        fun made within earlier fails => ((aligned made within earlier).1 fails).1
      refine ⟨?_, ?_, ?_⟩
      · intro channel planned
        have none' : ∀ before < 0, WebhookFails world job before :=
          fun before below => absurd below (Nat.not_lt_zero before)
        refine ⟨_, (get 0 _).mpr ⟨Nat.zero_le _, none', rfl⟩, ?_⟩
        rw [reached_iff]
        exact reachedIn_all world job 0 (last 0 (Nat.zero_le _) none') channel planned
      · intro made attempt channel message here tried more
        obtain ⟨within, earlier, rfl⟩ := (get made attempt).mp here
        obtain ⟨reached, failed⟩ := (tried_iff world job made channel _).mp tried
        have planned := reachedIn_planned world job made channel reached
        by_cases fails : WebhookFails world job made
        · refine ⟨_, (get (made + 1) _).mpr
            ⟨more, fun before below => (Nat.lt_succ_iff_lt_or_eq.mp below).elim (earlier before)
              (fun same => same ▸ fails), rfl⟩, ?_⟩
          rw [reached_iff]
          exact reachedIn_all world job (made + 1) (fun _ => last made within earlier fails) channel
            planned
        · have calm := (aligned made within earlier).2 fails more channel planned
          rw [failed] at calm
          cases calm
      · intro made later attempt next channel before here there tried
        obtain ⟨within, earlier, rfl⟩ := (get made attempt).mp here
        obtain ⟨within', earlier', -⟩ := (get later next).mp there
        obtain ⟨reached, sent⟩ := (tried_iff world job made channel _).mp tried
        have planned := reachedIn_planned world job made channel reached
        have unsent := ((aligned made within earlier).1 (earlier' made before)).2 (by omega)
        exact absurd sent (unsent channel planned)
  · refine iff_of_false ?_ (fun both => known both.1)
    intro independent
    obtain ⟨channel, planned⟩ := channelsOf_some job
    obtain ⟨attempt, started, reached⟩ := independent.first channel planned
    have missing : lookup AlarmInstance.id rows job.alarmId = none := by
      simpa using known
    rw [attempts, attemptsFrom, process, missing] at started
    cases started
    exact absurd reached not_mem_nil

end Queue

/-! A plan whose webhook fails once. -/

def plannedJob : NotificationJob := ⟨['a'], none, Alarms.defaultPlan .p1, 4⟩

def firstWebhookDown : ℕ → World := fun made =>
  ⟨if made = 0 then .failed "timeout".toList else .sent, .sent, [], ⟨.ok (), fun _ => .ok [],
    fun _ => .ok []⟩⟩

def anAlarm : AlarmInstance :=
  ⟨['a'], none, none, .system, [], [], [], [], .p1, .open, none, none, 1, 0, 0, none, none, none,
    none, none, none⟩

/-- The mail waits for the webhook, although it could be sent; and a mail that comes before the
webhook is sent with each attempt. -/
theorem channels_entangled :
    ¬Independent firstWebhookDown (fun _ _ => 0) ['j'] plannedJob 3 [anAlarm] ∧
    ¬Independent firstWebhookDown (fun _ _ => 0) ['j']
      { plannedJob with channels := [.email, .webhook] } 3 [anAlarm] := by
  constructor
  · intro independent
    obtain ⟨attempt, started, reached⟩ := independent.first .email (by decide)
    have tried : ((attempts firstWebhookDown (fun _ _ => 0) ['j'] plannedJob 3 [anAlarm])[0]?).map
        (fun attempt => attempt.tried.map Prod.fst) = some [.webhook] := by decide +kernel
    rw [started, Option.map_some, Option.some.injEq] at tried
    rw [Attempt.reached, tried] at reached
    exact absurd reached (by decide)
  · intro independent
    have here : (attempts firstWebhookDown (fun _ _ => 0) ['j']
        { plannedJob with channels := [.email, .webhook] } 3 [anAlarm])[0]? =
        some ⟨[(.email, .sent), (.webhook, .failed "timeout".toList)], true⟩ := rfl
    have next : (attempts firstWebhookDown (fun _ _ => 0) ['j']
        { plannedJob with channels := [.email, .webhook] } 3 [anAlarm])[1]? =
        some ⟨[(.email, .sent), (.webhook, .sent)], false⟩ := rfl
    exact independent.once 0 1 _ _ .email (by decide) here next mem_cons_self mem_cons_self

end DracVms.Jobs
