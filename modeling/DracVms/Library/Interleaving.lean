import DracVms.Library.Runs

namespace DracVms.Interleaving

open List

/-- Requests whose calls run one at a time over shared data and give way at each awaited answer. -/
structure Service (Data Request Call Answer : Type) where
  arrive : Data → Request → Data × Option Call
  resume : Data → Call → Answer → Option (Data × Option Call)

structure State (Data Call : Type) where
  data : Data
  calls : List Call

inductive Event (Request Answer : Type) where
  | arrive (request : Request)
  | resume (place : ℕ) (answer : Answer)

section Interleaving

variable {Data Request Call Answer : Type} (service : Service Data Request Call Answer)

/-- The next request or the next answer; what is left of a call waits with the others. -/
def step (s : State Data Call) : Event Request Answer → Option (State Data Call)
  | .arrive request =>
    let begun := service.arrive s.data request
    some { data := begun.1, calls := begun.2.toList ++ s.calls }
  | .resume place answer =>
    s.calls[place]?.bind fun call =>
      (service.resume s.data call answer).map fun resumed =>
        { data := resumed.1, calls := resumed.2.toList ++ s.calls.eraseIdx place }

theorem step_resume {s t : State Data Call} {place : ℕ} {answer : Answer}
    (taken : step service s (.resume place answer) = some t) :
    ∃ call data next, s.calls[place]? = some call ∧
      service.resume s.data call answer = some (data, next) ∧
      t = { data := data, calls := next.toList ++ s.calls.eraseIdx place } := by
  obtain ⟨call, waiting, continued⟩ := Option.bind_eq_some_iff.mp taken
  obtain ⟨⟨data, next⟩, resumed, same⟩ := Option.map_eq_some_iff.mp continued
  exact ⟨call, data, next, waiting, resumed, same.symm⟩

theorem count_calls (counted : Call → Bool) {calls : List Call} {place : ℕ} {call : Call}
    (waiting : calls[place]? = some call) : calls.countP counted =
      (calls.eraseIdx place).countP counted + if counted call = true then 1 else 0 := by
  obtain ⟨inside, same⟩ := List.getElem?_eq_some_iff.mp waiting
  have apart := (getElem_cons_eraseIdx_perm inside).countP_eq counted
  rw [same, countP_cons] at apart
  exact apart.symm

/-- A condition on the call that goes on and on the data that it finds. -/
def resumesIf (guard : Data → Call → Answer → Prop) (s : State Data Call) :
    Event Request Answer → Prop
  | .arrive _ => True
  | .resume place answer => ∀ call, s.calls[place]? = some call → guard s.data call answer

instance (guard : Data → Call → Answer → Prop) [∀ data call answer, Decidable (guard data call answer)]
    (s : State Data Call) (event : Event Request Answer) : Decidable (resumesIf guard s event) :=
  match event with
  | .arrive _ => isTrue trivial
  | .resume place answer => inferInstanceAs
      (Decidable (∀ call ∈ s.calls[place]?, guard s.data call answer))

/-- The shared data keep an invariant, and each waiting call what it relies on. -/
structure Holds (Shared : Data → Prop) (Own : Data → Call → Prop) (s : State Data Call) : Prop where
  shared : Shared s.data
  own : ∀ call ∈ s.calls, Own s.data call

/-- What an arrival or a call that goes on guarantees: the invariant of the data, what its own rest
relies on, and what every other call relies on. -/
structure Guarantees (Shared : Data → Prop) (Own : Data → Call → Prop) (before after : Data)
    (next : Option Call) : Prop where
  shared : Shared after
  own : ∀ call ∈ next, Own after call
  others : ∀ call, Own before call → Own after call

/-- Calls whose steps guarantee what the others rely on may be taken in any order. -/
structure Outline (guard : Data → Call → Answer → Prop) (Shared : Data → Prop)
    (Own : Data → Call → Prop) : Prop where
  arrives : ∀ data request, Shared data →
    Guarantees Shared Own data (service.arrive data request).1 (service.arrive data request).2
  resumes : ∀ data call answer data' next, Shared data → Own data call → guard data call answer →
    service.resume data call answer = some (data', next) → Guarantees Shared Own data data' next

variable {service} {Own : Data → Call → Prop}

variable {Shared : Data → Prop}

theorem Guarantees.holds {before after : Data} {next : Option Call}
    (guarantees : Guarantees Shared Own before after next) {calls : List Call}
    (own : ∀ call ∈ calls, Own before call) :
    Holds Shared Own { data := after, calls := next.toList ++ calls } where
  shared := guarantees.shared
  own := by
    intro call member
    rcases mem_append.mp member with fresh | waiting
    · exact guarantees.own call (Option.mem_toList.mp fresh)
    · exact guarantees.others call (own call waiting)

theorem owned_none {owned : Call → Prop} : ∀ call ∈ (none : Option Call), owned call := by
  intro call none
  cases none

theorem owned_some {owned : Call → Prop} {call : Call} (own : owned call) :
    ∀ other ∈ some call, owned other := by
  intro other same
  cases same
  exact own

/-- A step that changes nothing of what the others rely on. -/
theorem Guarantees.ends {data : Data} (shared : Shared data) :
    Guarantees Shared Own data data none where
  shared := shared
  own := owned_none
  others _ own := own

theorem Outline.preserves {guard : Data → Call → Answer → Prop}
    (outline : Outline service guard Shared Own) :
    Runs.Preserves (step service) (resumesIf guard) (Holds Shared Own) := by
  intro s event t allowed holds taken
  cases event with
  | arrive request =>
    cases taken
    exact (outline.arrives s.data request holds.shared).holds holds.own
  | resume place answer =>
    obtain ⟨call, data, next, waiting, resumed, same⟩ := step_resume service taken
    subst same
    have own := holds.own call (List.mem_of_getElem? waiting)
    apply (outline.resumes s.data call answer data next holds.shared own (allowed call waiting)
      resumed).holds
    intro other member
    exact holds.own other (mem_of_mem_eraseIdx member)

end Interleaving

section History

variable {Happening : Type}

/-- Each happening of a history, the latest first, stands in the relation to those before it. -/
def Always (holds : Happening → List Happening → Prop) (history : List Happening) : Prop :=
  ∀ after happening before, history = after ++ happening :: before → holds happening before

variable {holds : Happening → List Happening → Prop} {happening : Happening}

theorem always_cons {history : List Happening} :
    Always holds (happening :: history) ↔ holds happening history ∧ Always holds history := by
  constructor
  · intro always
    refine ⟨always [] happening history rfl, ?_⟩
    intro after other before split
    exact always (happening :: after) other before (by rw [split, cons_append])
  · rintro ⟨first, rest⟩ after other before split
    cases after with
    | nil =>
      cases split
      exact first
    | cons head after =>
      cases split
      exact rest after other before rfl

theorem always_free {history : List Happening}
    (free : ∀ happening ∈ history, ∀ before, holds happening before) : Always holds history := by
  intro after happening before split
  apply free happening
  rw [split]
  exact mem_append_right after mem_cons_self

theorem always_append {happenings history : List Happening}
    (free : ∀ happening ∈ happenings, ∀ before, holds happening before) :
    Always holds (happenings ++ history) ↔ Always holds history := by
  induction happenings with
  | nil => rfl
  | cons happening rest ih =>
    have others := ih fun other member => free other (mem_cons_of_mem _ member)
    rw [cons_append, always_cons, others]
    simp only [free happening mem_cons_self, true_and]

/-- A history goes on with happenings of a kind that matters little. -/
def GrowsBy (free : Happening → Prop) (history later : List Happening) : Prop :=
  ∃ added, later = added ++ history ∧ ∀ happening ∈ added, free happening

section GrowsBy

variable {free : Happening → Prop} {history later : List Happening}

theorem growsBy_self : GrowsBy free history history :=
  ⟨[], rfl, fun _ member => absurd member not_mem_nil⟩

theorem growsBy_cons (minor : free happening) : GrowsBy free history (happening :: history) :=
  ⟨[happening], rfl, forall_mem_singleton.mpr minor⟩

theorem GrowsBy.mono {wider : Happening → Prop} (grows : GrowsBy free history later)
    (wide : ∀ happening, free happening → wider happening) : GrowsBy wider history later := by
  obtain ⟨added, split, minor⟩ := grows
  exact ⟨added, split, fun happening member => wide happening (minor happening member)⟩

theorem GrowsBy.subset (grows : GrowsBy free history later) : history ⊆ later := by
  obtain ⟨added, split, _⟩ := grows
  rw [split]
  exact subset_append_right added history

theorem GrowsBy.mem (grows : GrowsBy free history later) (matters : ¬ free happening) :
    happening ∈ later ↔ happening ∈ history := by
  refine ⟨?_, fun member => grows.subset member⟩
  obtain ⟨added, split, minor⟩ := grows
  intro member
  rw [split] at member
  rcases mem_append.mp member with new | old
  · exact absurd (minor happening new) matters
  · exact old

theorem GrowsBy.always (grows : GrowsBy free history later)
    (trivially : ∀ happening before, free happening → holds happening before) :
    Always holds later ↔ Always holds history := by
  obtain ⟨added, split, minor⟩ := grows
  rw [split]
  exact always_append fun happening member before =>
    trivially happening before (minor happening member)

end GrowsBy

end History

end DracVms.Interleaving
