import Mathlib

namespace DracVms.PagedQueue

open List

/-! A queue of which the first page is read again at every turn, until a page gains nothing. The items
that do not leave stay at the head and take room in the pages that follow. -/

section Reading

variable {Item : Type} (gain leaves : Item → Bool)

/-- The room that a page leaves to the items after it. -/
def roomAfter (room : Nat) (page : List Item) : Nat :=
  room - page.countP fun item => !leaves item

/-- The items that so many turns come to, with this much room in the first page. -/
def readIn : Nat → Nat → List Item → List Item
  | 0, _, _ => []
  | turns + 1, room, items =>
    if (items.take room).any gain then
      items.take room ++ readIn turns (roomAfter leaves room (items.take room)) (items.drop room)
    else items.take room

theorem gain_shrinks (room : Nat) (items : List Item) (gains : (items.take room).any gain = true) :
    (items.drop room).length < items.length := by
  cases items with
  | nil => simp at gains
  | cons item rest =>
    cases room with
    | zero => simp at gains
    | succ room =>
      rw [drop_succ_cons, length_cons, length_drop]
      omega

/-- The turns that gain. -/
def turns (room : Nat) (items : List Item) : Nat :=
  if (items.take room).any gain then
    turns (roomAfter leaves room (items.take room)) (items.drop room) + 1
  else 0
termination_by items.length
decreasing_by exact gain_shrinks gain room items (by assumption)

/-- The items that no turn comes to. -/
def unread (room : Nat) (items : List Item) : List Item :=
  if (items.take room).any gain then
    unread (roomAfter leaves room (items.take room)) (items.drop room)
  else items.drop room
termination_by items.length
decreasing_by exact gain_shrinks gain room items (by assumption)

/-- Whether the queue is empty at some turn. -/
def exhausts (room : Nat) (items : List Item) : Bool :=
  if items = [] then true
  else if (items.take room).any gain then
    (items.take room).all leaves &&
      exhausts (roomAfter leaves room (items.take room)) (items.drop room)
  else false
termination_by items.length
decreasing_by exact gain_shrinks gain room items (by assumption)

section Equations

variable (room : Nat) (items : List Item)

theorem turns_gain (gains : (items.take room).any gain = true) : turns gain leaves room items =
      turns gain leaves (roomAfter leaves room (items.take room)) (items.drop room) + 1 := by
  rw [turns, if_pos gains]

theorem turns_stall (stalls : (items.take room).any gain = false) :
    turns gain leaves room items = 0 := by
  rw [turns, if_neg (by simp [stalls])]

theorem unread_gain (gains : (items.take room).any gain = true) : unread gain leaves room items =
      unread gain leaves (roomAfter leaves room (items.take room)) (items.drop room) := by
  rw [unread, if_pos gains]

theorem unread_stall (stalls : (items.take room).any gain = false) :
    unread gain leaves room items = items.drop room := by
  rw [unread, if_neg (by simp [stalls])]

theorem exhausts_nil : exhausts gain leaves room [] = true := by
  rw [exhausts, if_pos rfl]

theorem exhausts_gain (gains : (items.take room).any gain = true) :
    exhausts gain leaves room items = ((items.take room).all leaves &&
      exhausts gain leaves (roomAfter leaves room (items.take room)) (items.drop room)) := by
  have some : items ≠ [] := by
    intro none
    rw [none] at gains
    simp at gains
  rw [exhausts, if_neg some, if_pos gains]

theorem exhausts_stall (some : items ≠ []) (stalls : (items.take room).any gain = false) :
    exhausts gain leaves room items = false := by
  rw [exhausts, if_neg some, if_neg (by simp [stalls])]

theorem readIn_gain (n : Nat) (gains : (items.take room).any gain = true) :
    readIn gain leaves (n + 1) room items = items.take room ++
      readIn gain leaves n (roomAfter leaves room (items.take room)) (items.drop room) := by
  rw [readIn, if_pos gains]

theorem readIn_stall (n : Nat) (stalls : (items.take room).any gain = false) :
    readIn gain leaves (n + 1) room items = items.take room := by
  rw [readIn, if_neg (by simp [stalls])]

end Equations

variable (n room : Nat)

theorem readIn_initial (items : List Item) :
    ∃ rest, items = readIn gain leaves n room items ++ rest := by
  induction n generalizing room items with
  | zero => exact ⟨items, rfl⟩
  | succ n ih =>
    by_cases gains : (items.take room).any gain = true
    · obtain ⟨rest, split⟩ := ih (roomAfter leaves room (items.take room)) (items.drop room)
      refine ⟨rest, ?_⟩
      rw [readIn_gain gain leaves room items n gains, append_assoc, ← split, take_append_drop]
    · rw [readIn_stall gain leaves room items n (by simpa using gains)]
      exact ⟨items.drop room, (take_append_drop room items).symm⟩

theorem readIn_unread (items : List Item) (enough : turns gain leaves room items < n) :
    readIn gain leaves n room items ++ unread gain leaves room items = items := by
  induction n generalizing room items with
  | zero => exact absurd enough (Nat.not_lt_zero _)
  | succ n ih =>
    by_cases gains : (items.take room).any gain = true
    · rw [turns_gain gain leaves room items gains] at enough
      rw [readIn_gain gain leaves room items n gains, unread_gain gain leaves room items gains,
        append_assoc, ih _ _ (by omega), take_append_drop]
    · have stalls : (items.take room).any gain = false := by simpa using gains
      rw [readIn_stall gain leaves room items n stalls, unread_stall gain leaves room items stalls,
        take_append_drop]

theorem unread_subset (room : Nat) (items : List Item) (item : Item)
    (present : item ∈ unread gain leaves room items) : item ∈ items := by
  rw [← readIn_unread gain leaves _ room items (Nat.lt_succ_self _)]
  exact mem_append_right _ present

theorem readIn_subset (items : List Item) (item : Item)
    (present : item ∈ readIn gain leaves n room items) : item ∈ items := by
  obtain ⟨rest, split⟩ := readIn_initial gain leaves n room items
  rw [split]
  exact mem_append_left _ present

theorem unread_of_exhausts (room : Nat) (items : List Item)
    (empty : exhausts gain leaves room items = true) : unread gain leaves room items = [] := by
  induction room, items using unread.induct gain leaves with
  | case1 room items gains ih =>
    rw [exhausts_gain gain leaves room items gains, Bool.and_eq_true] at empty
    rw [unread_gain gain leaves room items gains]
    exact ih empty.2
  | case2 room items stalls =>
    have none : items = [] := by
      by_contra some
      rw [exhausts_stall gain leaves room items some (by simpa using stalls)] at empty
      cases empty
    rw [unread_stall gain leaves room items (by simpa using stalls), none, drop_nil]

theorem readIn_of_exhausts (items : List Item) (enough : turns gain leaves room items < n)
    (empty : exhausts gain leaves room items = true) : readIn gain leaves n room items = items := by
  have all := readIn_unread gain leaves n room items enough
  rw [unread_of_exhausts gain leaves room items empty, append_nil] at all
  exact all

theorem leaves_of_exhausts (room : Nat) (items : List Item)
    (empty : exhausts gain leaves room items = true) : ∀ item ∈ items, leaves item = true := by
  induction room, items using unread.induct gain leaves with
  | case1 room items gains ih =>
    rw [exhausts_gain gain leaves room items gains, Bool.and_eq_true] at empty
    intro item present
    rw [← take_append_drop room items] at present
    rcases mem_append.mp present with here | later
    · exact all_eq_true.mp empty.1 item here
    · exact ih empty.2 item later
  | case2 room items stalls =>
    have none : items = [] := by
      by_contra some
      rw [exhausts_stall gain leaves room items some (by simpa using stalls)] at empty
      cases empty
    rw [none]
    nofun

theorem mem_page (room : Nat) (before : List Item) (item : Item) (after : List Item)
    (here : before.length < room) : item ∈ (before ++ item :: after).take room := by
  rw [take_append, mem_append]
  right
  obtain ⟨left, form⟩ : ∃ left, room - before.length = left + 1 :=
    ⟨room - before.length - 1, by omega⟩
  rw [form, take_succ_cons]
  exact mem_cons_self

theorem unread_iff (room : Nat) (items : List Item) (distinct : items.Nodup) (before : List Item)
    (item : Item) (after : List Item) (split : items = before ++ item :: after)
    (moves : leaves item = true) : item ∈ unread leaves leaves room items ↔
      room ≤ before.countP fun other => !leaves other := by
  induction room, items using unread.induct leaves leaves generalizing before with
  | case1 room items gains ih =>
    rw [unread_gain leaves leaves room items gains]
    by_cases here : before.length < room
    · have few : (before.countP fun other => !leaves other) ≤ before.length :=
        countP_le_length
      have read : item ∈ items.take room := by
        rw [split]
        exact mem_page room before item after here
      have apart : item ∉ items.drop room := by
        intro again
        rw [← take_append_drop room items] at distinct
        exact (nodup_append.mp distinct).2.2 item read item again rfl
      constructor
      · intro present
        exact absurd (unread_subset leaves leaves _ _ item present) apart
      · intro full
        omega
    · have later : items.drop room = before.drop room ++ item :: after := by
        rw [split, drop_append_of_le_length (by omega)]
      have page : items.take room = before.take room := by
        rw [split, take_append_of_le_length (by omega)]
      have rest : (items.drop room).Nodup := distinct.sublist (drop_sublist _ _)
      rw [ih rest (before.drop room) later, page, roomAfter]
      have whole : (before.countP fun other => !leaves other) =
          ((before.take room).countP fun other => !leaves other) +
            ((before.drop room).countP fun other => !leaves other) := by
        rw [← countP_append, take_append_drop]
      omega
  | case2 room items stalls =>
    have stalls : (items.take room).any leaves = false := by simpa using stalls
    rw [unread_stall leaves leaves room items stalls]
    have beyond : room ≤ before.length := by
      by_contra here
      have read : item ∈ items.take room := by
        rw [split]
        exact mem_page room before item after (by omega)
      rw [any_eq_false] at stalls
      exact stalls item read moves
    constructor
    · intro _
      have stay : ((before.take room).countP fun other => !leaves other) =
          (before.take room).length := by
        rw [countP_eq_length]
        intro other present
        rw [split, take_append_of_le_length beyond, any_eq_false] at stalls
        simpa using stalls other present
      have size : (before.take room).length = room := by
        rw [length_take]
        omega
      have part : ((before.take room).countP fun other => !leaves other) ≤
          before.countP fun other => !leaves other :=
        (take_sublist _ _).countP_le
      omega
    · intro _
      rw [split, drop_append_of_le_length beyond]
      exact mem_append_right _ mem_cons_self

end Reading

section FirstPage

variable {Item : Type} (wanted : Item → Prop)

theorem exists_first (items : List Item) (some : ∃ item ∈ items, wanted item) :
    ∃ before item after, items = before ++ item :: after ∧ wanted item ∧
      ∀ other ∈ before, ¬wanted other := by
  induction items with
  | nil =>
    obtain ⟨item, present, -⟩ := some
    cases present
  | cons head rest ih =>
    by_cases here : wanted head
    · exact ⟨[], head, rest, rfl, here, nofun⟩
    · obtain ⟨item, present, chosen⟩ := some
      rcases mem_cons.mp present with same | later
      · rw [same] at chosen
        exact absurd chosen here
      · obtain ⟨before, first, after, split, found, none⟩ := ih ⟨item, later, chosen⟩
        refine ⟨head :: before, first, after, ?_, found, ?_⟩
        · rw [split, cons_append]
        · intro other member
          rcases mem_cons.mp member with same | earlier
          · rw [same]
            exact here
          · exact none other earlier

theorem first_page_iff (room : Nat) (items : List Item) :
    ((∃ item ∈ items, wanted item) → ∃ item ∈ items.take room, wanted item) ↔
      ∀ before item after, items = before ++ item :: after → wanted item →
        (∀ other ∈ before, ¬wanted other) → before.length < room := by
  constructor
  · intro reaches before item after split chosen none
    have present : item ∈ items := by
      rw [split]
      exact mem_append_right _ mem_cons_self
    obtain ⟨found, inPage, chosen'⟩ := reaches ⟨item, present, chosen⟩
    by_contra full
    rw [split, take_append_of_le_length (Nat.not_lt.mp full)] at inPage
    exact none found (mem_of_mem_take inPage) chosen'
  · intro short some
    obtain ⟨before, item, after, split, chosen, none⟩ := exists_first wanted items some
    refine ⟨item, ?_, chosen⟩
    rw [split]
    exact mem_page room before item after (short before item after split chosen none)

end FirstPage

section Visits

variable {State Item : Type}

/-- The `for` over a page: the state after it, and how many visits gained. -/
def visitPage (visit : State → Item → State × Bool) : State → List Item → State × Nat
  | s, [] => (s, 0)
  | s, item :: rest =>
    let (t, gained) := visit s item
    let (u, count) := visitPage visit t rest
    (u, if gained then count + 1 else count)

/-- What the items of a queue do to a state of which `At read rest` says which of them were read:
those that stay are the head of the queue, and do nothing when they are visited again. -/
structure Reads (visit : State → Item → State × Bool) (queue : State → List Item)
    (gain leaves : Item → Bool) (At : List Item → List Item → State → Prop) : Prop where
  queue_eq : ∀ read rest s, At read rest s →
    queue s = (read.filter fun item => !leaves item) ++ rest
  again : ∀ read rest s item, At read rest s → item ∈ read → leaves item = false →
    visit s item = (s, false)
  first : ∀ read rest s item, At read (item :: rest) s →
    (visit s item).2 = gain item ∧ At (read ++ [item]) rest (visit s item).1

section Turn

variable {visit : State → Item → State × Bool} {queue : State → List Item}
  {gain leaves : Item → Bool} {At : List Item → List Item → State → Prop}

theorem visitPage_append (visit : State → Item → State × Bool) (s : State) (a b : List Item) :
    visitPage visit s (a ++ b) = ((visitPage visit (visitPage visit s a).1 b).1,
      (visitPage visit s a).2 + (visitPage visit (visitPage visit s a).1 b).2) := by
  induction a generalizing s with
  | nil => simp [visitPage]
  | cons item a ih =>
    simp only [cons_append, visitPage, ih]
    split
    · simp only [Prod.mk.injEq, true_and]
      omega
    · rfl

theorem Reads.visit_again (reads : Reads visit queue gain leaves At) (read rest : List Item)
    (s : State) (here : At read rest s) (items : List Item)
    (stay : ∀ item ∈ items, item ∈ read ∧ leaves item = false) :
    visitPage visit s items = (s, 0) := by
  induction items with
  | nil => rfl
  | cons item items ih =>
    obtain ⟨⟨known, stays⟩, rest'⟩ := forall_mem_cons.mp stay
    simp [visitPage, reads.again read rest s item here known stays, ih rest']

theorem Reads.visit_first (reads : Reads visit queue gain leaves At) (read new rest : List Item)
    (s : State) (here : At read (new ++ rest) s) : (visitPage visit s new).2 = new.countP gain ∧
      At (read ++ new) rest (visitPage visit s new).1 := by
  induction new generalizing read s with
  | nil => exact ⟨rfl, by simpa [visitPage] using here⟩
  | cons item new ih =>
    obtain ⟨gained, next⟩ := reads.first read (new ++ rest) s item here
    obtain ⟨count, last⟩ := ih (read ++ [item]) (visit s item).1 next
    constructor
    · simp only [visitPage, count, gained, countP_cons]
      split <;> rfl
    · simpa [visitPage] using last

/-- The items that were read and stay. -/
def stuck (leaves : Item → Bool) (read : List Item) : Nat := read.countP fun item => !leaves item

theorem Reads.turn (reads : Reads visit queue gain leaves At) (read rest : List Item) (s : State)
    (here : At read rest s) (size : Nat) (fits : stuck leaves read ≤ size) :
    (visitPage visit s ((queue s).take size)).2 =
        (rest.take (size - stuck leaves read)).countP gain ∧
      At (read ++ rest.take (size - stuck leaves read)) (rest.drop (size - stuck leaves read))
        (visitPage visit s ((queue s).take size)).1 := by
  have head : (read.filter fun item => !leaves item).length = stuck leaves read :=
    countP_eq_length_filter.symm
  have page : (queue s).take size = (read.filter fun item => !leaves item) ++
      rest.take (size - stuck leaves read) := by
    rw [reads.queue_eq read rest s here, take_append, head, take_of_length_le (by omega)]
  have old : visitPage visit s (read.filter fun item => !leaves item) = (s, 0) := by
    apply reads.visit_again read rest s here
    intro item listed
    obtain ⟨known, stays⟩ := mem_filter.mp listed
    exact ⟨known, by simpa using stays⟩
  rw [page, visitPage_append, old, Nat.zero_add]
  apply reads.visit_first
  rw [take_append_drop]
  exact here

variable (leaves : Item → Bool)

theorem stuck_append (read page : List Item) :
    stuck leaves (read ++ page) = stuck leaves read + stuck leaves page := countP_append

theorem roomAfter_eq (size : Nat) (read page : List Item) :
    roomAfter leaves (size - stuck leaves read) page = size - stuck leaves (read ++ page) := by
  rw [stuck_append, roomAfter, Nat.sub_sub]
  rfl

theorem stuck_fits (size : Nat) (read rest : List Item) (fits : stuck leaves read ≤ size) :
    stuck leaves (read ++ rest.take (size - stuck leaves read)) ≤ size := by
  have few : stuck leaves (rest.take (size - stuck leaves read)) ≤
      (rest.take (size - stuck leaves read)).length := countP_le_length
  rw [length_take] at few
  rw [stuck_append]
  omega

end Turn

end Visits

end DracVms.PagedQueue
