import Mathlib.Data.List.Induction
import Zeroconf.Inbox

/-!
This module contains the diaries of inboxes: what can be read in them is who waited for responses,
who observed, and who was told of what. It says which diaries are those of an inbox that does what
it should, and what follows for each entry of a listener who waited.
-/

namespace Zeroconf.Inbox

/--
A listener as he is known to an inbox. The number tells his entries apart; only the diary looks at
it.
-/
structure Ticket (α : Type) where
  number : Nat
  listener : α
  /-- Whether this is an entry on the list of observers. -/
  observes : Bool
  deriving DecidableEq, Repr

instance {α : Type} [BEq α] : BEq (Ticket α) := ⟨fun a b => a.listener == b.listener⟩

inductive Event (α : Type) where
  | added (ticket : Ticket α) (time lifetime : Nat)
  | removed (listener : α)
  | registered (ticket : Ticket α)
  | unregistered (listener : α)
  | closed
  /-- The routing of a response begins. -/
  | routed (time : Nat) (response : Message)
  | told (ticket : Ticket α) (response : Message) (outcome : Outcome)
  /-- The routing ends. -/
  | ended (outcome : Outcome)
  deriving DecidableEq

namespace Event

variable {α : Type}

def entry? : Event α → Option (Ticket α × Nat)
  | added ticket time lifetime => some (ticket, time + lifetime)
  | _ => none

def told? : Event α → Option (Ticket α × Message × Outcome)
  | told ticket response outcome => some (ticket, response, outcome)
  | _ => none

def isInner : Event α → Bool
  | routed _ _ => false
  | ended _ => false
  | _ => true

end Event

variable {α : Type}

/--
All entries of listeners who wait or have waited, with the times at which they expire.
-/
def entries (events : List (Event α)) : List (Ticket α × Nat) := events.filterMap Event.entry?

def tolds (events : List (Event α)) : List (Ticket α × Message × Outcome) :=
  events.filterMap Event.told?

/--
The responses of which a listener was told because of one of his entries.
-/
def received (ticket : Ticket α) (events : List (Event α)) : List Message :=
  ((tolds events).filter fun told => told.1.number == ticket.number && !told.1.observes).map (·.2.1)

@[simp]
theorem entries_append (events more : List (Event α)) :
    entries (events ++ more) = entries events ++ entries more := by
  apply List.filterMap_append

@[simp]
theorem tolds_append (events more : List (Event α)) :
    tolds (events ++ more) = tolds events ++ tolds more := by
  apply List.filterMap_append

@[simp]
theorem received_append (ticket : Ticket α) (events more : List (Event α)) :
    received ticket (events ++ more) = received ticket events ++ received ticket more := by
  simp [received]

@[simp]
theorem received_routed (ticket : Ticket α) (time : Nat) (response : Message) :
    received ticket [.routed time response] = [] := rfl

@[simp]
theorem received_ended (ticket : Ticket α) (outcome : Outcome) :
    received ticket [.ended outcome] = [] := rfl

/--
How a response is told to observers: in turn, up to the first one who stops it or fails. Their
outcomes, and nothing else, are the outcome of the whole.
-/
inductive Hears : List (Ticket α) → List (Ticket α × Outcome) → Outcome → Prop where
  | nobody : Hears [] [] .ok
  | ok {ticket : Ticket α} {tickets : List (Ticket α)} {told : List (Ticket α × Outcome)}
    {outcome : Outcome} (h : Hears tickets told outcome) :
    Hears (ticket :: tickets) ((ticket, .ok) :: told) outcome
  | stop {ticket : Ticket α} {tickets : List (Ticket α)} :
    Hears (ticket :: tickets) [(ticket, .stop)] .ok
  | fail {ticket : Ticket α} {tickets : List (Ticket α)} {reason : String} :
    Hears (ticket :: tickets) [(ticket, .fail reason)] (.ofError (.listener reason))

theorem Hears.subset {tickets : List (Ticket α)} {told : List (Ticket α × Outcome)}
    {outcome : Outcome} (h : Hears tickets told outcome) : told.map (·.1) ⊆ tickets := by
  induction h with
  | nobody => simp
  | ok _ ih => simpa using List.subset_cons_of_subset _ ih
  | stop => simp
  | fail => simp

structure Distinct (events : List (Event α)) : Prop where
  numbers : (entries events).Pairwise fun a b => a.1.number ≠ b.1.number
  waits : ∀ entry ∈ entries events, entry.1.observes = false
  observes : ∀ ticket, .registered ticket ∈ events → ticket.observes = true

theorem Distinct.front {events more : List (Event α)} (h : Distinct (events ++ more)) :
    Distinct events where
  numbers := by
    have hnumbers := h.numbers
    rw [entries_append, List.pairwise_append] at hnumbers
    exact hnumbers.1
  waits entry hmem := h.waits entry (by simp [hmem])
  observes ticket hmem := h.observes ticket (List.mem_append_left _ hmem)

theorem entries_concat {event : Event α} (hentry : event.entry? = none) (events : List (Event α)) :
    entries (events ++ [event]) = entries events := by
  simp [entries, hentry]

theorem Distinct.concat {events : List (Event α)} (h : Distinct events) {event : Event α}
    (hentry : event.entry? = none)
    (hobserves : ∀ ticket, event = .registered ticket → ticket.observes = true) :
    Distinct (events ++ [event]) where
  numbers := by
    rw [entries_concat hentry]
    exact h.numbers
  waits := by
    rw [entries_concat hentry]
    exact h.waits
  observes ticket hmem := by
    rcases List.mem_append.mp hmem with hmem | hmem
    . exact h.observes ticket hmem
    . exact hobserves ticket (List.mem_singleton.mp hmem).symm

theorem Distinct.add {events : List (Event α)} (h : Distinct events) {ticket : Ticket α}
    {time lifetime : Nat} (hnew : ∀ entry ∈ entries events, entry.1.number ≠ ticket.number)
    (hwaits : ticket.observes = false) : Distinct (events ++ [.added ticket time lifetime]) where
  numbers := by
    rw [entries_append, List.pairwise_append]
    refine ⟨h.numbers, List.pairwise_singleton .., ?_⟩
    intro entry hentry new hadded
    rw [List.mem_singleton.mp hadded]
    exact hnew entry hentry
  waits entry hmem := by
    rw [entries_append, List.mem_append] at hmem
    rcases hmem with hmem | hmem
    . exact h.waits entry hmem
    . rw [List.mem_singleton.mp hmem]
      exact hwaits
  observes other hmem := by
    apply h.observes
    simpa using hmem

theorem append_eq_cut {events new front behind : List (Event α)} {event : Event α}
    (h : events ++ new = front ++ event :: behind) :
    (∃ between, new = between ++ event :: behind)
      ∨
    ∃ between, events = front ++ event :: between ∧ behind = between ++ new := by
  rcases List.append_eq_append_iff.mp h with ⟨between, _, hnew⟩ | ⟨between, hevents, hbehind⟩
  . exact .inl ⟨between, hnew⟩
  . cases between with
    | nil => exact .inl ⟨[], hbehind.symm⟩
    | cons first between =>
      rw [List.cons_append, List.cons.injEq] at hbehind
      obtain ⟨rfl, rfl⟩ := hbehind
      exact .inr ⟨between, hevents, rfl⟩

theorem Distinct.new_ne {events between behind : List (Event α)} {ticket : Ticket α}
    {time lifetime : Nat}
    (h : Distinct (events ++ (between ++ .added ticket time lifetime :: behind))) :
    ∀ entry ∈ entries events, entry.1.number ≠ ticket.number := by
  intro entry hentry
  have hnumbers := h.numbers
  rw [entries_append, List.pairwise_append] at hnumbers
  apply hnumbers.2.2 entry hentry (ticket, time + lifetime)
  simp [entries, Event.entry?]

theorem filter_number_eq {known : List (Ticket α × Nat)}
    (h : known.Pairwise fun a b => a.1.number ≠ b.1.number) {entry : Ticket α × Nat}
    (hmem : entry ∈ known) : known.filter (·.1.number == entry.1.number) = [entry] := by
  induction known with
  | nil => contradiction
  | cons first others ih =>
    rw [List.pairwise_cons] at h
    rcases List.mem_cons.mp hmem with rfl | hmem
    . have hnone : others.filter (·.1.number == entry.1.number) = [] := by
        rw [List.filter_eq_nil_iff]
        intro other hother
        simpa using Ne.symm (h.1 other hother)
      simp [hnone]
    . rw [List.filter_cons_of_neg (by simpa using h.1 entry hmem), ih h.2 hmem]

theorem routed_not_mem {events : List (Event α)} (h : ∀ event ∈ events, event.isInner = true)
    (outcome : Outcome) (time : Nat) (response : Message) :
    .routed time response ∉ events ++ [.ended outcome] := by
  intro hmem
  rcases List.mem_append.mp hmem with hmem | hmem
  . simpa [Event.isInner] using h _ hmem
  . simp at hmem

theorem received_of_tolds {events : List (Event α)} {response : Message}
    {told : List (Ticket α × Outcome)}
    (h : tolds events = told.map fun told => (told.1, response, told.2)) (ticket : Ticket α) :
    received ticket events
      =
    ((told.map (·.1)).filter fun other =>
      other.number == ticket.number && !other.observes).map fun _ => response := by
  simp [received, h, List.filter_map, Function.comp_def]

section

variable [BEq α]

/--
The entries of those who wait after an event.
-/
def wait (entries : List (Ticket α × Nat)) : Event α → List (Ticket α × Nat)
  | .added ticket time lifetime => entries ++ [(ticket, time + lifetime)]
  | .removed listener => entries.filter (·.1.listener != listener)
  | .closed => []
  | _ => entries

/--
The entries of those who wait, if nobody looks at the time.
-/
def waiting (events : List (Event α)) : List (Ticket α × Nat) := events.foldl wait []

def observe (tickets : List (Ticket α)) : Event α → List (Ticket α)
  | .registered ticket => tickets ++ [ticket]
  | .unregistered listener => tickets.eraseP (·.listener == listener)
  | .closed => []
  | _ => tickets

def observing (events : List (Event α)) : List (Ticket α) := events.foldl observe []

/--
The responses that are due to a listener for an entry of his, by what happens after he was added:
those whose routing begins before the entry expires and before he is removed or the inbox is closed.
-/
def due (listener : α) (expires : Nat) : List (Event α) → List Message
  | [] => []
  | .routed time response :: events =>
    if time < expires then response :: due listener expires events
    else due listener expires events
  | .removed other :: events => if listener == other then [] else due listener expires events
  | .closed :: _ => []
  | _ :: events => due listener expires events

def stays (listener : α) : List (Event α) → Bool
  | [] => true
  | .removed other :: events => !(listener == other) && stays listener events
  | .closed :: _ => false
  | _ :: events => stays listener events

@[simp]
theorem waiting_append_singleton (events : List (Event α)) (event : Event α) :
    waiting (events ++ [event]) = wait (waiting events) event := by
  simp [waiting]

@[simp]
theorem observing_append_singleton (events : List (Event α)) (event : Event α) :
    observing (events ++ [event]) = observe (observing events) event := by
  simp [observing]

theorem waiting_sublist_entries (events : List (Event α)) :
    (waiting events).Sublist (entries events) := by
  induction events using List.reverseRecOn with
  | nil => exact List.Sublist.refl _
  | append_singleton events event ih =>
    rw [waiting_append_singleton, entries_append]
    have hold : (waiting events).Sublist (entries events ++ entries [event]) :=
      ih.trans (List.sublist_append_left ..)
    cases event with
    | added ticket time lifetime => exact ih.append (List.Sublist.refl _)
    | removed listener => exact List.filter_sublist.trans hold
    | closed => exact List.nil_sublist _
    | _ => exact hold

theorem due_append (listener : α) (expires : Nat) (events more : List (Event α)) :
    due listener expires (events ++ more)
      =
    due listener expires events ++
      if stays listener events then due listener expires more else [] := by
  induction events with
  | nil => simp [due, stays]
  | cons event events ih =>
    cases event with
    | routed time response =>
      rw [List.cons_append, due, due]
      split
      . exact congrArg (response :: ·) ih
      . exact ih
    | removed other =>
      simp only [List.cons_append, due, stays, ih]
      split
      . next h => simp [h]
      . next h => simp [h]
    | closed => simp [due, stays]
    | _ => exact ih

theorem due_eq_nil (listener : α) (expires : Nat) {events : List (Event α)}
    (h : ∀ time response, .routed time response ∉ events) : due listener expires events = [] := by
  induction events with
  | nil => rfl
  | cons event events ih =>
    have hothers := ih fun time response hmem => h time response (List.mem_cons_of_mem _ hmem)
    cases event with
    | routed time response => exact absurd List.mem_cons_self (h time response)
    | removed other =>
      simp only [due, hothers]
      split <;> rfl
    | closed => rfl
    | _ => simpa only [due] using hothers

theorem due_routing (listener : α) (expires : Nat) {first second : List (Event α)} {time : Nat}
    {response : Message} {outcome : Outcome}
    (hinner : ∀ event ∈ first ++ second, event.isInner = true) :
    due listener expires (.routed time response :: (first ++ second ++ [.ended outcome]))
      =
    if time < expires then [response] else [] := by
  rw [due, due_eq_nil listener expires (routed_not_mem hinner outcome)]

theorem mem_foldl_wait {events : List (Event α)} {entry : Ticket α × Nat}
    (hnew : entry ∉ entries events) (known : List (Ticket α × Nat)) :
    entry ∈ events.foldl wait known ↔ entry ∈ known ∧ stays entry.1.listener events = true := by
  induction events generalizing known with
  | nil => simp [stays]
  | cons event events ih =>
    have hothers : entry ∉ entries events := by
      intro hmem
      apply hnew
      rw [← List.singleton_append, entries_append]
      exact List.mem_append_right _ hmem
    rw [List.foldl_cons, ih hothers]
    cases event with
    | added ticket time lifetime =>
      have hne : entry ≠ (ticket, time + lifetime) := by
        rintro rfl
        simp [entries, Event.entry?] at hnew
      simp [wait, stays, hne]
    | removed listener => simp [wait, stays, bne, and_assoc]
    | closed => simp [wait, stays]
    | _ => simp [wait, stays]

theorem mem_waiting_iff {front behind : List (Event α)} {ticket : Ticket α} {time lifetime : Nat}
    (hnew : (ticket, time + lifetime) ∉ entries behind) :
    (ticket, time + lifetime) ∈ waiting (front ++ .added ticket time lifetime :: behind)
      ↔
    stays ticket.listener behind = true := by
  have hall : waiting (front ++ .added ticket time lifetime :: behind)
      = behind.foldl wait (waiting front ++ [(ticket, time + lifetime)]) := by
    simp [waiting, wait]
  rw [hall, mem_foldl_wait hnew]
  simp

/--
How a response is routed after some events. All who wait when that begins, and whose time has not
come, are told of it in the order of their entries, whatever is done or said meanwhile. Those are
told afterwards who observe then, and their outcome is the outcome of the routing.
-/
structure Routing (events : List (Event α)) (time : Nat) (response : Message)
    (first second : List (Event α)) (outcome : Outcome) : Prop where
  inner : ∀ event ∈ first ++ second, event.isInner = true
  waited : ∃ waited : List (Ticket α × Outcome),
    tolds first = waited.map (fun told => (told.1, response, told.2)) ∧
      waited.map (·.1) = ((waiting events).filter (time < ·.2)).map (·.1)
  observed : ∃ observed : List (Ticket α × Outcome),
    tolds second = observed.map (fun told => (told.1, response, told.2)) ∧
      Hears (observing (events ++ .routed time response :: first)) observed outcome

/--
What the diary of an inbox looks like. Outside of the routings nobody is told of anything.
-/
inductive Written : List (Event α) → Prop where
  | nil : Written []
  | change {events new : List (Event α)} (h : Written events)
    (hinner : ∀ event ∈ new, event.isInner = true) (htolds : tolds new = []) :
    Written (events ++ new)
  | route {events first second : List (Event α)} {time : Nat} {response : Message}
    {outcome : Outcome} (h : Written events)
    (hrouting : Routing events time response first second outcome) :
    Written (events ++ .routed time response :: (first ++ second ++ [.ended outcome]))

theorem registered_of_mem_observing {events : List (Event α)} {ticket : Ticket α}
    (h : ticket ∈ observing events) : .registered ticket ∈ events := by
  induction events using List.reverseRecOn with
  | nil => contradiction
  | append_singleton events event ih =>
    rw [observing_append_singleton] at h
    rw [List.mem_append]
    cases event with
    | registered other =>
      rcases List.mem_append.mp h with h | h
      . exact .inl (ih h)
      . right
        rw [List.mem_singleton.mp h]
        exact List.mem_singleton.mpr rfl
    | unregistered listener => exact .inl (ih (List.mem_of_mem_eraseP h))
    | closed => contradiction
    | _ => exact .inl (ih h)

theorem received_observers {events second : List (Event α)} (hdistinct : Distinct events)
    {response : Message} {observed : List (Ticket α × Outcome)} {outcome : Outcome}
    (hsecond : tolds second = observed.map fun told => (told.1, response, told.2))
    (hobserved : Hears (observing events) observed outcome) (ticket : Ticket α) :
    received ticket second = [] := by
  rw [received_of_tolds hsecond, List.map_eq_nil_iff, List.filter_eq_nil_iff]
  intro other hother
  have hregistered := registered_of_mem_observing (hobserved.subset hother)
  simp [hdistinct.observes other hregistered]

theorem received_waited {events first : List (Event α)} (hdistinct : Distinct events)
    {time : Nat} {response : Message} {waited : List (Ticket α × Outcome)}
    (hfirst : tolds first = waited.map fun told => (told.1, response, told.2))
    (hwaited : waited.map (·.1) = ((waiting events).filter (time < ·.2)).map (·.1))
    (ticket : Ticket α) :
    received ticket first
      =
    ((waiting events).filter fun entry =>
      entry.1.number == ticket.number && time < entry.2).map fun _ => response := by
  rw [received_of_tolds hfirst, hwaited, List.filter_map, List.map_map, List.filter_filter]
  congr 1
  apply List.filter_congr
  intro entry hentry
  have hwaits := hdistinct.waits entry ((waiting_sublist_entries events).subset hentry)
  simp [hwaits]

theorem Routing.received_eq {events first second : List (Event α)} {time : Nat}
    {response : Message} {outcome : Outcome}
    (h : Routing events time response first second outcome)
    (hdistinct :
      Distinct (events ++ .routed time response :: (first ++ second ++ [.ended outcome])))
    (ticket : Ticket α) :
    received ticket (.routed time response :: (first ++ second ++ [.ended outcome]))
      =
    ((waiting events).filter fun entry =>
      entry.1.number == ticket.number && time < entry.2).map fun _ => response := by
  rcases h.waited with ⟨waited, hfirst, hwaited⟩
  rcases h.observed with ⟨observed, hsecond, hobserved⟩
  have hfront : Distinct (events ++ .routed time response :: first) := by
    have hall : Distinct
        ((events ++ .routed time response :: first) ++ (second ++ [.ended outcome])) := by
      simpa using hdistinct
    exact hall.front
  rw [← List.singleton_append, received_append, received_append, received_append,
    received_waited hfront.front hfirst hwaited, received_observers hfront hsecond hobserved,
    received_routed, received_ended, List.append_nil, List.append_nil, List.nil_append]

theorem Written.received_eq_nil {events : List (Event α)} (h : Written events)
    (hdistinct : Distinct events) {ticket : Ticket α}
    (hnew : ∀ entry ∈ entries events, entry.1.number ≠ ticket.number) :
    received ticket events = [] := by
  induction h with
  | nil => rfl
  | change _ _ htolds ih =>
    have hold := ih hdistinct.front fun entry hmem => hnew entry (by simp [hmem])
    rw [received_append, hold]
    simp [received, htolds]
  | @route events _ _ _ _ _ _ hrouting ih =>
    have hold := ih hdistinct.front fun entry hmem => hnew entry (by simp [hmem])
    rw [received_append, hold, hrouting.received_eq hdistinct, List.nil_append,
      List.map_eq_nil_iff, List.filter_eq_nil_iff]
    intro entry hentry
    have hknown := (waiting_sublist_entries events).subset hentry
    simp [hnew entry (by simp [hknown])]

theorem filter_waiting {front behind : List (Event α)} {ticket : Ticket α} {time lifetime : Nat}
    (hdistinct : Distinct (front ++ .added ticket time lifetime :: behind)) (now : Nat) :
    ((waiting (front ++ .added ticket time lifetime :: behind)).filter fun entry =>
        entry.1.number == ticket.number && now < entry.2)
      =
    if stays ticket.listener behind && now < time + lifetime then [(ticket, time + lifetime)]
    else [] := by
  have hentries : entries (front ++ .added ticket time lifetime :: behind)
      = entries front ++ (ticket, time + lifetime) :: entries behind := by
    rw [entries_append]
    rfl
  have hnumbers := hdistinct.numbers
  have hentry : (entries (front ++ .added ticket time lifetime :: behind)).filter
      (·.1.number == ticket.number) = [(ticket, time + lifetime)] := by
    have hmem : (ticket, time + lifetime)
        ∈ entries (front ++ .added ticket time lifetime :: behind) := by
      simp [hentries]
    exact filter_number_eq hnumbers hmem
  have hnew : (ticket, time + lifetime) ∉ entries behind := by
    rw [hentries, List.pairwise_append, List.pairwise_cons] at hnumbers
    intro hmem
    exact hnumbers.2.1.1 _ hmem rfl
  -- Whoever waits is an entry, and the number tells this one from all others.
  have hsublist := waiting_sublist_entries (front ++ .added ticket time lifetime :: behind)
  have hwaits : _ ∈ waiting (front ++ .added ticket time lifetime :: behind) ↔ _ :=
    mem_waiting_iff hnew
  simp only [Bool.and_comm (_ == ticket.number), ← List.filter_filter]
  cases hstays : stays ticket.listener behind with
  | true =>
    rw [filter_number_eq (hnumbers.sublist hsublist) (hwaits.mpr hstays)]
    simp [List.filter_cons]
  | false =>
    have hnone : (waiting (front ++ .added ticket time lifetime :: behind)).filter
        (·.1.number == ticket.number) = [] := by
      rw [List.filter_eq_nil_iff]
      intro entry hmem hnumber
      have hsame : entry ∈ [(ticket, time + lifetime)] := by
        rw [← hentry]
        exact List.mem_filter.mpr ⟨hsublist.subset hmem, hnumber⟩
      rw [List.mem_singleton.mp hsame, hwaits, hstays] at hmem
      contradiction
    simp [hnone]

/--
A listener is told of exactly the responses that are due to him for an entry, each of them once.
-/
theorem Written.received_eq_due {events : List (Event α)} (h : Written events)
    (hdistinct : Distinct events) {front behind : List (Event α)} {ticket : Ticket α}
    {time lifetime : Nat} (hevents : events = front ++ .added ticket time lifetime :: behind) :
    received ticket events = due ticket.listener (time + lifetime) behind := by
  induction h generalizing behind with
  | nil => simp at hevents
  | @change events new h hinner htolds ih =>
    have hnone : received ticket new = [] := by simp [received, htolds]
    have hdue : ∀ behind ⊆ new, due ticket.listener (time + lifetime) behind = [] := by
      intro behind hsubset
      apply due_eq_nil
      intro time response hmem
      simpa [Event.isInner] using hinner _ (hsubset hmem)
    rw [received_append, hnone, List.append_nil]
    rcases append_eq_cut hevents with ⟨between, rfl⟩ | ⟨between, rfl, rfl⟩
    . rw [h.received_eq_nil hdistinct.front hdistinct.new_ne, hdue]
      simp
    . rw [ih hdistinct.front rfl, due_append, hdue new (List.Subset.refl _)]
      simp
  | @route events first second time' response outcome h hrouting ih =>
    rw [received_append, hrouting.received_eq hdistinct]
    -- The listener begins to wait within this routing, for which he is too late, or before it.
    rcases append_eq_cut hevents with ⟨between, hblock⟩ | ⟨between, rfl, rfl⟩
    . rw [hblock] at hdistinct
      have hnew := hdistinct.new_ne
      have hdue : due ticket.listener (time + lifetime) behind = [] := by
        cases between with
        | nil => simp at hblock
        | cons first between =>
          rw [List.cons_append, List.cons.injEq] at hblock
          apply due_eq_nil
          intro time response hmem
          apply routed_not_mem hrouting.inner outcome time response
          rw [hblock.2]
          simp [hmem]
      rw [h.received_eq_nil hdistinct.front hnew, hdue, List.nil_append, List.map_eq_nil_iff,
        List.filter_eq_nil_iff]
      intro entry hentry
      simp [hnew entry ((waiting_sublist_entries events).subset hentry)]
    . rw [ih hdistinct.front rfl, due_append, due_routing _ _ hrouting.inner,
        filter_waiting hdistinct.front]
      cases stays ticket.listener between <;> by_cases hlate : time' < time + lifetime <;>
        simp [hlate]

theorem Written.routing {events : List (Event α)} (h : Written events)
    {front behind : List (Event α)} {time : Nat} {response : Message}
    (hevents : events = front ++ .routed time response :: behind) :
    ∃ first second outcome rest, behind = first ++ second ++ .ended outcome :: rest ∧
      Routing front time response first second outcome := by
  induction h generalizing behind with
  | nil => simp at hevents
  | @change _ new _ hinner _ ih =>
    rcases append_eq_cut hevents with ⟨between, rfl⟩ | ⟨between, hold, rfl⟩
    . simpa [Event.isInner] using hinner (.routed time response) (by simp)
    . rcases ih hold with ⟨first, second, outcome, rest, rfl, hrouting⟩
      exact ⟨first, second, outcome, rest ++ new, by simp, hrouting⟩
  | @route events first second time' response' outcome _ hrouting ih =>
    rcases append_eq_cut hevents with ⟨between, hblock⟩ | ⟨between, hold, rfl⟩
    . cases between with
      | nil =>
        rw [hblock, List.nil_append, List.append_cancel_right_eq] at hevents
        rw [List.nil_append, List.cons.injEq, Event.routed.injEq] at hblock
        rcases hblock with ⟨⟨rfl, rfl⟩, rfl⟩
        refine ⟨first, second, outcome, [], by simp, ?_⟩
        rw [← hevents]
        exact hrouting
      | cons begun between =>
        rw [List.cons_append, List.cons.injEq] at hblock
        apply absurd _ (routed_not_mem hrouting.inner outcome time response)
        rw [hblock.2]
        simp
    . rcases ih hold with ⟨before, after, result, rest, rfl, hearlier⟩
      refine ⟨before, after, result,
        rest ++ .routed time' response' :: (first ++ second ++ [.ended outcome]), ?_, hearlier⟩
      rw [List.append_assoc, List.cons_append]

end

end Zeroconf.Inbox
