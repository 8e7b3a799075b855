import Mathlib.Data.List.Induction
import Zeroconf.Proofs.Inbox.Diary

/-!
This module contains inboxes that are used by listeners who do what they like when they are called,
and keep a diary of it. The diary of such an inbox is the one of an inbox that does what it should,
in whichever order things happen.
-/

namespace Zeroconf.Inbox

/--
What can happen to an inbox, also while somebody is called.
-/
inductive Change (α : Type) where
  | pass (time : Nat)
  | add (id : UInt16) (listener : α) (lifetime : Nat)
  | remove (listener : α)
  | register (listener : α)
  | unregister (listener : α)
  | close
  deriving DecidableEq, Repr

structure Behaviour (α : Type) where
  changes : List (Change α) := []
  outcome : Outcome := .ok
  deriving DecidableEq, Repr

structure Diary (α : Type) where
  now : Nat := 0
  /-- The number of tickets given so far. -/
  tickets : Nat := 0
  events : List (Event α) := []
  /-- How those behave who are called next. -/
  script : List (Behaviour α) := []

abbrev Course (α : Type) := Inbox (Ticket α) × Diary α

namespace Course

variable {α : Type}

def note (event : Event α) (s : Course α) : Course α :=
  (s.1, { s.2 with events := s.2.events ++ [event] })

section

variable [BEq α]

/--
Make a change and note it. Registration is noted if the listener was not on the list.
-/
def apply (s : Course α) : Change α → Course α
  | .pass time => (s.1, { s.2 with now := s.2.now + time })
  | .add id listener lifetime =>
    let ticket := ⟨s.2.tickets, listener, false⟩
    note (.added ticket s.2.now lifetime)
      (s.1.addPending id ticket s.2.now lifetime, { s.2 with tickets := s.2.tickets + 1 })
  | .remove listener => note (.removed listener) (s.1.removePending ⟨0, listener, false⟩, s.2)
  | .register listener =>
    let ticket := ⟨s.2.tickets, listener, true⟩
    match s.1.observers.register ticket with
    | .ok (_, observers) =>
      let changed := ({ s.1 with observers }, { s.2 with tickets := s.2.tickets + 1 })
      if s.1.observers.members.any (· == ticket) then changed
      else note (.registered ticket) changed
    | .error _ => s
  | .unregister listener =>
    let observers := (s.1.observers.unregister ⟨0, listener, true⟩).2
    note (.unregistered listener) ({ s.1 with observers }, s.2)
  | .close => note .closed (s.1.close, s.2)

def tell (response : Message) (ticket : Ticket α) (s : Course α) : Outcome × Course α :=
  let behaviour := s.2.script.headD {}
  let told := note (.told ticket response behaviour.outcome)
    (s.1, { s.2 with script := s.2.script.tail })
  (behaviour.outcome, behaviour.changes.foldl apply told)

def route (response : Message) (script : List (Behaviour α)) (s : Course α) : Course α :=
  let (outcome, s) := Inbox.route (tell response) s.2.now
    (note (.routed s.2.now response) (s.1, { s.2 with script }))
  note (.ended outcome) s

/--
What happens to an inbox from outside of its listeners.
-/
inductive Act (α : Type) where
  | change (change : Change α)
  | route (response : Message) (script : List (Behaviour α))
  deriving DecidableEq

def next (s : Course α) : Act α → Course α
  | .change change => s.apply change
  | .route response script => s.route response script

def after (acts : List (Act α)) : Course α := acts.foldl next ({}, {})

/--
Whether an inbox is as its diary says. Entries that have expired may be left in it.
-/
structure Agrees (s : Course α) : Prop where
  pending : ∀ time, s.2.now ≤ time →
    (s.1.pending.filter (time < ·.expires)).map (fun entry => (entry.listener, entry.expires))
      = (waiting s.2.events).filter (time < ·.2)
  observers : s.1.observers.members = observing s.2.events
  numbers : ∀ entry ∈ entries s.2.events, entry.1.number < s.2.tickets
  known : ∀ entry ∈ s.1.pending, entry.listener.number < s.2.tickets
  distinct : Distinct s.2.events

/--
Whether an inbox with its diary is a later one of another: it has the new events, none of which
begins or ends a routing, it was told as stated, and no entry from before has come back.
-/
structure Later (s later : Course α) (new : List (Event α))
    (told : List (Ticket α × Message × Outcome)) : Prop where
  events : later.2.events = s.2.events ++ new
  inner : ∀ event ∈ new, event.isInner = true
  tolds : tolds new = told
  now_le : s.2.now ≤ later.2.now
  tickets_le : s.2.tickets ≤ later.2.tickets
  pending : ∀ entry ∈ later.1.pending, entry.listener.number < s.2.tickets → entry ∈ s.1.pending
  agrees : s.Agrees → later.Agrees

theorem Later.refl (s : Course α) : Later s s [] [] where
  events := by simp
  inner := by simp
  tolds := rfl
  now_le := Nat.le_refl _
  tickets_le := Nat.le_refl _
  pending _ hmem _ := hmem
  agrees h := h

theorem Later.trans {s later last : Course α} {new more : List (Event α)}
    {told others : List (Ticket α × Message × Outcome)} (h : Later s later new told)
    (hlast : Later later last more others) : Later s last (new ++ more) (told ++ others) where
  events := by rw [hlast.events, h.events, List.append_assoc]
  inner := by
    rw [List.forall_mem_append]
    exact ⟨h.inner, hlast.inner⟩
  tolds := by rw [tolds_append, h.tolds, hlast.tolds]
  now_le := Nat.le_trans h.now_le hlast.now_le
  tickets_le := Nat.le_trans h.tickets_le hlast.tickets_le
  pending entry hmem hnumber := by
    apply h.pending entry _ hnumber
    exact hlast.pending entry hmem (Nat.lt_of_lt_of_le hnumber h.tickets_le)
  agrees hagrees := hlast.agrees (h.agrees hagrees)

/--
Whether a course goes on with an event that adds no entry, and with the change of which it tells.
-/
structure Continues (s changed : Course α) (event : Event α) : Prop where
  events : changed.2.events = s.2.events ++ [event]
  entry : event.entry? = none
  observes : ∀ ticket, event = .registered ticket → ticket.observes = true
  now_le : s.2.now ≤ changed.2.now
  tickets_le : s.2.tickets ≤ changed.2.tickets
  subset : changed.1.pending ⊆ s.1.pending
  pending : ∀ time, s.2.now ≤ time →
    (s.1.pending.filter (time < ·.expires)).map (fun entry => (entry.listener, entry.expires))
      = (waiting s.2.events).filter (time < ·.2) →
    (changed.1.pending.filter (time < ·.expires)).map (fun entry => (entry.listener, entry.expires))
      = (wait (waiting s.2.events) event).filter (time < ·.2)
  observers : s.1.observers.members = observing s.2.events →
    changed.1.observers.members = observe (observing s.2.events) event

theorem Continues.agrees {s changed : Course α} {event : Event α} (h : s.Continues changed event)
    (hagrees : s.Agrees) : changed.Agrees where
  pending time hle := by
    have hle := Nat.le_trans h.now_le hle
    rw [h.events, waiting_append_singleton]
    exact h.pending time hle (hagrees.pending time hle)
  observers := by rw [h.events, observing_append_singleton, h.observers hagrees.observers]
  numbers entry hmem := by
    rw [h.events, entries_concat h.entry] at hmem
    exact Nat.lt_of_lt_of_le (hagrees.numbers entry hmem) h.tickets_le
  known entry hmem := Nat.lt_of_lt_of_le (hagrees.known entry (h.subset hmem)) h.tickets_le
  distinct := by
    rw [h.events]
    exact hagrees.distinct.concat h.entry h.observes

theorem Continues.later {s changed : Course α} {event : Event α} (h : s.Continues changed event)
    (hinner : event.isInner = true) :
    Later s changed [event] (tolds [event]) where
  events := h.events
  inner := by simpa using hinner
  tolds := rfl
  now_le := h.now_le
  tickets_le := h.tickets_le
  pending _ hmem _ := h.subset hmem
  agrees := h.agrees

theorem later_silent {s : Course α} {now tickets : Nat} (hnow : s.2.now ≤ now)
    (htickets : s.2.tickets ≤ tickets) : Later s (s.1, { s.2 with now, tickets }) [] [] where
  events := by simp
  inner := by simp
  tolds := rfl
  now_le := hnow
  tickets_le := htickets
  pending _ hmem _ := hmem
  agrees h := {
    pending time hle := h.pending time (Nat.le_trans hnow hle)
    observers := h.observers
    numbers entry hmem := Nat.lt_of_lt_of_le (h.numbers entry hmem) htickets
    known entry hmem := Nat.lt_of_lt_of_le (h.known entry hmem) htickets
    distinct := h.distinct }

theorem Agrees.add {s : Course α} (h : s.Agrees) (id : UInt16) (listener : α) (lifetime : Nat) :
    (s.apply (.add id listener lifetime)).Agrees where
  pending time hle := by
    have hpending := h.pending time hle
    simp only [apply, note, addPending, waiting_append_singleton, wait, List.filter_append,
      List.map_append, hpending]
    by_cases hlt : time < s.2.now + lifetime <;> simp [hlt]
  observers := by simpa [apply, note, addPending, observe] using h.observers
  numbers entry hmem := by
    simp only [apply, note, entries_append, List.mem_append] at hmem ⊢
    rcases hmem with hmem | hmem
    . exact Nat.lt_succ_of_lt (h.numbers entry hmem)
    . rw [List.mem_singleton.mp hmem]
      exact Nat.lt_succ_self _
  known entry hmem := by
    simp only [apply, note, addPending, List.mem_append, List.mem_singleton] at hmem
    rcases hmem with hmem | rfl
    . exact Nat.lt_succ_of_lt (h.known entry hmem)
    . exact Nat.lt_succ_self _
  distinct := h.distinct.add (fun entry hmem => Nat.ne_of_lt (h.numbers entry hmem)) rfl

theorem later_add (s : Course α) (id : UInt16) (listener : α) (lifetime : Nat) :
    Later s (s.apply (.add id listener lifetime))
      [.added ⟨s.2.tickets, listener, false⟩ s.2.now lifetime] [] where
  events := rfl
  inner := by simp [Event.isInner]
  tolds := rfl
  now_le := Nat.le_refl _
  tickets_le := Nat.le_succ _
  pending entry hmem hnumber := by
    simp only [apply, note, addPending, List.mem_append, List.mem_singleton] at hmem
    rcases hmem with hmem | rfl
    . exact hmem
    . exact absurd hnumber (Nat.lt_irrefl _)
  agrees h := h.add id listener lifetime

theorem continues_remove (s : Course α) (listener : α) :
    s.Continues (s.apply (.remove listener)) (.removed listener) where
  events := rfl
  entry := rfl
  observes := by simp
  now_le := Nat.le_refl _
  tickets_le := Nat.le_refl _
  subset := List.filter_sublist.subset
  pending time _ hpending := by
    simp only [wait, List.filter_filter, Bool.and_comm (decide _)]
    rw [← List.filter_filter, ← hpending, List.filter_map, List.filter_filter]
    simp only [apply, note, removePending, List.filter_filter, Bool.and_comm (decide _)]
    rfl
  observers h := h

theorem continues_unregister (s : Course α) (listener : α) :
    s.Continues (s.apply (.unregister listener)) (.unregistered listener) where
  events := rfl
  entry := rfl
  observes := by simp
  now_le := Nat.le_refl _
  tickets_le := Nat.le_refl _
  subset := List.Subset.refl _
  pending _ _ hpending := hpending
  observers h := by
    simp only [apply, note, Fanout.unregister, observe, h]
    apply List.erase_eq_eraseP'

theorem continues_close (s : Course α) : s.Continues (s.apply .close) .closed where
  events := rfl
  entry := rfl
  observes := by simp
  now_le := Nat.le_refl _
  tickets_le := Nat.le_refl _
  subset := List.nil_subset _
  pending _ _ _ := rfl
  observers _ := rfl

def enlist (s : Course α) (listener : α) : Course α :=
  let ticket := ⟨s.2.tickets, listener, true⟩
  let observers := { s.1.observers with members := s.1.observers.members ++ [ticket] }
  note (.registered ticket) ({ s.1 with observers }, { s.2 with tickets := s.2.tickets + 1 })

theorem continues_enlist (s : Course α) (listener : α) :
    s.Continues (s.enlist listener) (.registered ⟨s.2.tickets, listener, true⟩) where
  events := rfl
  entry := rfl
  observes ticket h := by
    cases h
    rfl
  now_le := Nat.le_refl _
  tickets_le := Nat.le_succ _
  subset := List.Subset.refl _
  pending _ _ hpending := hpending
  observers h := congrArg (· ++ [_]) h

theorem exists_later_register (s : Course α) (listener : α) :
    ∃ new, Later s (s.apply (.register listener)) new [] := by
  simp only [apply, Fanout.register]
  split
  . next ticket observers hregister =>
    split at hregister
    . contradiction
    . split at hregister
      . next present hfound =>
        have hpresent : s.1.observers.members.any (· == ⟨s.2.tickets, listener, true⟩) = true := by
          rw [← List.isSome_find?, hfound]
          rfl
        cases hregister
        rw [if_pos hpresent]
        exact ⟨[], later_silent (Nat.le_refl _) (Nat.le_succ _)⟩
      . next hfound =>
        have habsent : s.1.observers.members.any (· == ⟨s.2.tickets, listener, true⟩) = false := by
          rw [← List.isSome_find?, hfound]
          rfl
        cases hregister
        rw [if_neg (by simp [habsent])]
        exact ⟨_, (s.continues_enlist listener).later rfl⟩
  . exact ⟨[], Later.refl s⟩

theorem exists_later_apply (s : Course α) (change : Change α) :
    ∃ new, Later s (s.apply change) new [] := by
  cases change with
  | pass time => exact ⟨[], later_silent (Nat.le_add_right ..) (Nat.le_refl _)⟩
  | add id listener lifetime => exact ⟨_, s.later_add id listener lifetime⟩
  | remove listener =>
    exact ⟨_, (s.continues_remove listener).later rfl⟩
  | register listener => exact s.exists_later_register listener
  | unregister listener =>
    exact ⟨_, (s.continues_unregister listener).later rfl⟩
  | close => exact ⟨_, s.continues_close.later rfl⟩

theorem exists_later_foldl_apply (s : Course α) (changes : List (Change α)) :
    ∃ new, Later s (changes.foldl apply s) new [] := by
  induction changes generalizing s with
  | nil => exact ⟨[], Later.refl s⟩
  | cons change changes ih =>
    rcases s.exists_later_apply change with ⟨new, hnew⟩
    rcases ih (s.apply change) with ⟨more, hmore⟩
    exact ⟨new ++ more, hnew.trans hmore⟩

theorem continues_note (s : Course α) (event : Event α)
    (hentry : event.entry? = none)
    (hwait : ∀ known : List (Ticket α × Nat), wait known event = known)
    (hobserve : ∀ tickets : List (Ticket α), observe tickets event = tickets)
    (hobserves : ∀ ticket, event ≠ .registered ticket) (script : List (Behaviour α)) :
    s.Continues (note event (s.1, { s.2 with script })) event where
  events := rfl
  entry := hentry
  observes ticket h := absurd h (hobserves ticket)
  now_le := Nat.le_refl _
  tickets_le := Nat.le_refl _
  subset := List.Subset.refl _
  pending time hle hpending := by
    rw [hwait]
    exact hpending
  observers h := by
    rw [hobserve]
    exact h

theorem exists_later_tell (response : Message) (ticket : Ticket α) (s : Course α) :
    ∃ new, Later s (tell response ticket s).2 new
      [(ticket, response, (tell response ticket s).1)] := by
  have htold := s.continues_note (.told ticket response (s.2.script.headD {}).outcome) rfl
    (fun _ => rfl) (fun _ => rfl) (by simp) s.2.script.tail
  rcases exists_later_foldl_apply _ (s.2.script.headD {}).changes with ⟨new, hnew⟩
  exact ⟨_, (htold.later rfl).trans hnew⟩

theorem exists_later_waited (response : Message) (pending : List (Pending (Ticket α)))
    (s : Course α) :
    ∃ (new : List (Event α)) (waited : List (Ticket α × Outcome)), Later s
        (pending.foldl (fun s waiting => (tell response waiting.listener s).2) s) new
        (waited.map fun told => (told.1, response, told.2)) ∧
      waited.map (·.1) = pending.map (·.listener) := by
  induction pending generalizing s with
  | nil => exact ⟨[], [], Later.refl s, rfl⟩
  | cons first others ih =>
    rcases exists_later_tell response first.listener s with ⟨new, hnew⟩
    rcases ih (tell response first.listener s).2 with ⟨more, waited, hmore, hwaited⟩
    refine ⟨new ++ more, (first.listener, (tell response first.listener s).1) :: waited,
      hnew.trans hmore, ?_⟩
    rw [List.map_cons, hwaited, List.map_cons]

theorem exists_later_observed (response : Message) (tickets : List (Ticket α)) (s : Course α) :
    ∃ (new : List (Event α)) (observed : List (Ticket α × Outcome)), Later s
        (Fanout.callAll (tell response) tickets s).2 new
        (observed.map fun told => (told.1, response, told.2)) ∧
      Hears tickets observed (.ofResult (Fanout.callAll (tell response) tickets s).1) := by
  induction tickets generalizing s with
  | nil => exact ⟨[], [], Later.refl s, .nobody⟩
  | cons ticket tickets ih =>
    rcases exists_later_tell response ticket s with ⟨new, hnew⟩
    unfold Fanout.callAll
    split
    . next later htell =>
      rcases ih later with ⟨more, observed, hmore, hobserved⟩
      rw [htell] at hnew
      exact ⟨new ++ more, (ticket, .ok) :: observed, hnew.trans hmore, .ok hobserved⟩
    . next later htell =>
      rw [htell] at hnew
      exact ⟨new, [(ticket, .stop)], hnew, .stop⟩
    . next reason later htell =>
      rw [htell] at hnew
      exact ⟨new, [(ticket, .fail reason)], hnew, .fail⟩

theorem Agrees.expire {s : Course α} (h : s.Agrees) : Agrees (s.1.expire s.2.now, s.2) where
  pending time hle := by
    rw [← h.pending time hle, Inbox.expire, List.filter_filter]
    congr 1
    apply List.filter_congr
    intro entry _
    simpa using fun hlt => Nat.lt_of_le_of_lt hle hlt
  observers := h.observers
  numbers := h.numbers
  known entry hmem := h.known entry (List.mem_filter.mp hmem).1
  distinct := h.distinct

theorem Agrees.map_listener_expire {s : Course α} (h : s.Agrees) :
    (s.1.expire s.2.now).pending.map (·.listener)
      =
    ((waiting s.2.events).filter (s.2.now < ·.2)).map (·.1) := by
  rw [← h.pending s.2.now (Nat.le_refl _), List.map_map]
  rfl

def begun (response : Message) (script : List (Behaviour α)) (s : Course α) : Course α :=
  (s.1.expire s.2.now, (note (.routed s.2.now response) (s.1, { s.2 with script })).2)

theorem Agrees.route {s : Course α} (h : s.Agrees) (hwritten : Written s.2.events)
    (response : Message) (script : List (Behaviour α)) :
    (s.route response script).Agrees ∧ Written (s.route response script).2.events ∧
    ∀ entry ∈ s.1.pending, entry.expires ≤ s.2.now →
      entry ∉ (s.route response script).1.pending := by
  have hrouted := s.continues_note (.routed s.2.now response) rfl (fun _ => rfl)
    (fun _ => rfl) (by simp) script
  have hbegun : (s.begun response script).Agrees := (hrouted.agrees h).expire
  generalize hwaiting : (s.begun response script).1.pending = pending
  -- First those who waited when the routing began, then those who observe when these were told.
  rcases exists_later_waited response pending (s.begun response script) with
    ⟨first, waited, hfirst, hwaited⟩
  generalize htold : pending.foldl (fun s waiting => (tell response waiting.listener s).2)
    (s.begun response script) = told at hfirst
  rcases exists_later_observed response told.1.observers.members told with
    ⟨second, observed, hsecond, hobserved⟩
  have hroute : s.route response script
      = note (.ended (.ofResult (Fanout.callAll (tell response) told.1.observers.members told).1))
        (Fanout.callAll (tell response) told.1.observers.members told).2 := by
    rw [← htold, ← hwaiting]
    rfl
  generalize Fanout.callAll (tell response) told.1.observers.members told = last at *
  have hended := last.2.continues_note (.ended (.ofResult last.1)) rfl (fun _ => rfl)
    (fun _ => rfl) (by simp) last.2.2.script
  have hlast := hsecond.agrees (hfirst.agrees hbegun)
  rw [hroute]
  refine ⟨hended.agrees hlast, ?_, ?_⟩
  . have htoldEvents : told.2.events = s.2.events ++ .routed s.2.now response :: first := by
      rw [hfirst.events]
      simp [begun, note]
    have hevents : (note (.ended (.ofResult last.1)) last.2).2.events = s.2.events ++
        .routed s.2.now response :: (first ++ second ++ [.ended (.ofResult last.1)]) := by
      simp [note, hsecond.events, htoldEvents]
    have hexpired : waited.map (·.1) = ((waiting s.2.events).filter (s.2.now < ·.2)).map (·.1) := by
      rw [hwaited, ← hwaiting]
      exact h.map_listener_expire
    rw [(hfirst.agrees hbegun).observers, htoldEvents] at hobserved
    rw [hevents]
    exact .route hwritten {
      inner := List.forall_mem_append.mpr ⟨hfirst.inner, hsecond.inner⟩
      waited := ⟨waited, hfirst.tolds, hexpired⟩
      observed := ⟨observed, hsecond.tolds, hobserved⟩ }
  . intro entry hentry hexpired hmem
    have hkept := (hfirst.trans hsecond).pending entry hmem (h.known entry hentry)
    have hlater : s.2.now < entry.expires := by simpa using (List.mem_filter.mp hkept).2
    omega

theorem agrees_initial : Agrees (({}, {}) : Course α) where
  pending _ _ := rfl
  observers := rfl
  numbers _ hmem := absurd hmem List.not_mem_nil
  known _ hmem := absurd hmem List.not_mem_nil
  distinct := {
    numbers := List.Pairwise.nil
    waits := fun _ hmem => absurd hmem List.not_mem_nil
    observes := fun _ hmem => absurd hmem List.not_mem_nil }

theorem agrees_after (acts : List (Act α)) :
    (after acts).Agrees ∧ Written (after acts).2.events := by
  induction acts using List.reverseRecOn with
  | nil => exact ⟨agrees_initial, .nil⟩
  | append_singleton acts act ih =>
    rcases ih with ⟨hagrees, hwritten⟩
    have hconcat : after (acts ++ [act]) = next (after acts) act := by simp [after]
    rw [hconcat]
    cases act with
    | change change =>
      rcases (after acts).exists_later_apply change with ⟨new, hnew⟩
      refine ⟨hnew.agrees hagrees, ?_⟩
      rw [next, hnew.events]
      exact hwritten.change hnew.inner hnew.tolds
    | route response script =>
      have hroute := hagrees.route hwritten response script
      exact ⟨hroute.1, hroute.2.1⟩

/--
Whatever happens to an inbox: who waits is told of exactly the responses that are due to him, each
routing goes as it should, and it leaves no entry that has expired when it begins.
-/
theorem told_of_due (acts : List (Act α)) :
    (∀ front ticket time lifetime behind,
      (after acts).2.events = front ++ .added ticket time lifetime :: behind →
      received ticket (after acts).2.events = due ticket.listener (time + lifetime) behind) ∧
    (∀ front time response behind,
      (after acts).2.events = front ++ .routed time response :: behind →
      ∃ first second outcome rest, behind = first ++ second ++ .ended outcome :: rest ∧
        Routing front time response first second outcome) ∧
    ∀ response script, ∀ entry ∈ (after acts).1.pending, entry.expires ≤ (after acts).2.now →
      entry ∉ (next (after acts) (.route response script)).1.pending := by
  rcases agrees_after acts with ⟨hagrees, hwritten⟩
  refine ⟨?_, ?_, ?_⟩
  . intro front ticket time lifetime behind hevents
    exact hwritten.received_eq_due hagrees.distinct hevents
  . intro front time response behind hevents
    exact hwritten.routing hevents
  . intro response script
    exact (hagrees.route hwritten response script).2.2

end

/--
The first who waits fails, and before that he removes the second, lets another one wait and takes
six milliseconds. The second one stops, but the observer is called all the same.
-/
theorem told_of_due_changing :
    let acts : List (Act Nat) :=
      [.change (.add 7 1 10), .change (.add 8 2 10), .change (.register 3),
        .route { id := 1 } [⟨[.remove 2, .add 9 4 10, .pass 6], .fail "gone"⟩, ⟨[], .stop⟩],
        .route { id := 2 } [], .change (.pass 4), .route { id := 3 } []]
    received ⟨0, 1, false⟩ (after acts).2.events = [{ id := 1 }, { id := 2 }] ∧
    received ⟨1, 2, false⟩ (after acts).2.events = [{ id := 1 }] ∧
    received ⟨3, 4, false⟩ (after acts).2.events = [{ id := 2 }] := by
  intro acts
  have hdue := (told_of_due acts).1
  refine ⟨?_, ?_, ?_⟩
  . exact hdue [] _ 0 10 _ rfl
  . exact hdue [_] _ 0 10 _ rfl
  . exact hdue [_, _, _, _, _, _] _ 0 10 _ rfl

end Course

end Zeroconf.Inbox
