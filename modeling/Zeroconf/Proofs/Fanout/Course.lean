import Zeroconf.Proofs.Fanout.History
import Zeroconf.Proofs.Reception

/-!
This module contains lists of listeners over their whole life. They are changed directly and by the
listeners themselves while they are called; all that happens is recorded in a diary. At every moment
a list is what the changes before make of a new one.
-/

namespace Zeroconf.Fanout

variable {α : Type}

inductive Answer (α : Type) where
  | registered (result : Except Error α)
  | unregistered (entry : Option α)
  | closed

def answerTo [BEq α] (fanout : Fanout α) : Change α → Answer α
  | .register listener => .registered ((fanout.register listener).map (·.1))
  | .unregister listener => .unregistered (fanout.unregister listener).1
  | .close => .closed

/--
What a listener does while he is called: changes of lists, each of which may depend on what came
back for those before, and then the outcome.
-/
inductive Conduct (α : Type) where
  | make (list : Nat) (change : Change α) (next : Answer α → Conduct α)
  | finish (outcome : Outcome)

inductive Event (α : Type) where
  | changed (list : Nat) (change : Change α) (answer : Answer α)
  | called (listener : α)
  | returned (listener : α) (outcome : Outcome)

/--
The change of the list with the given number, if that is what has happened.
-/
def Event.changeOf? (list : Nat) : Event α → Option (Change α)
  | .changed other change _ => if other = list then some change else none
  | _ => none

def changesOf (list : Nat) (events : List (Event α)) : List (Change α) :=
  events.filterMap (Event.changeOf? list)

theorem changesOf_append (list : Nat) (events others : List (Event α)) :
    changesOf list (events ++ others) = changesOf list events ++ changesOf list others := by
  apply List.filterMap_append

/--
Lists of listeners, and all that has happened, the latest event last.
-/
structure Course (α : Type) where
  lists : Nat → Fanout α := fun _ => {}
  diary : List (Event α) := []

/--
A handle that passes calls on to those who are on a list at the time of the call.
-/
structure Dispatcher where
  list : Nat

/--
How listeners behave. What they do may depend on everything that has happened before.
-/
abbrev Manners (α : Type) := List (Event α) → α → Conduct α

inductive Act (α : Type) where
  | change (list : Nat) (change : Change α)
  | dispatch (dispatcher : Dispatcher) (manners : Manners α)

/--
Whether events are what a listener does while he is called, up to an outcome.
-/
inductive Conduct.Leads : Conduct α → List (Event α) → Outcome → Prop
  | finish (outcome : Outcome) : Leads (.finish outcome) [] outcome
  | make {list : Nat} {change : Change α} {next : Answer α → Conduct α} {answer : Answer α}
      {events : List (Event α)} {outcome : Outcome} (h : Leads (next answer) events outcome) :
      Leads (.make list change next) (.changed list change answer :: events) outcome

structure Turn (α : Type) where
  listener : α
  made : List (Event α)
  outcome : Outcome

def Turn.events (turn : Turn α) : List (Event α) :=
  .called turn.listener :: turn.made ++ [.returned turn.listener turn.outcome]

namespace Course

def dispatcher (_ : Course α) (list : Nat) : Dispatcher := ⟨list⟩

def note (s : Course α) (event : Event α) : Course α := { s with diary := s.diary ++ [event] }

section

variable [BEq α]

def change (list : Nat) (change : Change α) (s : Course α) : Answer α × Course α :=
  let answer := (s.lists list).answerTo change
  let lists := fun other => if list = other then (s.lists other).apply change else s.lists other
  (answer, { s with lists }.note (.changed list change answer))

def play : Conduct α → Course α → Outcome × Course α
  | .finish outcome, s => (outcome, s)
  | .make list change next, s =>
    let (answer, s) := s.change list change
    play (next answer) s

def call (manners : Manners α) (listener : α) (s : Course α) : Outcome × Course α :=
  let s := s.note (.called listener)
  let (outcome, s) := play (manners s.diary listener) s
  (outcome, s.note (.returned listener outcome))

end

end Course

namespace Dispatcher

def members (dispatcher : Dispatcher) (s : Course α) : List α := (s.lists dispatcher.list).members

def dispatch [BEq α] (dispatcher : Dispatcher) (manners : Manners α) (s : Course α) :
    Except Error Unit × Course α :=
  (s.lists dispatcher.list).dispatch (Course.call manners) s

end Dispatcher

namespace Course

def next [BEq α] (s : Course α) : Act α → Course α
  | .change list change => (s.change list change).2
  | .dispatch dispatcher manners => (dispatcher.dispatch manners s).2

def run [BEq α] (acts : List (Act α)) : Course α := acts.foldl next {}

/--
Whether events lead from one moment to another: they are recorded, the changes among them are all
that is done to the lists, and what comes back for a change fits the list at that time.
-/
structure Takes [BEq α] (s : Course α) (events : List (Event α)) (later : Course α) : Prop where
  diary : later.diary = s.diary ++ events
  lists : ∀ list, later.lists list = (changesOf list events).foldl apply (s.lists list)
  answers : ∀ (time list : Nat) change answer,
    events[time]? = some (.changed list change answer) →
      answer
        =
      answerTo ((changesOf list (events.take time)).foldl apply (s.lists list)) change

namespace Takes

variable [BEq α] {s between later : Course α} {events others : List (Event α)}

theorem refl (s : Course α) : s.Takes [] s := ⟨by simp, fun _ => rfl, by simp⟩

theorem trans (h : s.Takes events between) (h' : between.Takes others later) :
    s.Takes (events ++ others) later where
  diary := by rw [h'.diary, h.diary, List.append_assoc]
  lists list := by
    rw [h'.lists, h.lists, changesOf_append, List.foldl_append]
  answers time list change answer hchanged := by
    rw [List.getElem?_append] at hchanged
    rw [List.take_append]
    split at hchanged
    . next hlt =>
      rw [Nat.sub_eq_zero_of_le (Nat.le_of_lt hlt), List.take_zero, List.append_nil]
      exact h.answers time list change answer hchanged
    . next hle =>
      rw [List.take_of_length_le (Nat.le_of_not_lt hle), changesOf_append, List.foldl_append,
        ← h.lists]
      exact h'.answers _ list change answer hchanged

theorem note {event : Event α} (hevent : ∀ list, event.changeOf? list = none) (s : Course α) :
    s.Takes [event] (s.note event) where
  diary := rfl
  lists list := by simp [changesOf, hevent, Course.note]
  answers time list change answer hchanged := by
    rw [List.getElem?_singleton] at hchanged
    split at hchanged
    . cases Option.some.inj hchanged
      simpa [Event.changeOf?] using hevent list
    . contradiction

theorem change (list : Nat) (change : Change α) (s : Course α) :
    s.Takes [.changed list change ((s.lists list).answerTo change)] (s.change list change).2 where
  diary := rfl
  lists other := by
    by_cases hlist : list = other
    . simp [changesOf, Event.changeOf?, Course.change, Course.note, hlist]
    . simp [changesOf, Event.changeOf?, Course.change, Course.note, hlist]
  answers time other change' answer hchanged := by
    rw [List.getElem?_singleton] at hchanged
    split at hchanged
    . next htime =>
      cases Option.some.inj hchanged
      simp [htime, changesOf]
    . contradiction

end Takes

section

variable [BEq α]

theorem exists_leads (conduct : Conduct α) (s : Course α) :
    ∃ events, s.Takes events (play conduct s).2 ∧ conduct.Leads events (play conduct s).1 := by
  induction conduct generalizing s with
  | finish outcome => exact ⟨[], .refl s, .finish outcome⟩
  | make list change next ih =>
    rcases ih _ (s.change list change).2 with ⟨events, h, hleads⟩
    exact ⟨_, (Takes.change list change s).trans h, .make hleads⟩

theorem exists_turn (manners : Manners α) (listener : α) (s : Course α) :
    ∃ turn : Turn α, turn.listener = listener ∧ turn.outcome = (call manners listener s).1 ∧
      s.Takes turn.events (call manners listener s).2 ∧
      (manners (s.diary ++ [.called listener]) listener).Leads turn.made turn.outcome := by
  have hcalled : s.Takes [.called listener] (s.note (.called listener)) :=
    Takes.note (fun _ => rfl) s
  rcases exists_leads (manners (s.note (.called listener)).diary listener)
    (s.note (.called listener)) with ⟨events, h, hleads⟩
  refine ⟨⟨listener, events, (call manners listener s).1⟩, rfl, rfl, ?_, hleads⟩
  exact (hcalled.trans h).trans (Takes.note (fun _ => rfl) _)

theorem takes_next (s : Course α) (act : Act α) : ∃ events, s.Takes events (s.next act) := by
  cases act with
  | change list change => exact ⟨_, Takes.change list change s⟩
  | dispatch dispatcher manners =>
    apply Fanout.callAll_keeps (fun later => ∃ events, s.Takes events later)
    . rintro listener between ⟨events, h⟩
      rcases exists_turn manners listener between with ⟨turn, -, -, h', -⟩
      exact ⟨_, h.trans h'⟩
    . exact ⟨[], .refl s⟩

theorem takes_run (acts : List (Act α)) : ∃ events, Takes {} events (run acts) := by
  induction acts using List.reverseRecOn with
  | nil => exact ⟨[], .refl _⟩
  | append_singleton acts act ih =>
    rcases ih with ⟨events, h⟩
    rcases takes_next (run acts) act with ⟨others, h'⟩
    rw [run, List.foldl_concat, ← run]
    exact ⟨_, h.trans h'⟩

end

end Course

variable [DecidableEq α]

theorem Course.valid_run (acts : List (Act α)) (list : Nat) : ((run acts).lists list).Valid := by
  rcases takes_run acts with ⟨events, -, hlists, -⟩
  rw [hlists]
  exact valid_after (changesOf list events)

/--
Whether a list is what changes make of a new one: everyone who was registered is on it once, in the
order of the latest registrations that took effect, and it does what is asked of it accordingly.
-/
structure Follows (fanout : Fanout α) (changes : List (Change α)) : Prop where
  nodup : fanout.members.Nodup
  mem_iff : ∀ listener, listener ∈ fanout.members ↔ .close ∉ changes ∧ Stays changes listener
  latest : ∀ listener ∈ fanout.members, ∃ time, Latest changes listener time
  order : fanout.members.Pairwise fun first second =>
    ∀ earlier later, Latest changes first earlier → Latest changes second later → earlier < later
  register_present : ∀ listener ∈ fanout.members,
    fanout.register listener = .ok (listener, fanout)
  register_absent : ∀ listener ∉ fanout.members, .close ∉ changes →
    fanout.register listener = .ok (listener, ⟨fanout.members ++ [listener], false⟩)
  unregister_present : ∀ listener ∈ fanout.members,
    fanout.unregister listener
      =
    (some listener, { fanout with members := fanout.members.filter (· != listener) })
  unregister_absent : ∀ listener ∉ fanout.members, fanout.unregister listener = (none, fanout)
  closed : .close ∈ changes → fanout = ⟨[], true⟩ ∧
    ∀ listener, fanout.register listener = .error (.closed "listener registry")

theorem follows_after (changes : List (Change α)) : (after changes).Follows changes := by
  have hvalid := valid_after changes
  have horder := inOrder_after changes
  have hopen : ∀ listener ∈ (after changes).members, (after changes).closed = false := by
    intro listener hmem
    exact closed_after_eq_false (mem_after_iff.mp hmem).1
  constructor
  . exact hvalid.nodup
  . exact fun _ => mem_after_iff
  . exact horder.latest
  . exact horder.order
  . exact fun listener hmem => register_of_mem (hopen listener hmem) hmem
  . intro listener hmem hclose
    have hclosed := closed_after_eq_false hclose
    rw [register_of_not_mem hclosed hmem, hclosed]
  . exact fun listener => unregister_of_mem hvalid.nodup
  . exact fun listener => unregister_of_not_mem
  . intro hclose
    have hclosed := closed_after_iff.mpr hclose
    refine ⟨?_, register_of_closed hclosed⟩
    rcases hafter : after changes with ⟨members, closed⟩
    rw [hafter] at hvalid hclosed
    cases hclosed
    cases hvalid.empty rfl
    rfl

/--
At every moment of every course, a list is what the changes that were made to it make of a new one,
whoever made them. What comes back for a change fits the list at that time, also while listeners are
called. A dispatcher reaches those who are on its list, whenever it was taken; so do the peers of a
querier, who hold such a handle on its observers.
-/
theorem follows_changes :
    (∀ changes : List (Change α), (after changes).Follows changes) ∧
    (∀ acts : List (Act α),
      let s := Course.run acts
      (∀ list, s.lists list = after (changesOf list s.diary)) ∧
      ∀ (time list : Nat) change answer, s.diary[time]? = some (.changed list change answer) →
        answer = (after (changesOf list (s.diary.take time))).answerTo change) ∧
    (∀ (acts others : List (Act α)) (list : Nat),
      let s := Course.run (acts ++ others)
      ((Course.run acts).dispatcher list).members s = (after (changesOf list s.diary)).members) ∧
    ∀ (reception : Reception) (changes : List (Change Observer)) (report : Report),
      let watched := { reception with observers := after changes }
      watched.deliver .observers report
        =
      let heard := callAll (Reception.hear report) (after changes).members watched
      (.ofResult heard.1, heard.2) := by
  have hrun : ∀ acts : List (Act α),
      let s := Course.run acts
      (∀ list, s.lists list = after (changesOf list s.diary)) ∧
      ∀ (time list : Nat) change answer, s.diary[time]? = some (.changed list change answer) →
        answer = (after (changesOf list (s.diary.take time))).answerTo change := by
    intro acts s
    rcases Course.takes_run acts with ⟨events, hdiary, hlists, hanswers⟩
    have hevents : s.diary = events := hdiary
    rw [hevents]
    exact ⟨hlists, hanswers⟩
  refine ⟨follows_after, hrun, ?_, ?_⟩
  . intro acts others list s
    exact congrArg members ((hrun (acts ++ others)).1 list)
  . intro reception changes report watched
    exact hear_audience (after changes) (Reception.hear report) watched

end Zeroconf.Fanout
