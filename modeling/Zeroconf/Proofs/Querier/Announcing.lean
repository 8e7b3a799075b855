import Zeroconf.Peer.Scripted
import Zeroconf.Proofs.Querier.Start
import Zeroconf.Proofs.Querier.Watched
import Zeroconf.Proofs.Reception.Delivery

/-!
This module contains what comes of a message that a querier sends to everybody. All peers get it
once, whoever refuses it; the verdict is that of the multicast peers alone; and whatever the
nameservers report is passed to those who observe the querier at that moment.
-/

namespace Zeroconf

namespace Reception

def Entry.isCall : Entry → Bool
  | .asked .. | .announced .. => true
  | _ => false

def called (reception : Reception) : List Entry := reception.journal.filter Entry.isCall

/--
What happened between two receptions with the same observers: who was called, what came in for the
observers, and what else is now to come.
-/
structure Overheard (entries : List Entry) (reports : List Report) (dues : List Due)
    (reception later : Reception) : Prop where
  now : later.now = reception.now
  observers : later.observers = reception.observers
  called : later.called = reception.called ++ entries
  heard : later.heard
    = reception.heard ++ reports.flatMap (Observer.told · reception.observers.members)
  upcoming : later.upcoming.Perm (reception.upcoming ++ dues)

variable {entries others : List Entry} {reports replies : List Report} {dues awaited : List Due}
  {reception between later : Reception}

theorem called_note (reception : Reception) (entry : Entry) :
    (reception.note entry).called = reception.called ++ [entry].filter Entry.isCall := by
  simp only [called, note, List.filter_append]

theorem called_deliver_observers (report : Report) (reception : Reception) :
    (reception.deliver .observers report).2.called = reception.called := by
  simp only [deliver, Fanout.hear_audience]
  apply Fanout.callAll_keeps (fun s : Reception => s.called = reception.called)
  . intro listener s h
    exact (called_note s _).trans ((List.append_nil _).trans h)
  . rfl

namespace Overheard

theorem refl (reception : Reception) : Overheard [] [] [] reception reception where
  now := rfl
  observers := rfl
  called := by simp
  heard := by simp
  upcoming := by simp

theorem trans (h : Overheard entries reports dues reception between)
    (h' : Overheard others replies awaited between later) :
    Overheard (entries ++ others) (reports ++ replies) (dues ++ awaited) reception later where
  now := h'.now.trans h.now
  observers := h'.observers.trans h.observers
  called := by rw [h'.called, h.called, List.append_assoc]
  heard := by rw [h'.heard, h.heard, h.observers, List.flatMap_append, List.append_assoc]
  upcoming := by
    rw [← List.append_assoc]
    exact h'.upcoming.trans (h.upcoming.append_right awaited)

theorem note (entry : Entry) (hheard : entry.heard? = none) (reception : Reception) :
    Overheard ([entry].filter Entry.isCall) [] [] reception (reception.note entry) where
  now := rfl
  observers := rfl
  called := called_note reception entry
  heard := by rw [heard_note, hheard, Option.toList_none, List.flatMap_nil]
  upcoming := by rw [List.append_nil]; rfl

theorem measure (h : Overheard entries reports dues reception later) (samples : List Sample) :
    Overheard entries reports dues reception (later.measure samples) :=
  ⟨h.now, h.observers, h.called, h.heard, h.upcoming⟩

theorem deliver (report : Report) (reception : Reception) :
    Overheard [] [report] [] reception (reception.deliver .observers report).2 where
  now := now_deliver ..
  observers := (deliver_alike ..).observers
  called := by rw [called_deliver_observers, List.append_nil]
  heard := by rw [heard_deliver, List.flatMap_singleton]; rfl
  upcoming := by rw [(deliver_alike ..).upcoming, List.append_nil]

theorem schedule (later : Nat × Report) (reception : Reception) :
    Overheard [] [] [⟨reception.now + later.1, .observers, later.2⟩] reception
      (reception.schedule .observers later) where
  now := rfl
  observers := rfl
  called := by rw [List.append_nil]; rfl
  heard := by rw [List.flatMap_nil, List.append_nil]; rfl
  upcoming := perm_insertDue ..

theorem deliverAll (peer : String) (reports : List Report) (reception : Reception) :
    Overheard [] reports [] reception
      (reports.foldl
        (fun reception report =>
          (reception.deliver .observers report).2.note
            (.delivered peer (reception.deliver .observers report).1))
        reception) := by
  induction reports generalizing reception with
  | nil => exact refl reception
  | cons report reports ih =>
    let delivered := reception.deliver .observers report
    have hnoted := note (.delivered peer delivered.1) rfl delivered.2
    exact ((deliver report reception).trans hnoted).trans (ih _)

theorem scheduleAll (reports : List (Nat × Report)) (reception : Reception) :
    Overheard [] [] (reports.map fun report => ⟨reception.now + report.1, .observers, report.2⟩)
      reception (reports.foldl (Reception.schedule .observers) reception) := by
  induction reports generalizing reception with
  | nil => exact refl reception
  | cons report reports ih =>
    have hothers := ih (reception.schedule .observers report)
    exact (schedule report reception).trans hothers

theorem receive (peer : String) (reaction : Reaction) (reception : Reception) :
    Overheard [] reaction.reports (reaction.dues reception.now .observers) reception
      (reception.receive peer .observers reaction) := by
  have hreports := (deliverAll peer reaction.reports reception).measure reaction.samples
  have hlater := hreports.trans (scheduleAll reaction.later _)
  rw [hreports.now, List.append_nil reaction.reports] at hlater
  exact hlater

end Overheard

theorem heard_receiveDue (due : Due) (reception : Reception) :
    (reception.receiveDue due).heard
      =
    reception.heard ++ reception.callsFor due.report due.sink := by
  rw [receiveDue, heard_deliver]
  cases due.sink <;> rfl

theorem callsFor_receiveDue (due : Due) (report : Report) (sink : Sink) (reception : Reception) :
    (reception.receiveDue due).callsFor report sink = reception.callsFor report sink := by
  rw [(receiveDue_alike due reception).callsFor]
  cases sink <;> rfl

theorem heard_advance (limit : Nat) (reception : Reception) :
    let due := reception.upcoming.takeWhile (·.time < limit)
    (reception.advance limit fun _ => false).heard
      =
    reception.heard ++ due.flatMap fun due => reception.callsFor due.report due.sink := by
  have hall : ∀ (upcoming : List Due) (reception : Reception),
      (advance.go limit (fun _ => false) upcoming reception).heard
        = reception.heard ++ (upcoming.takeWhile (·.time < limit)).flatMap
          fun due => reception.callsFor due.report due.sink := by
    intro upcoming
    induction upcoming with
    | nil =>
      intro reception
      simp [advance.go, heard]
    | cons due others ih =>
      intro reception
      unfold advance.go
      by_cases htime : due.time < limit
      . simp [htime, ih, heard_receiveDue, callsFor_receiveDue]
      . simp [htime, heard]
  exact hall reception.upcoming reception

end Reception

namespace Querier

open Reception (Overheard)
open Watched (Called)

variable {P U : Type}

def asking [Peer P] (query : Message) (peer : P) : Reception.Entry := .asked (Peer.name peer) query

def announcing [Peer P] (message : Message) (known : Bool) (peer : P) : Reception.Entry :=
  .announced (Peer.name peer) message known

def verdicts [GroupPeer P] (message : Message) (known : Bool) (peers : List P) :
    List (Except Error Unit) :=
  peers.map fun peer => (GroupPeer.announce peer message known).2.verdict

theorem askAll_overheard [Peer P] (query : Message) (peers : List P) (reception : Reception) :
    let reactions := Peer.reactions true peers reception.now query .observers
    Overheard (peers.map (asking query)) (reactions.flatMap (·.reports))
      (reactions.flatMap (·.dues reception.now .observers)) reception
      (askAll query .observers (fun _ reception => reception) peers reception).2 := by
  simp only [Peer.reactions, if_pos]
  induction peers generalizing reception with
  | nil => exact .refl reception
  | cons peer peers ih =>
    let asked := reception.note (.asked (Peer.name peer) query)
    let reaction := (Peer.ask peer reception.now query .observers).2
    have hasked : Overheard [asking query peer] [] [] reception asked :=
      .note (asking query peer) rfl reception
    have hfirst := hasked.trans (.receive (Peer.name peer) reaction asked)
    have hothers := ih (asked.receive (Peer.name peer) .observers reaction)
    rw [hfirst.now] at hothers
    exact hfirst.trans hothers

theorem announceAll_overheard [GroupPeer P] (message : Message) (known : Bool) (peers : List P)
    (reception : Reception) :
    Overheard (peers.map (announcing message known)) [] [] reception
      (announceAll message known peers reception).2.2 := by
  induction peers generalizing reception with
  | nil => exact .refl reception
  | cons peer peers ih =>
    have hfirst : Overheard [announcing message known peer] [] [] reception
        (reception.note (announcing message known peer)) :=
      .note (announcing message known peer) rfl reception
    exact (hfirst.measure _).trans (ih _)

theorem verdicts_announceAll [GroupPeer P] (message : Message) (known : Bool) (peers : List P)
    (reception : Reception) :
    (announceAll message known peers reception).2.1 = verdicts message known peers := by
  induction peers generalizing reception with
  | nil => rfl
  | cons peer peers ih =>
    simp only [announceAll, ih]
    rfl

theorem announcementVerdict_eq_error_iff {verdicts : List (Except Error Unit)} {error : Error} :
    announcementVerdict verdicts = .error error
      ↔
    verdicts.head? = some (.error error) ∧ ∀ verdict ∈ verdicts, verdict.isOk = false := by
  unfold announcementVerdict
  by_cases hany : verdicts.any Except.isOk = true
  . rw [if_pos hany]
    rcases List.any_eq_true.mp hany with ⟨verdict, hmem, hok⟩
    constructor
    . nofun
    . intro h
      have := h.2 verdict hmem
      simp [hok] at this
  . rw [if_neg hany]
    have hall : ∀ verdict ∈ verdicts, verdict.isOk = false := by simpa using hany
    rw [and_iff_left hall]
    cases verdicts with
    | nil => simp
    | cons first others => simp

/--
A message that an open querier sends to everybody gets to each multicast peer and then to each
nameserver once, whoever refuses it. It fails exactly if there are multicast peers and all refuse,
with the first refusal. The observers are told in turn, up to the first one that stops it or fails,
of all that the nameservers report: of what they report at once, and at any later moment of what
comes in then, whoever observes the querier at that moment.
-/
theorem broadcast_reaches_everybody [GroupPeer P] [Peer U]
    {querier : Querier (Watched P) (Watched U)} (hopen : querier.closed = false)
    (message : Message) (known : Bool) :
    let result := (querier.broadcast message known).1
    let later := (querier.broadcast message known).2
    let said := verdicts message known querier.multicast
    let now := querier.reception.now
    let reactions := Peer.reactions true querier.nameservers now message .observers
    querier.unwatched.broadcast message known = (result, later.unwatched) ∧
    Called querier.multicast later.multicast [.announce message known] ∧
    Called querier.nameservers later.nameservers [.ask message .observers] ∧
    later.reception.called = querier.reception.called ++
      querier.multicast.map (announcing message known) ++ querier.nameservers.map (asking message) ∧
    (∀ error, result = .error error
      ↔ said.head? = some (.error error) ∧ ∀ verdict ∈ said, verdict.isOk = false) ∧
    later.reception.heard = querier.reception.heard ++ (reactions.flatMap (·.reports)).flatMap
      (Observer.told · querier.reception.observers.members) ∧
    later.reception.upcoming.Perm
      (querier.reception.upcoming ++ reactions.flatMap (·.dues now .observers)) ∧
    ∀ operations, let s := later.run operations
      (∀ report, (s.operate (.report .observers report)).reception.heard
        = s.reception.heard ++ Observer.told report s.reception.observers.members) ∧
      ∀ limit, (s.operate (.pass limit)).reception.heard
        = s.reception.heard ++ (s.reception.upcoming.takeWhile (·.time < limit)).flatMap
          fun due => s.reception.callsFor due.report due.sink := by
  let announced := announceAll message known querier.multicast querier.reception
  let asked := askAll message .observers (fun _ reception => reception) querier.nameservers
    announced.2.2
  have hresult : querier.broadcast message known
      = (announcementVerdict announced.2.1,
        { querier with multicast := announced.1, nameservers := asked.1, reception := asked.2 }) :=
    if_neg (by simp [hopen])
  have hannounced : Overheard _ [] [] querier.reception announced.2.2 :=
    announceAll_overheard message known querier.multicast querier.reception
  have hasked : Overheard _ _ _ announced.2.2 asked.2 :=
    askAll_overheard message querier.nameservers announced.2.2
  rw [hannounced.now] at hasked
  have hall := hannounced.trans hasked
  rw [hresult]
  refine ⟨?_, called_announceAll .., called_askAll .., ?_, ?_, hall.heard, hall.upcoming, ?_⟩
  . rw [broadcast_unwatched, hresult]
  . rw [List.append_assoc]
    exact hall.called
  . intro error
    rw [← verdicts_announceAll message known querier.multicast querier.reception]
    exact announcementVerdict_eq_error_iff
  . intro operations s
    exact ⟨fun report => Reception.heard_deliver .observers report s.reception,
      fun limit => Reception.heard_advance limit s.reception⟩

/--
Both responders refuse a message. A nameserver reports a failure before it refuses the message, too,
and another one reports later, when somebody else observes the querier.
-/
theorem broadcast_reaches_everybody_refused :
    let message : Message := { id := 3 }
    let responder (error : Error) : Watched Scripted :=
      ⟨{ name := "responder", script := { refusal := some error } }, []⟩
    let early : Script :=
      { immediate := [{ reply := .failure .timeout }], refusal := some .timeout }
    let late : Script := { delayed := [(20, { reply := .failure .noResponders })] }
    let querier : Querier (Watched Scripted) (Watched Scripted) :=
      { multicast := [responder (.closed "first"), responder (.closed "second")]
        nameservers := [⟨{ name := "early", script := early }, []⟩,
          ⟨{ name := "late", script := late }, []⟩]
        responseWait := 10
        timeout := 20
        reception := { observers := { members := [⟨"a", .ok⟩, ⟨"b", .stop⟩, ⟨"c", .ok⟩] } } }
    let later := (querier.broadcast message true).2
    let changed := later.run [.unregister ⟨"a", .ok⟩, .unregister ⟨"b", .stop⟩]
    (querier.broadcast message true).1 = .error (.closed "first") ∧
    later.multicast.map (·.calls) = [[.announce message true], [.announce message true]] ∧
    later.nameservers.map (·.calls) = [[.ask message .observers], [.ask message .observers]] ∧
    later.reception.heard = [("a", ⟨3, .failure .timeout⟩), ("b", ⟨3, .failure .timeout⟩)] ∧
    (changed.operate (.pass 30)).reception.heard
      = later.reception.heard ++ [("c", ⟨3, .failure .noResponders⟩)] := by
  intro message responder early late querier later changed
  have hopen : querier.closed = false := rfl
  rcases broadcast_reaches_everybody hopen message true with
    ⟨-, hmulticast, hnameservers, -, hresult, hheard, -, hlater⟩
  have hpassed := (hlater [.unregister ⟨"a", .ok⟩, .unregister ⟨"b", .stop⟩]).2 30
  exact ⟨(hresult (.closed "first")).mpr (by decide), hmulticast, hnameservers, hheard, hpassed⟩

end Querier

end Zeroconf
