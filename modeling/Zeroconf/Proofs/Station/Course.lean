import Zeroconf.Proofs.Machine
import Zeroconf.Station

/-!
This module contains stations at work: calls are made one after another, and while the peers are
asked for one of them, and between the calls, packets and replies come in and the time passes.
-/

namespace Zeroconf.Station

inductive Task where
  | askLink (place : Nat) (query : Message) (sink : Sink)
  | askNameserver (place : Nat) (query : Message) (sink : Sink)
  | announce (place : Nat) (message : Message) (known : Bool)
  | dispatched (number : Nat)
  deriving DecidableEq

structure Course (τ : Type) where
  station : Station τ
  tasks : List Task := []
  /-- The links, by their places, that have taken a query, and who gets the responses. -/
  sent : List (Nat × Sink) := []

inductive Act where
  | pass (time : Nat)
  | register (listener : Observer)
  | unregister (listener : Observer)
  | setTimeout (timeout : Nat)
  | resolve (query : Message) (caller : Option Observer)
  | broadcast (message : Message) (known : Bool)
  /-- The next task of the call is carried out. -/
  | work
  /-- Somebody who has waited for an answer measures how that went. -/
  | measure (samples : List Sample)
  /-- A packet arrives at a link. -/
  | packet (place : Nat) (payload : List UInt8)
  /-- The content of a frame is handled. -/
  | frame (payload : List UInt8)
  /-- A reply comes in that a nameserver has for somebody. -/
  | reply (place : Nat)
  /-- The network is not as it was. -/
  | change (host : Transport.Host)
  | close

def askOne {P : Type} [Peer P] (query : Message) (sink : Sink) (peer : P) (reception : Reception) :
    P × Except Error UInt16 × Reception :=
  let (asked, reaction) := Peer.ask peer reception.now query sink
  (asked, reaction.verdict,
    (reception.note (.asked (Peer.name peer) query)).receive (Peer.name peer) sink reaction)

def conclude (sink : Sink) (verdict : Except Error UInt16) (reception : Reception) : Reception :=
  match sink with
  | .inquiry number => reception.step number (.ofVerdict verdict)
  | _ => reception

def tasksFor (selected : Bool) (task : Nat → Task) (count : Nat) : List Task :=
  if selected then (List.range' 0 count).map task else []

namespace Course

variable {τ : Type}

def initial (station : Station τ) : Course τ := { station }

def querier (s : Course τ) : Querier Link Nameserver := s.station.querier

def reception (s : Course τ) : Reception := s.station.querier.reception

def withQuerier (s : Course τ) (querier : Querier Link Nameserver) : Course τ :=
  { s with station := { s.station with querier } }

def withReception (s : Course τ) (reception : Reception) : Course τ :=
  s.withQuerier { s.querier with reception }

def perform (s : Course τ) : Task → Course τ
  | .askLink place query sink =>
    match s.querier.multicast[place]? with
    | none => s
    | some link =>
      let (link, verdict, reception) := askOne query sink link s.reception
      let multicast := s.querier.multicast.set place link
      let sent := if verdict.isOk then s.sent ++ [(place, sink)] else s.sent
      { s.withQuerier
          { s.querier with multicast, reception := conclude sink verdict reception } with sent }
  | .askNameserver place query sink =>
    match s.querier.nameservers[place]? with
    | none => s
    | some nameserver =>
      let (nameserver, verdict, reception) := askOne query sink nameserver s.reception
      let nameservers := s.querier.nameservers.set place nameserver
      s.withQuerier { s.querier with nameservers, reception := conclude sink verdict reception }
  | .announce place message known =>
    match s.querier.multicast[place]? with
    | none => s
    | some link =>
      let (announced, announcement) := GroupPeer.announce link message known
      let multicast := s.querier.multicast.set place announced
      let entry := .announced (Peer.name link) message known
      let reception := (s.reception.note entry).measure announcement.samples
      s.withQuerier { s.querier with multicast, reception }
  | .dispatched number => s.withReception (s.reception.step number .dispatched)

/--
An inquiry begins, and those who are in charge of it are still to be asked.
-/
def resolve (query : Message) (caller : Option Observer) (s : Course τ) : Course τ :=
  let { multicast, nameservers, responseWait, timeout, .. } := s.querier
  let toMulticast := Inquiry.selectsMulticast query multicast.length
  let toNameservers := Inquiry.selectsUnicast query nameservers.length
  let (number, reception) := s.reception.openCase query caller responseWait timeout
  let sink := Sink.inquiry number
  { s.withReception (reception.step number (.begun reception.now toNameservers)) with
    tasks :=
      tasksFor toMulticast (.askLink · query sink) multicast.length ++
        tasksFor toNameservers (.askNameserver · query sink) nameservers.length ++
        [.dispatched number] }

def broadcast (message : Message) (known : Bool) (s : Course τ) : Course τ :=
  let { multicast, nameservers, .. } := s.querier
  { s with
    tasks :=
      tasksFor true (.announce · message known) multicast.length ++
        tasksFor true (.askNameserver · message .observers) nameservers.length }

def next (s : Course τ) : Act → Course τ
  | .pass time => s.withReception { s.reception with now := s.reception.now + time }
  | .register listener => s.withQuerier (s.querier.register listener).2
  | .unregister listener => s.withQuerier (s.querier.unregister listener).2
  | .setTimeout timeout => s.withQuerier (s.querier.setTimeout timeout)
  | .resolve query caller => if s.querier.closed then s else s.resolve query caller
  | .broadcast message known => if s.querier.closed then s else s.broadcast message known
  | .work =>
    match s.tasks with
    | [] => s
    | task :: tasks => { s with tasks }.perform task
  | .measure samples => s.withReception (s.reception.measure samples)
  | .packet place payload =>
    match s.querier.multicast[place]? with
    | none => s
    | some link =>
      let (_, link, reception) := link.receive payload s.reception
      let multicast := s.querier.multicast.set place link
      s.withQuerier { s.querier with multicast, reception }
  | .frame payload => { s with station := (s.station.handle payload).2 }
  | .reply place =>
    match s.reception.upcoming[place]? with
    | none => s
    | some due =>
      let upcoming := s.reception.upcoming.eraseIdx place
      s.withReception ({ s.reception with upcoming }.receiveDue due)
  | .change host =>
    s.withQuerier
      { s.querier with
        multicast := s.querier.multicast.map fun link => { link with host }
        nameservers := s.querier.nameservers.map fun nameserver => { nameserver with host } }
  | .close => { s with station := s.station.close }

end Course

/--
Calls are made one after another; everything else can happen at any time.
-/
def machine (τ : Type) : Machine (Course τ) Act where
  Enabled s
    | .setTimeout _ | .resolve .. | .broadcast .. => s.tasks.isEmpty = true
    | _ => True
  next := Course.next

instance (τ : Type) (s : Course τ) (act : Act) : Decidable ((machine τ).Enabled s act) := by
  cases act <;> (unfold machine; infer_instance)

theorem forall_mem_tasksFor {P : Task → Prop} {task : Nat → Task} (h : ∀ place, P (task place))
    {selected : Bool} {count : Nat} : ∀ other ∈ tasksFor selected task count, P other := by
  unfold tasksFor
  split
  . rw [List.forall_mem_map]
    exact fun place _ => h place
  . exact List.forall_mem_nil P

namespace Course

variable {τ : Type}

theorem closed_close (s : Course τ) : (s.next .close).querier.closed = true := by
  simp only [next, close, querier]
  split
  . next hclosed => exact hclosed
  . next hopen =>
    unfold Querier.close
    rw [if_neg hopen]
    rfl

theorem closed_perform (s : Course τ) (task : Task) :
    (s.perform task).querier.closed = s.querier.closed := by
  cases task with
  | dispatched number => rfl
  | _ =>
    simp only [perform]
    split <;> rfl

theorem closed_next {s : Course τ} (h : s.querier.closed = true) (act : Act) :
    (s.next act).querier.closed = true := by
  cases act with
  | register listener =>
    simp only [next, Querier.register]
    split <;> exact h
  | resolve query caller => simp [next, h]
  | broadcast message known => simp [next, h]
  | work =>
    simp only [next]
    split
    . exact h
    . rw [closed_perform]
      exact h
  | packet place payload =>
    simp only [next]
    split <;> exact h
  | frame payload =>
    simp only [next, handle]
    split <;> exact h
  | reply place =>
    simp only [next]
    split <;> exact h
  | close => exact s.closed_close
  | _ => exact h

theorem open_of_next {s : Course τ} {act : Act} (h : (s.next act).querier.closed = false) :
    s.querier.closed = false := by
  cases hclosed : s.querier.closed with
  | false => rfl
  | true =>
    rw [closed_next hclosed] at h
    contradiction

theorem open_of_follow {s : Course τ} {acts : List Act}
    (h : ((machine τ).follow s acts).querier.closed = false) : s.querier.closed = false := by
  induction acts generalizing s with
  | nil => exact h
  | cons act acts ih => exact open_of_next (ih h)

theorem perform_askLink {s : Course τ} {place : Nat} {link : Link}
    (hlink : s.querier.multicast[place]? = some link) (query : Message) (sink : Sink) :
    s.perform (.askLink place query sink)
      =
    { s.withQuerier
        { s.querier with
          multicast := s.querier.multicast.set place (askOne query sink link s.reception).1
          reception :=
            conclude sink (askOne query sink link s.reception).2.1
              (askOne query sink link s.reception).2.2 } with
      sent :=
        if (askOne query sink link s.reception).2.1.isOk then s.sent ++ [(place, sink)]
        else s.sent } := by
  simp only [perform, hlink]

theorem perform_askNameserver {s : Course τ} {place : Nat} {nameserver : Nameserver}
    (hnameserver : s.querier.nameservers[place]? = some nameserver) (query : Message)
    (sink : Sink) :
    s.perform (.askNameserver place query sink)
      =
    s.withQuerier
      { s.querier with
        nameservers :=
          s.querier.nameservers.set place (askOne query sink nameserver s.reception).1
        reception :=
          conclude sink (askOne query sink nameserver s.reception).2.1
            (askOne query sink nameserver s.reception).2.2 } := by
  simp only [perform, hnameserver]

end Course

end Zeroconf.Station
