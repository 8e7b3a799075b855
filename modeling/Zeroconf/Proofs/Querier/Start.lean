import Zeroconf.Proofs.Reception.Wait
import Zeroconf.Querier

/-!
This module contains the proof that a querier takes an inquiry through one of its courses when it
asks its peers one after the other. Which course it is follows from how the peers react.
-/

namespace Zeroconf

open Inquiry

def Querier.plan {P U : Type} (querier : Querier P U) (query : Message) : Plan where
  query
  responseWait := querier.responseWait
  timeout := querier.timeout
  responders := querier.multicast.length
  nameservers := querier.nameservers.length

def Peer.reactions {P : Type} [Peer P] (selected : Bool) (peers : List P) (now : Nat)
    (query : Message) (sink : Sink) : List Reaction :=
  if selected then peers.map fun peer => (Peer.ask peer now query sink).2 else []

namespace Querier

variable {P U : Type} {plan : Plan} {course : Course} {reception : Reception} {number : Nat}
  {caller : Option Observer}

def reactions [Peer P] [Peer U] (querier : Querier P U) (query : Message) (sink : Sink) :
    List Reaction :=
  Peer.reactions (selectsMulticast query querier.multicast.length) querier.multicast
    querier.reception.now query sink ++
  Peer.reactions (selectsUnicast query querier.nameservers.length) querier.nameservers
    querier.reception.now query sink

theorem length_reactions [Peer P] [Peer U] (querier : Querier P U) (query : Message)
    (sink : Sink) : (querier.reactions query sink).length = (querier.plan query).selected := by
  simp only [reactions, Peer.reactions, Plan.selected, Plan.usesUnicast, Querier.plan,
    List.length_append, apply_ite List.length, List.length_map, List.length_nil]
  rfl

theorem askAll_performs [Peer P] (selected : Bool) (peers : List P)
    (h : reception.Holds number caller course) (plan : Plan) (source : Nat) (query : Message) :
    Reception.Performs plan number caller course
      (askingActs source (Peer.reactions selected peers course.now query (.inquiry number)))
      ((Peer.reactions selected peers course.now query (.inquiry number)).flatMap
        (·.dues course.now (.inquiry number)))
      reception
      (if selected then
        askAll query (.inquiry number)
          (fun verdict reception => reception.step number (.ofVerdict verdict)) peers reception
      else
        (peers, reception)).2 := by
  cases selected with
  | false => exact .refl h
  | true =>
    simp only [Peer.reactions, if_pos]
    induction peers generalizing reception course source with
    | nil => exact .refl h
    | cons peer peers ih =>
      let reaction := (Peer.ask peer reception.now query (.inquiry number)).2
      have hfirst := h.performs_reaction plan source (Peer.name peer) query reaction
      have hothers := ih hfirst.holds (source + 1)
      rw [Course.now_follow_acts] at hothers
      have hall := hfirst.trans hothers
      simp only [reaction, h.now] at hall
      simp only [askAll, h.now, List.map_cons, List.flatMap_cons, askingActs]
      exact hall

def sending (reactions : List Reaction) : List Act :=
  .start :: (askingActs 0 reactions ++ [.finish])

theorem start_performs [Peer P] [Peer U] {querier : Querier P U} {query : Message}
    (h : querier.reception.Holds number caller course)
    (hphase : course.inquiry.phase = .created) (hquery : course.inquiry.query = query) :
    Reception.Performs (querier.plan query) number caller course
      (sending (querier.reactions query (.inquiry number)))
      ((querier.reactions query (.inquiry number)).flatMap
        (·.dues course.now (.inquiry number)))
      querier.reception (querier.start number).reception := by
  let multicast := Peer.reactions (selectsMulticast query querier.multicast.length)
    querier.multicast course.now query (.inquiry number)
  have hbegun := Reception.Performs.step rfl (h.start (querier.plan query))
  have hmulticast := askAll_performs (selectsMulticast query querier.multicast.length)
    querier.multicast hbegun.holds (querier.plan query) 0 query
  have hnameservers := askAll_performs (selectsUnicast query querier.nameservers.length)
    querier.nameservers hmulticast.holds (querier.plan query) (0 + multicast.length) query
  -- No time passes while the multicast peers are asked.
  rw [Course.now_follow_askingActs] at hnameservers
  have hasked := hmulticast.trans hnameservers
  have hfinish := hasked.trans
    (Reception.Performs.step rfl (hasked.holds.finish (querier.plan query)))
  rw [List.append_nil] at hfinish
  have hall := hbegun.trans hfinish
  rw [sending, reactions, h.now, askingActs_append, List.flatMap_append]
  simp only [start, h.case, hphase, hquery, beq_self_eq_true, if_pos]
  exact hall

theorem resolve_performs [Peer P] [Peer U] (querier : Querier P U) (query : Message)
    (caller : Option Observer) (hopen : querier.closed = false) :
    let number := querier.reception.cases.length
    let reactions := querier.reactions query (.inquiry number)
    (querier.resolve query caller).1 = .ok number ∧
    Reception.Performs (querier.plan query) number caller
      (Course.initial (querier.plan query) querier.reception.now) (sending reactions)
      (reactions.flatMap (·.dues querier.reception.now (.inquiry number))) querier.reception
      (querier.resolve query caller).2.reception := by
  intro number reactions
  let opened : Querier P U :=
    { querier with
      reception :=
        (querier.reception.openCase query caller querier.responseWait querier.timeout).2 }
  have hholds : opened.reception.Holds number caller
      (Course.initial (querier.plan query) querier.reception.now) :=
    ⟨by simp [opened, number, Reception.openCase, Course.initial, Querier.plan], rfl⟩
  have hstart : Reception.Performs (opened.plan query) number caller _ _ _ opened.reception _ :=
    start_performs hholds rfl rfl
  unfold resolve
  rw [if_neg (by simp [hopen])]
  exact ⟨rfl, hstart.holds, hstart.heard, hstart.upcoming⟩

theorem admits_sending [Peer P] [Peer U] (querier : Querier P U) (query : Message) (sink : Sink)
    (now : Nat) :
    let initial := Course.initial (querier.plan query) now
    let acts := sending (querier.reactions query sink)
    (querier.plan query).machine.Admits initial acts ∧
      ((querier.plan query).machine.follow initial acts).Settled (querier.plan query) := by
  intro initial acts
  have hasks : (initial.next (querier.plan query) .start).Asks 0 :=
    .start (querier.plan query) rfl rfl
  have hall := hasks.follow_askingActs (querier.plan query) (querier.reactions query sink)
  rw [length_reactions, Nat.zero_add] at hall
  simp only [acts, sending]
  rw [Course.follow_cons, Machine.follow_append]
  refine ⟨⟨trivial, ?_⟩, hall.finish⟩
  rw [Machine.admits_append_iff]
  refine ⟨hasks.admits_askingActs ?_, ⟨hall.phase, hall.sent⟩, trivial⟩
  exact Nat.le_of_eq (by rw [length_reactions, Nat.zero_add])

theorem resolve_holds [Peer P] [Peer U] (querier : Querier P U) (query : Message)
    (caller : Option Observer) (hopen : querier.closed = false) :
    ∃ course, (querier.plan query).Run
        ((Course.initial (querier.plan query) querier.reception.now).next (querier.plan query)
          .start) course ∧
      (querier.resolve query caller).2.reception.Holds querier.reception.cases.length caller
        course ∧
      course.inquiry.phase = .started := by
  have hperforms := (querier.resolve_performs query caller hopen).2
  rcases querier.admits_sending query (.inquiry querier.reception.cases.length)
    querier.reception.now with ⟨hadmits, hsettled⟩
  exact ⟨_, .follow hadmits.2, hperforms.holds, hsettled.phase⟩

end Querier

end Zeroconf
