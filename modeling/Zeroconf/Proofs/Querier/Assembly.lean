import Zeroconf.Link
import Zeroconf.Peer.Scripted
import Zeroconf.Querier

/-!
This module contains what becomes of the responders that a querier is put together from. They take
its listener one after another, and it is not taken back from them if a later one refuses.
-/

namespace Zeroconf

def GroupPeer.refusal? {P : Type} [GroupPeer P] (sink : Sink) (peer : P) : Option Error :=
  match (GroupPeer.register peer sink).2 with
  | .ok () => none
  | .error error => some error

/--
Responders that keep a roster of their listeners: one that is taken and was not on it is put at its
end, and one that is not taken does not change it.
-/
class RosterPeer (P : Type) extends GroupPeer P where
  roster : P → List Sink
  roster_of_taken : ∀ peer sink, sink ∉ roster peer → GroupPeer.refusal? sink peer = none →
    roster (GroupPeer.register peer sink).1 = roster peer ++ [sink]
  roster_of_refused : ∀ peer sink, GroupPeer.refusal? sink peer ≠ none →
    roster (GroupPeer.register peer sink).1 = roster peer

instance : RosterPeer Scripted where
  roster peer := peer.listeners
  roster_of_taken := by
    intro peer sink _
    cases h : peer.script.listenerRefusal with
    | some error => simp [GroupPeer.refusal?, GroupPeer.register, Scripted.register, h]
    | none => simp [GroupPeer.register, Scripted.register, h]
  roster_of_refused := by
    intro peer sink
    cases h : peer.script.listenerRefusal with
    | some error => simp [GroupPeer.register, Scripted.register, h]
    | none => simp [GroupPeer.refusal?, GroupPeer.register, Scripted.register, h]

instance : RosterPeer Link where
  roster link := link.inbox.observers.members
  roster_of_taken := by
    intro link sink hfresh
    cases h : link.inbox.observers.closed with
    | true => simp [GroupPeer.refusal?, GroupPeer.register, Link.register, Fanout.register, h]
    | false =>
      have hnone : link.inbox.observers.members.find? (· == sink) = none := by
        simpa using fun other hother (heq : other = sink) => hfresh (heq ▸ hother)
      simp [GroupPeer.register, Link.register, Fanout.register, h, hnone]
  roster_of_refused := by
    intro link sink
    cases h : link.inbox.observers.register sink with
    | error error => simp [GroupPeer.register, Link.register, h]
    | ok entry => simp [GroupPeer.refusal?, GroupPeer.register, Link.register, h]

namespace Querier

open GroupPeer (refusal?)
open RosterPeer (roster)

variable {P U : Type}

section Enlist

variable [GroupPeer P] {sink : Sink}

theorem register_of_taken {peer : P} (h : refusal? sink peer = none) :
    GroupPeer.register peer sink = ((GroupPeer.register peer sink).1, .ok ()) := by
  rcases hregister : GroupPeer.register peer sink with ⟨later, verdict⟩
  cases verdict with
  | ok => rfl
  | error error => simp [refusal?, hregister] at h

theorem register_of_refused {peer : P} {error : Error} (h : refusal? sink peer = some error) :
    GroupPeer.register peer sink = ((GroupPeer.register peer sink).1, .error error) := by
  rcases hregister : GroupPeer.register peer sink with ⟨later, verdict⟩
  cases verdict with
  | ok => simp [refusal?, hregister] at h
  | error reason => simp_all [refusal?]

theorem enlist_of_taken {peers : List P} (h : ∀ peer ∈ peers, refusal? sink peer = none) :
    enlist sink peers = (peers.map fun peer => (GroupPeer.register peer sink).1, .ok ()) := by
  induction peers with
  | nil => rfl
  | cons peer peers ih =>
    rw [List.forall_mem_cons] at h
    rw [enlist, register_of_taken h.1, ih h.2]
    rfl

theorem enlist_of_refused {front behind : List P} {peer : P} {error : Error}
    (hfront : ∀ peer ∈ front, refusal? sink peer = none)
    (hpeer : refusal? sink peer = some error) :
    enlist sink (front ++ peer :: behind)
      =
    (front.map (fun peer => (GroupPeer.register peer sink).1)
      ++ (GroupPeer.register peer sink).1 :: behind, .error error) := by
  induction front with
  | nil => rw [List.nil_append, enlist, register_of_refused hpeer]; rfl
  | cons other front ih =>
    rw [List.forall_mem_cons] at hfront
    rw [List.cons_append, enlist, register_of_taken hfront.1, ih hfront.2]
    rfl

end Enlist

section Assemble

variable [RosterPeer P] {multicast : List P} (nameservers : List U) (responseWait timeout : Nat)

theorem map_roster_of_taken {sink : Sink} {peers : List P}
    (hfresh : ∀ peer ∈ peers, sink ∉ roster peer)
    (h : ∀ peer ∈ peers, refusal? sink peer = none) :
    (peers.map fun peer => (GroupPeer.register peer sink).1).map roster
      =
    peers.map (roster · ++ [sink]) := by
  rw [List.map_map]
  apply List.map_congr_left
  intro peer hmem
  exact RosterPeer.roster_of_taken peer sink (hfresh peer hmem) (h peer hmem)

theorem assemble_of_taken (hsomebody : ¬ (multicast = [] ∧ nameservers = []))
    (h : ∀ peer ∈ multicast, refusal? .observers peer = none) :
    assemble multicast nameservers responseWait timeout
      =
    .ok {
      multicast := multicast.map fun peer => (GroupPeer.register peer .observers).1
      nameservers, responseWait, timeout } := by
  simp [assemble, hsomebody, enlist_of_taken h]

theorem assemble_of_refused {front behind : List P} {peer : P} {error : Error}
    (hfront : ∀ peer ∈ front, refusal? .observers peer = none)
    (hpeer : refusal? .observers peer = some error) :
    assemble (front ++ peer :: behind) nameservers responseWait timeout
      =
    .error (error, front.map (fun peer => (GroupPeer.register peer .observers).1)
      ++ (GroupPeer.register peer .observers).1 :: behind) := by
  simp [assemble, enlist_of_refused hfront hpeer]

/--
A querier is put together exactly if there is somebody and no multicast peer refuses the listener;
otherwise the error is that of the first one that refuses. By then those in front of it have taken
the listener, and keep it: the rosters are what they were only if there are none in front.
-/
theorem assembled_or_left_enlisted
    (hfresh : ∀ peer ∈ multicast, .observers ∉ roster peer) :
    let result := assemble multicast nameservers responseWait timeout
    (∀ error, (∃ later, result = .error (error, later))
      ↔ if multicast = [] ∧ nameservers = [] then error = .noResponders
        else multicast.findSome? (refusal? .observers) = some error) ∧
    (∀ querier, result = .ok querier →
      querier.multicast.map roster = multicast.map (roster · ++ [.observers]) ∧
        querier.nameservers = nameservers) ∧
    (∀ error later, result = .error (error, later) → ∃ front behind,
      multicast = front ++ behind ∧
      (∀ peer ∈ front, refusal? .observers peer = none) ∧
      (∀ peer ∈ behind.head?, refusal? .observers peer = some error) ∧
      later.map roster = front.map (roster · ++ [.observers]) ++ behind.map roster ∧
      (later.map roster = multicast.map roster ↔ front = [])) := by
  by_cases hnobody : multicast = [] ∧ nameservers = []
  . rcases hnobody with ⟨rfl, rfl⟩
    refine ⟨?_, ?_, ?_⟩
    . simp [assemble, eq_comm]
    . simp [assemble]
    . intro error later hresult
      have hlater : later = [] := by simp_all [assemble]
      subst hlater
      exact ⟨[], [], rfl, nofun, nofun, rfl, by simp⟩
  -- All depends on the first one who refuses.
  cases hrefused : multicast.findSome? (refusal? .observers) with
  | none =>
    have htaken := List.findSome?_eq_none_iff.mp hrefused
    rw [assemble_of_taken nameservers responseWait timeout hnobody htaken]
    refine ⟨?_, ?_, ?_⟩
    . simp [hnobody]
    . rintro querier ⟨⟩
      exact ⟨map_roster_of_taken hfresh htaken, rfl⟩
    . nofun
  | some error =>
    rcases List.findSome?_eq_some_iff.mp hrefused with ⟨front, peer, behind, rfl, hpeer, hfront⟩
    rw [assemble_of_refused nameservers responseWait timeout hfront hpeer]
    refine ⟨?_, ?_, ?_⟩
    . simp
    . nofun
    . rintro reason later ⟨⟩
      have hrefuser : roster (GroupPeer.register peer .observers).1 = roster peer :=
        RosterPeer.roster_of_refused peer _ (by simp [hpeer])
      have hrosters := map_roster_of_taken
        (fun other hmem => hfresh other (List.mem_append_left _ hmem)) hfront
      refine ⟨front, peer :: behind, rfl, hfront, by simp [hpeer], ?_, ?_⟩
      . rw [List.map_append, hrosters, List.map_cons, hrefuser, List.map_cons]
      . rw [List.map_append, hrosters, List.map_cons, hrefuser, List.map_append, List.map_cons,
          List.append_left_inj]
        cases front with
        | nil => simp
        | cons other front => simp

end Assemble

/--
Of three links the one in the middle is closed. The first one is left with the listener.
-/
theorem assembled_or_left_enlisted_links :
    let link : Link :=
      { interface := .v4 ⟨10, 0, 0, 2⟩, group := .v4 Link.groupV4 5353, timeout := 6000
        host := {} }
    let links := [link, link.close, link]
    (∀ peer ∈ links, .observers ∉ roster peer) ∧
    ∃ later, assemble links ([] : List Scripted) 250 6000
        = .error (.closed "listener registry", later) ∧
      later.map roster = [[.observers], [], []] ∧ later.map roster ≠ links.map roster := by
  intro link links
  have hfresh : ∀ peer ∈ links, .observers ∉ roster peer := by
    simp [links, roster, link, Link.close, Inbox.close, Fanout.close]
  rcases assembled_or_left_enlisted ([] : List Scripted) 250 6000 hfresh with ⟨hresult, -, hleft⟩
  rcases (hresult (.closed "listener registry")).mpr rfl with ⟨later, hlater⟩
  rcases hleft _ later hlater with ⟨front, behind, hlinks, -, hrefuser, -, hkept⟩
  refine ⟨hfresh, later, hlater, by cases hlater; rfl, ?_⟩
  rw [Ne, hkept]
  rintro rfl
  rw [List.nil_append] at hlinks
  have hrefused : refusal? .observers link = some _ := hrefuser link (hlinks ▸ rfl)
  contradiction

/--
A responder keeps the listener of a querier that does not come into being, as the one behind it
refuses that listener.
-/
theorem left_enlisted :
    let taking : Scripted := { name := "taking", script := {} }
    let refusing : Scripted :=
      { name := "refusing", script := { listenerRefusal := some (.closed "fake") } }
    ∃ later, assemble [taking, refusing] ([] : List Scripted) 0 0 = .error (.closed "fake", later) ∧
      later.map roster = [[.observers], []] ∧ [taking, refusing].map roster = [[], []] :=
  ⟨_, rfl, rfl, rfl⟩

end Querier

end Zeroconf
