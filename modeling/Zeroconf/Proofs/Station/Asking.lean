import Zeroconf.Proofs.Link
import Zeroconf.Proofs.Station.Course

/-!
This module contains what a reception is like after somebody was asked: who is told, who observes
and when inquiries end is as before, and only the one who asked is sent replies.
-/

namespace Zeroconf

namespace Reception

def deadlines (reception : Reception) : List Nat := reception.cases.map (·.inquiry.deadline)

theorem Alike.deadlines {reception later : Reception} (h : Alike reception later) :
    later.deadlines = reception.deadlines := by
  have hblank : ∀ reception : Reception,
      reception.deadlines = (reception.cases.map Case.blank).map (·.inquiry.deadline) := by
    intro reception
    rw [List.map_map]
    rfl
  rw [hblank, h.cases, ← hblank]

theorem deadlines_step {event : Inquiry.Event}
    (hevent : ∀ inquiry : Inquiry, (inquiry.step event).deadline = inquiry.deadline)
    (reception : Reception) (number : Nat) :
    (reception.step number event).deadlines = reception.deadlines := by
  apply List.ext_getElem?
  intro place
  simp only [deadlines, step, List.getElem?_map, List.getElem?_modify]
  split
  . cases reception.cases[place]? with
    | none => rfl
    | some case => simp [hevent]
  . simp

/--
Whether nothing has happened but that somebody was asked for a sink.
-/
structure Asked (reception later : Reception) (sink : Sink) : Prop where
  now : later.now = reception.now
  observers : later.observers = reception.observers
  heard : later.heard = reception.heard
  deadlines : later.deadlines = reception.deadlines
  upcoming : ∀ due ∈ later.upcoming, due ∈ reception.upcoming ∨ due.sink = sink

theorem Asked.refl (reception : Reception) (sink : Sink) : Asked reception reception sink :=
  ⟨rfl, rfl, rfl, rfl, fun _ => .inl⟩

theorem Asked.trans {reception between later : Reception} {sink : Sink}
    (h : Asked reception between sink) (h' : Asked between later sink) :
    Asked reception later sink where
  now := h'.now.trans h.now
  observers := h'.observers.trans h.observers
  heard := h'.heard.trans h.heard
  deadlines := h'.deadlines.trans h.deadlines
  upcoming due hmem := (h'.upcoming due hmem).elim (h.upcoming due) .inr

theorem asked_schedule (reception : Reception) (sink : Sink) (report : Nat × Report) :
    Asked reception (schedule sink reception report) sink where
  now := rfl
  observers := rfl
  heard := rfl
  deadlines := rfl
  upcoming due hmem := by
    have hall := (perm_insertDue ⟨reception.now + report.1, sink, report.2⟩
      reception.upcoming).mem_iff.mp hmem
    rcases List.mem_append.mp hall with hold | hnew
    . exact .inl hold
    . rw [List.mem_singleton.mp hnew]
      exact .inr rfl

theorem asked_receive (reception : Reception) (peer : String) (query : Message) (sink : Sink)
    {reaction : Reaction} (hreports : reaction.reports = []) :
    Asked reception ((reception.note (.asked peer query)).receive peer sink reaction) sink := by
  have hnote : Asked reception ((reception.note (.asked peer query)).measure reaction.samples)
      sink :=
    ⟨rfl, rfl, by rw [measure, heard]; exact (heard_note ..).trans (List.append_nil _), rfl,
      fun _ => .inl⟩
  unfold receive
  rw [hreports]
  generalize reaction.later = reports at *
  dsimp only [List.foldl_nil]
  generalize (reception.note (.asked peer query)).measure reaction.samples = noted at *
  induction reports generalizing noted with
  | nil => exact hnote
  | cons report reports ih => exact ih _ (hnote.trans (asked_schedule noted sink report))

theorem asked_conclude (reception : Reception) (sink : Sink) (verdict : Except Error UInt16) :
    Asked reception (Station.conclude sink verdict reception) sink := by
  unfold Station.conclude
  split
  . next number =>
    have hdeadline : ∀ inquiry : Inquiry,
        (inquiry.step (.ofVerdict verdict)).deadline = inquiry.deadline := by
      intro inquiry
      cases verdict <;> rfl
    exact ⟨rfl, rfl, rfl, deadlines_step hdeadline reception number, fun _ => .inl⟩
  . exact Asked.refl reception _

end Reception

namespace Station

open Reception

theorem asked_askOne_link (query : Message) (sink : Sink) (link : Link) (reception : Reception) :
    Asked reception
      (conclude sink (askOne query sink link reception).2.1
        (askOne query sink link reception).2.2) sink := by
  have hasked := asked_receive reception (Peer.name link) query sink
    (link.ask_asked reception.now query sink).reports
  exact hasked.trans (asked_conclude _ sink _)

theorem reports_ask (nameserver : Nameserver) (query : Message) :
    (nameserver.ask query).reports = [] := by
  unfold Nameserver.ask
  split <;> rfl

theorem asked_askOne_nameserver (query : Message) (sink : Sink) (nameserver : Nameserver)
    (reception : Reception) :
    Asked reception
      (conclude sink (askOne query sink nameserver reception).2.1
        (askOne query sink nameserver reception).2.2) sink := by
  have hasked := asked_receive reception (Peer.name nameserver) query sink
    (reports_ask nameserver query)
  exact hasked.trans (asked_conclude _ sink _)

end Station

end Zeroconf
