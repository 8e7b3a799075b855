import Zeroconf.Link
import Zeroconf.Proofs.Reception.Wait

/-!
This module contains what a delivery does apart from the replies that it adds: who is told of it,
and that it changes neither who will be told of the next one nor when an inquiry ends.
-/

namespace Zeroconf

theorem Fanout.callAll_singleton {α σ : Type} (call : α → σ → Outcome × σ) (listener : α) (s : σ) :
    (callAll call [listener] s).2 = (call listener s).2 := by
  unfold callAll
  split
  . next h => rw [h]; rfl
  . next h => rw [h]
  . next h => rw [h]

/--
The calls by which observers are told of a report: in turn, up to the first one who stops it or
fails.
-/
def Observer.told (report : Report) : List Observer → List (String × Report)
  | [] => []
  | observer :: others =>
    (observer.name, report) :: if observer.outcome = .ok then told report others else []

namespace Reception

def Case.callsFor (case : Case) (report : Report) : List (String × Report) :=
  if case.inquiry.keeps report then calls case.caller [report] else []

def callsFor (reception : Reception) (report : Report) : Sink → List (String × Report)
  | .observer listener => [(listener.name, report)]
  | .inquiry number => reception.cases[number]?.toList.flatMap (·.callsFor report)
  | .waiter _ => []
  | .observers => Observer.told report reception.observers.members

def Case.blank (case : Case) : Case :=
  { case with inquiry := { case.inquiry with replies := [] } }

structure Alike (reception later : Reception) : Prop where
  now : later.now = reception.now
  observers : later.observers = reception.observers
  upcoming : later.upcoming = reception.upcoming
  cases : later.cases.map Case.blank = reception.cases.map Case.blank

theorem Alike.refl (reception : Reception) : Alike reception reception := ⟨rfl, rfl, rfl, rfl⟩

theorem Alike.trans {reception between later : Reception} (h : Alike reception between)
    (h' : Alike between later) : Alike reception later where
  now := h'.now.trans h.now
  observers := h'.observers.trans h.observers
  upcoming := h'.upcoming.trans h.upcoming
  cases := h'.cases.trans h.cases

theorem Alike.callsFor {reception later : Reception} (h : Alike reception later) (report : Report)
    (sink : Sink) : later.callsFor report sink = reception.callsFor report sink := by
  cases sink with
  | inquiry number =>
    -- What a case has received does not matter.
    have hblank : ∀ cases : List Case, cases[number]?.toList.flatMap (·.callsFor report)
        = (cases.map Case.blank)[number]?.toList.flatMap (·.callsFor report) := by
      intro cases
      rw [List.getElem?_map]
      cases cases[number]? <;> rfl
    simp only [Reception.callsFor]
    rw [hblank, h.cases, ← hblank]
  | observers => simp only [Reception.callsFor, h.observers]
  | _ => rfl

theorem alike_hear (report : Report) (listener : Observer) (reception : Reception) :
    Alike reception (reception.hear report listener).2 := ⟨rfl, rfl, rfl, rfl⟩

theorem blank_step_reported (case : Case) (report : Report) :
    Case.blank { case with inquiry := case.inquiry.step (.reported report) } = case.blank := by
  simp only [Case.blank, Inquiry.step]
  split <;> rfl

theorem alike_step_reported (reception : Reception) (number : Nat) (report : Report) :
    Alike reception (reception.step number (.reported report)) where
  now := rfl
  observers := rfl
  upcoming := rfl
  cases := by
    apply List.ext_getElem?
    intro place
    simp only [step, List.getElem?_map, List.getElem?_modify]
    split
    . cases reception.cases[place]? with
      | none => rfl
      | some case => simp [blank_step_reported]
    . simp

theorem deliver_alike (sink : Sink) (report : Report) (reception : Reception) :
    Alike reception (reception.deliver sink report).2 := by
  cases sink with
  | observer listener => exact alike_hear report listener reception
  | inquiry number =>
    simp only [deliver, deliverToInquiry]
    split
    . exact Alike.refl reception
    . split
      . split
        . exact (alike_step_reported reception number report).trans (alike_hear ..)
        . exact alike_step_reported reception number report
      . exact Alike.refl reception
  | waiter number => exact ⟨rfl, rfl, rfl, rfl⟩
  | observers =>
    simp only [deliver, Fanout.hear_audience]
    apply Fanout.callAll_keeps (Alike reception)
    . intro listener s h
      exact h.trans (alike_hear report listener s)
    . exact Alike.refl reception

theorem receiveDue_alike (due : Due) (reception : Reception) :
    Alike { reception with now := max reception.now due.time } (reception.receiveDue due) :=
  deliver_alike due.sink due.report { reception with now := max reception.now due.time }

theorem heard_callAll_hear (report : Report) (listeners : List Observer) (reception : Reception) :
    (Fanout.callAll (hear report) listeners reception).2.heard
      =
    reception.heard ++ Observer.told report listeners := by
  induction listeners generalizing reception with
  | nil => simp [Fanout.callAll, Observer.told]
  | cons listener others ih =>
    rw [Fanout.callAll, Observer.told]
    rcases listener with ⟨name, outcome⟩
    cases outcome with
    | ok => simp [hear, heard_note, Entry.heard?, ih]
    | stop => simp [hear, heard_note, Entry.heard?]
    | fail reason => simp [hear, heard_note, Entry.heard?]

theorem heard_deliver (sink : Sink) (report : Report) (reception : Reception) :
    (reception.deliver sink report).2.heard
      =
    reception.heard ++ reception.callsFor report sink := by
  cases sink with
  | observer listener => exact heard_hear report listener reception
  | inquiry number =>
    simp only [deliver, deliverToInquiry, callsFor]
    split
    . next hcase => simp [hcase]
    . next case hcase =>
      split
      . next hkeeps =>
        split
        . next hcaller => simp [hcase, hkeeps, hcaller, Case.callsFor, calls]
        . next hcaller => simp [hcase, hkeeps, hcaller, Case.callsFor, calls]
      . next hkeeps => simp [hcase, hkeeps, Case.callsFor]
  | waiter number => simp [deliver, callsFor, heard]
  | observers =>
    simp only [deliver, Fanout.hear_audience]
    exact heard_callAll_hear report reception.observers.members reception

theorem deliver_upcoming (sink : Sink) (report : Report) (reception : Reception)
    (upcoming : List Due) :
    ({ reception with upcoming }.deliver sink report).2
      =
    { (reception.deliver sink report).2 with upcoming } := by
  cases sink with
  | inquiry number =>
    simp only [deliver, deliverToInquiry]
    split
    . rfl
    . split
      . split <;> rfl
      . rfl
  | observers =>
    simp only [deliver, Fanout.hear_audience, Fanout.dispatch]
    generalize reception.observers.members = listeners
    induction listeners generalizing reception with
    | nil => rfl
    | cons listener others ih =>
      rcases listener with ⟨name, outcome⟩
      cases outcome with
      | ok => exact ih (reception.note (.heard name report))
      | _ => rfl
  | _ => rfl

theorem receiveDue_upcoming (due : Due) (reception : Reception) (upcoming : List Due) :
    { reception with upcoming }.receiveDue due = { reception.receiveDue due with upcoming } := by
  simp only [receiveDue]
  exact deliver_upcoming due.sink due.report { reception with now := max reception.now due.time }
    upcoming

theorem receiveAll_upcoming (dues : List Due) (reception : Reception) (upcoming : List Due) :
    receiveAll dues { reception with upcoming } = { receiveAll dues reception with upcoming } := by
  induction dues generalizing reception with
  | nil => rfl
  | cons due dues ih =>
    have hothers := ih (reception.receiveDue due)
    rw [← receiveDue_upcoming] at hothers
    exact hothers

def deliverAll (report : Report) (sinks : List Sink) (reception : Reception) : Reception :=
  sinks.foldl (fun reception sink => (reception.deliver sink report).2) reception

theorem alike_deliverAll (report : Report) (sinks : List Sink) (reception : Reception) :
    Alike reception (reception.deliverAll report sinks) := by
  induction sinks generalizing reception with
  | nil => exact Alike.refl reception
  | cons sink sinks ih => exact (deliver_alike sink report reception).trans (ih _)

theorem heard_deliverAll (report : Report) (sinks : List Sink) (reception : Reception) :
    (reception.deliverAll report sinks).heard
      =
    reception.heard ++ sinks.flatMap (reception.callsFor report) := by
  induction sinks generalizing reception with
  | nil => simp [deliverAll]
  | cons sink sinks ih =>
    have hothers := ih (reception.deliver sink report).2
    rw [heard_deliver, funext ((deliver_alike sink report reception).callsFor report)] at hothers
    rw [List.flatMap_cons, ← List.append_assoc]
    exact hothers

theorem getElem?_cases_deliver_of_ne {sink : Sink} {number : Nat} (hne : sink ≠ .inquiry number)
    (report : Report) (reception : Reception) :
    (reception.deliver sink report).2.cases[number]? = reception.cases[number]? := by
  cases sink with
  | inquiry other =>
    have hother : other ≠ number := fun heq => hne (heq ▸ rfl)
    rw [cases_deliver_inquiry]
    simp [step, hother]
  | observers => rw [cases_deliver_observers]
  | _ => rfl

theorem getElem?_cases_deliverAll_of_filter_eq_nil {sinks : List Sink} {number : Nat}
    (hnone : sinks.filter (· = .inquiry number) = []) (report : Report) (reception : Reception) :
    (reception.deliverAll report sinks).cases[number]? = reception.cases[number]? := by
  induction sinks generalizing reception with
  | nil => rfl
  | cons sink sinks ih =>
    by_cases hsink : sink = .inquiry number
    . simp [hsink] at hnone
    . rw [List.filter_cons_of_neg (by simpa using hsink)] at hnone
      have hothers := ih hnone (reception.deliver sink report).2
      rw [getElem?_cases_deliver_of_ne hsink] at hothers
      exact hothers

theorem getElem?_cases_deliverAll {sinks : List Sink} {number : Nat} {case : Case}
    (honce : sinks.filter (· = .inquiry number) = [.inquiry number]) (report : Report)
    {reception : Reception} (hcase : reception.cases[number]? = some case) :
    (reception.deliverAll report sinks).cases[number]?
      =
    some { case with inquiry := case.inquiry.step (.reported report) } := by
  induction sinks generalizing reception with
  | nil => simp at honce
  | cons sink sinks ih =>
    by_cases hsink : sink = .inquiry number
    . subst hsink
      have hnone : sinks.filter (· = .inquiry number) = [] := by simpa using honce
      have hothers := getElem?_cases_deliverAll_of_filter_eq_nil hnone report
        (reception.deliver (.inquiry number) report).2
      rw [cases_deliver_inquiry, getElem?_cases_step hcase] at hothers
      exact hothers
    . rw [List.filter_cons_of_neg (by simpa using hsink)] at honce
      apply ih honce
      rw [getElem?_cases_deliver_of_ne hsink, hcase]

end Reception

namespace Inbox

open Reception

/--
Those who are told of a response that arrives, if the observers let it through.
-/
def reached (inbox : Inbox Sink) (now : Nat) : List Sink :=
  (inbox.expire now).pending.map (·.listener) ++ inbox.observers.members

theorem foldl_deliver (report : Report) (pending : List (Pending Sink)) (inbox : Inbox Sink)
    (reception : Reception) :
    pending.foldl
        (fun (s : Inbox Sink × Reception) waiting =>
          (s.1, (s.2.deliver waiting.listener report).2)) (inbox, reception)
      =
    (inbox, reception.deliverAll report (pending.map (·.listener))) := by
  induction pending generalizing reception with
  | nil => rfl
  | cons first others ih => exact ih (reception.deliver first.listener report).2

theorem deliver_eq_of_observers {inbox : Inbox Sink}
    (hobservers : inbox.observers.members = [.observers]) {payload : List UInt8}
    {response : Message} (hresponse : response? payload = some response) (reception : Reception) :
    (inbox.deliver payload reception).2
      =
    (inbox.expire reception.now,
      reception.deliverAll ⟨response.id, .message response⟩ (inbox.reached reception.now)) := by
  have hwaiting := foldl_deliver ⟨response.id, .message response⟩
    (inbox.expire reception.now).pending (inbox.expire reception.now) reception
  have hexpire : (inbox.expire reception.now).observers.members = [.observers] := hobservers
  simp only [deliver, receive, hresponse, route, hwaiting, Fanout.dispatch, hexpire, reached,
    hobservers, deliverAll, List.foldl_append]
  rw [Fanout.callAll_singleton]
  rfl

theorem deliver_of_none {payload : List UInt8} (hnone : response? payload = none)
    (inbox : Inbox Sink) (reception : Reception) :
    (inbox.deliver payload reception).2 = (inbox, reception) := by
  simp only [deliver, receive, hnone]

theorem deliver_alike {inbox : Inbox Sink} (hobservers : inbox.observers.members = [.observers])
    (payload : List UInt8) (reception : Reception) :
    (inbox.deliver payload reception).2.1.observers = inbox.observers ∧
    (inbox.deliver payload reception).2.1.pending ⊆ inbox.pending ∧
    Alike reception (inbox.deliver payload reception).2.2 := by
  cases hresponse : response? payload with
  | none =>
    rw [deliver_of_none hresponse]
    exact ⟨rfl, List.Subset.refl _, Alike.refl reception⟩
  | some response =>
    rw [deliver_eq_of_observers hobservers hresponse]
    exact ⟨rfl, List.filter_sublist.subset, alike_deliverAll ..⟩

theorem heard_deliver {inbox : Inbox Sink} (hobservers : inbox.observers.members = [.observers])
    {payload : List UInt8} {response : Message} (hresponse : response? payload = some response)
    (reception : Reception) :
    (inbox.deliver payload reception).2.2.heard
      =
    reception.heard ++
      ((inbox.expire reception.now).pending.map (·.listener)).flatMap
        (reception.callsFor ⟨response.id, .message response⟩) ++
      reception.callsFor ⟨response.id, .message response⟩ .observers := by
  rw [deliver_eq_of_observers hobservers hresponse, heard_deliverAll, reached, hobservers,
    List.flatMap_append, List.flatMap_singleton, List.append_assoc]

end Inbox

end Zeroconf
