import Zeroconf.Proofs.Fanout.Course

/-!
This module contains calls of lists of listeners who change lists while they are called. A call
reaches those who are on the list when it begins, and nothing that they do changes that.
-/

namespace Zeroconf.Fanout

variable {α : Type}

/--
Whether every listener behaves in his turn according to his manners and to what has happened.
-/
def Conforms (manners : Manners α) : List (Event α) → List (Turn α) → Prop
  | _, [] => True
  | diary, turn :: turns =>
    (manners (diary ++ [.called turn.listener]) turn.listener).Leads turn.made turn.outcome ∧
      Conforms manners (diary ++ turn.events) turns

/--
Whether a call of listeners can end after these turns, with the given result: all of them had their
turn, or the last one has stopped the call or failed.
-/
inductive Ends (listeners : List α) : List (Turn α) → Except Error Unit → Prop
  | through {turns : List (Turn α)} (hlisteners : turns.map (·.listener) = listeners)
      (hok : ∀ turn ∈ turns, turn.outcome = .ok) : Ends listeners turns (.ok ())
  | stop (earlier : List (Turn α)) {last : Turn α} (hok : ∀ turn ∈ earlier, turn.outcome = .ok)
      (hlast : last.outcome = .stop) : Ends listeners (earlier ++ [last]) (.ok ())
  | fail (earlier : List (Turn α)) {last : Turn α} {reason : String}
      (hok : ∀ turn ∈ earlier, turn.outcome = .ok) (hlast : last.outcome = .fail reason) :
      Ends listeners (earlier ++ [last]) (.error (.listener reason))

theorem Ends.cons {listeners : List α} {turns : List (Turn α)} {result : Except Error Unit}
    (h : Ends listeners turns result) {turn : Turn α} (hok : turn.outcome = .ok) :
    Ends (turn.listener :: listeners) (turn :: turns) result := by
  cases h with
  | through hlisteners hothers =>
    exact .through (by simp [hlisteners]) (List.forall_mem_cons.mpr ⟨hok, hothers⟩)
  | stop earlier hothers hlast =>
    exact .stop (turn :: earlier) (List.forall_mem_cons.mpr ⟨hok, hothers⟩) hlast
  | fail earlier hothers hlast =>
    exact .fail (turn :: earlier) (List.forall_mem_cons.mpr ⟨hok, hothers⟩) hlast

namespace Course

variable [BEq α]

theorem exists_turns (manners : Manners α) (listeners : List α) (s : Course α) :
    ∃ turns : List (Turn α), turns.map (·.listener) <+: listeners ∧
      Conforms manners s.diary turns ∧
      s.Takes (turns.flatMap Turn.events) (callAll (call manners) listeners s).2 ∧
      Ends listeners turns (callAll (call manners) listeners s).1 := by
  induction listeners generalizing s with
  | nil => exact ⟨[], List.prefix_refl _, trivial, .refl s, .through rfl (by simp)⟩
  | cons listener others ih =>
    rcases exists_turn manners listener s with ⟨turn, rfl, houtcome, htakes, hleads⟩
    rw [callAll]
    generalize call manners turn.listener s = called at houtcome htakes
    rcases called with ⟨outcome, between⟩
    have hsingle : s.Takes ([turn].flatMap Turn.events) between := by
      rw [List.flatMap_singleton]
      exact htakes
    have hprefix : [turn].map (·.listener) <+: turn.listener :: others :=
      ⟨others, rfl⟩
    cases outcome with
    | ok =>
      rcases ih between with ⟨turns, hothers, hconforms, hlater, hends⟩
      rw [htakes.diary] at hconforms
      refine ⟨turn :: turns, ?_, ⟨hleads, hconforms⟩, ?_, hends.cons houtcome⟩
      . exact (List.prefix_cons_inj turn.listener).mpr hothers
      . exact htakes.trans hlater
    | stop =>
      exact ⟨[turn], hprefix, ⟨hleads, trivial⟩, hsingle,
        .stop [] (by simp) houtcome⟩
    | fail reason =>
      exact ⟨[turn], hprefix, ⟨hleads, trivial⟩, hsingle,
        .fail [] (by simp) houtcome⟩

end Course

def Behaviour.conduct (list : Nat) (behaviour : Behaviour α) : Conduct α :=
  behaviour.changes.foldr (fun change next => .make list change fun _ => next)
    (.finish behaviour.outcome)

def Event.called? : Event α → Option α
  | .called listener => some listener
  | _ => none

theorem callAll_related {σ τ : Type} (related : σ → τ → Prop) {call : α → σ → Outcome × σ}
    {other : α → τ → Outcome × τ}
    (hcall : ∀ listener s t, related s t → (call listener s).1 = (other listener t).1 ∧
      related (call listener s).2 (other listener t).2)
    (listeners : List α) {s : σ} {t : τ} (h : related s t) :
    (callAll call listeners s).1 = (callAll other listeners t).1 ∧
      related (callAll call listeners s).2 (callAll other listeners t).2 := by
  induction listeners generalizing s t with
  | nil => exact ⟨rfl, h⟩
  | cons listener others ih =>
    rcases hcall listener s t h with ⟨houtcome, hlater⟩
    rw [callAll, callAll]
    generalize call listener s = called at houtcome hlater
    generalize other listener t = called' at houtcome hlater
    rcases called with ⟨outcome, s'⟩
    rcases called' with ⟨outcome', t'⟩
    cases houtcome
    cases outcome with
    | ok => exact ih hlater
    | _ => exact ⟨rfl, hlater⟩

section Behaviours

variable [BEq α]

theorem play_conduct (list : Nat) (behaviour : Behaviour α) (s : Course α) :
    let played := Course.play (behaviour.conduct list) s
    played.1 = behaviour.outcome ∧
      played.2.lists list = behaviour.changes.foldl apply (s.lists list) ∧
      played.2.diary.filterMap Event.called? = s.diary.filterMap Event.called? := by
  rcases behaviour with ⟨changes, outcome⟩
  induction changes generalizing s with
  | nil => exact ⟨rfl, rfl, rfl⟩
  | cons change changes ih =>
    rcases ih (s.change list change).2 with ⟨houtcome, hlist, hcalls⟩
    refine ⟨houtcome, hlist.trans ?_, hcalls.trans ?_⟩
    . simp [Course.change, Course.note]
    . simp [Course.change, Course.note, Event.called?]

theorem dispatchChanging_eq (behaviour : α → Behaviour α) (list : Nat) (s : Course α) :
    let called := (s.lists list).dispatchChanging behaviour
    let dispatched :=
      (s.dispatcher list).dispatch (fun _ listener => (behaviour listener).conduct list) s
    called.1 = dispatched.1 ∧ called.2.fanout = dispatched.2.lists list ∧
      dispatched.2.diary.filterMap Event.called?
        = s.diary.filterMap Event.called? ++ called.2.calls := by
  apply callAll_related fun (called : Called α) (later : Course α) =>
    called.fanout = later.lists list ∧
      later.diary.filterMap Event.called? = s.diary.filterMap Event.called? ++ called.calls
  . rintro listener called later ⟨hfanout, hcalls⟩
    rcases play_conduct list (behaviour listener) (later.note (.called listener)) with
      ⟨houtcome, hlist, hdiary⟩
    refine ⟨houtcome.symm, ?_, ?_⟩
    . rw [Called.call, hfanout]
      exact hlist.symm
    . have hnote : (later.note (.called listener)).diary.filterMap Event.called?
          = later.diary.filterMap Event.called? ++ [listener] := by
        simp [Course.note, Event.called?]
      rw [Called.call, ← List.append_assoc, ← hcalls, ← hnote, ← hdiary]
      simp [Course.call, Course.note, Event.called?]
  . exact ⟨rfl, by simp⟩

end Behaviours

variable [DecidableEq α]

/--
A dispatch calls the listeners who are on the list when it begins, in their order and each one once,
up to the first who stops it or fails, whatever they do to the lists in the meantime. It is an error
only if somebody fails, with his reason. What they did is all that has happened, so that afterwards
every list is what their changes make of it. Listeners who always behave in the same way are a case
of this.
-/
theorem dispatch_present :
    (∀ (acts : List (Act α)) (dispatcher : Dispatcher) (manners : Manners α),
      let s := Course.run acts
      let present := (s.lists dispatcher.list).members
      let dispatched := dispatcher.dispatch manners s
      ∃ turns : List (Turn α),
        turns.map (·.listener) <+: present ∧ (turns.map (·.listener)).Nodup ∧
        Conforms manners s.diary turns ∧ Ends present turns dispatched.1 ∧
        s.Takes (turns.flatMap Turn.events) dispatched.2) ∧
    ∀ (behaviour : α → Behaviour α) (list : Nat) (s : Course α),
      let called := (s.lists list).dispatchChanging behaviour
      let dispatched :=
        (s.dispatcher list).dispatch (fun _ listener => (behaviour listener).conduct list) s
      called.1 = dispatched.1 ∧ called.2.fanout = dispatched.2.lists list ∧
        dispatched.2.diary.filterMap Event.called?
          = s.diary.filterMap Event.called? ++ called.2.calls := by
  refine ⟨?_, dispatchChanging_eq⟩
  intro acts dispatcher manners s present dispatched
  rcases Course.exists_turns manners present s with ⟨turns, hprefix, hconforms, htakes, hends⟩
  refine ⟨turns, hprefix, ?_, hconforms, hends, htakes⟩
  exact (Course.valid_run acts dispatcher.list).nodup.sublist hprefix.sublist

example :
    let behaviour : Nat → Behaviour Nat := fun listener =>
      if listener = 1 then { changes := [.unregister 2, .register 4] }
      else if listener = 2 then { changes := [.close], outcome := .stop }
      else {}
    (after [.register 1, .register 2, .register 3]).dispatchChanging behaviour
      =
    (.ok (), ⟨⟨[], true⟩, [1, 2]⟩) := by
  rfl

end Zeroconf.Fanout
