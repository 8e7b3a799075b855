import Mathlib.Logic.Function.Iterate
import Zeroconf.Proofs.Reception.Delivery

/-!
This module contains the calls that go out to lists of listeners within lists. They reach the
listeners depth first in the order of their registration; one who stops a call keeps it from the
rest of his own list, and one who fails ends it everywhere.
-/

namespace Zeroconf.Audience

variable {α σ : Type}

/--
Where somebody is: his number on each list on the way to him, the outermost list first.
-/
abbrev Place := List Nat

def at? (audience : Audience α) : Place → Option (Audience α)
  | [] => some audience
  | number :: place =>
    match audience with
    | one _ => none
    | many members => members[number]?.bind (at? · place)

def play (call : α → σ → Outcome × σ) :
    List (Place × α) → σ → List (Place × Outcome) × σ
  | [], s => ([], s)
  | (place, listener) :: others, s =>
    let (outcome, s) := call listener s
    let (outcomes, s) := play call others s
    ((place, outcome) :: outcomes, s)

/--
Whether the outcome of one call keeps a listener at a later place from being called.
-/
def Bars (called : Place × Outcome) (place : Place) : Prop :=
  match called.2 with
  | .ok => False
  | .stop => called.1.dropLast <+: place
  | .fail _ => True

def wrap (reason : String) : String := (Error.listener reason).message

def under {β : Type} (number : Nat) (entry : Place × β) : Place × β :=
  (number :: entry.1, entry.2)

variable {call : α → σ → Outcome × σ}

theorem play_append (call : α → σ → Outcome × σ) (first second : List (Place × α)) (s : σ) :
    play call (first ++ second) s
      =
    ((play call first s).1 ++ (play call second (play call first s).2).1,
      (play call second (play call first s).2).2) := by
  induction first generalizing s with
  | nil => rfl
  | cons entry first ih => simp [play, ih]

theorem play_under (call : α → σ → Outcome × σ) (number : Nat) (called : List (Place × α)) (s : σ) :
    play call (called.map (under number)) s
      =
    ((play call called s).1.map (under number), (play call called s).2) := by
  induction called generalizing s with
  | nil => rfl
  | cons entry called ih => simp [play, under, ih]

theorem map_fst_play (called : List (Place × α)) (s : σ) :
    (play call called s).1.map (·.1) = called.map (·.1) := by
  induction called generalizing s with
  | nil => rfl
  | cons entry called ih => simp [play, ih]

theorem exists_mem_of_mem_play {called : List (Place × α)} {s : σ} {other : Place × Outcome}
    (h : other ∈ (play call called s).1) : ∃ listener, (other.1, listener) ∈ called := by
  have hplace := List.mem_map_of_mem (f := (·.1)) h
  rw [map_fst_play] at hplace
  simpa using hplace

/--
Whether those are called, in the order of their places, whom nobody called before keeps from it.
-/
structure Reaches (call : α → σ → Outcome × σ) (s : σ) (isAt : Place → α → Prop)
    (called : List (Place × α)) : Prop where
  order : called.Pairwise fun first second => first.1 < second.1
  mem_iff : ∀ place listener, (place, listener) ∈ called ↔ isAt place listener ∧
    ∀ other ∈ (play call called s).1, other.1 < place → ¬ Bars other place

section Regions

variable {s : σ} {front behind : Place → α → Prop} {first second : List (Place × α)}

theorem Reaches.exists_isAt (h : Reaches call s front first) {other : Place × Outcome}
    (hmem : other ∈ (play call first s).1) : ∃ listener, front other.1 listener := by
  rcases exists_mem_of_mem_play hmem with ⟨listener, hcalled⟩
  exact ⟨listener, ((h.mem_iff _ _).mp hcalled).1⟩

theorem Reaches.append (h : Reaches call s front first)
    (h' : Reaches call (play call first s).2 behind second)
    (hbefore : ∀ place listener later other, front place listener → behind later other →
      place < later)
    (hpasses : ∀ other ∈ (play call first s).1, ∀ place listener, behind place listener →
      ¬ Bars other place) :
    Reaches call s (fun place listener => front place listener ∨ behind place listener)
      (first ++ second) where
  order := by
    rw [List.pairwise_append]
    refine ⟨h.order, h'.order, ?_⟩
    intro entry hentry later hlater
    exact hbefore _ _ _ _ ((h.mem_iff _ _).mp hentry).1 ((h'.mem_iff _ _).mp hlater).1
  mem_iff place listener := by
    rw [play_append, List.mem_append]
    simp only [List.forall_mem_append]
    constructor
    . rintro (hmem | hmem)
      . rcases (h.mem_iff place listener).mp hmem with ⟨hat, hothers⟩
        refine ⟨.inl hat, hothers, ?_⟩
        intro other hother hlt
        rcases h'.exists_isAt hother with ⟨_, hbehind⟩
        exact absurd hlt (List.lt_asymm (hbefore _ _ _ _ hat hbehind))
      . rcases (h'.mem_iff place listener).mp hmem with ⟨hat, hothers⟩
        refine ⟨.inr hat, ?_, hothers⟩
        intro other hother _
        exact hpasses other hother place listener hat
    . rintro ⟨hat | hat, hothers, hlater⟩
      . exact .inl ((h.mem_iff place listener).mpr ⟨hat, hothers⟩)
      . exact .inr ((h'.mem_iff place listener).mpr ⟨hat, hlater⟩)

theorem Reaches.barred (h : Reaches call s front first) {other : Place × Outcome}
    (hother : other ∈ (play call first s).1)
    (hbefore : ∀ place listener later other, front place listener → behind later other →
      place < later)
    (hbars : ∀ place listener, behind place listener → Bars other place) :
    Reaches call s (fun place listener => front place listener ∨ behind place listener)
      first where
  order := h.order
  mem_iff place listener := by
    constructor
    . intro hmem
      rcases (h.mem_iff place listener).mp hmem with ⟨hat, hothers⟩
      exact ⟨.inl hat, hothers⟩
    . rintro ⟨hat | hat, hothers⟩
      . exact (h.mem_iff place listener).mpr ⟨hat, hothers⟩
      . rcases h.exists_isAt hother with ⟨_, hfront⟩
        exact absurd (hbars place listener hat) (hothers other hother (hbefore _ _ _ _ hfront hat))

theorem bars_under_iff (number : Nat) (other : Place × Outcome) (place : Place) :
    Bars (under number other) (number :: place) ↔ Bars other place := by
  rcases other with ⟨at', outcome⟩
  cases outcome with
  | ok => rfl
  | fail reason => rfl
  | stop =>
    cases at' with
    | nil => simp [Bars, under]
    | cons inner at' => simp [Bars, under]

theorem not_bars_under {number later : Nat} (hne : number ≠ later) {other : Place × Outcome}
    (hfail : ∀ reason, other.2 ≠ .fail reason) (hstop : other ≠ ([], .stop)) (place : Place) :
    ¬ Bars (under number other) (later :: place) := by
  rcases other with ⟨at', outcome⟩
  cases outcome with
  | ok => exact id
  | fail reason => exact absurd rfl (hfail reason)
  | stop =>
    cases at' with
    | nil => exact absurd rfl hstop
    | cons inner at' => simp [Bars, under, hne]

theorem Reaches.under (h : Reaches call s front first) (number : Nat) :
    Reaches call s
      (fun place listener => ∃ inner, place = number :: inner ∧ front inner listener)
      (first.map (under number)) where
  order := by
    rw [List.pairwise_map]
    apply h.order.imp
    intro entry later hlt
    exact List.cons_lt_cons_iff.mpr (.inr ⟨rfl, hlt⟩)
  mem_iff place listener := by
    rw [play_under]
    simp only [List.mem_map, forall_exists_index, and_imp, forall_apply_eq_imp_iff₂]
    constructor
    . rintro ⟨⟨inner, _⟩, hmem, heq⟩
      cases heq
      rcases (h.mem_iff _ _).mp hmem with ⟨hat, hothers⟩
      refine ⟨⟨inner, rfl, hat⟩, ?_⟩
      intro other hother hlt
      rw [bars_under_iff]
      apply hothers other hother
      simpa [Audience.under, List.cons_lt_cons_iff] using hlt
    . rintro ⟨⟨inner, rfl, hat⟩, hothers⟩
      refine ⟨(inner, listener), ?_, rfl⟩
      rw [h.mem_iff]
      refine ⟨hat, ?_⟩
      intro other hother hlt
      rw [← bars_under_iff number]
      apply hothers other hother
      exact List.cons_lt_cons_iff.mpr (.inr ⟨rfl, hlt⟩)

end Regions

/--
Whether an outcome is what the outcomes of those who were called make of it. Whoever is called as a
listener of his own is at the empty place.
-/
inductive Concludes (outcomes : List (Place × Outcome)) : Outcome → Prop
  | ok : (∀ other ∈ outcomes, ∀ reason, other.2 ≠ .fail reason) → ([], .stop) ∉ outcomes →
      Concludes outcomes .ok
  | stop : (∀ other ∈ outcomes, ∀ reason, other.2 ≠ .fail reason) → ([], .stop) ∈ outcomes →
      Concludes outcomes .stop
  | fail {place : Place} {reason : String} : (place, .fail reason) ∈ outcomes →
      Concludes outcomes (.fail (wrap^[place.length] reason))

inductive Settles (outcomes : List (Place × Outcome)) : Except Error Unit → Prop
  | ok : (∀ other ∈ outcomes, ∀ reason, other.2 ≠ .fail reason) → Settles outcomes (.ok ())
  | fail {place : Place} {reason : String} : (place, .fail reason) ∈ outcomes →
      Settles outcomes (.error (.listener (wrap^[place.length - 1] reason)))

/--
Whether a listener is at a place of members that are numbered from `start` on.
-/
def IsAtFrom (start : Nat) (members : List (Audience α)) (place : Place) (listener : α) : Prop :=
  ∃ number inner, place = (start + number) :: inner ∧
    members[number]?.bind (at? · inner) = some (one listener)

theorem isAtFrom_cons_iff {start : Nat} {member : Audience α} {others : List (Audience α)}
    {place : Place} {listener : α} :
    IsAtFrom start (member :: others) place listener
      ↔
    (∃ inner, place = start :: inner ∧ member.at? inner = some (one listener)) ∨
      IsAtFrom (start + 1) others place listener := by
  constructor
  . rintro ⟨number, inner, rfl, hat⟩
    cases number with
    | zero => exact .inl ⟨inner, rfl, hat⟩
    | succ number => exact .inr ⟨number, inner, by rw [Nat.add_right_comm]; rfl, hat⟩
  . rintro (⟨inner, rfl, hat⟩ | ⟨number, inner, rfl, hat⟩)
    . exact ⟨0, inner, rfl, hat⟩
    . exact ⟨number + 1, inner, by rw [Nat.add_right_comm]; rfl, hat⟩

theorem isAt_many_iff {members : List (Audience α)} {place : Place} {listener : α} :
    (many members).at? place = some (one listener) ↔ IsAtFrom 0 members place listener := by
  cases place with
  | nil => simp [at?, IsAtFrom]
  | cons number inner => simp [at?, IsAtFrom]

theorem Reaches.congr {s : σ} {isAt other : Place → α → Prop} {called : List (Place × α)}
    (h : Reaches call s isAt called)
    (hiff : ∀ place listener, isAt place listener ↔ other place listener) :
    Reaches call s other called where
  order := h.order
  mem_iff place listener := by
    rw [← hiff]
    exact h.mem_iff place listener

mutual

theorem exists_reaches (call : α → σ → Outcome × σ) (audience : Audience α) (s : σ) :
    ∃ called, Reaches call s (fun place listener => audience.at? place = some (one listener))
        called ∧
      (hear call audience s).2 = (play call called s).2 ∧
      Concludes (play call called s).1 (hear call audience s).1 := by
  cases audience with
  | one listener =>
    refine ⟨[([], listener)], ?_, by simp [hear, play], ?_⟩
    . constructor
      . simp
      . rintro (_ | ⟨number, place⟩) other
        . simp [at?, play, eq_comm]
        . simp [at?]
    . simp only [hear, play]
      cases houtcome : (call listener s).1 with
      | ok => exact .ok (by simp) (by simp)
      | stop => exact .stop (by simp) (by simp)
      | fail reason => exact .fail (List.mem_singleton_self ([], _))
  | many members =>
    rcases exists_reachesFrom call 0 members s with ⟨called, hreaches, hstate, hsettles⟩
    refine ⟨called, hreaches.congr fun _ _ => isAt_many_iff.symm, hstate, ?_⟩
    -- Nobody on the list is at the empty place, where a failure would not be wrapped.
    have hcons : ∀ other ∈ (play call called s).1, other.1 ≠ [] := by
      intro other hother hnil
      rcases hreaches.exists_isAt hother with ⟨_, number, inner, hplace, -⟩
      simp [hnil] at hplace
    simp only [hear]
    generalize (hearAll call members s).1 = result at hsettles
    cases hsettles with
    | ok hnone => exact .ok hnone fun hmem => hcons _ hmem rfl
    | @fail place reason hmem =>
      cases place with
      | nil => exact absurd rfl (hcons _ hmem)
      | cons number inner =>
        have hfail := Concludes.fail hmem
        rw [List.length_cons, Function.iterate_succ_apply'] at hfail
        exact hfail

theorem exists_reachesFrom (call : α → σ → Outcome × σ) (start : Nat)
    (members : List (Audience α)) (s : σ) :
    ∃ called, Reaches call s (IsAtFrom start members) called ∧
      (hearAll call members s).2 = (play call called s).2 ∧
      Settles (play call called s).1 (hearAll call members s).1 := by
  cases members with
  | nil =>
    refine ⟨[], ⟨List.Pairwise.nil, ?_⟩, rfl, .ok (by simp [play])⟩
    simp [IsAtFrom]
  | cons member others =>
    rcases exists_reaches call member s with ⟨first, hfirst, hstate, hconcludes⟩
    have hunder := hfirst.under start
    have hplay := play_under call start first s
    have hbefore : ∀ place listener later other,
        (∃ inner, place = start :: inner ∧ member.at? inner = some (one listener)) →
        IsAtFrom (start + 1) others later other → place < later := by
      rintro _ _ _ _ ⟨inner, rfl, -⟩ ⟨number, later, rfl, -⟩
      exact List.cons_lt_cons_iff.mpr (.inl (by omega))
    rw [hearAll]
    -- The others are called only if the first member neither stopped the call nor failed.
    generalize hheard : hear call member s = heard at hstate hconcludes
    rcases heard with ⟨outcome, between⟩
    cases hconcludes with
    | ok hnone hstop =>
      rcases exists_reachesFrom call (start + 1) others between with
        ⟨second, hsecond, hlast, hsettles⟩
      have hthrough : (play call (first.map (under start)) s).2 = between := by
        rw [hplay]
        exact hstate.symm
      have happend := play_append call (first.map (under start)) second s
      rw [hthrough, hplay] at happend
      refine ⟨first.map (under start) ++ second, ?_, ?_, ?_⟩
      . rw [← hthrough] at hsecond
        apply (hunder.append hsecond hbefore ?_).congr fun _ _ => isAtFrom_cons_iff.symm
        rintro other hother _ _ ⟨number, later, rfl, -⟩
        rw [hplay] at hother
        rcases List.mem_map.mp hother with ⟨inner, hinner, rfl⟩
        apply not_bars_under (by omega) (hnone inner hinner)
        intro heq
        exact hstop (heq ▸ hinner)
      . rw [happend]
        exact hlast
      . rw [happend]
        generalize (hearAll call others between).1 = result at hsettles
        cases hsettles with
        | ok hothers =>
          apply Settles.ok
          rw [List.forall_mem_append, List.forall_mem_map]
          exact ⟨hnone, hothers⟩
        | fail hmem => exact .fail (List.mem_append_right _ hmem)
    | stop hnone hstop =>
      have hmem : ([start], Outcome.stop) ∈ (play call (first.map (under start)) s).1 := by
        rw [hplay]
        exact List.mem_map_of_mem (f := under start) hstop
      refine ⟨first.map (under start), ?_, ?_, ?_⟩
      . apply (hunder.barred hmem hbefore ?_).congr fun _ _ => isAtFrom_cons_iff.symm
        intro _ _ _
        simp [Bars]
      . rw [hplay]
        exact hstate
      . rw [hplay]
        apply Settles.ok
        rw [List.forall_mem_map]
        exact hnone
    | @fail place reason hfail =>
      have hmem : (start :: place, Outcome.fail reason)
          ∈ (play call (first.map (under start)) s).1 := by
        rw [hplay]
        exact List.mem_map_of_mem (f := under start) hfail
      refine ⟨first.map (under start), ?_, ?_, ?_⟩
      . apply (hunder.barred hmem hbefore ?_).congr fun _ _ => isAtFrom_cons_iff.symm
        intro _ _ _
        trivial
      . rw [hplay]
        exact hstate
      . exact .fail hmem

end

theorem settles_iff {outcomes : List (Place × Outcome)} {result : Except Error Unit} :
    Settles outcomes result
      ↔
    (result = .ok () ∧ ∀ other ∈ outcomes, ∀ reason, other.2 ≠ .fail reason) ∨
      ∃ place reason, (place, .fail reason) ∈ outcomes ∧
        result = .error (.listener (wrap^[place.length - 1] reason)) := by
  constructor
  . intro h
    cases h with
    | ok hnone => exact .inl ⟨rfl, hnone⟩
    | fail hmem => exact .inr ⟨_, _, hmem, rfl⟩
  . rintro (⟨rfl, hnone⟩ | ⟨place, reason, hmem, rfl⟩)
    . exact .ok hnone
    . exact .fail hmem

theorem Reaches.not_lt_of_fail {s : σ} {isAt : Place → α → Prop} {called : List (Place × α)}
    (h : Reaches call s isAt called) {place : Place} {reason : String}
    (hfail : (place, .fail reason) ∈ (play call called s).1) {later : Place × α}
    (hlater : later ∈ called) : ¬ place < later.1 := by
  intro hlt
  exact ((h.mem_iff _ _).mp hlater).2 _ hfail hlt trivial

end Zeroconf.Audience

theorem Zeroconf.Fanout.callAll_map {α β σ : Type} (call : α → σ → Outcome × σ) (f : β → α)
    (listeners : List β) (s : σ) :
    callAll call (listeners.map f) s = callAll (fun listener => call (f listener)) listeners s := by
  induction listeners generalizing s with
  | nil => rfl
  | cons listener others ih => simp only [List.map_cons, callAll, ih]

namespace Zeroconf.Reception

open Audience

def tell (report : Report) (sink : Sink) (reception : Reception) : Outcome × Reception :=
  reception.deliver sink report

/--
Who is called on behalf of a sink: the observers are a list of their own.
-/
def audienceOf (reception : Reception) : Sink → Audience Sink
  | .observers => .many (reception.observers.members.map fun listener => .one (.observer listener))
  | sink => .one sink

theorem hear_audienceOf (report : Report) (sink : Sink) (reception : Reception) :
    (reception.audienceOf sink).hear (tell report) reception = reception.tell report sink := by
  cases sink with
  | observers =>
    have hone := hearAll_one (tell report) (reception.observers.members.map .observer) reception
    rw [List.map_map, Fanout.callAll_map] at hone
    simp only [audienceOf, Audience.hear, tell, deliver, Fanout.hear_audience, Fanout.dispatch]
    exact congrArg (fun heard => (Outcome.ofResult heard.1, heard.2)) hone
  | _ => rfl

theorem callAll_tell (report : Report) (sinks : List Sink) (reception : Reception) :
    Fanout.callAll (tell report) sinks reception
      =
    Fanout.callAll (Audience.hear (tell report)) (sinks.map reception.audienceOf) reception := by
  induction sinks generalizing reception with
  | nil => rfl
  | cons sink sinks ih =>
    -- Nobody who is told changes who observes.
    have hsame : (reception.tell report sink).2.audienceOf = reception.audienceOf := by
      funext other
      simp only [tell, audienceOf, (deliver_alike sink report reception).observers]
    rw [List.map_cons, Fanout.callAll, Fanout.callAll, hear_audienceOf]
    split
    . next h =>
      rw [h] at hsame
      rw [ih, hsame]
    . rfl
    . rfl

end Zeroconf.Reception

namespace Zeroconf

theorem Fanout.callAll_beside {α β σ : Type} (call : α → σ → Outcome × σ) (listeners : List α)
    (beside : β) (s : σ) :
    callAll (fun listener (s : β × σ) => ((call listener s.2).1, s.1, (call listener s.2).2))
        listeners (beside, s)
      =
    ((callAll call listeners s).1, beside, (callAll call listeners s).2) := by
  induction listeners generalizing s with
  | nil => rfl
  | cons listener others ih =>
    simp only [callAll]
    generalize call listener s = heard
    rcases heard with ⟨outcome, later⟩
    cases outcome with
    | ok => exact ih later
    | _ => rfl

theorem Inbox.route_tell (report : Report) (now : Nat) (inbox : Inbox Sink)
    (reception : Reception) :
    Inbox.route
        (fun sink (s : Inbox Sink × Reception) =>
          ((s.2.tell report sink).1, s.1, (s.2.tell report sink).2)) now (inbox, reception)
      =
    let told := reception.deliverAll report ((inbox.expire now).pending.map (·.listener))
    let observers : Fanout (Audience Sink) :=
      ⟨inbox.observers.members.map told.audienceOf, inbox.observers.closed⟩
    let heard := observers.dispatch (Audience.hear (Reception.tell report)) told
    (.ofResult heard.1, inbox.expire now, heard.2) := by
  have hwaiting :
      (inbox.expire now).pending.foldl
          (fun (s : Inbox Sink × Reception) waiting =>
            (s.1, (s.2.tell report waiting.listener).2))
          (inbox.expire now, reception)
        =
      (inbox.expire now,
        reception.deliverAll report ((inbox.expire now).pending.map (·.listener))) :=
    Inbox.foldl_deliver report (inbox.expire now).pending (inbox.expire now) reception
  unfold Inbox.route
  dsimp only
  rw [hwaiting]
  simp only [Fanout.dispatch, ← Reception.callAll_tell]
  rw [Fanout.callAll_beside (Reception.tell report)]
  rfl

namespace Audience

/--
A call to lists within lists reaches the listeners depth first in the order of their registration,
each one unless somebody in front of him has stopped the call on a list on which he is or has
failed. The call ends well if nobody fails; otherwise it ends with the failure, wrapped once for
each list between the outermost one and the listener. The inbox of a link calls its observers so.
-/
theorem dispatch_nested :
    (∀ {α σ : Type} (call : α → σ → Outcome × σ) (fanout : Fanout (Audience α)) (s : σ),
      ∃ called : List (Place × α),
        let outcomes := (play call called s).1
        (fanout.dispatch (hear call) s).2 = (play call called s).2 ∧
        called.Pairwise (fun first second => first.1 < second.1) ∧
        (∀ place listener, (place, listener) ∈ called ↔
          (many fanout.members).at? place = some (one listener) ∧
            ∀ other ∈ outcomes, other.1 < place → ¬ Bars other place) ∧
        (((fanout.dispatch (hear call) s).1 = .ok () ∧
            ∀ other ∈ outcomes, ∀ reason, other.2 ≠ .fail reason) ∨
          ∃ place reason, (place, .fail reason) ∈ outcomes ∧
            (∀ later ∈ called, ¬ place < later.1) ∧
            (fanout.dispatch (hear call) s).1
              = .error (.listener (wrap^[place.length - 1] reason)))) ∧
    ∀ (report : Report) (now : Nat) (inbox : Inbox Sink) (reception : Reception),
      Inbox.route
          (fun sink (s : Inbox Sink × Reception) =>
            ((s.2.tell report sink).1, s.1, (s.2.tell report sink).2)) now (inbox, reception)
        =
      let told := reception.deliverAll report ((inbox.expire now).pending.map (·.listener))
      let observers : Fanout (Audience Sink) :=
        ⟨inbox.observers.members.map told.audienceOf, inbox.observers.closed⟩
      let heard := observers.dispatch (hear (Reception.tell report)) told
      (.ofResult heard.1, inbox.expire now, heard.2) := by
  refine ⟨?_, Inbox.route_tell⟩
  intro α σ call fanout s
  rcases exists_reachesFrom call 0 fanout.members s with ⟨called, hreaches, hstate, hsettles⟩
  have hmany := hreaches.congr fun _ _ => isAt_many_iff.symm
  have hdispatch : fanout.dispatch (hear call) s = hearAll call fanout.members s :=
    (hearAll_eq_callAll call fanout.members s).symm
  rw [hdispatch]
  refine ⟨called, hstate, hmany.order, hmany.mem_iff, ?_⟩
  rcases settles_iff.mp hsettles with hok | ⟨place, reason, hfail, hresult⟩
  . exact .inl hok
  . exact .inr ⟨place, reason, hfail, fun later => hreaches.not_lt_of_fail hfail, hresult⟩

example :
    let members : List (Audience Nat) :=
      [.many [.one 1, .many [.one 2, .one 3], .one 4], .many [.one 5, .many [.one 6]], .one 7]
    let call := fun listener (log : List Nat) =>
      (if listener = 2 then .stop else if listener = 6 then .fail "gone" else .ok,
        log ++ [listener])
    hearAll call members []
      =
    (.error (.listener (wrap (wrap "gone"))), [1, 2, 4, 5, 6]) := by
  rfl

end Audience

end Zeroconf
