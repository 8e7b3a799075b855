import Zeroconf.Proofs.Inquiry.Course
import Zeroconf.Proofs.Machine

/-!
This module contains inquiries that several callers want to send, maybe at once. Each of their calls
consists of separate steps, between which other calls go on, replies come in and the time passes.
Only the call that is the first to begin asks anybody.
-/

namespace Zeroconf.Querier

/--
How far a call has come. `behind` are those who are still to be asked.
-/
inductive Sending.Stage (α : Type) where
  | called
  | asks (behind : List α)
  /-- Somebody is being asked who has neither taken nor refused the query yet. -/
  | awaits (behind : List α)
  | ended

structure Sending.Sender (α : Type) where
  multicast : List α
  nameservers : List α
  stage : Sending.Stage α := .called

structure Sending.Asked (α : Type) where
  sender : Nat
  peer : α
  query : Message
  deriving DecidableEq

/--
An inquiry with all calls that are to send it, and the record of who was asked.
-/
structure Sending (α : Type) where
  inquiry : Inquiry
  now : Nat
  senders : List (Sending.Sender α) := []
  asked : List (Sending.Asked α) := []

inductive Sending.Act (α : Type) where
  | pass (time : Nat)
  | call (multicast nameservers : List α)
  /-- The call finds out whether another one has begun before. -/
  | begin (number : Nat)
  | ask (number : Nat)
  | conclude (number : Nat) (verdict : Except Error UInt16)
  | finish (number : Nat)
  | report (report : Report)

namespace Sending

variable {α : Type}

def fresh (α : Type) (query : Message) (responseWait timeout now : Nat) : Sending α :=
  { inquiry := .create query responseWait timeout now, now }

def Sender.peers (sender : Sender α) : List α × List α := (sender.multicast, sender.nameservers)

/--
Those who are in charge of a query, in the order in which they are asked.
-/
def Sender.targets (sender : Sender α) (query : Message) : List α :=
  (if Inquiry.selectsMulticast query sender.multicast.length then sender.multicast else []) ++
    if Inquiry.selectsUnicast query sender.nameservers.length then sender.nameservers else []

def stage? (s : Sending α) (number : Nat) : Option (Stage α) := s.senders[number]?.map (·.stage)

def goTo (s : Sending α) (number : Nat) (stage : Stage α) : Sending α :=
  { s with senders := s.senders.modify number ({ · with stage }) }

def step (s : Sending α) (event : Inquiry.Event) : Sending α :=
  { s with inquiry := s.inquiry.step event }

def next (s : Sending α) : Act α → Sending α
  | .pass time => { s with now := s.now + time }
  | .call multicast nameservers => { s with senders := s.senders ++ [{ multicast, nameservers }] }
  | .begin number =>
    match s.senders[number]? with
    | none => s
    | some sender =>
      if s.inquiry.phase == .created then
        let query := s.inquiry.query
        let usesUnicast := Inquiry.selectsUnicast query sender.nameservers.length
        (s.step (.begun s.now usesUnicast)).goTo number (.asks (sender.targets query))
      else
        s.goTo number .ended
  | .ask number =>
    match s.stage? number with
    | some (.asks (peer :: behind)) =>
      goTo { s with asked := s.asked ++ [⟨number, peer, s.inquiry.query⟩] } number (.awaits behind)
    | _ => s
  | .conclude number verdict =>
    match s.stage? number with
    | some (.awaits behind) => (s.step (.ofVerdict verdict)).goTo number (.asks behind)
    | _ => s
  | .finish number => (s.step .dispatched).goTo number .ended
  | .report report => s.step (.reported report)

/--
Whether something can happen: calls, reports and the passing of time always, and of what a call does
the next step.
-/
def Enabled (s : Sending α) : Act α → Prop
  | .pass _ | .call .. | .report _ => True
  | .begin number => s.stage? number = some .called
  | .ask number => ∃ peer behind, s.stage? number = some (.asks (peer :: behind))
  | .conclude number _ => ∃ behind, s.stage? number = some (.awaits behind)
  | .finish number => s.stage? number = some (.asks [])

def machine (α : Type) : Machine (Sending α) (Act α) where
  Enabled
  next

def Act.begins? : Act α → Option Nat
  | .begin number => some number
  | _ => none

def Act.peers? : Act α → Option (List α × List α)
  | .call multicast nameservers => some (multicast, nameservers)
  | _ => none

def Act.verdict? : Act α → Option (Except Error UInt16)
  | .conclude _ verdict => some verdict
  | _ => none

def Stage.behind : Stage α → List α
  | .asks behind | .awaits behind => behind
  | .called | .ended => []

/--
How many have been asked who have said nothing yet.
-/
def Stage.pending : Stage α → Nat
  | .awaits _ => 1
  | _ => 0

def Stage.phase : Stage α → Inquiry.Phase
  | .called => .created
  | .asks _ | .awaits _ => .dispatching
  | .ended => .started

theorem Stage.phase_ne_created {stage : Stage α} (h : stage ≠ .called) :
    stage.phase ≠ .created := by
  cases stage with
  | called => exact absurd rfl h
  | _ => simp [phase]

theorem Stage.eq_ended {stage : Stage α} (h : stage.phase = .started) : stage = .ended := by
  cases stage with
  | ended => rfl
  | _ => contradiction

structure Unsent (s : Sending α) : Prop where
  phase : s.inquiry.phase = .created
  sent : s.inquiry.sent = 0
  asked : s.asked = []
  stage : ∀ sender ∈ s.senders, sender.stage = .called

/--
Whether the call with the given number sends the inquiry or has sent it, and no other one does.
-/
structure Led (number : Nat) (sender : Sender α) (s : Sending α) : Prop where
  place : s.senders[number]? = some sender
  stage : sender.stage ≠ .called
  phase : s.inquiry.phase = sender.stage.phase
  asked : s.asked ++ sender.stage.behind.map (⟨number, ·, s.inquiry.query⟩)
    = (sender.targets s.inquiry.query).map (⟨number, ·, s.inquiry.query⟩)
  sent : s.inquiry.sent + sender.stage.pending = s.asked.length
  others : ∀ other stage, other ≠ number → s.stage? other = some stage →
    stage = .called ∨ stage = .ended

section Senders

variable {s : Sending α} {number other : Nat} {sender : Sender α} {stage : Stage α}

theorem stage?_of_place (h : s.senders[number]? = some sender) :
    s.stage? number = some sender.stage := by
  rw [stage?, h, Option.map_some]

theorem exists_place (h : s.stage? number = some stage) :
    ∃ sender, s.senders[number]? = some sender ∧ sender.stage = stage := by
  simpa [stage?] using h

theorem place_goTo (h : s.senders[number]? = some sender) (stage : Stage α) :
    (s.goTo number stage).senders[number]? = some { sender with stage } := by
  simp [goTo, h]

theorem place_goTo_of_ne (hne : other ≠ number) (s : Sending α) (stage : Stage α) :
    (s.goTo number stage).senders[other]? = s.senders[other]? := by
  simp [goTo, hne.symm]

theorem stage?_goTo (hne : other ≠ number) (s : Sending α) (stage : Stage α) :
    (s.goTo number stage).stage? other = s.stage? other := by
  rw [stage?, place_goTo_of_ne hne, stage?]

theorem next_ask {peer : α} {behind : List α}
    (h : s.stage? number = some (.asks (peer :: behind))) :
    s.next (.ask number)
      =
    goTo { s with asked := s.asked ++ [⟨number, peer, s.inquiry.query⟩] } number
      (.awaits behind) := by
  simp [next, h]

theorem next_conclude {behind : List α} (h : s.stage? number = some (.awaits behind))
    (verdict : Except Error UInt16) :
    s.next (.conclude number verdict)
      =
    (s.step (.ofVerdict verdict)).goTo number (.asks behind) := by
  simp [next, h]

end Senders

theorem map_peers_goTo (s : Sending α) (number : Nat) (stage : Stage α) :
    (s.goTo number stage).senders.map Sender.peers = s.senders.map Sender.peers := by
  apply List.ext_getElem?
  intro place
  simp only [goTo, List.getElem?_map, List.getElem?_modify]
  cases s.senders[place]? with
  | none => rfl
  | some sender =>
    simp only [Option.map_some]
    split <;> rfl

theorem map_peers_next (s : Sending α) (act : Act α) :
    (s.next act).senders.map Sender.peers
      =
    s.senders.map Sender.peers ++ act.peers?.toList := by
  have hnil : (none : Option (List α × List α)).toList = [] := rfl
  cases act with
  | pass time => simp [next, Act.peers?]
  | call multicast nameservers => simp [next, Act.peers?, Sender.peers]
  | begin number =>
    simp only [next, Act.peers?, hnil, List.append_nil]
    split
    . rfl
    . split <;> exact map_peers_goTo ..
  | ask number =>
    simp only [next, Act.peers?, hnil, List.append_nil]
    split
    . exact map_peers_goTo ..
    . rfl
  | conclude number verdict =>
    simp only [next, Act.peers?, hnil, List.append_nil]
    split
    . exact map_peers_goTo ..
    . rfl
  | finish number =>
    simp only [next, Act.peers?, hnil, List.append_nil]
    exact map_peers_goTo ..
  | report report => simp [next, Act.peers?, step]

theorem map_peers_follow (s : Sending α) (acts : List (Act α)) :
    ((machine α).follow s acts).senders.map Sender.peers
      =
    s.senders.map Sender.peers ++ acts.filterMap Act.peers? := by
  induction acts generalizing s with
  | nil => simp [Machine.follow]
  | cons act acts ih =>
    have hothers := ih (s.next act)
    rw [map_peers_next, List.append_assoc] at hothers
    rw [List.filterMap_cons]
    refine hothers.trans ?_
    cases act.peers? <;> rfl

theorem exists_step_reported (inquiry : Inquiry) (report : Report) :
    ∃ replies, inquiry.step (.reported report) = { inquiry with replies } := by
  unfold Inquiry.step
  dsimp only
  split
  . exact ⟨_, rfl⟩
  . exact ⟨inquiry.replies, rfl⟩

structure Counts (query : Message) (verdicts : List (Except Error UInt16)) (s : Sending α) :
    Prop where
  query : s.inquiry.query = query
  sent : s.inquiry.sent = verdicts.length
  ids : s.inquiry.ids = verdicts.filterMap Except.toOption

theorem Counts.next {query : Message} {verdicts : List (Except Error UInt16)} {s : Sending α}
    (h : s.Counts query verdicts) {act : Act α} (henabled : s.Enabled act) :
    (s.next act).Counts query (verdicts ++ act.verdict?.toList) := by
  have hsame : verdicts ++ (none : Option (Except Error UInt16)).toList = verdicts :=
    List.append_nil verdicts
  cases act with
  | pass time =>
    simp only [Act.verdict?, hsame]
    exact ⟨h.query, h.sent, h.ids⟩
  | call multicast nameservers =>
    simp only [Act.verdict?, hsame]
    exact ⟨h.query, h.sent, h.ids⟩
  | begin number =>
    simp only [Sending.next, Act.verdict?, hsame]
    split
    . exact h
    . split
      . next hphase =>
        rw [step, Inquiry.step_begun_of_created (by simpa using hphase)]
        exact ⟨h.query, h.sent, h.ids⟩
      . exact ⟨h.query, h.sent, h.ids⟩
  | ask number =>
    rcases henabled with ⟨peer, behind, hstage⟩
    simp only [next_ask hstage, Act.verdict?, hsame]
    exact ⟨h.query, h.sent, h.ids⟩
  | conclude number verdict =>
    rcases henabled with ⟨behind, hstage⟩
    rw [next_conclude hstage, Act.verdict?]
    cases verdict with
    | ok id =>
      rw [step, Inquiry.step_ofVerdict_ok]
      exact ⟨h.query, by simp [goTo, h.sent], by simp [goTo, h.ids, Except.toOption]⟩
    | error error =>
      rw [step, Inquiry.step_ofVerdict_error]
      exact ⟨h.query, by simp [goTo, h.sent], by simp [goTo, h.ids, Except.toOption]⟩
  | finish number =>
    simp only [Act.verdict?, hsame]
    exact ⟨h.query, h.sent, h.ids⟩
  | report report =>
    rcases exists_step_reported s.inquiry report with ⟨replies, hstep⟩
    simp only [Sending.next, Act.verdict?, hsame, step, hstep]
    exact ⟨h.query, h.sent, h.ids⟩

theorem counts_follow (query : Message) (responseWait timeout now : Nat) {acts : List (Act α)}
    (h : (machine α).Admits (fresh α query responseWait timeout now) acts) :
    ((machine α).follow (fresh α query responseWait timeout now) acts).Counts query
      (acts.filterMap Act.verdict?) := by
  refine Machine.run_induction (P := fun acts s => s.Counts query (acts.filterMap Act.verdict?))
    ⟨rfl, rfl, rfl⟩ ?_ h
  intro acts act _ hcounts henabled
  have hnext := hcounts.next henabled
  rw [List.filterMap_append, List.filterMap_cons]
  cases hverdict : act.verdict? with
  | none =>
    rw [hverdict] at hnext
    exact hnext
  | some verdict =>
    rw [hverdict] at hnext
    exact hnext

section Steps

variable {s : Sending α} {number other : Nat} {sender : Sender α} {stage : Stage α}

theorem unsent_fresh (query : Message) (responseWait timeout now : Nat) :
    (fresh α query responseWait timeout now).Unsent := by
  constructor <;> simp [fresh, Inquiry.create]

theorem Unsent.eq_called (h : s.Unsent) (hstage : s.stage? number = some stage) :
    stage = .called := by
  rcases exists_place hstage with ⟨sender, hplace, rfl⟩
  exact h.stage sender (List.mem_of_getElem? hplace)

theorem Unsent.begin (h : s.Unsent) (hplace : s.senders[number]? = some sender) :
    Led number { sender with stage := .asks (sender.targets s.inquiry.query) }
      (s.next (.begin number)) := by
  have hstep : s.next (.begin number)
      = (s.step (.begun s.now
          (Inquiry.selectsUnicast s.inquiry.query sender.nameservers.length))).goTo number
          (.asks (sender.targets s.inquiry.query)) := by
    simp [next, hplace, h.phase]
  rw [hstep, step, Inquiry.step_begun_of_created h.phase]
  constructor
  case place => exact place_goTo hplace _
  case stage => simp
  case phase => rfl
  case asked =>
    simp only [goTo, h.asked, Stage.behind, List.nil_append]
    rfl
  case sent => simp [goTo, h.sent, h.asked, Stage.pending]
  case others =>
    intro other stage hne hstage
    rw [stage?_goTo hne] at hstage
    exact .inl (h.eq_called hstage)

theorem Led.stage?_eq (h : s.Led number sender) (hstage : sender.stage = stage) :
    s.stage? number = some stage := by
  rw [stage?_of_place h.place, hstage]

theorem Led.eq_or_waits (h : s.Led number sender) (hstage : s.stage? other = some stage) :
    other = number ∧ sender.stage = stage ∨
      other ≠ number ∧ (stage = .called ∨ stage = .ended) := by
  by_cases hne : other = number
  . subst hne
    rw [stage?_of_place h.place, Option.some.injEq] at hstage
    exact .inl ⟨rfl, hstage⟩
  . exact .inr ⟨hne, h.others other stage hne hstage⟩

theorem Led.frame (h : s.Led number sender) {later : Sending α}
    (hinquiry : ∃ replies, later.inquiry = { s.inquiry with replies })
    (hplace : later.senders[number]? = s.senders[number]?) (hasked : later.asked = s.asked)
    (hothers : ∀ other stage, other ≠ number → later.stage? other = some stage →
      stage = .called ∨ stage = .ended) : later.Led number sender := by
  rcases hinquiry with ⟨replies, hinquiry⟩
  constructor
  case place => rw [hplace, h.place]
  case stage => exact h.stage
  case phase => rw [hinquiry, h.phase]
  case asked =>
    rw [hinquiry, hasked]
    exact h.asked
  case sent =>
    rw [hinquiry, hasked]
    exact h.sent
  case others => exact hothers

theorem Led.call (h : s.Led number sender) (multicast nameservers : List α) :
    (s.next (.call multicast nameservers)).Led number sender := by
  have hlt := (List.getElem?_eq_some_iff.mp h.place).1
  refine h.frame ⟨_, rfl⟩ (List.getElem?_append_left hlt) rfl ?_
  intro other stage hne hstage
  rcases exists_place hstage with ⟨called, hplace, rfl⟩
  simp only [next] at hplace
  rw [List.getElem?_append] at hplace
  split at hplace
  . exact h.others other _ hne (stage?_of_place hplace)
  . rw [List.getElem?_singleton] at hplace
    split at hplace
    . cases hplace
      exact .inl rfl
    . contradiction

theorem Led.begin (h : s.Led number sender) (hstage : s.stage? other = some .called) :
    (s.next (.begin other)).Led number sender := by
  rcases h.eq_or_waits hstage with ⟨-, hown⟩ | ⟨hne, -⟩
  . exact absurd hown h.stage
  . have hphase : s.inquiry.phase ≠ .created := by
      rw [h.phase]
      exact Stage.phase_ne_created h.stage
    rcases exists_place hstage with ⟨called, hplace, -⟩
    have hnext : s.next (.begin other) = s.goTo other .ended := by
      simp [next, hplace, hphase]
    rw [hnext]
    refine h.frame ⟨_, rfl⟩ (place_goTo_of_ne hne.symm s .ended) rfl ?_
    intro third stage hthird hstage
    by_cases heq : third = other
    . subst heq
      rw [stage?_of_place (place_goTo hplace .ended), Option.some.injEq] at hstage
      exact .inr hstage.symm
    . rw [stage?_goTo heq] at hstage
      exact h.others third stage hthird hstage

theorem Led.goTo (h : s.Led number sender) {later : Sending α} {next : Stage α}
    (hsenders : later.senders = s.senders) (hquery : later.inquiry.query = s.inquiry.query)
    (hnext : next ≠ .called) (hphase : later.inquiry.phase = next.phase)
    (hasked : later.asked ++ next.behind.map (⟨number, ·, s.inquiry.query⟩)
      = s.asked ++ sender.stage.behind.map (⟨number, ·, s.inquiry.query⟩))
    (hsent : later.inquiry.sent + next.pending = later.asked.length) :
    (later.goTo number next).Led number { sender with stage := next } := by
  constructor
  case place => exact place_goTo (hsenders ▸ h.place) next
  case stage => exact hnext
  case phase => exact hphase
  case asked =>
    simp only [Sending.goTo, hquery]
    exact hasked.trans h.asked
  case sent => exact hsent
  case others =>
    intro other stage hne hother
    rw [stage?_goTo hne, stage?, hsenders] at hother
    exact h.others other stage hne hother

theorem Led.ask (h : s.Led number sender) {peer : α} {behind : List α}
    (hstage : sender.stage = .asks (peer :: behind)) :
    (s.next (.ask number)).Led number { sender with stage := .awaits behind } := by
  have hphase := h.phase
  have hsent := h.sent
  rw [hstage] at hphase hsent
  rw [next_ask (h.stage?_eq hstage)]
  refine h.goTo rfl rfl (by simp) hphase ?_ ?_
  . rw [hstage, List.append_assoc]
    rfl
  . rw [List.length_append, ← hsent]
    rfl

theorem Led.conclude (h : s.Led number sender) {behind : List α}
    (hstage : sender.stage = .awaits behind) (verdict : Except Error UInt16) :
    (s.next (.conclude number verdict)).Led number { sender with stage := .asks behind } := by
  have hphase := h.phase
  have hsent := h.sent
  rw [hstage] at hphase hsent
  have hinquiry : ∃ ids replies, s.inquiry.step (.ofVerdict verdict)
      = { s.inquiry with sent := s.inquiry.sent + 1, ids, replies } := by
    cases verdict <;> exact ⟨_, _, rfl⟩
  rcases hinquiry with ⟨ids, replies, hinquiry⟩
  rw [next_conclude (h.stage?_eq hstage), step, hinquiry]
  refine h.goTo rfl rfl (by simp) hphase ?_ hsent
  rw [hstage]
  rfl

theorem Led.finish (h : s.Led number sender) (hstage : sender.stage = .asks []) :
    (s.next (.finish number)).Led number { sender with stage := .ended } := by
  have hsent := h.sent
  rw [hstage] at hsent
  refine h.goTo rfl rfl (by simp) rfl ?_ hsent
  rw [hstage]
  rfl

theorem Led.next (h : s.Led number sender) {act : Act α} (henabled : s.Enabled act) :
    ∃ later, (s.next act).Led number later := by
  cases act with
  | pass time => exact ⟨sender, h.frame ⟨_, rfl⟩ rfl rfl h.others⟩
  | call multicast nameservers => exact ⟨sender, h.call multicast nameservers⟩
  | begin other => exact ⟨sender, h.begin henabled⟩
  | ask other =>
    rcases henabled with ⟨peer, behind, hstage⟩
    rcases h.eq_or_waits hstage with ⟨rfl, hown⟩ | ⟨-, hwaits⟩
    . exact ⟨_, h.ask hown⟩
    . simp at hwaits
  | conclude other verdict =>
    rcases henabled with ⟨behind, hstage⟩
    rcases h.eq_or_waits hstage with ⟨rfl, hown⟩ | ⟨-, hwaits⟩
    . exact ⟨_, h.conclude hown verdict⟩
    . simp at hwaits
  | finish other =>
    rcases h.eq_or_waits henabled with ⟨rfl, hown⟩ | ⟨-, hwaits⟩
    . exact ⟨_, h.finish hown⟩
    . simp at hwaits
  | report report =>
    exact ⟨sender, h.frame (exists_step_reported s.inquiry report) rfl rfl h.others⟩

theorem Unsent.next (h : s.Unsent) {act : Act α} (henabled : s.Enabled act)
    (hbegins : act.begins? = none) : (s.next act).Unsent := by
  cases act with
  | pass time => exact ⟨h.phase, h.sent, h.asked, h.stage⟩
  | call multicast nameservers =>
    refine ⟨h.phase, h.sent, h.asked, ?_⟩
    intro sender hsender
    rcases List.mem_append.mp hsender with hbefore | hnew
    . exact h.stage sender hbefore
    . rw [List.mem_singleton.mp hnew]
  | begin number => contradiction
  | ask number =>
    rcases henabled with ⟨peer, behind, hstage⟩
    exact absurd (h.eq_called hstage) (by simp)
  | conclude number verdict =>
    rcases henabled with ⟨behind, hstage⟩
    exact absurd (h.eq_called hstage) (by simp)
  | finish number => exact absurd (h.eq_called henabled) (by simp)
  | report report =>
    rcases exists_step_reported s.inquiry report with ⟨replies, hstep⟩
    simp only [Sending.next, step, hstep]
    exact ⟨h.phase, h.sent, h.asked, h.stage⟩

end Steps

/--
What is known of the inquiry if the given call, if any, was the first to begin.
-/
def Standing (first : Option Nat) (s : Sending α) : Prop :=
  match first with
  | none => s.Unsent
  | some number => ∃ sender, s.Led number sender

theorem standing_follow (query : Message) (responseWait timeout now : Nat) {acts : List (Act α)}
    (h : (machine α).Admits (fresh α query responseWait timeout now) acts) :
    ((machine α).follow (fresh α query responseWait timeout now) acts).Standing
      (acts.findSome? Act.begins?) := by
  refine Machine.run_induction (P := fun acts s => s.Standing (acts.findSome? Act.begins?))
    (unsent_fresh query responseWait timeout now) ?_ h
  intro acts act _ hstanding henabled
  rw [List.findSome?_append]
  cases hfirst : acts.findSome? Act.begins? with
  | some number =>
    rw [hfirst] at hstanding
    rcases hstanding with ⟨sender, hled⟩
    exact hled.next henabled
  | none =>
    rw [hfirst] at hstanding
    have hunsent : Unsent _ := hstanding
    cases hbegins : act.begins? with
    | none =>
      simp only [List.findSome?_cons, hbegins]
      exact hunsent.next henabled hbegins
    | some number =>
      cases act with
      | begin other =>
        rw [Act.begins?, Option.some.injEq] at hbegins
        subst hbegins
        rcases exists_place henabled with ⟨sender, hplace, -⟩
        exact ⟨_, hunsent.begin hplace⟩
      | _ => contradiction

end Sending

end Zeroconf.Querier
