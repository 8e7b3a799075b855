import Zeroconf.Peer.Scripted
import Zeroconf.Proofs.Querier.Sending
import Zeroconf.Proofs.Querier.Start
import Zeroconf.Proofs.Querier.Watched

/-!
This module contains the proof that the call that is the first to begin asks all who are in charge
of an inquiry, once and in order, whatever they say and whoever else wants to send it. A call that
nobody interferes with is the start of an inquiry by a querier.
-/

namespace Zeroconf.Querier

namespace Sending

variable {α : Type}

section Alone

/--
What happens while somebody is asked in a call: what he reports at once, and then what he says.
-/
def asking (number : Nat) (reaction : Reaction) : List (Act α) :=
  .ask number :: (reaction.reports.map .report ++ [.conclude number reaction.verdict])

/--
A call that nobody else interferes with, and in which those who are asked react like this.
-/
def alone (number : Nat) (reactions : List Reaction) : List (Act α) :=
  .begin number :: (reactions.flatMap (asking number) ++ [.finish number])

def hear (inquiry : Inquiry) (reports : List Report) : Inquiry :=
  reports.foldl (fun inquiry report => inquiry.step (.reported report)) inquiry

def inform (inquiry : Inquiry) (reaction : Reaction) : Inquiry :=
  (hear inquiry reaction.reports).step (.ofVerdict reaction.verdict)

variable {s : Sending α} {number : Nat} {multicast nameservers : List α}

theorem follow_reports (s : Sending α) (reports : List Report) :
    (machine α).Admits s (reports.map .report) ∧
    (machine α).follow s (reports.map .report)
      =
    { s with inquiry := hear s.inquiry reports } := by
  induction reports generalizing s with
  | nil => exact ⟨trivial, rfl⟩
  | cons report reports ih =>
    rcases ih (s.next (.report report)) with ⟨hadmits, hfollow⟩
    exact ⟨⟨trivial, hadmits⟩, hfollow⟩

theorem query_hear (inquiry : Inquiry) (reports : List Report) :
    (hear inquiry reports).query = inquiry.query := by
  induction reports generalizing inquiry with
  | nil => rfl
  | cons report reports ih =>
    rcases exists_step_reported inquiry report with ⟨replies, hstep⟩
    have hothers := ih (inquiry.step (.reported report))
    rw [hstep] at hothers
    rw [← hothers, ← hstep]
    rfl

theorem query_inform (inquiry : Inquiry) (reaction : Reaction) :
    (inform inquiry reaction).query = inquiry.query := by
  rw [← query_hear inquiry reaction.reports, inform]
  cases reaction.verdict <;> rfl

theorem follow_asking {peer : α} {behind : List α}
    (h : s.senders[number]? = some ⟨multicast, nameservers, .asks (peer :: behind)⟩)
    (reaction : Reaction) :
    let later := (machine α).follow s (asking number reaction)
    (machine α).Admits s (asking number reaction) ∧
    later.senders[number]? = some ⟨multicast, nameservers, .asks behind⟩ ∧
    later.inquiry = inform s.inquiry reaction ∧
    later.asked = s.asked ++ [⟨number, peer, s.inquiry.query⟩] := by
  intro later
  let awaits := s.next (.ask number)
  have hawaits : awaits = goTo { s with asked := s.asked ++ [⟨number, peer, s.inquiry.query⟩] }
      number (.awaits behind) :=
    next_ask (stage?_of_place h)
  have hplace : awaits.senders[number]? = some ⟨multicast, nameservers, .awaits behind⟩ := by
    rw [hawaits]
    exact place_goTo h _
  -- Reports leave the call at its place.
  rcases follow_reports awaits reaction.reports with ⟨hadmits, hfollow⟩
  let reported : Sending α := { awaits with inquiry := hear awaits.inquiry reaction.reports }
  have hstage : reported.stage? number = some (.awaits behind) := stage?_of_place hplace
  have hlater : later
      = (reported.step (.ofVerdict reaction.verdict)).goTo number (.asks behind) := by
    rw [← next_conclude hstage]
    change (machine α).follow awaits _ = _
    rw [Machine.follow_append, hfollow]
    rfl
  have hinquiry : awaits.inquiry = s.inquiry := by rw [hawaits, goTo]
  refine ⟨⟨⟨peer, behind, stage?_of_place h⟩, ?_⟩, ?_, ?_, ?_⟩
  . change (machine α).Admits awaits _
    rw [Machine.admits_append_iff, hfollow]
    exact ⟨hadmits, ⟨behind, hstage⟩, trivial⟩
  . rw [hlater]
    exact place_goTo hplace _
  . rw [hlater, inform, ← hinquiry]
    rfl
  . rw [hlater]
    exact congrArg (·.asked) hawaits

theorem follow_flatMap_asking {peers : List α}
    (h : s.senders[number]? = some ⟨multicast, nameservers, .asks peers⟩)
    {reactions : List Reaction} (hlength : reactions.length = peers.length) :
    let later := (machine α).follow s (reactions.flatMap (asking number))
    (machine α).Admits s (reactions.flatMap (asking number)) ∧
    later.senders[number]? = some ⟨multicast, nameservers, .asks []⟩ ∧
    later.inquiry = reactions.foldl inform s.inquiry ∧
    later.asked = s.asked ++ peers.map (⟨number, ·, s.inquiry.query⟩) := by
  induction reactions generalizing s peers with
  | nil =>
    rw [List.length_nil, eq_comm, List.length_eq_zero_iff] at hlength
    subst hlength
    exact ⟨trivial, h, rfl, by simp [Machine.follow]⟩
  | cons reaction reactions ih =>
    cases peers with
    | nil => contradiction
    | cons peer peers =>
      rcases follow_asking h reaction with ⟨hadmits, hplace, hinquiry, hasked⟩
      rcases ih hplace (Nat.succ.inj hlength) with ⟨hothers, hlast, hend, hall⟩
      rw [hinquiry, query_inform] at hall
      rw [List.flatMap_cons, Machine.admits_append_iff, Machine.follow_append]
      refine ⟨⟨hadmits, hothers⟩, hlast, ?_, ?_⟩
      . rw [hend, hinquiry]
        rfl
      . rw [hall, hasked, List.append_assoc]
        rfl

theorem verdicts_flatMap_asking (number : Nat) (reactions : List Reaction) :
    (reactions.flatMap (asking number : Reaction → List (Act α))).filterMap Act.verdict?
      =
    reactions.map (·.verdict) := by
  have hreports (reports : List Report) :
      (reports.map (.report : Report → Act α)).filterMap Act.verdict? = [] := by
    simp [Act.verdict?]
  induction reactions with
  | nil => rfl
  | cons reaction reactions ih =>
    rw [List.flatMap_cons, List.filterMap_append, ih, asking, List.filterMap_cons,
      List.filterMap_append, hreports]
    rfl

theorem Led.length_targets {sender : Sender α} (h : s.Led number sender) :
    s.inquiry.sent + sender.stage.pending + sender.stage.behind.length
      =
    (sender.targets s.inquiry.query).length := by
  have hasked := congrArg List.length h.asked
  rw [List.length_append, List.length_map, List.length_map] at hasked
  rw [h.sent, hasked]

theorem Led.exists_finish_of_asks {sender : Sender α} (h : s.Led number sender) {behind : List α}
    (hstage : sender.stage = .asks behind) (said : Nat → Except Error UInt16) :
    ∃ acts, (machine α).Admits s acts ∧
      ((machine α).follow s acts).inquiry.phase = .started ∧
      acts.filterMap Act.verdict? = (List.range' s.inquiry.sent behind.length).map said := by
  let reactions : List Reaction :=
    (List.range' s.inquiry.sent behind.length).map fun place => { verdict := said place }
  have hplace : s.senders[number]? = some ⟨sender.multicast, sender.nameservers, .asks behind⟩ := by
    rw [h.place, ← hstage]
  have hlength : reactions.length = behind.length := by simp [reactions]
  rcases follow_flatMap_asking hplace hlength with ⟨hadmits, hlast, -, -⟩
  refine ⟨reactions.flatMap (asking number) ++ [.finish number], ?_, ?_, ?_⟩
  . rw [Machine.admits_append_iff]
    exact ⟨hadmits, stage?_of_place hlast, trivial⟩
  . rw [Machine.follow_append]
    rfl
  . rw [List.filterMap_append, verdicts_flatMap_asking, List.map_map]
    exact List.append_nil _

theorem Led.exists_finish {sender : Sender α} (h : s.Led number sender)
    (said : Nat → Except Error UInt16) :
    ∃ acts, (machine α).Admits s acts ∧
      ((machine α).follow s acts).inquiry.phase = .started ∧
      acts.filterMap Act.verdict?
        = (List.range' s.inquiry.sent (sender.stage.behind.length + sender.stage.pending)).map
            said := by
  cases hstage : sender.stage with
  | called => exact absurd hstage h.stage
  | asks behind => exact h.exists_finish_of_asks hstage said
  | awaits behind =>
    let verdict := said s.inquiry.sent
    have hawaits := h.stage?_eq hstage
    have hsent : (s.next (.conclude number verdict)).inquiry.sent = s.inquiry.sent + 1 := by
      rw [next_conclude hawaits]
      cases verdict <;> rfl
    rcases (h.conclude hstage verdict).exists_finish_of_asks rfl said with
      ⟨acts, hadmits, hphase, hverdicts⟩
    refine ⟨.conclude number verdict :: acts, ⟨⟨behind, hawaits⟩, hadmits⟩, hphase, ?_⟩
    rw [hsent] at hverdicts
    exact congrArg (verdict :: ·) hverdicts
  | ended =>
    refine ⟨[], trivial, ?_, rfl⟩
    rw [Machine.follow, List.foldl_nil, h.phase, hstage]
    rfl

theorem Sender.targets_eq (sender : Sender α) (query : Message) :
    sender.targets query
      =
    (if ∃ question ∈ query.questions, question.name.isLinkLocal = true then sender.multicast
      else []) ++
    if ∃ question ∈ query.questions, question.name.isLinkLocal = false then sender.nameservers
      else [] := by
  have hmulticast : query.asksMulticast = true
      ↔ ∃ question ∈ query.questions, question.name.isLinkLocal = true := by
    simp [Message.asksMulticast]
  have hunicast : query.asksUnicast = true
      ↔ ∃ question ∈ query.questions, question.name.isLinkLocal = false := by
    simp [Message.asksUnicast]
  have hnone (asks : Bool) (peers : List α) :
      (if peers.length != 0 && asks then peers else []) = if asks then peers else [] := by
    cases peers <;> simp
  rw [targets, Inquiry.selectsMulticast, Inquiry.selectsUnicast, hnone, hnone]
  simp only [hmulticast, hunicast]

theorem inquiry_follow_acts (plan : Inquiry.Plan) (course : Inquiry.Course) (source : Nat)
    (reaction : Reaction) :
    (plan.machine.follow course (reaction.acts source)).inquiry
      =
    inform course.inquiry reaction := by
  have hreports (reports : List Report) (course : Inquiry.Course) :
      (plan.machine.follow course (reports.map (.deliver source))).inquiry
        =
      hear course.inquiry reports := by
    induction reports generalizing course with
    | nil => rfl
    | cons report reports ih => exact ih _
  rw [Reaction.acts, Machine.follow_append, inform, ← hreports]
  rfl

theorem inquiry_follow_askingActs (plan : Inquiry.Plan) (course : Inquiry.Course) (source : Nat)
    (reactions : List Reaction) :
    (plan.machine.follow course (Inquiry.askingActs source reactions)).inquiry
      =
    reactions.foldl inform course.inquiry := by
  induction reactions generalizing course source with
  | nil => rfl
  | cons reaction reactions ih =>
    rw [Inquiry.askingActs, Machine.follow_append, ih, inquiry_follow_acts]
    rfl

end Alone

end Sending

theorem length_toOption_add_countP {ε β : Type} (results : List (Except ε β)) :
    (results.filterMap Except.toOption).length + results.countP (!·.isOk) = results.length := by
  induction results with
  | nil => rfl
  | cons result results ih =>
    cases result with
    | ok value =>
      have hok : (Except.ok value : Except ε β).isOk = true := rfl
      have hvalue : (Except.ok value : Except ε β).toOption = some value := rfl
      simp [hvalue, hok, ← ih]
      omega
    | error error =>
      have hok : (Except.error error : Except ε β).isOk = false := rfl
      have hvalue : (Except.error error : Except ε β).toOption = none := rfl
      simp [hvalue, hok, ← ih]
      omega

section Start

variable {P U : Type} {inquiry : Inquiry} {caller : Option Observer} {number : Nat}

theorem asked_askAll [Peer P] (query : Message) (number : Nat) (peers : List P)
    (reception : Reception) :
    (askAll query (.inquiry number)
      (fun verdict reception => reception.step number (.ofVerdict verdict)) peers reception).2.asked
      =
    reception.asked ++ (peers.map Peer.name).map (·, query) := by
  induction peers generalizing reception with
  | nil => simp [askAll]
  | cons peer peers ih =>
    have hstep (reception : Reception) (event : Inquiry.Event) :
        (reception.step number event).asked = reception.asked := by
      rfl
    simp only [askAll]
    rw [ih, hstep, Reception.asked_receive_inquiry, Reception.asked_note, List.append_assoc]
    rfl

def sender [Peer P] [Peer U] (querier : Querier P U) : Sending.Sender String where
  multicast := querier.multicast.map Peer.name
  nameservers := querier.nameservers.map Peer.name

def called [Peer P] [Peer U] (querier : Querier P U) (inquiry : Inquiry) : Sending String where
  inquiry
  now := querier.reception.now
  senders := [querier.sender]

theorem asked_start [Peer P] [Peer U] {querier : Querier P U}
    (hcase : querier.reception.cases[number]? = some ⟨inquiry, caller⟩)
    (hphase : inquiry.phase = .created) :
    (querier.start number).reception.asked
      =
    querier.reception.asked ++
      (querier.sender.targets inquiry.query).map (·, inquiry.query) := by
  have hstep (reception : Reception) (event : Inquiry.Event) :
      (reception.step number event).asked = reception.asked := by
    rfl
  simp only [start, hcase, hphase, beq_self_eq_true, if_pos, sender, Sending.Sender.targets,
    List.length_map]
  cases Inquiry.selectsMulticast inquiry.query querier.multicast.length with
  | false =>
    cases Inquiry.selectsUnicast inquiry.query querier.nameservers.length with
    | false => simp [hstep]
    | true => simp [hstep, asked_askAll]
  | true =>
    cases Inquiry.selectsUnicast inquiry.query querier.nameservers.length with
    | false => simp [hstep, asked_askAll]
    | true => simp [hstep, asked_askAll]

theorem length_reactions_eq_targets [Peer P] [Peer U] (querier : Querier P U) (query : Message)
    (sink : Sink) :
    (querier.reactions query sink).length = (querier.sender.targets query).length := by
  rw [length_reactions]
  simp only [Inquiry.Plan.selected, Inquiry.Plan.usesUnicast, plan, Sending.Sender.targets, sender,
    List.length_append, List.length_map, apply_ite List.length, List.length_nil]
  rfl

/--
The start of an inquiry is a call that nobody interferes with.
-/
theorem start_alone [Peer P] [Peer U] {querier : Querier P U}
    (hcase : querier.reception.cases[number]? = some ⟨inquiry, caller⟩)
    (hphase : inquiry.phase = .created) :
    let s := querier.called inquiry
    let acts := Sending.alone 0 (querier.reactions inquiry.query (.inquiry number))
    let later := (Sending.machine String).follow s acts
    (Sending.machine String).Admits s acts ∧ later.inquiry.phase = .started ∧
    (querier.start number).reception.cases[number]? = some ⟨later.inquiry, caller⟩ ∧
    (querier.start number).reception.asked
      = querier.reception.asked ++ later.asked.map fun asked => (asked.peer, asked.query) := by
  intro s acts later
  let usesUnicast := Inquiry.selectsUnicast inquiry.query querier.nameservers.length
  let begun : Sending String :=
    (s.step (.begun s.now usesUnicast)).goTo 0 (.asks (querier.sender.targets inquiry.query))
  have hbegin : s.next (.begin 0) = begun := by
    simp [Sending.next, s, called, hphase, begun, usesUnicast, sender]
  have hplace : begun.senders[0]? = some ⟨_, _, .asks (querier.sender.targets inquiry.query)⟩ :=
    Sending.place_goTo rfl _
  have hquery : begun.inquiry.query = inquiry.query := by
    simp only [begun, Sending.goTo, Sending.step, s, called, Inquiry.step_begun_of_created hphase]
  rcases Sending.follow_flatMap_asking hplace (length_reactions_eq_targets querier _ _) with
    ⟨hadmits, hlast, hinquiry, hasked⟩
  have hlater : later = Sending.next ((Sending.machine String).follow begun
      ((querier.reactions inquiry.query (.inquiry number)).flatMap (Sending.asking 0)))
      (.finish 0) := by
    rw [← hbegin]
    exact (Sending.machine String).follow_concat _ _ _
  generalize hfollow : (Sending.machine String).follow begun _ = last
    at hlast hinquiry hasked hlater
  refine ⟨⟨rfl, ?_⟩, ?_, ?_, ?_⟩
  . change (Sending.machine String).Admits (s.next (.begin 0)) _
    rw [hbegin, Machine.admits_append_iff, hfollow]
    exact ⟨hadmits, Sending.stage?_of_place hlast, trivial⟩
  . rw [hlater]
    rfl
  . let course : Inquiry.Course := { inquiry, now := querier.reception.now }
    have hholds : querier.reception.Holds number caller course := ⟨hcase, rfl⟩
    have hstart := (start_performs hholds hphase rfl).holds.case
    rw [hstart, hlater]
    simp only [sending, Inquiry.Course.follow_cons, Machine.follow_append,
      Machine.follow_nil, Inquiry.Course.next, Sending.inquiry_follow_askingActs,
      Sending.next, Sending.goTo, Sending.step, hinquiry]
    rfl
  . rw [asked_start hcase hphase, hlater]
    simp only [Sending.next, Sending.goTo, Sending.step, hasked, hquery, List.map_append,
      List.map_map]
    rfl

theorem called_askAll_if [Peer P] (asks : Bool) (query : Message) (sink : Sink)
    (conclude : Except Error UInt16 → Reception → Reception) (peers : List (Watched P))
    (reception : Reception) :
    Watched.Called peers
      (if peers.length != 0 && asks then askAll query sink conclude peers reception
      else (peers, reception)).1
      (if asks then [.ask query sink] else []) := by
  cases asks with
  | false =>
    rw [Bool.and_false]
    exact .refl peers
  | true =>
    cases peers with
    | nil => rfl
    | cons peer peers => exact called_askAll query sink conclude (peer :: peers) reception

theorem called_start [Peer P] [Peer U] {querier : Querier (Watched P) (Watched U)}
    (hcase : querier.reception.cases[number]? = some ⟨inquiry, caller⟩)
    (hphase : inquiry.phase = .created) :
    let query := inquiry.query
    Watched.Called querier.multicast (querier.start number).multicast
      (if query.asksMulticast then [.ask query (.inquiry number)] else []) ∧
    Watched.Called querier.nameservers (querier.start number).nameservers
      (if query.asksUnicast then [.ask query (.inquiry number)] else []) := by
  simp only [start, hcase, hphase, beq_self_eq_true, if_pos]
  exact ⟨called_askAll_if .., called_askAll_if ..⟩

theorem start_of_ne_created [Peer P] [Peer U] {querier : Querier P U}
    (hcase : querier.reception.cases[number]? = some ⟨inquiry, caller⟩)
    (hphase : inquiry.phase ≠ .created) : querier.start number = querier := by
  unfold start
  rw [hcase]
  dsimp only
  rw [if_neg (by simpa using hphase)]

end Start

open Sending

/--
Of all calls that are to send an inquiry only the first to begin asks anybody. It asks those who are
in charge of the query one after the other, each of them once with the query as it is, and can do so
to the end whatever they say. At any time the requests are as many as those who have taken the query
and those who have refused it. When a querier starts an inquiry, this is such a call; it does
nothing if another one has begun.
-/
theorem only_first_asks :
    (∀ (α : Type) (query : Message) (responseWait timeout now : Nat) (acts : List (Act α)),
      let fresh := Sending.fresh α query responseWait timeout now
      (machine α).Admits fresh acts →
      let s := (machine α).follow fresh acts
      let verdicts := acts.filterMap Act.verdict?
      s.inquiry.ids = verdicts.filterMap Except.toOption ∧
      s.inquiry.sent = s.inquiry.ids.length + verdicts.countP (!·.isOk) ∧
      (acts.findSome? Act.begins? = none → s.inquiry.phase = .created ∧ s.asked = []) ∧
      ∀ number, acts.findSome? Act.begins? = some number →
        ∃ multicast nameservers,
          (acts.filterMap Act.peers?)[number]? = some (multicast, nameservers) ∧
          let targets :=
            (if ∃ question ∈ query.questions, question.name.isLinkLocal = true then multicast
              else []) ++
            if ∃ question ∈ query.questions, question.name.isLinkLocal = false then nameservers
              else []
          let asked := targets.map (Asked.mk number · query)
          s.inquiry.phase ≠ .created ∧ s.asked <+: asked ∧ s.inquiry.sent ≤ s.asked.length ∧
          (s.inquiry.phase = .started → s.asked = asked ∧ s.inquiry.sent = targets.length) ∧
          ∀ said : Nat → Except Error UInt16, ∃ behind, (machine α).Admits s behind ∧
            ((machine α).follow s behind).inquiry.phase = .started ∧
            behind.filterMap Act.verdict?
              = (List.range' s.inquiry.sent (targets.length - s.inquiry.sent)).map said) ∧
    ∀ (P U : Type) [Peer P] [Peer U] (querier : Querier (Watched P) (Watched U)) (number : Nat)
      (inquiry : Inquiry) (caller : Option Observer),
      querier.reception.cases[number]? = some ⟨inquiry, caller⟩ →
      (inquiry.phase = .created →
        let query := inquiry.query
        let s := querier.called inquiry
        let acts := alone 0 (querier.reactions query (.inquiry number))
        let later := (machine String).follow s acts
        (machine String).Admits s acts ∧ later.inquiry.phase = .started ∧
        (querier.start number).reception.cases[number]? = some ⟨later.inquiry, caller⟩ ∧
        (querier.start number).reception.asked
          = querier.reception.asked ++ later.asked.map (fun asked => (asked.peer, asked.query)) ∧
        Watched.Called querier.multicast (querier.start number).multicast
          (if query.asksMulticast then [.ask query (.inquiry number)] else []) ∧
        Watched.Called querier.nameservers (querier.start number).nameservers
          (if query.asksUnicast then [.ask query (.inquiry number)] else [])) ∧
      (inquiry.phase ≠ .created → querier.start number = querier) := by
  constructor
  . intro α query responseWait timeout now acts fresh hadmits s verdicts
    have hcounts := counts_follow query responseWait timeout now hadmits
    have hstanding := standing_follow query responseWait timeout now hadmits
    refine ⟨hcounts.ids, ?_, ?_, ?_⟩
    . rw [hcounts.ids, hcounts.sent]
      exact (length_toOption_add_countP verdicts).symm
    . intro hfirst
      rw [hfirst] at hstanding
      have hunsent : Unsent s := hstanding
      exact ⟨hunsent.phase, hunsent.asked⟩
    . intro number hfirst
      rw [hfirst] at hstanding
      rcases hstanding with ⟨sender, hled⟩
      -- Who was asked and who is still to be asked are together those in charge.
      refine ⟨sender.multicast, sender.nameservers, ?_, ?_⟩
      . have hpeers : s.senders.map Sender.peers = acts.filterMap Act.peers? :=
          map_peers_follow fresh acts
        rw [← hpeers, List.getElem?_map, hled.place]
        rfl
      . intro targets asked
        have htargets : sender.targets s.inquiry.query = targets := by
          rw [hcounts.query, sender.targets_eq]
        have hasked : s.asked ++ sender.stage.behind.map (Asked.mk number · query) = asked := by
          have := hled.asked
          rwa [htargets, hcounts.query] at this
        have hlength : s.inquiry.sent + sender.stage.pending + sender.stage.behind.length
            = targets.length := by
          rw [hled.length_targets, htargets]
        refine ⟨?_, ⟨_, hasked⟩, Nat.le.intro hled.sent, ?_, ?_⟩
        . rw [hled.phase]
          exact Stage.phase_ne_created hled.stage
        . intro hstarted
          have hstage := Stage.eq_ended (hled.phase.symm.trans hstarted)
          rw [hstage] at hasked hlength
          exact ⟨(List.append_nil s.asked).symm.trans hasked, hlength⟩
        . intro said
          rcases hled.exists_finish said with ⟨behind, hbehind, hphase, hverdicts⟩
          have hrest : targets.length - s.inquiry.sent
              = sender.stage.behind.length + sender.stage.pending := by
            omega
          refine ⟨behind, hbehind, hphase, ?_⟩
          rw [hverdicts, hrest]
  . intro P U _ _ querier number inquiry caller hcase
    refine ⟨?_, start_of_ne_created hcase⟩
    intro hphase query s acts later
    rcases start_alone hcase hphase with ⟨hadmits, hstarted, hinquiry, hasked⟩
    rcases called_start hcase hphase with ⟨hmulticast, hnameservers⟩
    exact ⟨hadmits, hstarted, hinquiry, hasked, hmulticast, hnameservers⟩

/--
The call that came second begins first and is refused once; somebody replies in the meantime. Then a
querier whose only responder refuses the query.
-/
theorem only_first_asks_crossing :
    let name (labels : List String) : Name := ⟨labels.map (·.toList.map Ascii.byte), true⟩
    let query : Message :=
      { id := 7
        questions := [⟨name ["host", "local"], .a, internetClass⟩,
          ⟨name ["host", "org"], .a, internetClass⟩] }
    let acts : List (Act Nat) :=
      [.call [1, 2] [3], .call [4] [5], .begin 1, .begin 0, .ask 1, .report ⟨7, .failure .timeout⟩,
        .conclude 1 (.error .timeout), .ask 1, .conclude 1 (.ok 7), .finish 1]
    let s := (machine Nat).follow (Sending.fresh Nat query 250 6000 0) acts
    let responder : Scripted := { name := "responder", script := { refusal := some .timeout } }
    let nameserver : Scripted := { name := "nameserver", script := {} }
    let querier : Querier (Watched Scripted) (Watched Scripted) :=
      { multicast := [⟨responder, []⟩]
        nameservers := [⟨nameserver, []⟩]
        responseWait := 250
        timeout := 6000
        reception := { cases := [⟨.create query 250 6000 0, none⟩] } }
    let later := querier.start 0
    s.asked = [⟨1, 4, query⟩, ⟨1, 5, query⟩] ∧ s.inquiry.sent = 2 ∧ s.inquiry.ids = [7] ∧
    later.reception.asked = [("responder", query), ("nameserver", query)] ∧
    later.multicast.map (·.calls) = [[.ask query (.inquiry 0)]] ∧
    later.nameservers.map (·.calls) = [[.ask query (.inquiry 0)]] ∧
    later.start 0 = later := by
  intro name query acts s responder nameserver querier later
  have hadmits : (machine Nat).Admits (Sending.fresh Nat query 250 6000 0) acts :=
    ⟨trivial, trivial, rfl, rfl, ⟨4, [5], rfl⟩, trivial, ⟨[5], rfl⟩, ⟨5, [], rfl⟩, ⟨[], rfl⟩, rfl,
      trivial⟩
  rcases only_first_asks with ⟨hruns, hstart⟩
  rcases hruns Nat query 250 6000 0 acts hadmits with ⟨hids, -, -, hfirst⟩
  rcases hfirst 1 rfl with ⟨multicast, nameservers, hpeers, -, -, -, hall, -⟩
  cases hpeers
  rcases hall rfl with ⟨hasked, hsent⟩
  rw [if_pos (by decide), if_pos (by decide)] at hasked hsent
  have hcreated : querier.reception.cases[0]? = some ⟨.create query 250 6000 0, none⟩ := rfl
  rcases (hstart Scripted Scripted querier 0 _ none hcreated).1 rfl with
    ⟨-, hstarted, hcase, hjournal, hmulticast, hnameservers⟩
  refine ⟨hasked, hsent, hids, hjournal, hmulticast, hnameservers, ?_⟩
  refine (hstart Scripted Scripted later 0 _ none hcase).2 ?_
  rw [hstarted]
  simp

end Zeroconf.Querier
