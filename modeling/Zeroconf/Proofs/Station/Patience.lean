import Zeroconf.Proofs.Station.Change

/-!
This module contains the proof that an inquiry that was sent to a link waits there for longer than
anybody waits for the inquiry, whichever timeouts are set in between: no response that comes in
before the inquiry ends is lost because nobody waits for it any more.
-/

namespace Zeroconf.Station

/--
Whether all links have the timeout of the station, and each inquiry that was sent to a link waits
there once and until it ends, if it has not ended yet. Of those that are still to be sent nothing is
known at the link.
-/
structure Patient {τ : Type} (s : Course τ) : Prop where
  timeouts : ∀ link ∈ s.querier.multicast, link.timeout = s.querier.timeout
  known : ∀ link ∈ s.querier.multicast, ∀ entry ∈ link.inbox.pending, ∀ number,
    entry.listener = .inquiry number → number < s.reception.deadlines.length
  sent : ∀ place number, (place, .inquiry number) ∈ s.sent → number < s.reception.deadlines.length
  asks : s.asks.Nodup
  ends : ∀ place number, (place, .inquiry number) ∈ s.asks →
    ∃ deadline, s.reception.deadlines[number]? = some deadline ∧
      deadline ≤ s.reception.now + s.querier.timeout
  unknown : ∀ place number, (place, .inquiry number) ∈ s.asks →
    (place, .inquiry number) ∉ s.sent ∧
      ∀ link, s.querier.multicast[place]? = some link → waiting link number = []
  waits : ∀ place number, (place, .inquiry number) ∈ s.sent →
    ∀ link, s.querier.multicast[place]? = some link →
    ∀ deadline, s.reception.deadlines[number]? = some deadline → s.reception.now < deadline →
    ∃ entry, waiting link number = [entry] ∧ deadline ≤ entry.expires

variable {τ : Type} {s later : Course τ}

theorem Steady.patient (h : Steady s later) (hpatient : Patient s) : Patient later where
  timeouts link hmem := by
    rcases List.getElem?_of_mem hmem with ⟨place, hlink⟩
    rcases h.links place link hlink with ⟨old, hold, hkeeps⟩
    rw [hkeeps.timeout, h.timeout]
    exact hpatient.timeouts old (List.mem_of_getElem? hold)
  known link hmem entry hentry number hnumber := by
    rcases List.getElem?_of_mem hmem with ⟨place, hlink⟩
    rcases h.links place link hlink with ⟨old, hold, hkeeps⟩
    rcases hkeeps.pending with ⟨keep, hpending, -⟩
    rw [hpending] at hentry
    rw [h.deadlines]
    exact hpatient.known old (List.mem_of_getElem? hold) entry (List.mem_filter.mp hentry).1 number
      hnumber
  sent place number hmem := by
    rw [h.sent] at hmem
    rw [h.deadlines]
    exact hpatient.sent place number hmem
  asks := hpatient.asks.sublist h.asks
  ends place number hmem := by
    rcases hpatient.ends place number (h.asks.subset hmem) with ⟨deadline, hdeadline, hle⟩
    have hnow := h.now_le
    refine ⟨deadline, by rw [h.deadlines, hdeadline], ?_⟩
    rw [h.timeout]
    omega
  unknown place number hmem := by
    rcases hpatient.unknown place number (h.asks.subset hmem) with ⟨hsent, hnone⟩
    rw [h.sent]
    refine ⟨hsent, ?_⟩
    intro link hlink
    rcases h.links place link hlink with ⟨old, hold, hkeeps⟩
    exact hkeeps.waiting_eq_nil (hnone old hold)
  waits place number hmem link hlink deadline hdeadline hlate := by
    rw [h.sent] at hmem
    rw [h.deadlines] at hdeadline
    rcases h.links place link hlink with ⟨old, hold, hkeeps⟩
    -- The entry was there before, and lasts longer than the inquiry.
    have hearlier := Nat.lt_of_le_of_lt h.now_le hlate
    rcases hpatient.waits place number hmem old hold deadline hdeadline hearlier with
      ⟨entry, hentry, hle⟩
    exact ⟨entry, hkeeps.waiting_eq hentry (Nat.lt_of_lt_of_le hlate hle), hle⟩

section

variable {place number : Nat} {link asked : Link} {reaction : Reaction}
  (h : AsksLink s later place number link asked reaction)

include h

theorem AsksLink.first_mem : (place, Sink.inquiry number) ∈ s.asks := by
  rw [h.asks]
  exact List.mem_cons_self

variable (hpatient : Patient s)

include hpatient

theorem AsksLink.of_mem_asks {entry : Nat × Sink} (hmem : entry ∈ later.asks) :
    entry ∈ s.asks ∧ entry ≠ (place, .inquiry number) := by
  have hnodup := hpatient.asks
  rw [h.asks, List.nodup_cons] at hnodup
  rw [h.asks]
  exact ⟨List.mem_cons_of_mem _ hmem, fun heq => hnodup.1 (heq ▸ hmem)⟩

theorem AsksLink.exists_entry {found : Link}
    (hfound : later.querier.multicast[place]? = some found)
    (hverdict : reaction.verdict.isOk = true) {deadline : Nat}
    (hdeadline : s.reception.deadlines[number]? = some deadline) :
    ∃ entry, waiting found number = [entry] ∧ deadline ≤ entry.expires := by
  rcases hpatient.ends place number h.first_mem with ⟨ends, hends, hle⟩
  rcases hpatient.unknown place number h.first_mem with ⟨-, hnone⟩
  rcases h.cases_link hfound with ⟨-, rfl⟩ | ⟨hne, -⟩
  . rcases waiting_asked h.reacts (hnone link h.found) hverdict with ⟨id, hwaiting⟩
    refine ⟨_, hwaiting, ?_⟩
    rw [hdeadline, Option.some_inj] at hends
    rw [hends, hpatient.timeouts link (List.mem_of_getElem? h.found)]
    exact hle
  . contradiction

theorem AsksLink.patient : Patient later := by
  have hlinkMem := List.mem_of_getElem? h.found
  have hbound : number < s.reception.deadlines.length := by
    rcases hpatient.ends place number h.first_mem with ⟨deadline, hdeadline, -⟩
    exact (List.getElem?_eq_some_iff.mp hdeadline).1
  exact {
    timeouts := by
      intro found hmem
      rcases List.getElem?_of_mem hmem with ⟨other, hfound⟩
      rw [h.timeout]
      rcases h.cases_link hfound with ⟨-, rfl⟩ | ⟨-, hold⟩
      . rw [h.reacts.kept.timeout]
        exact hpatient.timeouts link hlinkMem
      . exact hpatient.timeouts found (List.mem_of_getElem? hold)
    known := by
      intro found hmem
      rcases List.getElem?_of_mem hmem with ⟨other, hfound⟩
      rw [h.reception.deadlines]
      rcases h.cases_link hfound with ⟨-, rfl⟩ | ⟨-, hold⟩
      . exact known_asked h.reacts hbound (hpatient.known link hlinkMem)
      . exact hpatient.known found (List.mem_of_getElem? hold)
    sent := by
      intro other third hmem
      rw [h.reception.deadlines]
      rcases h.cases_sent hmem with hold | ⟨heq, -⟩
      . exact hpatient.sent other third hold
      . cases heq
        exact hbound
    asks := by
      have hnodup := hpatient.asks
      rw [h.asks] at hnodup
      exact hnodup.of_cons
    ends := by
      intro other third hmem
      rw [h.reception.deadlines, h.reception.now, h.timeout]
      exact hpatient.ends other third (h.of_mem_asks hpatient hmem).1
    unknown := by
      intro other third hmem
      rcases h.of_mem_asks hpatient hmem with ⟨hold, hne⟩
      rcases hpatient.unknown other third hold with ⟨hnotSent, hnobody⟩
      refine ⟨?_, ?_⟩
      . intro hsent
        rcases h.cases_sent hsent with hsent | ⟨heq, -⟩
        . exact hnotSent hsent
        . exact hne heq
      . intro found hfound
        rcases h.exists_waiting hne hfound with ⟨old, hlink, hwaiting⟩
        rw [hwaiting]
        exact hnobody old hlink
    waits := by
      intro other third hmem found hfound ends hends hlate
      rw [h.reception.deadlines] at hends
      rw [h.reception.now] at hlate
      -- Only the inquiry that was just sent is new at the link, with the timeout that starts now.
      by_cases heq : (other, Sink.inquiry third) = (place, .inquiry number)
      . cases heq
        rcases h.cases_sent hmem with hold | ⟨-, hverdict⟩
        . exact absurd hold (hpatient.unknown place number h.first_mem).1
        . exact h.exists_entry hpatient hfound hverdict hends
      . rcases h.cases_sent hmem with hold | ⟨hnew, -⟩
        . rcases h.exists_waiting heq hfound with ⟨old, hlink, hwaiting⟩
          rw [hwaiting]
          exact hpatient.waits other third hold old hlink ends hends hlate
        . contradiction }

end

theorem Patient.setTimeout (h : Patient s) (hidle : s.tasks = []) (timeout : Nat) :
    Patient (s.next (.setTimeout timeout)) := by
  have hasks : s.asks = [] := by
    rw [Course.asks, hidle]
    rfl
  have hlinks : ∀ (place : Nat) (link : Link),
      (s.next (.setTimeout timeout)).querier.multicast[place]? = some link →
      ∃ old : Link, s.querier.multicast[place]? = some old ∧ link.inbox = old.inbox ∧
        link.timeout = timeout := by
    intro place link hlink
    have hmap : (s.querier.multicast.map (Peer.setTimeout · timeout))[place]? = some link := hlink
    rw [List.getElem?_map] at hmap
    rcases Option.map_eq_some_iff.mp hmap with ⟨old, hold, rfl⟩
    exact ⟨old, hold, rfl, rfl⟩
  -- No inquiry is on its way to the links, which would begin to wait with another timeout.
  have hnothing : ∀ entry, entry ∉ (s.next (.setTimeout timeout)).asks := by
    intro entry hmem
    have hold : entry ∈ s.asks := hmem
    rw [hasks] at hold
    contradiction
  exact {
    timeouts := by
      intro link hmem
      rcases List.getElem?_of_mem hmem with ⟨place, hlink⟩
      rcases hlinks place link hlink with ⟨old, -, -, htimeout⟩
      exact htimeout
    known := by
      intro link hmem
      rcases List.getElem?_of_mem hmem with ⟨place, hlink⟩
      rcases hlinks place link hlink with ⟨old, hold, hinbox, -⟩
      rw [hinbox]
      exact h.known old (List.mem_of_getElem? hold)
    sent := h.sent
    asks := h.asks
    ends := fun place number hmem => absurd hmem (hnothing _)
    unknown := fun place number hmem => absurd hmem (hnothing _)
    waits := by
      intro place number hmem link hlink
      rcases hlinks place link hlink with ⟨old, hold, hinbox, -⟩
      have hwaits := h.waits place number hmem old hold
      unfold waiting at *
      rw [hinbox]
      exact hwaits }

theorem Patient.resolve (h : Patient s) (query : Message) (caller : Option Observer) :
    Patient (s.resolve query caller) := by
  have hlength : s.reception.deadlines.length = s.reception.cases.length := List.length_map ..
  have hdeadlines : (s.resolve query caller).reception.deadlines = _ :=
    deadlines_resolve query caller
  have hasks : ∀ place number, (place, .inquiry number) ∈ (s.resolve query caller).asks →
      number = s.reception.deadlines.length := by
    intro place number hmem
    rw [asks_resolve] at hmem
    split at hmem
    . rcases List.mem_map.mp hmem with ⟨_, -, heq⟩
      cases heq
      exact hlength.symm
    . contradiction
  have hold : ∀ number < s.reception.deadlines.length,
      (s.resolve query caller).reception.deadlines[number]? = s.reception.deadlines[number]? := by
    intro number hnumber
    rw [hdeadlines, List.getElem?_append_left hnumber]
  have hbound : ∀ number < s.reception.deadlines.length,
      number < (s.resolve query caller).reception.deadlines.length := by
    intro number hnumber
    rw [hdeadlines, List.length_append]
    omega
  exact {
    timeouts := h.timeouts
    known := fun link hmem entry hentry number hnumber =>
      hbound number (h.known link hmem entry hentry number hnumber)
    sent := fun place number hmem => hbound number (h.sent place number hmem)
    asks := by
      rw [asks_resolve]
      split
      . apply List.Pairwise.map _ _ List.nodup_range'
        intro first second hne heq
        exact hne (congrArg Prod.fst heq)
      . exact List.nodup_nil
    ends := by
      intro place number hmem
      rw [hasks place number hmem, hdeadlines, List.getElem?_concat_length]
      refine ⟨_, rfl, ?_⟩
      -- This is why the links are given the timeout of the station.
      have hle : s.deadline query ≤ s.reception.now + s.querier.timeout := by
        unfold Course.deadline
        split <;> omega
      exact hle
    unknown := by
      intro place number hmem
      have hnumber := hasks place number hmem
      refine ⟨?_, ?_⟩
      . intro hsent
        have hlt := h.sent place number hsent
        omega
      . intro link hlink
        rw [waiting, List.filter_eq_nil_iff]
        intro entry hentry hnumbered
        have hlt := h.known link (List.mem_of_getElem? hlink) entry hentry number
          (by simpa using hnumbered)
        omega
    waits := by
      intro place number hmem link hlink deadline hdeadline hlate
      rw [hold number (h.sent place number hmem)] at hdeadline
      exact h.waits place number hmem link hlink deadline hdeadline hlate }

theorem Change.patient (h : Change s later) (hpatient : Patient s) : Patient later := by
  cases h with
  | steady h => exact h.patient hpatient
  | asked h => exact h.patient hpatient
  | begun query caller h =>
    rw [h]
    exact hpatient.resolve query caller
  | set timeout hidle h =>
    rw [h]
    exact hpatient.setTimeout hidle timeout

theorem patient_initial {station : Station τ} {settings : QuerierSettings}
    (h : station.Fresh settings) : Patient (.initial station) where
  timeouts link hmem := (h.links link hmem).2.1.trans h.timeout.symm
  known link hmem entry hentry := by
    rw [(h.links link hmem).1] at hentry
    contradiction
  sent _ _ hmem := absurd hmem List.not_mem_nil
  asks := List.nodup_nil
  ends _ _ hmem := absurd hmem List.not_mem_nil
  unknown _ _ hmem := absurd hmem List.not_mem_nil
  waits _ _ hmem := absurd hmem List.not_mem_nil

theorem patient_follow {station : Station τ} {settings : QuerierSettings}
    (h : station.Fresh settings) {acts : List Act}
    (hadmits : (machine τ).Admits (.initial station) acts)
    (hopen : ((machine τ).follow (.initial station) acts).querier.closed = false) :
    Patient ((machine τ).follow (.initial station) acts) := by
  refine Machine.run_induction (P := fun _ s => s.querier.closed = false → Patient s)
    (fun _ => patient_initial h) ?_ hadmits hopen
  intro acts act hadmits ih henabled hopen
  have hbefore := Course.open_of_next hopen
  exact ((wired_follow h hadmits hbefore).change henabled hopen).patient (ih hbefore)

theorem Wired.deadlines_follow {listeners : List Observer} (h : Wired s listeners)
    {acts : List Act} (hadmits : (machine τ).Admits s acts)
    (hopen : ((machine τ).follow s acts).querier.closed = false) :
    s.reception.deadlines <+: ((machine τ).follow s acts).reception.deadlines := by
  have hall : (∃ others, Wired ((machine τ).follow s acts) others) ∧
      s.reception.deadlines <+: ((machine τ).follow s acts).reception.deadlines := by
    refine Machine.run_induction
      (P := fun _ later => later.querier.closed = false →
        (∃ others, Wired later others) ∧ s.reception.deadlines <+: later.reception.deadlines)
      (fun _ => ⟨⟨listeners, h⟩, List.prefix_rfl⟩) ?_ hadmits hopen
    intro acts act _ ih henabled hopen
    rcases ih (Course.open_of_next hopen) with ⟨⟨others, hwired⟩, hprefix⟩
    exact ⟨⟨_, hwired.next act hopen⟩, hprefix.trans (hwired.change henabled hopen).deadlines⟩
  exact hall.2

theorem filter_reached {link : Link} {number now : Nat} {entry : Inbox.Pending Sink}
    (hobservers : link.inbox.observers.members = [.observers])
    (hwaiting : waiting link number = [entry]) (hlate : now < entry.expires) :
    (link.inbox.reached now).filter (· = .inquiry number) = [.inquiry number] := by
  have hlistener : entry.listener = .inquiry number := by
    have hmem : entry ∈ waiting link number := by simp [hwaiting]
    simpa using (List.mem_filter.mp hmem).2
  have hpending : (link.inbox.expire now).pending.filter (·.listener = .inquiry number)
      = [entry] := by
    have hsame : (link.inbox.expire now).pending.filter (·.listener = .inquiry number)
        = (waiting link number).filter (·.expires > now) := by
      simp only [Inbox.expire, waiting, List.filter_filter, Bool.and_comm]
    simp [hsame, hwaiting, hlate]
  have hmap : ((link.inbox.expire now).pending.map (·.listener)).filter (· = .inquiry number)
      = [.inquiry number] := by
    rw [List.filter_map]
    exact (congrArg (List.map (·.listener)) hpending).trans (congrArg ([·]) hlistener)
  rw [Inbox.reached, List.filter_append, hmap, hobservers]
  simp

/--
A response that comes in over a link before an inquiry ends, and after the inquiry was sent there,
is delivered to the inquiry.
-/
theorem delivered_before_deadline {host : Transport.Host} {settings : Settings}
    {system : List SocketAddress} {look : τ} {crew : Option (Work.Crew τ)} {now : Nat}
    {station : Station τ} (hcreate : create host settings system look crew now = .ok station)
    {front behind : List Act} {query : Message} {caller : Option Observer}
    (hadmits : (machine τ).Admits (.initial station) (front ++ .resolve query caller :: behind))
    (hopen : ((machine τ).follow (.initial station)
      (front ++ .resolve query caller :: behind)).querier.closed = false) :
    let opened := (machine τ).follow (.initial station) front
    let s := (machine τ).follow (.initial station) (front ++ .resolve query caller :: behind)
    let number := opened.reception.cases.length
    let deadline := opened.reception.now +
      if Inquiry.selectsUnicast query opened.querier.nameservers.length then opened.querier.timeout
      else min opened.querier.responseWait opened.querier.timeout
    ∃ case, s.reception.cases[number]? = some case ∧ case.inquiry.deadline = deadline ∧
      ∀ place link payload response, (place, .inquiry number) ∈ s.sent →
        s.querier.multicast[place]? = some link → Inbox.response? payload = some response →
        s.reception.now < deadline →
        (s.next (.packet place payload)).reception.cases[number]? = some
          { case with
            inquiry := case.inquiry.step (.reported ⟨response.id, .message response⟩) } := by
  intro opened s number deadline
  have hfresh := fresh_create hcreate
  have hwired : Wired s _ := wired_follow hfresh hadmits hopen
  have hpatient : Patient s := patient_follow hfresh hadmits hopen
  have hsplit : s = (machine τ).follow (opened.next (.resolve query caller)) behind :=
    (machine τ).follow_append (.initial station) front (.resolve query caller :: behind)
  have hlast : s.querier.closed = false := hopen
  rw [hsplit] at hlast
  rcases (machine τ).admits_append_iff.mp hadmits with ⟨hfront, henabled, hbehind⟩
  have hbegun := Course.open_of_follow hlast
  have hopened := Course.open_of_next hbegun
  have hnext : opened.next (.resolve query caller) = opened.resolve query caller := by
    simp [Course.next, hopened]
  have hends : s.reception.deadlines[number]? = some deadline := by
    have hprefix := ((wired_follow hfresh hfront hopened).next _ hbegun).deadlines_follow hbehind
      hlast
    rw [← hsplit, hnext, deadlines_resolve] at hprefix
    rcases hprefix with ⟨others, hothers⟩
    have hlength : opened.reception.deadlines.length = number := List.length_map ..
    rw [← hothers, List.append_assoc, ← hlength, List.getElem?_append_right (Nat.le_refl _),
      Nat.sub_self]
    rfl
  have hfound := hends
  rw [Reception.deadlines, List.getElem?_map] at hfound
  rcases Option.map_eq_some_iff.mp hfound with ⟨case, hcase, hdeadline⟩
  refine ⟨case, hcase, hdeadline, ?_⟩
  intro place link payload response hsent hlink hresponse hlate
  have hobservers := (hwired.links link (List.mem_of_getElem? hlink)).observers
  rcases hpatient.waits place number hsent link hlink deadline hends hlate with
    ⟨entry, hentry, hexpires⟩
  have honce := filter_reached hobservers hentry (Nat.lt_of_lt_of_le hlate hexpires)
  rw [reception_packet hlink, Inbox.deliver_eq_of_observers hobservers hresponse]
  exact Reception.getElem?_cases_deliverAll honce _ hcase

/--
The timeout is shortened while an inquiry waits. A response that comes in after the new timeout, but
before the inquiry ends, is delivered.
-/
theorem delivered_before_deadline_shortened :
    let payload : List UInt8 := [0, 7, 0x80, 0, 0, 0, 0, 0, 0, 0, 0, 0]
    let response : Message := { id := 7, isResponse := true }
    let host : Transport.Host := {}
    let settings : Settings := { querier := { ipv6 := false } }
    let query : Message := .query 7 ⟨[[0x68], [0x6c, 0x6f, 0x63, 0x61, 0x6c]], true⟩ .a
    let front : List Act := [.setTimeout 300]
    let behind : List Act := [.work, .work, .setTimeout 100, .pass 249]
    let acts : List Act := front ++ .resolve query none :: behind
    ∃ station : Station Unit, create host settings [] () none 0 = .ok station ∧
      let s := (machine Unit).follow (.initial station) acts
      (machine Unit).Admits (.initial station) acts ∧ s.querier.closed = false ∧
      (0, .inquiry 0) ∈ s.sent ∧
      (s.next (.packet 0 payload)).reception.cases[0]?.map (·.inquiry.replies)
        = some [.message response] := by
  intro payload response host settings query front behind acts
  let link : Link :=
    { interface := .v4 .unspecified
      group := .of (.v4 Link.groupV4) 5353
      timeout := 6000
      host
      inbox := .observed }
  let querier : Querier Link Nameserver :=
    { multicast := [link], nameservers := [], responseWait := 250, timeout := 6000 }
  let station : Station Unit := { querier, crew := none }
  have hcreate : create host settings [] () none 0 = .ok station := by rfl
  have hadmits : (machine Unit).Admits (.initial station) acts := by decide +kernel
  have hopen : ((machine Unit).follow (.initial station) acts).querier.closed = false := by
    decide +kernel
  have hresponse : Inbox.response? payload = some response := by decide +kernel
  have hsent : (0, .inquiry 0) ∈ ((machine Unit).follow (.initial station) acts).sent := by
    decide +kernel
  have hlate : ((machine Unit).follow (.initial station) acts).reception.now < 250 := by
    decide +kernel
  have hmulticast : (((machine Unit).follow (.initial station) acts).querier.multicast[0]?).isSome
      = true := by
    decide +kernel
  have hinquiry : (((machine Unit).follow (.initial station) acts).reception.cases[0]?.map
      fun case => (case.inquiry.replies, case.inquiry.ids)) = some ([], [7]) := by
    decide +kernel
  rcases delivered_before_deadline hcreate hadmits hopen with ⟨case, hcase, -, hdelivered⟩
  rcases Option.isSome_iff_exists.mp hmulticast with ⟨asked, hlink⟩
  have htold := hdelivered 0 asked payload response hsent hlink hresponse hlate
  have hfirst : ((machine Unit).follow (.initial station) acts).reception.cases[0]? = some case :=
    hcase
  rw [hfirst] at hinquiry
  have hboth := Prod.mk.inj (Option.some_inj.mp hinquiry)
  have hreplies : (case.inquiry.step (.reported ⟨7, .message response⟩)).replies
      = [.message response] := by
    simp [Inquiry.step, Inquiry.keeps, Inquiry.isAttributed, hboth.1, hboth.2]
  refine ⟨station, hcreate, hadmits, hopen, hsent, ?_⟩
  have hdone := congrArg (Option.map (·.inquiry.replies)) htold
  exact hdone.trans (congrArg some hreplies)

end Zeroconf.Station
