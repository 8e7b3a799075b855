import Zeroconf.Lookup
import Zeroconf.Peer.Scripted
import Zeroconf.Proofs.Inquiry.Attribution
import Zeroconf.Proofs.Inquiry.NxDomain
import Zeroconf.Proofs.Querier.Outcome

/-!
This module contains the proof that a lookup through a querier finds the records that were asked
for in the answer sections of the replies on record, each of them once, and that no reply that holds
such a record is passed over.
-/

namespace Zeroconf.Lookup

open Inquiry

def wants (name : Name) (type : RecordType) (record : Record) : Bool :=
  record.name.same name && (type == .any || record.type == type)

/--
The records that were asked for in the answer sections of faultless replies. In the order of
arrival, the first one of each identity is kept.
-/
def found (name : Name) (type : RecordType) (replies : List Reply) : List Record :=
  firsts [] (((faultless replies).flatMap (·.answers)).filter (wants name type))

theorem wants_congr (name : Name) (type : RecordType) {a b : Record} (h : a.same b = true) :
    wants name type a = wants name type b := by
  have hidentity := Record.same_iff.mp h
  have hname : a.name.fold = b.name.fold := congrArg Record.Identity.name hidentity
  have htype : a.type = b.type := congrArg Record.Identity.type hidentity
  simp only [wants, Name.same, hname, htype]

theorem mem_identity_found {name : Name} {type : RecordType} {replies : List Reply}
    {response : Message} (hmem : .message response ∈ replies) (hcode : response.code = .noError)
    {record : Record} (hrecord : record ∈ response.answers)
    (hwants : wants name type record = true) :
    record.identity ∈ (found name type replies).map Record.identity := by
  unfold found
  rw [mem_identity_firsts]
  refine ⟨List.mem_map_of_mem ?_, by simp⟩
  rw [List.mem_filter, List.mem_flatMap]
  exact ⟨⟨response, mem_faultless.mpr ⟨hmem, hcode⟩, hrecord⟩, hwants⟩

theorem matching_gathered (id : UInt16) (name : Name) (type : RecordType) (replies : List Reply) :
    matching (gathered (.query id name type) replies) name type = found name type replies := by
  have hfilter : (gathered (.query id name type) replies).answers.filter (wants name type)
      =
    found name type replies := by
    simp only [gathered, Message.query, List.nil_append, found]
    exact filter_firsts (fun _ _ h => wants_congr name type h) ..
  unfold matching
  split
  . next hcode =>
    -- The shortcut returns nothing, and the code says that nothing was added at all.
    have hadded := (code_gathered_eq_nxDomain_iff rfl replies).mp (beq_iff_eq.mp hcode)
    rw [← hfilter, (sections_gathered_eq_iff.mpr hadded).1]
    rfl
  . exact hfilter

/--
What a lookup finds for a query with these replies, or why it finds nothing.
-/
def outcome (name : Name) (type : RecordType) (inquiry : Inquiry) : Except Error (List Record) :=
  match totalFailure? inquiry.replies inquiry.sent with
  | some first => .error first
  | none => .ok (found name type inquiry.replies)

theorem map_matching_answer {name : Name} {type : RecordType} {inquiry : Inquiry} {id : UInt16}
    (hquery : inquiry.query = .query id name type) :
    inquiry.answer.map (matching · name type) = outcome name type inquiry := by
  unfold Inquiry.answer outcome
  rw [merge_eq, hquery]
  cases totalFailure? inquiry.replies inquiry.sent with
  | some first => rfl
  | none =>
    rw [← matching_gathered id]
    rfl

theorem isAnsweredBy_of_wants (id : UInt16) {name : Name} {type : RecordType} {response : Message}
    (hresponse : response.isResponse = true) {record : Record}
    (hrecord : record ∈ response.answers) (hwants : wants name type record = true) :
    (Message.query id name type).isAnsweredBy response = true := by
  have hanswers : Message.answersQuestion record ⟨name, type, internetClass⟩ = true := by
    simp only [wants, Bool.and_eq_true] at hwants
    simp [Message.answersQuestion, hwants.1, hwants.2]
  unfold Message.isAnsweredBy
  simp only [hresponse, Message.query, List.any_cons, List.any_nil, Bool.or_false, Bool.true_and]
  exact List.any_eq_true.mpr ⟨record, List.mem_append_left _ hrecord, hanswers⟩

theorem mem_replies_of_isAnsweredBy {plan : Plan} {now : Nat} {acts : List Act} {source : Nat}
    {id : UInt16} {response : Message}
    (hadmits : plan.machine.Admits (Course.initial plan now) acts)
    (hmem : .deliver source ⟨id, .message response⟩ ∈ acts)
    (hanswered : plan.query.isAnsweredBy response = true) :
    .message response ∈ (plan.machine.follow (Course.initial plan now) acts).inquiry.replies := by
  rcases List.append_of_mem hmem with ⟨front, behind, rfl⟩
  rw [Machine.admits_append_iff] at hadmits
  rcases hadmits with ⟨hfront, -, hbehind⟩
  let before := plan.machine.follow (Course.initial plan now) front
  have hbefore : plan.Reaches before := ⟨now, .follow hfront⟩
  have hrecords : before.Records plan source ⟨id, .message response⟩ := by
    rw [Course.records_message_iff, isAttributed_iff, hbefore.valid.query]
    exact .inr (.inr hanswered)
  -- What is on record at this moment is still there at the end.
  have hkept := (Plan.Run.follow hbehind).follows.replies
  rw [Machine.follow_append, Course.follow_cons]
  apply hkept.subset
  change _ ∈ (Course.next plan before (.deliver source ⟨id, .message response⟩)).inquiry.replies
  rw [show _ = _ from hrecords]
  exact List.mem_append_right _ (List.mem_singleton.mpr rfl)

def through (P U : Type) [Peer P] [Peer U] : Lookup (Querier P U) where
  send query querier := querier.send query

end Zeroconf.Lookup

namespace Zeroconf

open Inquiry

theorem Reception.Holds.holds_answer {reception : Reception} {number : Nat}
    {caller : Option Observer} {course : Course}
    (h : (reception.wait number).2.Holds number caller course) :
    (reception.answer number).2.Holds number caller course := by
  simp only [Reception.answer, h.case]
  exact ⟨h.case, h.now⟩

/--
What happens to the inquiry with the given number when its query is sent, and then while somebody
waits until a time and these replies come in.
-/
def Reception.actsUntil (number time : Nat) (reactions : List Reaction) (dues : List Due) :
    List Act :=
  Querier.sending reactions ++ (dueActs number (dues.map (0, ·)) ++ [.pass time])

/--
Who sends a query through a querier gets the answer of an inquiry that goes on until it is complete,
or until the next reply is due too late.
-/
theorem Querier.exists_send_eq {P U : Type} [Peer P] [Peer U] (querier : Querier P U)
    (query : Message) (hopen : querier.closed = false) :
    let number := querier.reception.cases.length
    let plan := querier.plan query
    let initial := Course.initial plan querier.reception.now
    let sent := (querier.resolve query none).2.reception
    ∃ front behind time, front ++ behind = sent.upcoming ∧
      let acts :=
        Reception.actsUntil number time (querier.reactions query (.inquiry number)) front
      let course := plan.machine.follow initial acts
      plan.machine.Admits initial acts ∧
      (querier.send query).2.reception.Holds number none course ∧
      (querier.send query).1 = course.inquiry.answer ∧
      (course.inquiry.hasResults = true ∨
        ∀ due ∈ behind.head?, course.inquiry.deadline ≤ max sent.now due.time) := by
  intro number plan initial sent
  rcases querier.resolve_performs query none hopen with ⟨hnumber, hperforms⟩
  rcases querier.admits_sending query (.inquiry number) querier.reception.now with
    ⟨hsending, hsettled⟩
  have hholds := hperforms.holds
  rcases hholds.exists_wait_admits hsettled with
    ⟨front, behind, time, hsplit, hadmits, hwait, -, hended⟩
  have hsend : querier.send query = (querier.resolve query none).2.answer number := by
    unfold Querier.send
    rw [← Prod.eta (querier.resolve query none), hnumber]
  refine ⟨front, behind, time, hsplit, ?_⟩
  simp only [Reception.actsUntil]
  rw [Machine.follow_append, Machine.admits_append_iff]
  refine ⟨⟨hsending, hadmits⟩, ?_, ?_, ?_⟩
  . rw [hsend]
    exact Reception.Holds.holds_answer hwait
  . rw [hsend]
    exact Reception.Holds.answer hwait
  . -- The deadline is the one that was fixed when the query was sent.
    have hbegun : (plan.machine.follow initial
        (sending (querier.reactions query (.inquiry number)))).inquiry.phase ≠ .created := by
      rw [hsettled.phase]
      simp
    rw [(Plan.Run.follow hadmits).follows.deadline hbegun, hholds.now]
    exact hended

namespace Lookup

/--
What a lookup returns are the records of the name and the type in the answer sections of the
faultless replies on record, each of them once and the first one that came. Whatever is delivered
on the way and holds such a record is on record, no matter for which request it is given, and the
inquiry goes on until it is complete or what is still to come is due too late.
-/
theorem records_eq_found (name : Name) (type : RecordType) :
    (∀ (plan : Plan) (id : UInt16) (now : Nat) (acts : List Act),
      plan.query = .query id name type → plan.machine.Admits (Course.initial plan now) acts →
      let inquiry := (plan.machine.follow (Course.initial plan now) acts).inquiry
      inquiry.answer.map (matching · name type) = outcome name type inquiry ∧
      ∀ source other response record,
        .deliver source ⟨other, .message response⟩ ∈ acts → response.isResponse = true →
        record ∈ response.answers → wants name type record = true →
        .message response ∈ inquiry.replies ∧
        (response.code = .noError →
          record.identity ∈ (found name type inquiry.replies).map Record.identity)) ∧
    ∀ (P U : Type) [Peer P] [Peer U] (querier : Querier P U) (ids : QueryIds),
      let result := (through P U).records name type (ids, querier)
      (querier.closed = true → result.1 = .error (.closed "querier")) ∧
      (querier.closed = false →
        let query := (Lookup.query name type ids).1
        let number := querier.reception.cases.length
        let plan := querier.plan query
        let initial := Course.initial plan querier.reception.now
        let sent := (querier.resolve query none).2.reception
        ∃ front behind time, front ++ behind = sent.upcoming ∧
          let acts :=
            Reception.actsUntil number time (querier.reactions query (.inquiry number)) front
          let course := plan.machine.follow initial acts
          plan.machine.Admits initial acts ∧
          result.2.2.reception.Holds number none course ∧
          result.1 = outcome name type course.inquiry ∧
          (course.inquiry.hasResults = true ∨
            ∀ due ∈ behind.head?, course.inquiry.deadline ≤ max sent.now due.time)) := by
  constructor
  . intro plan id now acts hquery hadmits inquiry
    have hvalid : (plan.machine.follow (Course.initial plan now) acts).Valid plan :=
      Plan.Reaches.valid ⟨now, .follow hadmits⟩
    refine ⟨map_matching_answer (hvalid.query.trans hquery), ?_⟩
    intro source other response record hmem hresponse hrecord hwants
    have hanswered : plan.query.isAnsweredBy response = true := by
      rw [hquery]
      exact isAnsweredBy_of_wants id hresponse hrecord hwants
    have hreply := mem_replies_of_isAnsweredBy hadmits hmem hanswered
    exact ⟨hreply, fun hcode => mem_identity_found hreply hcode hrecord hwants⟩
  . intro P U _ _ querier ids result
    constructor
    . intro hclosed
      simp [result, records, through, Querier.send, Querier.resolve, hclosed, Except.map]
    . intro hopen query number plan initial sent
      rcases querier.exists_send_eq query hopen with
        ⟨front, behind, time, hsplit, hadmits, hholds, hanswer, hended⟩
      refine ⟨front, behind, time, hsplit, hadmits, hholds, ?_, hended⟩
      have hquery := (Plan.Reaches.valid ⟨_, .follow hadmits⟩).query
      rw [← map_matching_answer hquery, ← hanswer]
      rfl

/--
The first responder answers under a number of its own and tells of another name besides, the second
one repeats a record in other letters, and what comes with an error is left out.
-/
theorem records_eq_found_racing :
    let name := localName 0x68
    let address := fun (letter last : UInt8) (ttl : UInt32) =>
      ({ name := localName letter, type := .a, ttl, data := .a ⟨10, 0, 0, last⟩ } : Record)
    let first : Message :=
      { isResponse := true, answers := [address 0x6F 9 120, address 0x48 1 120],
        additionals := [address 0x68 7 120] }
    let second : Message := { isResponse := true, answers := [address 0x68 1 9, address 0x68 2 9] }
    let refusal : Message := { second with code := 5, answers := [address 0x68 3 9] }
    let acts : List Act :=
      [.start, .conclude (.ok 42), .deliver 0 ⟨7, .message first⟩, .conclude (.ok 43), .finish,
        .deliver 1 ⟨43, .message refusal⟩, .deliver 1 ⟨43, .message second⟩]
    let plan : Plan := ⟨.query 42 name .a, 100, 1000, 2, 0⟩
    let inquiry := (plan.machine.follow (Course.initial plan 0) acts).inquiry
    let querier : Querier Scripted Scripted :=
      { multicast :=
          [⟨"first", { delayed := [(30, ⟨some 7, .message first⟩)] }, [], [], [], 0, false, none⟩,
            ⟨"second", { immediate := [⟨none, .message second⟩] }, [], [], [], 0, false, none⟩]
        nameservers := [], responseWait := 100, timeout := 1000 }
    inquiry.answer.map (matching · name .a) = .ok [address 0x48 1 120, address 0x68 2 9] ∧
    .message first ∈ inquiry.replies ∧
    ((through Scripted Scripted).records name .a (⟨41, 0⟩, querier)).1
      =
    .ok [address 0x68 1 9, address 0x68 2 9] ∧
    ∃ course,
      ((through Scripted Scripted).records name .a (⟨41, 0⟩, querier)).1
        = outcome name .a course.inquiry ∧
      ((through Scripted Scripted).records name .a (⟨41, 0⟩, querier)).2.2.reception.Holds 0 none
        course := by
  intro name address first second refusal acts plan inquiry querier
  rcases records_eq_found name .a with ⟨hcourses, hqueriers⟩
  rcases hcourses plan 42 0 acts rfl (by decide) with ⟨hanswer, hdelivered⟩
  rcases hqueriers Scripted Scripted querier ⟨41, 0⟩ with ⟨-, hopen⟩
  rcases hopen rfl with ⟨front, behind, time, -, -, hholds, houtcome, -⟩
  refine ⟨?_, ?_, by decide +kernel, _, houtcome, hholds⟩
  . rw [hanswer]
    decide +kernel
  . have hmem : .deliver 0 ⟨7, .message first⟩ ∈ acts := by simp [acts]
    exact (hdelivered 0 7 first (address 0x48 1 120) hmem rfl (by decide) (by decide)).1

end Lookup

end Zeroconf
