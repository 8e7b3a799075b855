import Zeroconf.Peer.Scripted
import Zeroconf.Proofs.Inquiry.Merge
import Zeroconf.Proofs.Inquiry.Silence
import Zeroconf.Proofs.Querier.Outcome

/-!
This module contains the question in which courses an inquiry ends with an error. If nobody yields
more than one thing, it does so exactly if everybody has failed, and then with the first failure.
-/

namespace Zeroconf.Inquiry

def Act.failure? : Act → Option Error
  | .conclude (.error error) => some error
  | .deliver _ ⟨_, .failure error⟩ => some error
  | _ => none

theorem length_failures_add_messages (replies : List Reply) :
    (replies.filterMap Reply.failure?).length + (replies.filterMap Reply.message?).length
      =
    replies.length := by
  induction replies with
  | nil => rfl
  | cons reply replies ih =>
    cases reply with
    | message response =>
      simp only [List.filterMap_cons, Reply.failure?, Reply.message?, List.length_cons]
      omega
    | failure error =>
      simp only [List.filterMap_cons, Reply.failure?, Reply.message?, List.length_cons]
      omega

theorem totalFailure?_eq_some_iff {replies : List Reply} {sent : Nat} {error : Error} :
    totalFailure? replies sent = some error
      ↔
    (totalFailure? replies sent).isSome = true ∧
      (replies.filterMap Reply.failure?).head? = some error := by
  unfold totalFailure?
  split
  . constructor
    . intro h
      simp [h]
    . exact And.right
  . simp

theorem answer_eq_error_iff {inquiry : Inquiry} {error : Error} :
    inquiry.answer = .error error ↔ totalFailure? inquiry.replies inquiry.sent = some error := by
  unfold answer
  rw [merge_eq]
  split
  . next h => simp [h]
  . next h => simp [h]

theorem exists_answer_eq_ok_iff {inquiry : Inquiry} :
    (∃ answer, inquiry.answer = .ok answer)
      ↔
    (totalFailure? inquiry.replies inquiry.sent).isSome = false := by
  unfold answer
  rw [merge_eq]
  split
  . next h => simp [h]
  . next h => simp [h]

namespace Course

/--
Whether all that `source` has on record is a single failure.
-/
def Failed (course : Course) (source : Nat) : Prop :=
  ∃ error, course.repliesOf source = [.failure error]

/--
Whether nobody has more than one reply on record.
-/
def Single (plan : Plan) (course : Course) : Prop :=
  ∀ source < plan.selected, course.share source ≤ 1

theorem failures_next (plan : Plan) (course : Course) (act : Act) :
    (course.next plan act).inquiry.replies.filterMap Reply.failure?
      =
    course.inquiry.replies.filterMap Reply.failure? ++ act.failure?.toList := by
  cases act with
  | pass time => simp [next, Act.failure?]
  | start =>
    simp only [next, step, Act.failure?]
    split <;> simp
  | conclude verdict =>
    cases verdict with
    | ok id => simp [next, step_ofVerdict_ok, Act.failure?]
    | error error => simp [next, step_ofVerdict_error, Act.failure?, Reply.failure?]
  | finish => simp [next, step, Act.failure?]
  | deliver source report =>
    rcases report with ⟨id, reply⟩
    simp only [next, step_reported _ source, map_reply_ofReport]
    cases reply with
    | message response =>
      simp only [Act.failure?]
      split <;> simp [Reply.failure?]
    | failure error => simp [Act.failure?, keeps, Reply.failure?]

theorem failures_follow (plan : Plan) (course : Course) (acts : List Act) :
    (plan.machine.follow course acts).inquiry.replies.filterMap Reply.failure?
      =
    course.inquiry.replies.filterMap Reply.failure? ++ acts.filterMap Act.failure? := by
  exact read_follow (·.inquiry.replies.filterMap Reply.failure?) Act.failure? (failures_next plan)
    course acts

theorem length_repliesOf (course : Course) (source : Nat) :
    (course.repliesOf source).length = course.share source := by
  rw [repliesOf, List.length_map, share, List.countP_eq_length_filter]

theorem mem_repliesOf {course : Course} {source : Nat} {reply : Reply} :
    reply ∈ course.repliesOf source
      ↔
    ∃ contribution ∈ course.record, contribution.source = source ∧ contribution.reply = reply := by
  simp [repliesOf, and_assoc]

variable {plan : Plan} {course : Course}

theorem Valid.messages_eq_nil_of_failed (h : course.Valid plan)
    (hfailed : ∀ source < plan.selected, course.Failed source) :
    course.inquiry.replies.filterMap Reply.message? = [] := by
  rw [h.replies, List.filterMap_eq_nil_iff]
  intro reply hmem
  rcases List.mem_map.mp hmem with ⟨contribution, hcontribution, rfl⟩
  rcases hfailed contribution.source (h.source_lt contribution hcontribution) with ⟨error, heq⟩
  have hreply : contribution.reply ∈ course.repliesOf contribution.source :=
    mem_repliesOf.mpr ⟨contribution, hcontribution, rfl, rfl⟩
  rw [heq, List.mem_singleton] at hreply
  rw [hreply]
  rfl

theorem Valid.failed_of_messages_eq_nil (h : course.Valid plan)
    (hmessages : course.inquiry.replies.filterMap Reply.message? = []) {source : Nat}
    (hshare : course.share source = 1) : course.Failed source := by
  rw [← length_repliesOf, List.length_eq_one_iff] at hshare
  rcases hshare with ⟨reply, heq⟩
  have hmem : reply ∈ course.inquiry.replies := by
    have hown : reply ∈ course.repliesOf source := by simp [heq]
    rcases mem_repliesOf.mp hown with ⟨contribution, hcontribution, -, rfl⟩
    rw [h.replies]
    exact List.mem_map_of_mem hcontribution
  cases reply with
  | message response =>
    rw [List.filterMap_eq_nil_iff] at hmessages
    exact absurd (hmessages _ hmem) (by simp [Reply.message?])
  | failure error => exact ⟨error, heq⟩

theorem Valid.isSome_totalFailure?_iff_failed (h : course.Valid plan)
    (hphase : course.inquiry.phase = .started)
    (hsingle : course.Single plan) :
    (totalFailure? course.inquiry.replies course.inquiry.sent).isSome = true
      ↔
    0 < plan.selected ∧ ∀ source < plan.selected, course.Failed source := by
  have hlength := length_failures_add_messages course.inquiry.replies
  have hrecord := h.length_add_silent
  have hsurplus : course.surplus plan = 0 := surplus_eq_zero_iff.mpr hsingle
  rw [h.replies, List.length_map, ← h.replies] at hlength
  rw [isSome_totalFailure?_iff, h.started hphase]
  constructor
  . rintro ⟨hmessages, hsome, hall⟩
    rw [hmessages, List.length_nil] at hlength
    -- With nothing in surplus, as many failures as sub-queries leave nobody silent.
    have hheard : course.HeardAll plan := silent_eq_zero_iff.mp (by omega)
    refine ⟨by omega, ?_⟩
    intro source hsource
    have hone : course.share source = 1 :=
      Nat.le_antisymm (hsingle source hsource) (hheard source hsource)
    exact h.failed_of_messages_eq_nil hmessages hone
  . rintro ⟨hselected, hfailed⟩
    have hmessages := h.messages_eq_nil_of_failed hfailed
    have hsilent : course.silent plan = 0 := by
      rw [silent_eq_zero_iff]
      intro source hsource
      rcases hfailed source hsource with ⟨error, heq⟩
      simp [← length_repliesOf, heq]
    rw [hmessages, List.length_nil] at hlength
    exact ⟨hmessages, by omega, by omega⟩

theorem single_of_subperm {reactions : List Reaction}
    (hreactions : ∀ reaction ∈ reactions, reaction.outcomes.length ≤ 1)
    (hreplies : ∀ source, (course.repliesOf source).Subperm
      (((reactions[source]?).map (·.outcomes)).getD [])) : course.Single plan := by
  intro source _
  rw [← length_repliesOf]
  refine (hreplies source).length_le.trans ?_
  cases h : reactions[source]? with
  | none => simp
  | some reaction => exact hreactions reaction (List.mem_of_getElem? h)

end Course

/--
If nobody yields more than one thing, an inquiry that was sent ends with an error exactly if
somebody was asked and everybody has failed. The error is the first failure that was put on record,
be it a refusal at the turn of the one who was asked or a report. In all other cases there is an
answer. Who waits for an inquiry gets what it has come to on its course, and a querier whose peers
yield at most one thing each takes its inquiries along such courses.
-/
theorem answer_eq_error_iff_failed (plan : Plan) :
    (∀ (now : Nat) (acts : List Act),
      plan.machine.Admits (Course.initial plan now) acts →
      let course := plan.machine.follow (Course.initial plan now) acts
      course.inquiry.phase = .started → course.Single plan →
      (∀ error, course.inquiry.answer = .error error ↔
        (0 < plan.selected ∧ ∀ source < plan.selected, course.Failed source) ∧
          (acts.filterMap Act.failure?).head? = some error) ∧
      ((∃ answer, course.inquiry.answer = .ok answer) ↔
        ¬(0 < plan.selected ∧ ∀ source < plan.selected, course.Failed source))) ∧
    (∀ (now : Nat) (acts : List Act) (reception : Reception) (number : Nat)
        (caller : Option Observer),
      let initial := Course.initial plan now
      plan.machine.Admits initial acts →
      (plan.machine.follow initial acts).inquiry.phase = .started →
      reception.Holds number caller (plan.machine.follow initial acts) →
      ∃ coming, plan.machine.Admits initial (acts ++ coming) ∧
        (plan.machine.follow initial (acts ++ coming)).inquiry.phase = .started ∧
        (reception.answer number).1
          =
        (plan.machine.follow initial (acts ++ coming)).inquiry.answer) ∧
    (∀ (P U : Type) [Peer P] [Peer U] (querier : Querier P U) (query : Message)
        (caller : Option Observer),
      let number := querier.reception.cases.length
      let reactions := querier.reactions query (.inquiry number)
      let initial := Course.initial plan querier.reception.now
      querier.closed = false → querier.plan query = plan →
      (∀ due ∈ querier.reception.upcoming, due.sink ≠ .inquiry number) →
      (∀ reaction ∈ reactions, reaction.outcomes.length ≤ 1) →
      ∃ acts, plan.machine.Admits initial acts ∧
        (plan.machine.follow initial acts).inquiry.phase = .started ∧
        (plan.machine.follow initial acts).Single plan ∧
        (∀ source, ((plan.machine.follow initial acts).repliesOf source).Subperm
          (((reactions[source]?).map (·.outcomes)).getD [])) ∧
        ((querier.resolve query caller).2.answer number).1
          = (plan.machine.follow initial acts).inquiry.answer) := by
  refine ⟨?_, ?_, ?_⟩
  . intro now acts hadmits course hphase hsingle
    have hreaches : plan.Reaches course := ⟨now, .follow hadmits⟩
    have hfailed := hreaches.valid.isSome_totalFailure?_iff_failed hphase hsingle
    have hfailures : course.inquiry.replies.filterMap Reply.failure?
        = acts.filterMap Act.failure? :=
      Course.failures_follow plan (Course.initial plan now) acts
    constructor
    . intro error
      rw [answer_eq_error_iff, totalFailure?_eq_some_iff, hfailed, hfailures]
    . rw [exists_answer_eq_ok_iff, Bool.eq_false_iff, ne_eq, hfailed]
  . intro now acts reception number caller initial hadmits hphase hholds
    have hreaches : plan.Reaches (plan.machine.follow initial acts) := ⟨now, .follow hadmits⟩
    rcases hholds.wait hreaches.valid hphase with ⟨later, hrun, hwait, hstarted⟩
    rcases hrun.exists_acts with ⟨coming, hcoming, rfl⟩
    rw [← Machine.follow_append] at hwait hstarted
    refine ⟨coming, ?_, hstarted, hwait.answer⟩
    rw [Machine.admits_append_iff]
    exact ⟨hadmits, hcoming⟩
  . intro P U _ _ querier query caller number reactions initial hopen hplan hfresh hreactions
    subst hplan
    rcases querier.resolve_wait query caller hopen hfresh with
      ⟨acts, hadmits, hsettled, hholds, hreplies, -⟩
    exact ⟨acts, hadmits, hsettled.phase, Course.single_of_subperm hreactions hreplies, hreplies,
      hholds.answer⟩

/--
A responder takes the query and reports an error before a nameserver refuses. As long as the
responder is silent there is an answer.
-/
theorem answer_eq_error_iff_failed_pair :
    let host : Name := ⟨[[0x68], [0x6C, 0x6F, 0x63, 0x61, 0x6C]], true⟩
    let query : Message := { id := 42, questions := [⟨host, .a, 1⟩, ⟨.root, .a, 1⟩] }
    let plan : Plan := ⟨query, 100, 1000, 1, 1⟩
    let initial := Course.initial plan 0
    let refusal : Act := .conclude (.error (.closed "nameserver"))
    let querier : Querier Scripted Scripted :=
      { multicast := [{
          name := "responder"
          script := { delayed := [(5, ⟨none, .failure .timeout⟩)] } }]
        nameservers := [{
          name := "nameserver"
          script := { refusal := some (.closed "nameserver") } }]
        responseWait := 100
        timeout := 1000 }
    (plan.machine.follow initial [.start, .conclude (.ok 42), .deliver 0 ⟨42, .failure .timeout⟩,
      refusal, .finish]).inquiry.answer = .error .timeout ∧
    (∃ answer, (plan.machine.follow initial [.start, .conclude (.ok 42), refusal,
      .finish]).inquiry.answer = .ok answer) ∧
    ∃ course, plan.Reaches course ∧ course.Single plan ∧
      ((querier.resolve query none).2.answer 0).1 = course.inquiry.answer := by
  intro host query plan initial refusal querier
  rcases answer_eq_error_iff_failed plan with ⟨hcourse, -, hquerier⟩
  refine ⟨?_, ?_, ?_⟩
  . rcases hcourse 0 [.start, .conclude (.ok 42), .deliver 0 ⟨42, .failure .timeout⟩, refusal,
      .finish] (by decide) (by decide) (by unfold Course.Single; decide) with ⟨herror, -⟩
    refine (herror .timeout).mpr ⟨⟨by decide, ?_⟩, rfl⟩
    intro source hsource
    have : source = 0 ∨ source = 1 := by
      have : plan.selected = 2 := by decide
      omega
    rcases this with rfl | rfl
    . exact ⟨_, rfl⟩
    . exact ⟨_, rfl⟩
  . rcases hcourse 0 [.start, .conclude (.ok 42), refusal, .finish] (by decide) (by decide)
      (by unfold Course.Single; decide) with ⟨-, hok⟩
    refine hok.mpr ?_
    rintro ⟨-, hfailed⟩
    rcases hfailed 0 (by decide) with ⟨error, heq⟩
    contradiction
  . rcases hquerier Scripted Scripted querier query none rfl rfl (by decide) (by decide) with
      ⟨acts, hadmits, -, hsingle, -, hanswer⟩
    exact ⟨_, ⟨0, .follow hadmits⟩, hsingle, hanswer⟩

end Zeroconf.Inquiry
