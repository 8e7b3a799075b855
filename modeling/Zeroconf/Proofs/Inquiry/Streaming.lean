import Zeroconf.Peer.Scripted
import Zeroconf.Proofs.Querier.Outcome

/-!
This module contains the question of which replies the caller of an inquiry is told. A report is put
on record first and the caller is told of it afterwards, while other things may happen in between.
That somebody refuses is put on record as well, but the caller is not told of it.
-/

namespace Zeroconf.Inquiry

namespace Course

def reported (course : Course) : List Reply :=
  (course.record.filter (·.kind != .refusal)).map (·.reply)

theorem kind_of_mem_ofReport {inquiry : Inquiry} {source : Nat} {report : Report}
    {contribution : Contribution} (h : contribution ∈ Contribution.ofReport inquiry source report) :
    contribution.kind ≠ .refusal := by
  unfold Contribution.ofReport at h
  split at h
  . simp_all
  . split at h <;> simp_all

theorem reported_next (plan : Plan) (course : Course) (act : Act) :
    (course.next plan act).reported
      =
    course.reported ++ (course.keptBy act).map (·.reply) := by
  cases act with
  | pass time => simp [next, reported, keptBy]
  | start => simp [next, reported, keptBy]
  | conclude verdict =>
    cases verdict with
    | ok id => simp [next, reported, keptBy, Contribution.ofVerdict]
    | error error => simp [next, reported, keptBy, Contribution.ofVerdict]
  | finish => simp [next, reported, keptBy]
  | deliver source report =>
    have hall : (Contribution.ofReport course.inquiry source report).filter (·.kind != .refusal)
        = Contribution.ofReport course.inquiry source report := by
      rw [List.filter_eq_self]
      intro contribution hmem
      simp [kind_of_mem_ofReport hmem]
    simp only [next, reported, keptBy, List.filter_append, List.map_append, hall,
      map_reply_ofReport]
    split <;> simp

theorem reported_follow (plan : Plan) (course : Course) (acts : List Act) :
    (plan.machine.follow course acts).reported
      =
    course.reported ++ (course.kept plan acts).map (·.reply) := by
  induction acts generalizing course with
  | nil => simp
  | cons act acts ih =>
    rw [follow_cons, ih, reported_next, kept_cons, List.map_append, List.append_assoc]

theorem length_reported (course : Course) :
    course.reported.length + course.tally .refusal = course.record.length := by
  rw [reported, List.length_map, tally, List.countP_eq_length_filter, Nat.add_comm]
  exact (List.length_eq_length_filter_add fun contribution : Contribution =>
    contribution.kind == .refusal).symm

theorem Valid.perm_reported_iff {plan : Plan} {course : Course} (h : course.Valid plan) :
    course.reported.Perm course.inquiry.replies ↔ course.tally .refusal = 0 := by
  have hlength := course.length_reported
  rw [h.replies]
  constructor
  . intro hperm
    have := hperm.length_eq
    rw [List.length_map] at this
    omega
  . intro hnone
    rw [tally, List.countP_eq_zero] at hnone
    have hall : course.record.filter (·.kind != .refusal) = course.record := by
      rw [List.filter_eq_self]
      intro contribution hmem
      simpa using hnone contribution hmem
    rw [reported, hall]

end Course

/--
An inquiry on its way with the reports that were put on record, divided into those of which the
caller is still to be told and those of which the caller was told.
-/
structure Stream where
  course : Course
  owed : List Report := []
  told : List Report := []

inductive Stream.Move where
  | act (act : Act)
  /-- The caller is told of a report, perhaps in front of others that were kept before. -/
  | tell (place : Nat)

namespace Stream

def initial (plan : Plan) (now : Nat) : Stream := { course := Course.initial plan now }

def Enabled (plan : Plan) (stream : Stream) : Move → Prop
  | .act act => stream.course.Enabled plan act
  | .tell place => place < stream.owed.length

instance (plan : Plan) (stream : Stream) (move : Move) : Decidable (stream.Enabled plan move) := by
  cases move <;> unfold Enabled <;> infer_instance

def next (plan : Plan) (stream : Stream) : Move → Stream
  | .act act =>
    { stream with
      course := stream.course.next plan act
      owed := stream.owed ++ stream.course.keptBy act }
  | .tell place =>
    { stream with
      owed := stream.owed.eraseIdx place
      told := stream.told ++ stream.owed[place]?.toList }

def machine (plan : Plan) : Machine Stream Move := ⟨Enabled plan, next plan⟩

instance (plan : Plan) (stream : Stream) (move : Move) :
    Decidable ((machine plan).Enabled stream move) :=
  inferInstanceAs (Decidable (stream.Enabled plan move))

def Accounts (stream : Stream) : Prop :=
  ((stream.told ++ stream.owed).map (·.reply)).Perm stream.course.reported

variable {plan : Plan} {stream : Stream}

theorem perm_told_append_eraseIdx {α : Type} (told owed : List α) (place : Nat) :
    ((told ++ owed[place]?.toList) ++ owed.eraseIdx place).Perm (told ++ owed) := by
  rw [List.append_assoc]
  apply List.Perm.append_left
  cases h : owed[place]? with
  | none =>
    rw [List.getElem?_eq_none_iff] at h
    rw [List.eraseIdx_of_length_le h]
    exact .refl _
  | some report =>
    rcases List.getElem?_eq_some_iff.mp h with ⟨hlt, rfl⟩
    exact List.getElem_cons_eraseIdx_perm hlt

theorem Accounts.next (h : stream.Accounts) (plan : Plan) (move : Move) :
    (stream.next plan move).Accounts := by
  cases move with
  | act act =>
    unfold Accounts at *
    simp only [Stream.next]
    rw [Course.reported_next, ← List.append_assoc, List.map_append]
    exact h.append_right _
  | tell place => exact ((perm_told_append_eraseIdx ..).map _).trans h

theorem run_next {move : Move} (henabled : stream.Enabled plan move) :
    plan.Run stream.course (stream.next plan move).course := by
  cases move with
  | act act => exact .single act henabled
  | tell place => exact .refl _

theorem run_follow {moves : List Move} (hadmits : (machine plan).Admits stream moves) :
    plan.Run stream.course ((machine plan).follow stream moves).course :=
  Machine.keeps (P := fun later => plan.Run stream.course later.course)
    (fun _ _ hrun henabled => hrun.trans (run_next henabled)) (.refl _) hadmits

theorem Accounts.follow (h : stream.Accounts) {moves : List Move}
    (hadmits : (machine plan).Admits stream moves) :
    ((machine plan).follow stream moves).Accounts :=
  Machine.keeps (fun _ move h _ => h.next plan move) h hadmits

end Stream

theorem calls_some (caller : Observer) (reports : List Report) :
    Reception.calls (some caller) reports = reports.map (caller.name, ·) := by
  simp [Reception.calls]

/--
Whether an inquiry that was sent has come along one of its courses in the meantime, and its caller
was told in turn of what was reported on the way.
-/
def Tells (plan : Plan) (number : Nat) (caller : Observer) (before after : Reception) : Prop :=
  ∃ (course : Course) (reports : List Report),
    plan.Run (Course.initial plan before.now) course ∧ course.Settled plan ∧
      after.Holds number (some caller) course ∧
      after.heard = before.heard ++ reports.map (caller.name, ·) ∧
      reports.map (·.reply) = course.reported

theorem tells_of_kept {plan : Plan} {number : Nat} {caller : Observer} {before after : Reception}
    {acts : List Act} (hadmits : plan.machine.Admits (Course.initial plan before.now) acts)
    (hsettled : (plan.machine.follow (Course.initial plan before.now) acts).Settled plan)
    (hholds : after.Holds number (some caller)
      (plan.machine.follow (Course.initial plan before.now) acts))
    (hheard : after.heard = before.heard ++
      Reception.calls (some caller) ((Course.initial plan before.now).kept plan acts)) :
    Tells plan number caller before after := by
  rw [calls_some] at hheard
  refine ⟨_, _, .follow hadmits, hsettled, hholds, hheard, ?_⟩
  exact (Course.reported_follow plan (Course.initial plan before.now) acts).symm

theorem sendAsync_eq {P U : Type} [Peer P] [Peer U] {querier : Querier P U}
    (hopen : querier.closed = false) (query : Message) (caller : Observer) :
    querier.sendAsync query caller = (.ok query.id, (querier.resolve query (some caller)).2) := by
  have hok := (querier.resolve_performs query (some caller) hopen).1
  unfold Querier.sendAsync
  split
  . next heq => rw [heq]
  . next heq =>
    rw [heq] at hok
    contradiction

/--
The caller of an inquiry is told exactly once of each reply on record that somebody has reported,
and of no refusal. So what is on record is what the caller is told of, in exactly those courses in
which nobody refuses.
-/
theorem accounts_told_owed (plan : Plan) :
    (∀ (now : Nat) (moves : List Stream.Move),
      (Stream.machine plan).Admits (Stream.initial plan now) moves →
      let stream := (Stream.machine plan).follow (Stream.initial plan now) moves
      plan.Reaches stream.course ∧
      ((stream.told ++ stream.owed).map (·.reply)).Perm stream.course.reported ∧
      (((stream.told ++ stream.owed).map (·.reply)).Perm stream.course.inquiry.replies
        ↔
      stream.course.tally .refusal = 0)) ∧
    (∀ (course : Course) (reception : Reception) (number : Nat) (caller : Observer),
      reception.Holds number (some caller) course →
      (∀ source report,
        (reception.deliver (.inquiry number) report).2.Holds number (some caller)
          (course.next plan (.deliver source report)) ∧
        (reception.deliver (.inquiry number) report).2.heard
          = reception.heard ++
            (course.keptBy (.deliver source report)).map (caller.name, ·)) ∧
      (∀ verdict,
        (reception.step number (.ofVerdict verdict)).Holds number (some caller)
          (course.next plan (.conclude verdict)) ∧
        (reception.step number (.ofVerdict verdict)).heard = reception.heard)) ∧
    (∀ (P U : Type) [Peer P] [Peer U] (querier : Querier P U) (query : Message)
        (caller : Observer),
      let number := querier.reception.cases.length
      let sent := querier.sendAsync query caller
      querier.closed = false → querier.plan query = plan →
      sent.1 = .ok query.id ∧
      Tells plan number caller querier.reception sent.2.reception ∧
      (querier.reception.upcoming = [] →
        Tells plan number caller querier.reception (sent.2.reception.wait number).2)) := by
  refine ⟨?_, ?_, ?_⟩
  . intro now moves hadmits stream
    have hreaches : plan.Reaches stream.course := ⟨now, Stream.run_follow hadmits⟩
    have hinitial : (Stream.initial plan now).Accounts := .refl _
    have haccounts := hinitial.follow hadmits
    refine ⟨hreaches, haccounts, ?_⟩
    rw [← hreaches.valid.perm_reported_iff]
    exact ⟨haccounts.symm.trans, haccounts.trans⟩
  . intro course reception number caller hholds
    constructor
    . intro source report
      refine ⟨hholds.deliver plan source report, ?_⟩
      rw [hholds.heard_deliver source report, calls_some]
    . intro verdict
      exact ⟨hholds.conclude plan verdict, rfl⟩
  . intro P U _ _ querier query caller number sent hopen hplan
    subst hplan
    have hperforms := (querier.resolve_performs query (some caller) hopen).2
    have hsending := querier.admits_sending query (.inquiry number) querier.reception.now
    have hsent : sent = _ := sendAsync_eq hopen query caller
    rw [hsent]
    refine ⟨rfl, tells_of_kept hsending.1 hsending.2 hperforms.holds hperforms.heard, ?_⟩
    intro hnone
    rcases querier.resolve_wait query (some caller) hopen (by simp [hnone]) with
      ⟨acts, hadmits, hsettled, hholds, -, hheard⟩
    exact tells_of_kept hadmits hsettled hholds (hheard hnone)

/--
Two responders report while they are asked, the first one a message and the second one an error, and
the caller is told of the error first.
-/
theorem accounts_told_owed_crossing :
    let host : Name := ⟨[[0x68], [0x6C, 0x6F, 0x63, 0x61, 0x6C]], true⟩
    let query : Message := { id := 42, questions := [⟨host, .a, 1⟩] }
    let plan : Plan := ⟨query, 100, 1000, 2, 0⟩
    let message : Report := ⟨42, .message { isResponse := true }⟩
    let failure : Report := ⟨42, .failure .timeout⟩
    let moves : List Stream.Move :=
      [.act .start, .act (.deliver 0 message), .act (.conclude (.ok 42)),
        .act (.deliver 1 failure), .tell 1, .act (.conclude (.ok 42)), .tell 0, .act .finish]
    let stream := (Stream.machine plan).follow (Stream.initial plan 0) moves
    let querier : Querier Scripted Scripted :=
      { multicast := [{
          name := "responder"
          script := {
            immediate := [⟨none, message.reply⟩]
            delayed := [(5, ⟨none, failure.reply⟩)] } }]
        nameservers := []
        responseWait := 100
        timeout := 1000 }
    let sent := querier.sendAsync query ⟨"caller", .ok⟩
    stream.owed = [] ∧ stream.told = [failure, message] ∧
      (stream.told.map (·.reply)).Perm stream.course.inquiry.replies ∧
      sent.1 = .ok 42 ∧
      Tells (querier.plan query) 0 ⟨"caller", .ok⟩ {} (sent.2.reception.wait 0).2 := by
  intro host query plan message failure moves stream querier sent
  rcases accounts_told_owed plan with ⟨hstream, -, -⟩
  rcases accounts_told_owed (querier.plan query) with ⟨-, -, hquerier⟩
  rcases hstream 0 moves (by decide) with ⟨-, -, hiff⟩
  rcases hquerier Scripted Scripted querier query ⟨"caller", .ok⟩ rfl rfl with ⟨hok, -, hwait⟩
  exact ⟨by decide, by decide, hiff.mpr (by decide), hok, hwait rfl⟩

/--
A responder refuses, which is put on record, and the caller is not told of it although the query
counts as sent.
-/
theorem refusal_not_told :
    (¬ ∀ (plan : Plan) (now : Nat) (moves : List Stream.Move),
      (Stream.machine plan).Admits (Stream.initial plan now) moves →
      ((Stream.machine plan).follow (Stream.initial plan now) moves).owed = [] →
      (((Stream.machine plan).follow (Stream.initial plan now) moves).told.map (·.reply)).Perm
        ((Stream.machine plan).follow (Stream.initial plan now) moves).course.inquiry.replies) ∧
    (¬ ∀ (querier : Querier Scripted Scripted) (query : Message) (caller : Observer)
        (case : Reception.Case),
      (querier.sendAsync query caller).1 = .ok query.id →
      (querier.sendAsync query caller).2.reception.cases[querier.reception.cases.length]?
        = some case →
      ∀ reply ∈ case.inquiry.replies, ∃ report,
        (caller.name, report) ∈ (querier.sendAsync query caller).2.reception.heard ∧
          report.reply = reply) := by
  let host : Name := ⟨[[0x68], [0x6C, 0x6F, 0x63, 0x61, 0x6C]], true⟩
  let query : Message := { id := 42, questions := [⟨host, .a, 1⟩] }
  constructor
  . intro hall
    have hperm := hall ⟨query, 100, 1000, 1, 0⟩ 0
      [.act .start, .act (.conclude (.error (.closed "responder"))), .act .finish]
      (by decide) (by decide)
    exact absurd hperm.length_eq (by decide)
  . intro hall
    let querier : Querier Scripted Scripted :=
      { multicast := [{
          name := "responder"
          script := { refusal := some (.closed "responder") } }]
        nameservers := []
        responseWait := 100
        timeout := 1000 }
    have hrefused : (querier.sendAsync query ⟨"caller", .ok⟩).2.reception.cases[0]? = some _ := rfl
    rcases hall querier query ⟨"caller", .ok⟩ _ rfl hrefused (.failure (.closed "responder"))
      (by decide) with ⟨report, hmem, -⟩
    have hnone : (querier.sendAsync query ⟨"caller", .ok⟩).2.reception.heard = [] := by decide
    rw [hnone] at hmem
    contradiction

end Zeroconf.Inquiry
