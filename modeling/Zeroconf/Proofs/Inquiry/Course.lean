import Mathlib.Data.List.Basic
import Zeroconf.Inquiry
import Zeroconf.Proofs.Machine

/-!
This module contains the courses that an inquiry can take while it is sent to several others, who
may reply at any time from the moment on at which they are asked. Whatever happens between two such
moments is a single act: each of them changes the inquiry in one step.
-/

namespace Zeroconf.Inquiry

theorem step_ofVerdict_ok (inquiry : Inquiry) (id : UInt16) :
    inquiry.step (.ofVerdict (.ok id))
      =
    { inquiry with sent := inquiry.sent + 1, ids := inquiry.ids ++ [id] } := by
  rfl

theorem step_ofVerdict_error (inquiry : Inquiry) (error : Error) :
    inquiry.step (.ofVerdict (.error error))
      =
    { inquiry with sent := inquiry.sent + 1, replies := inquiry.replies ++ [.failure error] } := by
  rfl

theorem step_begun_of_created {inquiry : Inquiry} (h : inquiry.phase = .created) (now : Nat)
    (usesUnicast : Bool) :
    inquiry.step (.begun now usesUnicast)
      =
    { inquiry with phase := .dispatching, startedAt := now, usesUnicast } := by
  simp [step, h]

theorem step_begun_of_ne_created {inquiry : Inquiry} (h : inquiry.phase ≠ .created) (now : Nat)
    (usesUnicast : Bool) :
    inquiry.step (.begun now usesUnicast) = inquiry := by
  simp [step, h]

theorem hasResults_iff {inquiry : Inquiry} :
    inquiry.hasResults = true ↔
      inquiry.phase = .started ∧ inquiry.sent ≤ inquiry.replies.length := by
  simp [hasResults]

/--
What is given when an inquiry is made: the query, the times for which to wait, and how many
responders and nameservers there are who can be asked.
-/
structure Plan where
  query : Message
  responseWait : Nat
  timeout : Nat
  responders : Nat
  nameservers : Nat
  deriving Repr

namespace Plan

def usesUnicast (plan : Plan) : Bool := selectsUnicast plan.query plan.nameservers

def selected (plan : Plan) : Nat :=
  (if selectsMulticast plan.query plan.responders then plan.responders else 0) +
    (if plan.usesUnicast then plan.nameservers else 0)

end Plan

inductive Contribution.Kind where
  | refusal
  | failure
  /-- Somebody delivered a message that belongs to the inquiry. -/
  | answer
  deriving DecidableEq, Repr

/--
A reply on record, with the one who is responsible for it. Those who are asked are numbered in the
order in which they are asked.
-/
structure Contribution where
  source : Nat
  kind : Contribution.Kind
  reply : Reply
  deriving Repr

namespace Contribution

def ofVerdict (source : Nat) : Except Error UInt16 → List Contribution
  | .ok _ => []
  | .error error => [⟨source, .refusal, .failure error⟩]

def ofReport (inquiry : Inquiry) (source : Nat) (report : Report) : List Contribution :=
  match report.reply with
  | .failure error => [⟨source, .failure, .failure error⟩]
  | .message response =>
    if inquiry.isAttributed report.id response then
      [⟨source, .answer, .message response⟩]
    else
      []

end Contribution

/--
An inquiry on its way, with the time and the record of who has contributed what.
-/
structure Course where
  inquiry : Inquiry
  now : Nat
  record : List Contribution := []
  deriving Repr

inductive Act where
  | pass (time : Nat)
  /-- Somebody wants the inquiry to be sent. -/
  | start
  /-- The one who is being asked takes the query or refuses it. -/
  | conclude (verdict : Except Error UInt16)
  | finish
  /-- Somebody who is being asked or has been asked makes a report. -/
  | deliver (source : Nat) (report : Report)

namespace Course

def initial (plan : Plan) (now : Nat) : Course :=
  { inquiry := create plan.query plan.responseWait plan.timeout now, now }

/--
Whether something can happen. Those who are asked one after the other get to know where to report
when it is their turn.
-/
def Enabled (plan : Plan) (course : Course) : Act → Prop
  | .pass _ => True
  | .start => True
  | .conclude _ => course.inquiry.phase = .dispatching ∧ course.inquiry.sent < plan.selected
  | .finish => course.inquiry.phase = .dispatching ∧ course.inquiry.sent = plan.selected
  | .deliver source _ =>
    course.inquiry.phase ≠ .created ∧ source < plan.selected ∧ source ≤ course.inquiry.sent

instance (plan : Plan) (course : Course) (act : Act) : Decidable (course.Enabled plan act) := by
  cases act <;> unfold Enabled <;> infer_instance

def next (plan : Plan) (course : Course) : Act → Course
  | .pass time => { course with now := max course.now time }
  | .start => { course with inquiry := course.inquiry.step (.begun course.now plan.usesUnicast) }
  | .conclude verdict =>
    { course with
      inquiry := course.inquiry.step (.ofVerdict verdict)
      record := course.record ++ Contribution.ofVerdict course.inquiry.sent verdict }
  | .finish => { course with inquiry := course.inquiry.step .dispatched }
  | .deliver source report =>
    { course with
      inquiry := course.inquiry.step (.reported report)
      record := course.record ++ Contribution.ofReport course.inquiry source report }

end Course

def Plan.machine (plan : Plan) : Machine Course Act := ⟨Course.Enabled plan, Course.next plan⟩

instance (plan : Plan) (course : Course) (act : Act) :
    Decidable (plan.machine.Enabled course act) :=
  inferInstanceAs (Decidable (course.Enabled plan act))

namespace Course

theorem follow_cons (plan : Plan) (course : Course) (act : Act) (acts : List Act) :
    plan.machine.follow course (act :: acts) = plan.machine.follow (course.next plan act) acts := by
  rfl

theorem read_follow {α : Type} {plan : Plan} (read : Course → List α) (part : Act → Option α)
    (hnext : ∀ (course : Course) (act : Act),
      read (course.next plan act) = read course ++ (part act).toList)
    (course : Course) (acts : List Act) :
    read (plan.machine.follow course acts) = read course ++ acts.filterMap part := by
  induction acts generalizing course with
  | nil => simp
  | cons act acts ih =>
    rw [follow_cons, ih, hnext, List.append_assoc, List.filterMap_cons]
    cases part act <;> rfl

def keptBy (course : Course) : Act → List Report
  | .deliver _ report => if course.inquiry.keeps report then [report] else []
  | _ => []

def kept (plan : Plan) (course : Course) : List Act → List Report
  | [] => []
  | act :: acts => course.keptBy act ++ (course.next plan act).kept plan acts

@[simp]
theorem kept_nil (plan : Plan) (course : Course) : course.kept plan [] = [] := by
  rfl

theorem kept_cons (plan : Plan) (course : Course) (act : Act) (acts : List Act) :
    course.kept plan (act :: acts)
      =
    course.keptBy act ++ (course.next plan act).kept plan acts := by
  rfl

theorem kept_append (plan : Plan) (course : Course) (front behind : List Act) :
    course.kept plan (front ++ behind)
      =
    course.kept plan front ++ (plan.machine.follow course front).kept plan behind := by
  induction front generalizing course with
  | nil => rfl
  | cons act front ih =>
    rw [List.cons_append, kept_cons, ih, kept_cons, follow_cons, List.append_assoc]

def tally (course : Course) (kind : Contribution.Kind) : Nat :=
  course.record.countP (·.kind == kind)

end Course

inductive Plan.Run (plan : Plan) : Course → Course → Prop where
  | refl (course : Course) : Run plan course course
  | tail {course later : Course} (act : Act) :
    Run plan course later → later.Enabled plan act → Run plan course (later.next plan act)

def Plan.Reaches (plan : Plan) (course : Course) : Prop :=
  ∃ now, plan.Run (Course.initial plan now) course

namespace Plan.Run

variable {plan : Plan} {course later last : Course}

theorem trans (h : plan.Run course later) (h' : plan.Run later last) : plan.Run course last := by
  induction h' with
  | refl => exact h
  | tail act _ henabled ih => exact ih.tail act henabled

theorem single (act : Act) (h : course.Enabled plan act) : plan.Run course (course.next plan act) :=
  (refl course).tail act h

theorem follow {acts : List Act} (h : plan.machine.Admits course acts) :
    plan.Run course (plan.machine.follow course acts) := by
  induction acts generalizing course with
  | nil => exact .refl course
  | cons act acts ih => exact (single act h.1).trans (ih h.2)

theorem exists_acts (h : plan.Run course later) :
    ∃ acts, plan.machine.Admits course acts ∧ plan.machine.follow course acts = later := by
  induction h with
  | refl => exact ⟨[], trivial, rfl⟩
  | tail act _ henabled ih =>
    rcases ih with ⟨acts, hadmits, rfl⟩
    refine ⟨acts ++ [act], ?_, Machine.follow_concat ..⟩
    rw [Machine.admits_append_iff]
    exact ⟨hadmits, henabled, trivial⟩

end Plan.Run

theorem Plan.Reaches.trans {plan : Plan} {course later : Course} (h : plan.Reaches course)
    (h' : plan.Run course later) : plan.Reaches later := by
  rcases h with ⟨now, hrun⟩
  exact ⟨now, hrun.trans h'⟩

namespace Course

structure Valid (plan : Plan) (course : Course) : Prop where
  query : course.inquiry.query = plan.query
  responseWait : course.inquiry.responseWait = min plan.responseWait plan.timeout
  timeout : course.inquiry.timeout = plan.timeout
  unasked : course.inquiry.phase = .created → course.inquiry.sent = 0 ∧ course.record = []
  sent_le : course.inquiry.sent ≤ plan.selected
  started : course.inquiry.phase = .started → course.inquiry.sent = plan.selected
  replies : course.inquiry.replies = course.record.map (·.reply)
  source_lt : ∀ contribution ∈ course.record, contribution.source < plan.selected

theorem valid_initial (plan : Plan) (now : Nat) : (initial plan now).Valid plan := by
  constructor <;> simp [initial, create]

theorem map_reply_ofReport (inquiry : Inquiry) (source : Nat) (report : Report) :
    (Contribution.ofReport inquiry source report).map (·.reply)
      =
    if inquiry.keeps report then [report.reply] else [] := by
  unfold Contribution.ofReport keeps
  cases report.reply with
  | failure error => simp
  | message response =>
    dsimp only
    split <;> simp

theorem step_reported (inquiry : Inquiry) (source : Nat) (report : Report) :
    inquiry.step (.reported report)
      =
    { inquiry with
      replies := inquiry.replies ++
        (Contribution.ofReport inquiry source report).map (·.reply) } := by
  rw [map_reply_ofReport]
  unfold step
  dsimp
  split <;> simp

@[simp]
theorem phase_next_deliver (plan : Plan) (course : Course) (source : Nat) (report : Report) :
    (course.next plan (.deliver source report)).inquiry.phase = course.inquiry.phase := by
  simp only [next, step_reported _ source]

@[simp]
theorem sent_next_deliver (plan : Plan) (course : Course) (source : Nat) (report : Report) :
    (course.next plan (.deliver source report)).inquiry.sent = course.inquiry.sent := by
  simp only [next, step_reported _ source]

@[simp]
theorem phase_next_conclude (plan : Plan) (course : Course) (verdict : Except Error UInt16) :
    (course.next plan (.conclude verdict)).inquiry.phase = course.inquiry.phase := by
  cases verdict <;> rfl

@[simp]
theorem sent_next_conclude (plan : Plan) (course : Course) (verdict : Except Error UInt16) :
    (course.next plan (.conclude verdict)).inquiry.sent = course.inquiry.sent + 1 := by
  cases verdict <;> rfl

theorem source_of_mem_ofReport {inquiry : Inquiry} {source : Nat} {report : Report}
    {contribution : Contribution} (h : contribution ∈ Contribution.ofReport inquiry source report) :
    contribution.source = source := by
  unfold Contribution.ofReport at h
  split at h
  . simp_all
  . split at h <;> simp_all

theorem Valid.next {plan : Plan} {course : Course} (h : course.Valid plan) {act : Act}
    (henabled : course.Enabled plan act) : (course.next plan act).Valid plan := by
  -- Only a refusal and a report put something on record.
  cases act with
  | pass time => exact { h with }
  | start =>
    by_cases hphase : course.inquiry.phase = .created
    . simp only [Course.next, step_begun_of_created hphase]
      exact { h with unasked := nofun, started := nofun }
    . simp only [Course.next, step_begun_of_ne_created hphase]
      exact h
  | conclude verdict =>
    rcases henabled with ⟨hphase, hlt⟩
    have hunasked : course.inquiry.phase ≠ .created := by simp [hphase]
    have hstarted : course.inquiry.phase ≠ .started := by simp [hphase]
    cases verdict with
    | ok id =>
      simp only [Course.next, step_ofVerdict_ok, Contribution.ofVerdict, List.append_nil]
      exact { h with
        unasked := by intro; contradiction
        sent_le := hlt
        started := by intro; contradiction }
    | error error =>
      simp only [Course.next, step_ofVerdict_error, Contribution.ofVerdict]
      exact { h with
        unasked := by intro; contradiction
        sent_le := hlt
        started := by intro; contradiction
        replies := by simp [h.replies]
        source_lt := by
          intro contribution hmem
          rw [List.mem_append, List.mem_singleton] at hmem
          rcases hmem with hmem | rfl
          . exact h.source_lt _ hmem
          . exact hlt }
  | finish =>
    rcases henabled with ⟨hphase, hsent⟩
    simp only [Course.next, step]
    exact { h with unasked := nofun, started := fun _ => hsent }
  | deliver source report =>
    rcases henabled with ⟨hphase, hlt, -⟩
    simp only [Course.next, step_reported _ source]
    exact { h with
      unasked := by intro; contradiction
      replies := by simp [h.replies]
      source_lt := by
        intro contribution hmem
        rw [List.mem_append] at hmem
        rcases hmem with hmem | hmem
        . exact h.source_lt _ hmem
        . rw [source_of_mem_ofReport hmem]
          exact hlt }

/--
What a later course has kept of an earlier one. The deadline is fixed when the inquiry is sent.
-/
structure Follows (course later : Course) : Prop where
  now_le : course.now ≤ later.now
  replies : course.inquiry.replies <+: later.inquiry.replies
  begun : course.inquiry.phase ≠ .created → later.inquiry.phase ≠ .created
  deadline : course.inquiry.phase ≠ .created → later.inquiry.deadline = course.inquiry.deadline
  hasResults : course.inquiry.hasResults = true → later.inquiry.hasResults = true

theorem Follows.refl (course : Course) : course.Follows course := by
  constructor <;> simp

theorem Follows.trans {course later last : Course} (h : course.Follows later)
    (h' : later.Follows last) : course.Follows last where
  now_le := Nat.le_trans h.now_le h'.now_le
  replies := h.replies.trans h'.replies
  begun hbegun := h'.begun (h.begun hbegun)
  deadline hbegun := (h'.deadline (h.begun hbegun)).trans (h.deadline hbegun)
  hasResults hresults := h'.hasResults (h.hasResults hresults)

theorem follows_next {plan : Plan} {course : Course} {act : Act}
    (henabled : course.Enabled plan act) : course.Follows (course.next plan act) := by
  cases act with
  | pass time => exact { Follows.refl course with now_le := Nat.le_max_left .. }
  | start =>
    by_cases hphase : course.inquiry.phase = .created
    . simp only [next, step_begun_of_created hphase]
      constructor <;> simp [hphase, hasResults_iff]
    . simp only [next, step_begun_of_ne_created hphase]
      exact .refl course
  | conclude verdict =>
    rcases henabled with ⟨hphase, -⟩
    cases verdict with
    | ok id =>
      simp only [next, step_ofVerdict_ok]
      constructor <;> simp [hphase, hasResults_iff, Inquiry.deadline]
    | error error =>
      simp only [next, step_ofVerdict_error]
      constructor <;> simp [hphase, hasResults_iff, Inquiry.deadline]
  | finish =>
    rcases henabled with ⟨hphase, -⟩
    simp only [next, step]
    constructor <;> simp [hphase, hasResults_iff, Inquiry.deadline]
  | deliver source report =>
    simp only [next, step_reported _ source]
    constructor
    . exact Nat.le_refl _
    . exact List.prefix_append ..
    . exact id
    . exact fun _ => rfl
    . -- More replies than enough are still enough.
      intro hresults
      rw [hasResults_iff] at *
      refine ⟨hresults.1, Nat.le_trans hresults.2 ?_⟩
      simp

end Course

theorem Plan.Run.follows {plan : Plan} {course later : Course} (h : plan.Run course later) :
    course.Follows later := by
  induction h with
  | refl => exact .refl course
  | tail act _ henabled ih => exact ih.trans (Course.follows_next henabled)

theorem Plan.Run.valid {plan : Plan} {course later : Course} (h : plan.Run course later)
    (hvalid : course.Valid plan) : later.Valid plan := by
  induction h with
  | refl => exact hvalid
  | tail act _ henabled ih => exact ih.next henabled

theorem Plan.Reaches.valid {plan : Plan} {course : Course} (h : plan.Reaches course) :
    course.Valid plan := by
  rcases h with ⟨now, hrun⟩
  exact hrun.valid (Course.valid_initial plan now)

end Zeroconf.Inquiry
