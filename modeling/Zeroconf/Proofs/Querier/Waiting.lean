import Mathlib.Data.List.Sort
import Zeroconf.Peer.Scripted
import Zeroconf.Proofs.Reception.Delivery
import Zeroconf.Querier

/-!
This module contains the waiting for a single reply. What ends it is the first report that belongs
to the query, in the order in which the reports arrive; no other report matters.
-/

namespace Zeroconf

/--
Whether a report belongs to a query: it tells of a failure, it has the number of the query, or its
message holds an answer to it.
-/
def Report.BelongsTo (report : Report) (query : Message) : Prop :=
  ∀ response, report.reply = .message response →
    report.id = query.id ∨ query.isAnsweredBy response = true

theorem Waiter.accepts_iff {waiter : Waiter} {report : Report} :
    waiter.accepts report = true ↔ report.BelongsTo waiter.query := by
  rcases report with ⟨id, response | error⟩
  . simp [accepts, Report.BelongsTo]
  . simp [accepts, Report.BelongsTo]

instance {report : Report} {query : Message} : Decidable (report.BelongsTo query) :=
  decidable_of_iff (Waiter.accepts ⟨query, none⟩ report = true) Waiter.accepts_iff

namespace Waiter

theorem reply_receive (waiter : Waiter) (report : Report) :
    (waiter.receive report).reply
      =
    (waiter.reply <|> if waiter.accepts report then some report.reply else none) := by
  unfold receive
  split <;> simp

theorem accepts_receive (waiter : Waiter) (report : Report) :
    (waiter.receive report).accepts = waiter.accepts := by
  unfold receive
  split <;> rfl

theorem reply_foldl_receive (waiter : Waiter) (reports : List Report) :
    (reports.foldl receive waiter).reply
      =
    (waiter.reply <|> (reports.find? waiter.accepts).map (·.reply)) := by
  induction reports generalizing waiter with
  | nil => simp
  | cons report reports ih =>
    rw [List.foldl_cons, ih, reply_receive, accepts_receive, List.find?_cons]
    cases waiter.accepts report <;> cases waiter.reply <;> rfl

end Waiter

namespace Reception

section Order

variable {upcoming : List Due}

theorem insertDue_of_forall_lt {due : Due} (h : ∀ other ∈ upcoming, due.time < other.time) :
    insertDue due upcoming = due :: upcoming := by
  cases upcoming with
  | nil => rfl
  | cons first others => rw [insertDue, if_pos (h first (List.mem_cons_self ..))]

theorem pairwise_insertDue (h : upcoming.Pairwise (·.time ≤ ·.time)) (due : Due) :
    (insertDue due upcoming).Pairwise (·.time ≤ ·.time) := by
  induction upcoming with
  | nil => exact List.pairwise_singleton ..
  | cons first others ih =>
    rw [List.pairwise_cons] at h
    unfold insertDue
    split
    . next hlt =>
      rw [List.pairwise_cons, List.pairwise_cons]
      refine ⟨?_, h⟩
      intro other hmem
      rcases List.mem_cons.mp hmem with rfl | hmem
      . exact Nat.le_of_lt hlt
      . exact Nat.le_trans (Nat.le_of_lt hlt) (h.1 other hmem)
    . next hlt =>
      rw [List.pairwise_cons]
      refine ⟨?_, ih h.2⟩
      intro other hmem
      rw [(perm_insertDue due others).mem_iff, List.mem_append, List.mem_singleton] at hmem
      rcases hmem with hmem | rfl
      . exact h.1 other hmem
      . exact Nat.le_of_not_lt hlt

theorem filter_insertDue (h : upcoming.Pairwise (·.time ≤ ·.time)) (p : Due → Bool) (due : Due) :
    (insertDue due upcoming).filter p
      =
    if p due then insertDue due (upcoming.filter p) else upcoming.filter p := by
  induction upcoming with
  | nil => by_cases hdue : p due <;> simp [insertDue, hdue]
  | cons first others ih =>
    rw [List.pairwise_cons] at h
    by_cases hlt : due.time < first.time
    . have hfront : ∀ other ∈ (first :: others).filter p, due.time < other.time := by
        intro other hmem
        rcases List.mem_cons.mp (List.mem_of_mem_filter hmem) with rfl | hmem
        . exact hlt
        . exact Nat.lt_of_lt_of_le hlt (h.1 other hmem)
      rw [insertDue, if_pos hlt, insertDue_of_forall_lt hfront, List.filter_cons]
    . rw [insertDue, if_neg hlt]
      by_cases hfirst : p first
      . rw [List.filter_cons_of_pos hfirst, List.filter_cons_of_pos hfirst, ih h.2]
        split
        . rw [insertDue, if_neg hlt]
        . rfl
      . rw [List.filter_cons_of_neg hfirst, List.filter_cons_of_neg hfirst, ih h.2]

def insertAll (dues upcoming : List Due) : List Due :=
  dues.foldl (fun upcoming due => insertDue due upcoming) upcoming

theorem pairwise_insertAll (h : upcoming.Pairwise (·.time ≤ ·.time)) (dues : List Due) :
    (insertAll dues upcoming).Pairwise (·.time ≤ ·.time) := by
  induction dues generalizing upcoming with
  | nil => exact h
  | cons due dues ih => exact ih (pairwise_insertDue h due)

theorem mem_insertAll {dues : List Due} {due : Due} :
    due ∈ insertAll dues upcoming ↔ due ∈ upcoming ∨ due ∈ dues := by
  induction dues generalizing upcoming with
  | nil => simp [insertAll]
  | cons first dues ih =>
    rw [insertAll, List.foldl_cons, ← insertAll, ih, (perm_insertDue first upcoming).mem_iff]
    simp [or_assoc]

theorem filter_insertAll (h : upcoming.Pairwise (·.time ≤ ·.time)) (p : Due → Bool)
    (dues : List Due) :
    (insertAll dues upcoming).filter p = insertAll (dues.filter p) (upcoming.filter p) := by
  induction dues generalizing upcoming with
  | nil => rfl
  | cons due dues ih =>
    rw [insertAll, List.foldl_cons, ← insertAll, ih (pairwise_insertDue h due), filter_insertDue h,
      List.filter_cons]
    split <;> rfl

theorem insertDue_orderedInsert (due other : Due) (upcoming : List Due) :
    insertDue due (upcoming.orderedInsert (·.time ≤ ·.time) other)
      =
    (insertDue due upcoming).orderedInsert (·.time ≤ ·.time) other := by
  induction upcoming with
  | nil =>
    by_cases hlt : due.time < other.time
    . simp [insertDue, hlt, Nat.not_le_of_lt hlt]
    . simp [insertDue, hlt, Nat.le_of_not_lt hlt]
  | cons first others ih =>
    by_cases hother : other.time ≤ first.time
    . by_cases hlt : due.time < other.time
      . have hfirst : due.time < first.time := Nat.lt_of_lt_of_le hlt hother
        simp [insertDue, hother, hlt, hfirst, Nat.not_le_of_lt hlt]
      . have hle : other.time ≤ due.time := Nat.le_of_not_lt hlt
        by_cases hfirst : due.time < first.time
        . simp [insertDue, hother, hlt, hle, hfirst]
        . simp [insertDue, hother, hlt, hfirst]
    . by_cases hfirst : due.time < first.time
      . have hlt : due.time < other.time := by omega
        simp [insertDue, hother, hfirst, Nat.not_le_of_lt hlt]
      . simp [insertDue, hother, hfirst, ih]

theorem insertAll_nil (dues : List Due) :
    insertAll dues [] = dues.insertionSort (·.time ≤ ·.time) := by
  have hinsert (other : Due) (dues upcoming : List Due) :
      insertAll dues (upcoming.orderedInsert (·.time ≤ ·.time) other)
        =
      (insertAll dues upcoming).orderedInsert (·.time ≤ ·.time) other := by
    induction dues generalizing upcoming with
    | nil => rfl
    | cons due dues ih =>
      simp only [insertAll, List.foldl_cons] at ih ⊢
      rw [insertDue_orderedInsert, ih]
  induction dues with
  | nil => rfl
  | cons due dues ih =>
    rw [List.insertionSort_cons, ← ih]
    exact hinsert due dues []

end Order

/--
Whether what is still to come is in order, and none of it is meant for somebody who does not wait
yet.
-/
structure Orderly (reception : Reception) : Prop where
  ordered : reception.upcoming.Pairwise (·.time ≤ ·.time)
  known : ∀ due ∈ reception.upcoming, ∀ number, due.sink = .waiter number →
    number < reception.waiters.length

section Waiters

variable {number : Nat}

theorem waiters_deliver (sink : Sink) (report : Report) (reception : Reception) :
    (reception.deliver sink report).2.waiters
      =
    match sink with
    | .waiter number => reception.waiters.modify number (·.receive report)
    | _ => reception.waiters := by
  cases sink with
  | observer listener => rfl
  | inquiry number =>
    simp only [deliver, deliverToInquiry]
    split
    . rfl
    . split
      . split <;> rfl
      . rfl
  | waiter number => rfl
  | observers =>
    simp only [deliver, Fanout.hear_audience]
    exact Fanout.callAll_keeps (fun s : Reception => s.waiters = reception.waiters)
      (fun _ _ h => h) _ rfl

theorem length_waiters_deliver (sink : Sink) (report : Report) (reception : Reception) :
    (reception.deliver sink report).2.waiters.length = reception.waiters.length := by
  rw [waiters_deliver]
  split
  . exact List.length_modify ..
  . rfl

theorem getElem?_waiters_deliver (sink : Sink) (number : Nat) (report : Report)
    (reception : Reception) :
    (reception.deliver sink report).2.waiters[number]?
      =
    if sink = .waiter number then reception.waiters[number]?.map (·.receive report)
    else reception.waiters[number]? := by
  rw [waiters_deliver]
  split
  . next other =>
    rw [List.getElem?_modify]
    by_cases hother : other = number
    . simp [hother]
    . simp [hother]
  . next hne => rw [if_neg (hne number)]

/--
What comes in with a reaction at once, without the samples and what comes later.
-/
def receiveReports (peer : String) (sink : Sink) (reports : List Report) (reception : Reception) :
    Reception :=
  reports.foldl
    (fun reception report =>
      (reception.deliver sink report).2.note (.delivered peer (reception.deliver sink report).1))
    reception

theorem foldl_schedule (sink : Sink) (later : List (Nat × Report)) (reception : Reception) :
    later.foldl (schedule sink) reception
      =
    { reception with
      upcoming := insertAll (later.map fun later => ⟨reception.now + later.1, sink, later.2⟩)
        reception.upcoming } := by
  induction later generalizing reception with
  | nil => rfl
  | cons first later ih => exact ih _

theorem alike_receiveReports (peer : String) (sink : Sink) (reports : List Report)
    (reception : Reception) : Alike reception (reception.receiveReports peer sink reports) := by
  induction reports generalizing reception with
  | nil => exact Alike.refl reception
  | cons report reports ih =>
    have hnote : ∀ (reception : Reception) entry, Alike reception (reception.note entry) :=
      fun _ _ => ⟨rfl, rfl, rfl, rfl⟩
    exact ((deliver_alike sink report reception).trans (hnote _ _)).trans (ih _)

theorem length_waiters_receiveReports (peer : String) (sink : Sink) (reports : List Report)
    (reception : Reception) :
    (reception.receiveReports peer sink reports).waiters.length = reception.waiters.length := by
  induction reports generalizing reception with
  | nil => rfl
  | cons report reports ih => exact (ih _).trans (length_waiters_deliver sink report reception)

theorem getElem?_waiters_receiveReports (peer : String) (number : Nat) (reports : List Report)
    (reception : Reception) :
    (reception.receiveReports peer (.waiter number) reports).waiters[number]?
      =
    reception.waiters[number]?.map (reports.foldl Waiter.receive) := by
  induction reports generalizing reception with
  | nil => exact Option.map_id'.symm
  | cons report reports ih =>
    have hdeliver := getElem?_waiters_deliver (.waiter number) number report reception
    rw [if_pos rfl] at hdeliver
    rw [receiveReports, List.foldl_cons, ← receiveReports, ih, note, hdeliver, Option.map_map]
    rfl

def reportsFor (number : Nat) (dues : List Due) : List Report :=
  (dues.filter (·.sink = .waiter number)).map (·.report)

theorem reportsFor_cons (number : Nat) (due : Due) (dues : List Due) :
    reportsFor number (due :: dues) = reportsFor number [due] ++ reportsFor number dues := by
  unfold reportsFor
  rw [← List.map_append, ← List.filter_append, List.singleton_append]

theorem getElem?_waiters_receiveDue (due : Due) (number : Nat) (reception : Reception) :
    (reception.receiveDue due).waiters[number]?
      =
    reception.waiters[number]?.map ((reportsFor number [due]).foldl Waiter.receive) := by
  unfold receiveDue
  rw [getElem?_waiters_deliver]
  split
  . next hsink => simp [reportsFor, hsink]
  . next hsink => simp [reportsFor, hsink]

theorem reply_advance_go (limit : Nat) {upcoming : List Due}
    (h : upcoming.Pairwise (·.time ≤ ·.time)) {reception : Reception} {waiter : Waiter}
    (hwaiter : reception.waiters[number]? = some waiter) :
    (advance.go limit (fun s => s.waiters[number]?.any (·.reply.isSome)) upcoming
        reception).waiters[number]?.bind (·.reply)
      =
    ((reportsFor number (upcoming.filter (·.time < limit))).foldl Waiter.receive waiter).reply := by
  induction upcoming generalizing reception waiter with
  | nil =>
    unfold advance.go
    split <;> simp [hwaiter, reportsFor]
  | cons due others ih =>
    rw [List.pairwise_cons] at h
    unfold advance.go
    split
    . next hdone =>
      rw [hwaiter, Option.any_some] at hdone
      rcases Option.isSome_iff_exists.mp hdone with ⟨reply, hreply⟩
      rw [Waiter.reply_foldl_receive]
      simp [hwaiter, hreply]
    . dsimp only
      split
      . next hlt =>
        have hreceived := getElem?_waiters_receiveDue due number reception
        rw [hwaiter, Option.map_some] at hreceived
        rw [ih h.2 hreceived, List.filter_cons_of_pos (by simpa using hlt),
          reportsFor_cons number due (others.filter _), List.foldl_append]
      . next hlate =>
        -- What comes behind is due even later.
        have hnone : (due :: others).filter (·.time < limit) = [] := by
          rw [List.filter_eq_nil_iff]
          intro other hmem
          rcases List.mem_cons.mp hmem with rfl | hmem
          . simpa using hlate
          . have := h.1 other hmem
            simp only [decide_eq_true_eq]
            omega
        simp [hnone, hwaiter, reportsFor]

theorem length_waiters_receiveAll (dues : List Due) (reception : Reception) :
    (reception.receiveAll dues).waiters.length = reception.waiters.length := by
  induction dues generalizing reception with
  | nil => rfl
  | cons due dues ih => exact (ih _).trans (length_waiters_deliver due.sink due.report _)

theorem Orderly.advance {reception : Reception} (h : reception.Orderly) (limit : Nat)
    (done : Reception → Bool) : (reception.advance limit done).Orderly := by
  have hdone : ∀ s, done s = true → True ∨ limit ≤ s.now := fun _ _ => .inl trivial
  rcases exists_advance_go_eq hdone (fun _ _ _ _ => trivial) reception.upcoming reception with
    ⟨count, time, heq, -⟩
  rw [Reception.advance, heq]
  constructor
  . exact h.ordered.sublist (List.drop_sublist ..)
  . intro due hmem number hsink
    dsimp only
    rw [length_waiters_receiveAll]
    exact h.known due (List.mem_of_mem_drop hmem) number hsink

end Waiters

end Reception

/--
What is reported before the verdict and then within a time, in the order in which it arrives.
-/
def Reaction.reportsWithin (reaction : Reaction) (timeout : Nat) : List Report :=
  reaction.reports ++
    ((reaction.later.filter (·.1 < timeout)).insertionSort (·.1 ≤ ·.1)).map (·.2)

namespace Reception

theorem reportsFor_insertAll {reception : Reception} (h : reception.Orderly) (reaction : Reaction)
    (timeout : Nat) :
    let number := reception.waiters.length
    let upcoming := insertAll (reaction.dues reception.now (.waiter number)) reception.upcoming
    reaction.reports ++ reportsFor number (upcoming.filter (·.time < reception.now + timeout))
      =
    reaction.reportsWithin timeout := by
  intro number upcoming
  have hothers : (reception.upcoming.filter (·.time < reception.now + timeout)).filter
      (·.sink = .waiter number) = [] := by
    rw [List.filter_eq_nil_iff]
    intro due hmem
    have hknown := h.known due (List.mem_of_mem_filter hmem) number
    simp only [decide_eq_true_eq]
    intro hsink
    exact absurd (hknown hsink) (Nat.lt_irrefl number)
  have hdues : ((reaction.dues reception.now (.waiter number)).filter
        (·.time < reception.now + timeout)).filter (·.sink = .waiter number)
      =
    (reaction.later.filter (·.1 < timeout)).map fun later =>
      ⟨reception.now + later.1, .waiter number, later.2⟩ := by
    simp [Reaction.dues, List.filter_map, Function.comp_def]
  have hsorted := List.map_insertionSort (r := fun a b : Nat × Report => a.1 ≤ b.1)
    (s := fun a b : Due => a.time ≤ b.time)
    (fun later => ⟨reception.now + later.1, .waiter number, later.2⟩)
    (reaction.later.filter (·.1 < timeout)) (by simp)
  unfold reportsFor Reaction.reportsWithin
  rw [filter_insertAll h.ordered, filter_insertAll (h.ordered.filter _), hothers, hdues,
    insertAll_nil, ← hsorted]
  simp [Function.comp_def]

end Reception

namespace Querier

open Reception

section Waiting

variable {P : Type} [Peer P] (peer : P) (query : Message) (timeout : Nat) {reception : Reception}

/--
The place where replies are received when somebody has been asked on behalf of a new waiter.
-/
def awaiting (reception : Reception) : Reception :=
  let waiter : Waiter := ⟨query, none⟩
  let waiting := { reception with waiters := reception.waiters ++ [waiter] }
  (waiting.note (.asked (Peer.name peer) query)).receive (Peer.name peer)
    (.waiter reception.waiters.length)
    (Peer.ask peer reception.now query (.waiter reception.waiters.length)).2

theorem awaiting_spec (reception : Reception) :
    let number := reception.waiters.length
    let reaction := (Peer.ask peer reception.now query (.waiter number)).2
    let later := awaiting peer query reception
    later.now = reception.now ∧
    later.upcoming = insertAll (reaction.dues reception.now (.waiter number)) reception.upcoming ∧
    later.waiters.length = number + 1 ∧
    later.waiters[number]? = some (reaction.reports.foldl Waiter.receive ⟨query, none⟩) := by
  intro number reaction later
  let waiter : Waiter := ⟨query, none⟩
  let noted := Reception.note { reception with waiters := reception.waiters ++ [waiter] }
    (.asked (Peer.name peer) query)
  have hwaiter : noted.waiters[number]? = some waiter := by
    simp [noted, note, number]
  have halike := alike_receiveReports (Peer.name peer) (.waiter number) reaction.reports noted
  have hlength := length_waiters_receiveReports (Peer.name peer) (.waiter number) reaction.reports
    noted
  have hreports := getElem?_waiters_receiveReports (Peer.name peer) number reaction.reports noted
  rw [hwaiter, Option.map_some] at hreports
  have hlater : later
      =
    reaction.later.foldl (schedule (.waiter number))
      ((noted.receiveReports (Peer.name peer) (.waiter number) reaction.reports).measure
        reaction.samples) := by
    rfl
  rw [hlater, foldl_schedule]
  refine ⟨halike.now, ?_, hlength.trans (by simp [noted, note, number]), hreports⟩
  dsimp only [Reception.measure]
  rw [halike.now, halike.upcoming]
  rfl

def answered (number : Nat) (reception : Reception) : Bool :=
  reception.waiters[number]?.any (·.reply.isSome)

theorem askAndWait_eq (reception : Reception) :
    let number := reception.waiters.length
    let asked := Peer.ask peer reception.now query (.waiter number)
    let later := awaiting peer query reception
    let last := later.advance (later.now + timeout) (answered number)
    askAndWait peer query timeout reception
      =
    match asked.2.verdict with
    | .error error => (.error error, asked.1, later)
    | .ok _ =>
      (((last.waiters[number]?).map Waiter.result).getD (.error .timeout), asked.1, last) := by
  rfl

theorem result_getD (waiter : Option Waiter) :
    (waiter.map Waiter.result).getD (.error .timeout)
      =
    ((waiter.bind (·.reply)).map Reply.result).getD (.error .timeout) := by
  rcases waiter with _ | ⟨query, _ | reply⟩ <;> rfl

theorem askAndWait_result (h : reception.Orderly) :
    let reaction := (Peer.ask peer reception.now query (.waiter reception.waiters.length)).2
    (askAndWait peer query timeout reception).1
      =
    match reaction.verdict with
    | .error error => .error error
    | .ok _ =>
      (((reaction.reportsWithin timeout).find? (·.BelongsTo query)).map (·.reply.result)).getD
        (.error .timeout) := by
  dsimp only
  rcases awaiting_spec peer query reception with ⟨hnow, hupcoming, -, hwaiter⟩
  have hordered := pairwise_insertAll h.ordered
    ((Peer.ask peer reception.now query (.waiter reception.waiters.length)).2.dues reception.now
      (.waiter reception.waiters.length))
  have hreply := reply_advance_go (reception.now + timeout) hordered hwaiter
  have haccepts : Waiter.accepts ⟨query, none⟩
      = fun report => decide (report.BelongsTo query) := by
    funext report
    rw [Bool.eq_iff_iff, decide_eq_true_eq, Waiter.accepts_iff]
  rw [← List.foldl_append, reportsFor_insertAll h, Waiter.reply_foldl_receive, ← hupcoming,
    haccepts] at hreply
  rw [askAndWait_eq]
  cases (Peer.ask peer reception.now query (.waiter reception.waiters.length)).2.verdict with
  | error error => rfl
  | ok id =>
    dsimp only
    rw [result_getD, advance, hnow]
    unfold answered
    rw [hreply]
    simp [Function.comp_def]

theorem orderly_awaiting (h : reception.Orderly) : (awaiting peer query reception).Orderly := by
  rcases awaiting_spec peer query reception with ⟨-, hupcoming, hlength, -⟩
  constructor
  . rw [hupcoming]
    exact pairwise_insertAll h.ordered _
  . intro due hmem number hsink
    rw [hupcoming, mem_insertAll] at hmem
    rw [hlength]
    rcases hmem with hmem | hmem
    . exact Nat.lt_succ_of_lt (h.known due hmem number hsink)
    . rcases List.mem_map.mp hmem with ⟨later, -, rfl⟩
      injection hsink with hnumber
      omega

theorem orderly_askAndWait (h : reception.Orderly) :
    (askAndWait peer query timeout reception).2.2.Orderly := by
  have hlater := orderly_awaiting peer query h
  rw [askAndWait_eq]
  cases (Peer.ask peer reception.now query (.waiter reception.waiters.length)).2.verdict with
  | error error => exact hlater
  | ok id => exact hlater.advance _ _

end Waiting

section First

variable {P : Type} [Peer P]

/--
Somebody who asks a single peer and waits gets the error of one who refuses, whatever was reported
before. Otherwise he gets the first of all that is reported in time, before the verdict or after it,
that is a failure or a message that belongs to the query; if there is nothing, the time is over.
What belongs to other queries makes no difference, and neither does what comes after.
-/
theorem askAndWait_first (peer : P) (query : Message) (timeout : Nat) {reception : Reception}
    (h : reception.Orderly) :
    let reaction := (Peer.ask peer reception.now query (.waiter reception.waiters.length)).2
    let arrived := reaction.reportsWithin timeout
    let result := (askAndWait peer query timeout reception).1
    (∀ error, reaction.verdict = .error error → result = .error error) ∧
    (∀ id, reaction.verdict = .ok id →
      result = ((arrived.find? (·.BelongsTo query)).map (·.reply.result)).getD (.error .timeout)) ∧
    ∀ {Q : Type} [Peer Q] (other : Q) (time : Nat) (elsewhere : Reception), elsewhere.Orderly →
      let reaction' := (Peer.ask other elsewhere.now query (.waiter elsewhere.waiters.length)).2
      let arrived' := reaction'.reportsWithin time
      ∀ id id', reaction.verdict = .ok id → reaction'.verdict = .ok id' →
      (arrived.filter (·.BelongsTo query)).head? = (arrived'.filter (·.BelongsTo query)).head? →
      (askAndWait other query time elsewhere).1 = result := by
  intro reaction arrived result
  have hresult := askAndWait_result peer query timeout h
  have hok : ∀ id, reaction.verdict = .ok id →
      result
        =
      ((arrived.find? (·.BelongsTo query)).map (·.reply.result)).getD (.error .timeout) := by
    intro id hverdict
    dsimp only at hresult
    rw [hverdict] at hresult
    exact hresult
  refine ⟨?_, hok, ?_⟩
  . intro error hverdict
    dsimp only at hresult
    rw [hverdict] at hresult
    exact hresult
  . intro Q _ other time elsewhere helsewhere reaction' arrived' id id' hverdict hverdict' hhead
    have hother := askAndWait_result other query time helsewhere
    dsimp only at hother
    rw [List.head?_filter, List.head?_filter] at hhead
    rw [hverdict', ← hhead] at hother
    exact hother.trans (hok id hverdict).symm

/--
The second of two queries ends with a failure. Before it comes a message for another query, and what
was still to come for the first query.
-/
theorem askAndWait_first_failure :
    let stray : Script.Line := { id := some 9, reply := .message { id := 9, isResponse := true } }
    let relay : Scripted :=
      { name := "relay"
        script :=
          { immediate := [stray]
            delayed := [(40, stray), (30, { reply := .failure (.closed "relay") })] } }
    let query := fun id => Message.query id ⟨[[0x68]], true⟩ .a
    let first := askAndWait relay (query 7) 35 {}
    first.2.2.Orderly ∧ first.2.2.upcoming ≠ [] ∧
      (askAndWait first.2.1 (query 8) 35 first.2.2).1 = .error (.closed "relay") := by
  intro stray relay query first
  have hinitial : Reception.Orderly {} := ⟨List.Pairwise.nil, by simp⟩
  have horderly := orderly_askAndWait relay (query 7) 35 hinitial
  have hresult := (askAndWait_first first.2.1 (query 8) 35 horderly).2.1 8 (by rfl)
  exact ⟨horderly, by decide, hresult⟩

end First

end Querier

end Zeroconf
