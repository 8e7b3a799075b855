import Mathlib.Algebra.BigOperators.Group.List.Basic
import Zeroconf.Proofs.Nameserver.Requests

/-!
This module contains what the listeners of requests hear on every run: once of each request that was
taken and carried out, also when the nameserver is closed in between, and never of one that was
refused.
-/

namespace Zeroconf

namespace Work.Pool

variable {τ β : Type} {pool later : Pool τ} {task : τ}

def tasks (pool : Pool τ) : List τ := pool.queue ++ pool.running ++ pool.unpooled

/--
Whether a pool that takes a task has it once more than before, and one that refuses it is as before.
-/
def Handles (pool : Pool τ) (task : τ) (verdict : Except Error β) (later : Pool τ) : Prop :=
  match verdict with
  | .ok _ => later.tasks.Perm (task :: pool.tasks)
  | .error _ => later = pool

theorem perm_running (pool : Pool τ) (task : τ) :
    (pool.queue ++ (pool.running ++ [task]) ++ pool.unpooled).Perm (task :: pool.tasks) := by
  rw [← List.append_assoc, List.append_assoc _ [task]]
  exact List.perm_middle

theorem perm_of_offer_eq_taken (h : pool.offer task = .taken later) :
    later.tasks.Perm (task :: pool.tasks) := by
  unfold offer at h
  split at h
  . contradiction
  . split at h
    . split at h
      . contradiction
      . cases h
        exact perm_running pool task
    . split at h
      . cases h
        simp only [tasks, List.append_assoc, List.singleton_append]
        exact List.perm_middle
      . contradiction

theorem handles_place (pool : Pool τ) (task : τ) :
    pool.Handles task (pool.place task).1 (pool.place task).2.1 := by
  unfold place
  split
  . exact perm_running pool task
  . split
    . exact rfl
    . simp only [Handles, tasks, ← List.append_assoc]
      exact List.perm_append_singleton task _

theorem handles_submit (pool : Pool τ) (task : τ) :
    pool.Handles task (pool.submit task).1 (pool.submit task).2.1 := by
  unfold submit
  split
  . next hoffer => exact perm_of_offer_eq_taken hoffer
  . exact rfl
  . exact handles_place pool task

end Work.Pool

namespace Nameserver.Bureau

open Transport

variable {α : Type} {server : SocketAddress} {bureau : Bureau α} {number : Nat}
  {request : Request α}

/--
Whether the listener of a request has heard once and no more, namely what came of an exchange with
the nameserver at this address.
-/
def HeardOnce (bureau : Bureau α) (server : SocketAddress) (number : Nat) (request : Request α) :
    Prop :=
  ∃ seen : Nameserver, seen.address = server ∧
    bureau.callbacksOf number
      = [⟨number, request.listener, (seen.exchange request.query).report request.query.id⟩]

namespace Orderly

theorem errandsOf_eq_nil (h : bureau.Orderly server) {error : Error}
    (hrefused : bureau.calls[number]? = some ⟨request, some (.error error)⟩) :
    bureau.errandsOf number = [] := by
  simp only [errandsOf, List.filter_eq_nil_iff, beq_iff_eq]
  rintro errand hmem rfl
  have htook := (h.errand errand hmem).1
  simp [Took, hrefused] at htook

theorem length_callbacksOf (h : bureau.Orderly server) (number : Nat) :
    (bureau.callbacksOf number).length
      =
    (bureau.errandsOf number).countP (·.phase.isEnded) := by
  rw [callbacksOf, errandsOf, ← List.countP_eq_length_filter, h.count, List.countP_filter]
  simp only [Bool.and_comm]

theorem callbacksOf_eq_nil (h : bureau.Orderly server)
    (hnone : ∀ errand ∈ bureau.errandsOf number, errand.phase.isEnded = false) :
    bureau.callbacksOf number = [] := by
  rw [← List.length_eq_zero_iff, h.length_callbacksOf, List.countP_eq_zero]
  intro errand hmem
  simp [hnone errand hmem]

theorem heardOnce (h : bureau.Orderly server) (htook : bureau.Took number request)
    {errand : Errand α} (herrand : bureau.errandsOf number = [errand])
    (hended : errand.phase.isEnded = true) : bureau.HeardOnce server number request := by
  have hlength : (bureau.callbacksOf number).length = 1 := by
    rw [h.length_callbacksOf, herrand]
    simp [hended]
  rcases List.length_eq_one_iff.mp hlength with ⟨callback, hcallback⟩
  have hmem : callback ∈ bureau.callbacksOf number := by simp [hcallback]
  simp only [callbacksOf, List.mem_filter, beq_iff_eq] at hmem
  rcases h.callback callback hmem.1 with ⟨other, hother, hlistener, seen, haddress, hreport⟩
  have : other = request := by
    unfold Took at htook hother
    rw [hmem.2, htook] at hother
    simp only [Option.some.injEq, Call.mk.injEq] at hother
    exact hother.1.symm
  subst this
  refine ⟨seen, haddress, ?_⟩
  rw [hcallback]
  rcases callback with ⟨call, listener, report⟩
  simp only at hmem hlistener hreport
  rw [hmem.2, hlistener, hreport]
  rfl

end Orderly

section Closed

/--
Whether nothing but the failure of a closed nameserver can come of a call any more.
-/
structure Barred (number : Nat) (bureau : Bureau α) : Prop where
  closed : bureau.nameserver.closed = true
  errand : ∀ errand ∈ bureau.errands, errand.call = number → errand.phase ≠ .opened ∧
    ∀ seen, errand.phase = .equipped seen → seen.closed = true
  callback : ∀ callback ∈ bureau.callbacks, callback.call = number →
    callback.report.reply = .failure (.closed "unicast resolver")

theorem reply_carryOut_of_closed {seen : Nameserver} (h : seen.closed = true) (host : Host)
    (request : Request α) :
    ((seen.withHost host).carryOut request).1.reply = .failure (.closed "unicast resolver") := by
  simp [carryOut, exchange, withHost, h, Exchange.report]

theorem Barred.advance (h : bureau.Barred number) (place : Nat) {errand : Errand α} {phase : Phase}
    (hphase : errand.call = number → phase ≠ .opened ∧
      ∀ seen, phase = .equipped seen → seen.closed = true) :
    (bureau.advance place errand phase).Barred number where
  closed := h.closed
  errand other hmem := by
    rcases List.mem_or_eq_of_mem_set hmem with hmem | rfl
    . exact h.errand other hmem
    . exact hphase
  callback := h.callback

theorem Barred.next (h : bureau.Barred number) {act : Act α} (henabled : bureau.Enabled act) :
    (bureau.next act).Barred number := by
  cases act with
  | call request => exact ⟨h.closed, h.errand, h.callback⟩
  | submit call verdict =>
    rcases henabled with ⟨request, hcall⟩
    rw [next_submit hcall]
    exact ⟨h.closed, h.errand, h.callback⟩
  | start call =>
    rcases henabled with ⟨request, id, hcall⟩
    rw [next_start hcall]
    refine ⟨h.closed, ?_, h.callback⟩
    intro errand hmem
    rcases List.mem_append.mp hmem with hmem | hmem
    . exact h.errand errand hmem
    . rw [List.mem_singleton.mp hmem]
      simp
  | look place =>
    rcases henabled with ⟨call, request, herrand⟩
    rw [next_look herrand, looked, if_pos h.closed]
    refine h.advance place fun _ => ⟨by simp, ?_⟩
    rintro seen ⟨⟩
    exact h.closed
  | equip place =>
    -- The worker has already looked, and that call was seen to be late.
    rcases henabled with ⟨call, request, herrand⟩
    rw [next_equip herrand]
    refine h.advance place fun hcall => ?_
    exact absurd rfl (h.errand _ (List.mem_of_getElem? herrand) hcall).1
  | report place host =>
    rcases henabled with ⟨call, request, seen, herrand⟩
    have hadvance : (bureau.advance place ⟨call, request, .equipped seen⟩ .ended).Barred number :=
      h.advance place fun _ => ⟨by simp, by simp⟩
    rw [next_report herrand]
    refine ⟨hadvance.closed, hadvance.errand, ?_⟩
    intro callback hmem hcall
    rcases List.mem_append.mp hmem with hmem | hmem
    . exact h.callback callback hmem hcall
    . rw [List.mem_singleton.mp hmem] at hcall ⊢
      have hclosed := (h.errand _ (List.mem_of_getElem? herrand) hcall).2 seen rfl
      exact reply_carryOut_of_closed hclosed host request
  | setTimeout timeout => exact ⟨h.closed, h.errand, h.callback⟩
  | close => exact ⟨rfl, h.errand, h.callback⟩

theorem barred_of_begun (h : bureau.Orderly server) (hclosed : bureau.nameserver.closed = true)
    (hbegun : ∀ errand ∈ bureau.errandsOf number, errand.phase = .begun) :
    bureau.Barred number where
  closed := hclosed
  errand errand hmem hcall := by
    have := hbegun errand (List.mem_filter.mpr ⟨hmem, by simp [hcall]⟩)
    simp [this]
  callback callback hmem hcall := by
    have hnone : bureau.callbacksOf number = [] := by
      refine h.callbacksOf_eq_nil ?_
      intro errand herrand
      rw [hbegun errand herrand]
      rfl
    rw [callbacksOf, List.filter_eq_nil_iff] at hnone
    exact absurd (by simp [hcall]) (hnone callback hmem)

end Closed

section Progress

def Act.isWork : Act α → Bool
  | .look _ | .equip _ | .report .. => true
  | _ => false

def left (bureau : Bureau α) : Nat := (bureau.errands.map (·.phase.left)).sum

def Rests (bureau : Bureau α) : Prop := ∀ errand ∈ bureau.errands, errand.phase.isEnded = true

/--
Whether nothing has happened since but that workers went on.
-/
structure Onward (bureau later : Bureau α) : Prop where
  calls : later.calls = bureau.calls
  errands : ∀ number, (later.errandsOf number).length = (bureau.errandsOf number).length

theorem Onward.refl (bureau : Bureau α) : bureau.Onward bureau := ⟨rfl, fun _ => rfl⟩

theorem Onward.of_set {later next : Bureau α} (h : bureau.Onward later) {place : Nat}
    {errand : Errand α} (herrand : later.errands[place]? = some errand) {phase : Phase}
    (hcalls : next.calls = later.calls)
    (herrands : next.errands = later.errands.set place { errand with phase }) :
    bureau.Onward next where
  calls := hcalls.trans h.calls
  errands number := by
    rcases exists_perm_of_set herrand with ⟨others, hperm, hset⟩
    rw [← h.errands number]
    simp only [errandsOf, ← List.countP_eq_length_filter]
    rw [herrands, (hset _).countP_eq, hperm.countP_eq]
    simp [List.countP_cons]

theorem left_lt_of_set {later : Bureau α} {place : Nat} {errand : Errand α}
    (herrand : bureau.errands[place]? = some errand) {phase : Phase}
    (herrands : later.errands = bureau.errands.set place { errand with phase })
    (hlt : phase.left < errand.phase.left) : later.left < bureau.left := by
  rcases exists_perm_of_set herrand with ⟨others, hperm, hset⟩
  unfold left
  rw [herrands, ((hset _).map _).sum_eq, (hperm.map _).sum_eq]
  simpa using hlt

theorem left_looked (nameserver : Nameserver) : (looked nameserver).left < Phase.begun.left := by
  unfold looked
  split <;> simp [Phase.left]

theorem exists_end (bureau : Bureau α) :
    ∃ more, (∀ act ∈ more, act.isWork = true) ∧ (machine α).Admits bureau more ∧
      bureau.Onward ((machine α).follow bureau more) ∧
      ((machine α).follow bureau more).Rests := by
  refine Machine.exists_run left ?_ (Onward.refl bureau)
  intro later honward hdone
  simp only [Rests, not_forall, Bool.not_eq_true] at hdone
  rcases hdone with ⟨errand, hmem, hended⟩
  rcases List.getElem?_of_mem hmem with ⟨place, herrand⟩
  rcases errand with ⟨call, request, phase⟩
  cases phase with
  | begun =>
    refine ⟨.look place, rfl, ⟨call, request, herrand⟩, ?_⟩
    have hnext := next_look herrand
    refine ⟨honward.of_set herrand (congrArg (·.calls) hnext) (congrArg (·.errands) hnext), ?_⟩
    exact left_lt_of_set herrand (congrArg (·.errands) hnext) (left_looked _)
  | opened =>
    refine ⟨.equip place, rfl, ⟨call, request, herrand⟩, ?_⟩
    have hnext := next_equip herrand
    refine ⟨honward.of_set herrand (congrArg (·.calls) hnext) (congrArg (·.errands) hnext), ?_⟩
    exact left_lt_of_set herrand (congrArg (·.errands) hnext) (by simp [Phase.left])
  | equipped seen =>
    refine ⟨.report place {}, rfl, ⟨call, request, seen, herrand⟩, ?_⟩
    have hnext := next_report herrand {}
    refine ⟨honward.of_set herrand (congrArg (·.calls) hnext) (congrArg (·.errands) hnext), ?_⟩
    exact left_lt_of_set herrand (congrArg (·.errands) hnext) (by simp [Phase.left])
  | ended => contradiction

end Progress

theorem exists_submit (bureau : Bureau α) (pool : Work.Pool (Request α)) (query : Message)
    (listener : α) :
    let verdict := (bureau.nameserver.submit pool query listener).1
    ∃ acts, (machine α).Admits bureau acts ∧
      ((machine α).follow bureau acts).calls
        = bureau.calls ++ [⟨⟨query, listener⟩, some verdict⟩] := by
  intro verdict
  cases hclosed : bureau.nameserver.closed with
  | true =>
    refine ⟨[.call ⟨query, listener⟩], ⟨trivial, trivial⟩, ?_⟩
    simp [verdict, Machine.follow, machine, next, answerAtOnce?, submit, hclosed]
  | false =>
    let request : Request α := ⟨query, listener⟩
    have hcall : (bureau.next (.call request)).calls[bureau.calls.length]?
        =
      some ⟨request, none⟩ := by
      simp [next, answerAtOnce?, hclosed]
    refine ⟨[.call request, .submit bureau.calls.length (pool.submit request).1],
      ⟨trivial, ⟨request, hcall⟩, trivial⟩, ?_⟩
    have hsubmit := next_submit hcall (pool.submit request).1
    simp only [Machine.follow, machine, List.foldl_cons, List.foldl_nil]
    rw [hsubmit]
    simp [verdict, next, submit, hclosed, request]

theorem handles_submit (nameserver : Nameserver) (pool : Work.Pool (Request α)) (query : Message)
    (listener : α) :
    let submitted := nameserver.submit pool query listener
    pool.Handles ⟨query, listener⟩ submitted.1 submitted.2.1 := by
  unfold Nameserver.submit
  split
  . exact rfl
  . have hpool := pool.handles_submit ⟨query, listener⟩
    dsimp only
    cases hverdict : (pool.submit ⟨query, listener⟩).1 with
    | ok =>
      rw [hverdict] at hpool
      exact hpool
    | error error =>
      rw [hverdict] at hpool
      exact hpool

theorem ask_once (nameserver : Nameserver) (query : Message) :
    let reaction := nameserver.ask query
    reaction.reports = [] ∧
      match reaction.verdict with
      | .ok id => id = query.id ∧
        ∃ time, reaction.later = [(time, (nameserver.exchange query).report id)]
      | .error _ => reaction.later = [] := by
  unfold ask
  split
  . exact ⟨rfl, rfl⟩
  . exact ⟨rfl, rfl, _, rfl⟩

/--
However calls, pool, workers and the end of the nameserver come between each other, a request that
is refused is never carried out, and nobody hears of it. A call that succeeds is told the number of
its query. Its listener hears as often as the request was carried out to its end: exactly once if it
was once, under this number and with what came of an exchange, be it a message or a failure; and
what was begun once can always be brought to its end. If the nameserver is closed before the worker
looks, what is heard is the failure of a closed nameserver.

What a nameserver says to a call that is alone with the pool is said so on such a run, and the pool
has the request once more if it succeeds, and else not. Where there is a worker for everything, a
request that is taken is reported once as well.
-/
theorem heard_once (nameserver : Nameserver) {acts : List (Act α)}
    (hadmits : (machine α).Admits { nameserver } acts) :
    let bureau := after nameserver acts
    let server := nameserver.address
    (∀ number request error, bureau.calls[number]? = some ⟨request, some (.error error)⟩ →
      bureau.errandsOf number = [] ∧ bureau.callbacksOf number = []) ∧
    (∀ number request id, bureau.calls[number]? = some ⟨request, some (.ok id)⟩ →
      id = request.query.id ∧
      (bureau.callbacksOf number).length
        = (bureau.errandsOf number).countP (·.phase.isEnded) ∧
      (∀ errand, bureau.errandsOf number = [errand] → errand.phase.isEnded = true →
        bureau.HeardOnce server number request) ∧
      ((bureau.errandsOf number).length = 1 →
        ∃ more, (∀ act ∈ more, act.isWork = true) ∧ (machine α).Admits bureau more ∧
          ((machine α).follow bureau more).HeardOnce server number request)) ∧
    (∀ front behind number, acts = front ++ behind →
      (after nameserver front).nameserver.closed = true →
      (∀ errand ∈ (after nameserver front).errandsOf number, errand.phase = .begun) →
      ∀ callback ∈ bureau.callbacksOf number,
        callback.report.reply = .failure (.closed "unicast resolver")) ∧
    ∀ (pool : Work.Pool (Request α)) (query : Message) (listener : α),
      let submitted := bureau.nameserver.submit pool query listener
      (∃ more, (machine α).Admits bureau more ∧
        ((machine α).follow bureau more).calls
          = bureau.calls ++ [⟨⟨query, listener⟩, some submitted.1⟩]) ∧
      pool.Handles ⟨query, listener⟩ submitted.1 submitted.2.1 ∧
      let reaction := bureau.nameserver.ask query
      reaction.reports = [] ∧
        match reaction.verdict with
        | .ok id => id = query.id ∧
          ∃ time, reaction.later = [(time, (bureau.nameserver.exchange query).report id)]
        | .error _ => reaction.later = [] := by
  intro bureau server
  have horderly : bureau.Orderly server := orderly_after nameserver hadmits
  refine ⟨?_, ?_, ?_, ?_⟩
  . intro number request error hrefused
    have hnone := horderly.errandsOf_eq_nil hrefused
    exact ⟨hnone, horderly.callbacksOf_eq_nil (by simp [hnone])⟩
  . intro number request id hcall
    rcases horderly.took hcall with ⟨hid, htook⟩
    refine ⟨hid, horderly.length_callbacksOf number, ?_, ?_⟩
    . intro errand herrand hended
      exact horderly.heardOnce htook herrand hended
    . intro hlength
      rcases exists_end bureau with ⟨more, hwork, hmore, honward, hrests⟩
      refine ⟨more, hwork, hmore, ?_⟩
      have hlater := Machine.keeps (fun _ _ h henabled => h.next henabled) horderly hmore
      have htaken : ((machine α).follow bureau more).Took number request := by
        rw [Took, honward.calls]
        exact htook
      rcases List.length_eq_one_iff.mp ((honward.errands number).trans hlength) with
        ⟨errand, herrand⟩
      refine hlater.heardOnce htaken herrand (hrests errand ?_)
      have hmem : errand ∈ ((machine α).follow bureau more).errandsOf number := by simp [herrand]
      exact (List.mem_filter.mp hmem).1
  . rintro front behind number rfl hclosed hbegun callback hmem
    rw [Machine.admits_append_iff] at hadmits
    have hbarred := barred_of_begun (orderly_after nameserver hadmits.1) hclosed hbegun
    have hlater := Machine.keeps (fun _ _ h henabled => h.next henabled) hbarred hadmits.2
    rw [after, ← Machine.follow_append] at hlater
    simp only [callbacksOf, List.mem_filter, beq_iff_eq] at hmem
    exact hlater.callback callback hmem.1 hmem.2
  . intro pool query listener
    exact ⟨exists_submit bureau pool query listener, handles_submit _ pool query listener,
      ask_once _ query⟩

/--
The nameserver is closed between the call whose request is taken and the look of the worker, which
nevertheless reports to the listener. Of the call that the pool refuses nobody hears, nor of the one
that comes too late.
-/
theorem heard_once_closed :
    let nameserver : Nameserver := { address := .v4 ⟨10, 0, 0, 1⟩ 53, timeout := 1000, host := {} }
    let request (id : UInt16) : Request String := ⟨.query id ⟨[[0x68]], true⟩ .a, "listener"⟩
    let acts : List (Act String) :=
      [.call (request 7), .submit 0 (.ok ()), .call (request 8),
        .submit 1 (.error (.rejected "general")), .start 0, .close, .look 0, .report 0 {},
        .call (request 9)]
    let bureau := after nameserver acts
    (machine String).Admits { nameserver } acts ∧
    bureau.HeardOnce nameserver.address 0 (request 7) ∧
    (∀ callback ∈ bureau.callbacksOf 0,
      callback.report.reply = .failure (.closed "unicast resolver")) ∧
    bureau.callbacksOf 1 = [] ∧ bureau.callbacksOf 2 = [] := by
  intro nameserver request acts bureau
  have hadmits : (machine String).Admits { nameserver } acts :=
    ⟨trivial, ⟨_, rfl⟩, trivial, ⟨_, rfl⟩, ⟨_, _, rfl⟩, trivial, ⟨_, _, rfl⟩, ⟨_, _, _, rfl⟩,
      trivial, trivial⟩
  have hcalls : bureau.calls
      =
    [⟨request 7, some (.ok 7)⟩, ⟨request 8, some (.error (.rejected "general"))⟩,
      ⟨request 9, some (.error (.closed "unicast resolver"))⟩] := by
    rfl
  have herrands : bureau.errands = [⟨0, request 7, .ended⟩] := by rfl
  have hbegun : (after nameserver (acts.take 6)).errands = [⟨0, request 7, .begun⟩] := by rfl
  rcases heard_once nameserver hadmits with ⟨hrefused, htaken, hclosed, -⟩
  refine ⟨hadmits, ?_, ?_, ?_, ?_⟩
  . have htold := htaken 0 (request 7) 7 (by rw [hcalls]; rfl)
    exact htold.2.2.1 ⟨0, request 7, .ended⟩ (by rw [errandsOf, herrands]; rfl) rfl
  . refine hclosed (acts.take 6) (acts.drop 6) 0 rfl rfl ?_
    simp [errandsOf, hbegun]
  . exact (hrefused 1 (request 8) (.rejected "general") (by rw [hcalls]; rfl)).2
  . exact (hrefused 2 (request 9) (.closed "unicast resolver") (by rw [hcalls]; rfl)).2

end Nameserver.Bureau

end Zeroconf
