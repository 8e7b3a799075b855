import Zeroconf.Proofs.Nameserver.Exchange

/-!
This module contains exchanges with a nameserver step by step, one operation of the host at a time,
where the nameserver is waited for in a loop that takes in one datagram after the other. Each wait
ends at the same deadline, however many datagrams were passed over, and the loop ends with the first
answer. The query goes out over a stream once if this answer is truncated, and else not at all.
-/

namespace Zeroconf.Nameserver

open Transport

section Answers

variable {server : SocketAddress} {id : UInt16} {timeout time : Nat} {message : Message}

/--
The message in a datagram, if it comes from the server and has the number `id`.
-/
def answerIn? (server : SocketAddress) (id : UInt16) (datagram : SocketAddress × List UInt8) :
    Option Message :=
  if datagram.1 = server then
    (Message.decode datagram.2).toOption.filter (·.id == id)
  else
    none

section Arrival

variable {arrival : Arrival} {datagram : SocketAddress × List UInt8}
  (htime : arrival.time < timeout) (hcontent : arrival.content = .ok datagram)

include htime hcontent

theorem answers_of_answerIn?_eq_some (h : answerIn? server id datagram = some message) :
    Answers server id timeout arrival message := by
  unfold answerIn? at h
  split at h
  . next hsource =>
    rw [Option.filter_eq_some_iff] at h
    cases hdecode : Message.decode datagram.2 with
    | error fault => simp [hdecode, Except.toOption] at h
    | ok other =>
      have : other = message := by simpa [hdecode, Except.toOption] using h.1
      subst this
      exact ⟨htime, by simpa using h.2, datagram.2, by rw [hcontent, ← hsource], hdecode⟩
  . contradiction

theorem passes_of_answerIn?_eq_none (h : answerIn? server id datagram = none) :
    Passes server id timeout arrival := by
  refine ⟨htime, datagram.1, datagram.2, hcontent, ?_⟩
  intro hsource message hdecode hid
  simp [answerIn?, hsource, hdecode, hid, Except.toOption] at h

end Arrival

theorem firstAnswer_of_timeout_eq_zero (server : SocketAddress) (id : UInt16)
    (arrivals : List Arrival) : firstAnswer server id 0 arrivals = (0, .error .timeout) := by
  cases arrivals with
  | nil => rfl
  | cons arrival arrivals => rw [firstAnswer, if_neg (Nat.not_lt_zero _)]

end Answers

inductive Stage where
  | bind
  | transmit
  /-- Wait for a datagram, at most for so many milliseconds. -/
  | receive (wait : Nat)
  /-- Write a frame on a stream, and await the one that comes back. -/
  | converse (frame : List UInt8)
  | done (result : Except Error Message)

structure Dialogue where
  stage : Stage
  /-- The bytes of the query. -/
  bytes : List UInt8 := []
  /-- The milliseconds since the query was sent. -/
  now : Nat := 0
  /-- What will still come in. -/
  arrivals : List Arrival := []
  samples : List Sample := []
  /-- The frames with which the nameserver was asked over streams. -/
  frames : List (List UInt8) := []

namespace Dialogue

def finish (dialogue : Dialogue) (result : Except Error Message) : Dialogue :=
  { dialogue with stage := .done result }

/--
Go on waiting, for what is left of the time until the deadline.
-/
def resume (dialogue : Dialogue) (deadline : Nat) : Dialogue :=
  if deadline - dialogue.now = 0 then
    dialogue.finish (.error .timeout)
  else
    { dialogue with stage := .receive (deadline - dialogue.now) }

/--
Take a message for the answer, unless it is truncated.
-/
def accept (dialogue : Dialogue) (message : Message) : Dialogue :=
  if message.truncated then
    let dialogue := { dialogue with samples := dialogue.samples ++ [Sample.tcpRetry] }
    match Frame.encode? dialogue.bytes with
    | none =>
      dialogue.finish
        (.error (.config s!"query of {dialogue.bytes.length} bytes exceeds tcp framing"))
    | some frame => { dialogue with stage := .converse frame }
  else
    dialogue.finish (.ok message)

def take (dialogue : Dialogue) (server : SocketAddress) (id : UInt16) (deadline : Nat) :
    Except Fault (SocketAddress × List UInt8) → Dialogue
  | .error fault => dialogue.finish (.error fault.awaiting)
  | .ok datagram =>
    match answerIn? server id datagram with
    | none => dialogue.resume deadline
    | some message => dialogue.accept message

def begin (nameserver : Nameserver) (query : Message) : Dialogue :=
  if nameserver.closed then
    { stage := .done (.error (.closed "unicast resolver")) }
  else
    match query.encode with
    | .error fault => { stage := .done (.error (.malformed fault.message)) }
    | .ok bytes => { stage := .bind, bytes }

def step (nameserver : Nameserver) (id : UInt16) (dialogue : Dialogue) : Dialogue :=
  let { address := server, timeout, host, .. } := nameserver
  match dialogue.stage with
  | .bind =>
    match host.bind (localAddress server) with
    | some fault => dialogue.finish (.error (.bind (localAddress server) fault.text))
    | none => { dialogue with stage := .transmit }
  | .transmit =>
    match host.transmit server dialogue.bytes with
    | some fault =>
      let (error, samples) := sendFailure server fault
      { dialogue with samples }.finish (.error error)
    | none =>
      let samples := Sample.packetSent .unicast dialogue.bytes.length
      let arrivals := (host.traffic server dialogue.bytes).arrivals
      { dialogue with samples, arrivals }.resume timeout
  | .receive wait =>
    let silent := { dialogue with now := dialogue.now + wait }.finish (.error .timeout)
    match dialogue.arrivals with
    | [] => silent
    | arrival :: arrivals =>
      if arrival.time < dialogue.now + wait then
        { dialogue with now := max dialogue.now arrival.time, arrivals }.take server id timeout
          arrival.content
      else
        silent
  | .converse frame =>
    let traffic := host.traffic server dialogue.bytes
    let (result, samples) := conclude server (traffic.conversation frame)
    { dialogue with
      now := dialogue.now + traffic.conversationTime
      samples := dialogue.samples ++ samples
      frames := dialogue.frames ++ [frame] }.finish result
  | .done _ => dialogue

def after (nameserver : Nameserver) (query : Message) (count : Nat) : Dialogue :=
  (step nameserver query.id)^[count] (begin nameserver query)

variable {nameserver : Nameserver} {query : Message} {dialogue : Dialogue}

theorem after_succ (count : Nat) :
    after nameserver query (count + 1)
      =
    (after nameserver query count).step nameserver query.id := by
  exact Function.iterate_succ_apply' ..

/--
What holds of an exchange on its way: the waits end at the deadline, and the nameserver is asked
over a stream in the last step only.
-/
structure Sound (deadline : Nat) (dialogue : Dialogue) : Prop where
  deadline : ∀ wait, dialogue.stage = .receive wait → dialogue.now + wait = deadline
  frames : (∀ result, dialogue.stage ≠ .done result) → dialogue.frames = []
  length : dialogue.frames.length ≤ 1

theorem sound_finish {deadline : Nat} (h : dialogue.frames.length ≤ 1)
    (result : Except Error Message) : (dialogue.finish result).Sound deadline where
  deadline := by simp [finish]
  frames hstage := absurd rfl (hstage result)
  length := h

theorem sound_resume (h : dialogue.frames = []) (deadline : Nat) :
    (dialogue.resume deadline).Sound deadline := by
  unfold resume
  split
  . exact sound_finish (by simp [h]) _
  . next hwait =>
    refine ⟨?_, fun _ => h, by simp [h]⟩
    intro wait hstage
    injection hstage with hstage
    dsimp only
    omega

theorem accept_of_not_truncated {message : Message} (h : message.truncated = false) :
    dialogue.accept message = dialogue.finish (.ok message) := by
  exact if_neg (by simp [h])

theorem accept_of_truncated {message : Message} (h : message.truncated = true)
    {frame : List UInt8} (hframe : Frame.encode? dialogue.bytes = some frame) :
    dialogue.accept message
      =
    { dialogue with
      samples := dialogue.samples ++ [Sample.tcpRetry]
      stage := .converse frame } := by
  unfold accept
  rw [if_pos h]
  simp only [hframe]

theorem sound_accept (h : dialogue.frames = []) (deadline : Nat) (message : Message) :
    (dialogue.accept message).Sound deadline := by
  unfold accept
  dsimp only
  split
  . split
    . exact sound_finish (by simp [h]) _
    . exact ⟨by simp, fun _ => h, by simp [h]⟩
  . exact sound_finish (by simp [h]) _

theorem sound_take (h : dialogue.frames = []) (server : SocketAddress) (id : UInt16)
    (deadline : Nat) (content : Except Fault (SocketAddress × List UInt8)) :
    (dialogue.take server id deadline content).Sound deadline := by
  unfold take
  split
  . exact sound_finish (by simp [h]) _
  . split
    . exact sound_resume h deadline
    . exact sound_accept h deadline _

theorem sound_begin (nameserver : Nameserver) (query : Message) :
    (begin nameserver query).Sound nameserver.timeout := by
  unfold begin
  split
  . exact ⟨by simp, fun _ => rfl, by simp⟩
  . split
    . exact ⟨by simp, fun _ => rfl, by simp⟩
    . exact ⟨by simp, fun _ => rfl, by simp⟩

theorem Sound.step (h : dialogue.Sound nameserver.timeout) (id : UInt16) :
    (dialogue.step nameserver id).Sound nameserver.timeout := by
  -- An exchange writes at most one frame, in the step that ends it.
  have hlength := h.length
  unfold Dialogue.step
  dsimp only
  split
  . next hstage =>
    have hframes := h.frames (by simp [hstage])
    split
    . exact sound_finish hlength _
    . exact ⟨by simp, fun _ => hframes, hlength⟩
  . next hstage =>
    have hframes := h.frames (by simp [hstage])
    split
    . apply sound_finish
      exact hlength
    . apply sound_resume
      exact hframes
  . next wait hstage =>
    have hframes := h.frames (by simp [hstage])
    split
    . apply sound_finish
      exact hlength
    . split
      . apply sound_take
        exact hframes
      . apply sound_finish
        exact hlength
  . next frame hstage =>
    have hframes := h.frames (by simp [hstage])
    apply sound_finish
    simp [hframes]
  . exact h

theorem sound_after (nameserver : Nameserver) (query : Message) (count : Nat) :
    (after nameserver query count).Sound nameserver.timeout := by
  induction count with
  | zero => exact sound_begin nameserver query
  | succ count ih =>
    rw [after_succ]
    exact ih.step query.id

def Leads (nameserver : Nameserver) (id : UInt16) (dialogue last : Dialogue) : Prop :=
  ∃ count, (step nameserver id)^[count] dialogue = last

section Leads

variable {id : UInt16} {last : Dialogue}

theorem Leads.refl (nameserver : Nameserver) (id : UInt16) (dialogue : Dialogue) :
    Leads nameserver id dialogue dialogue :=
  ⟨0, rfl⟩

theorem Leads.of_step (h : Leads nameserver id (dialogue.step nameserver id) last) :
    Leads nameserver id dialogue last := by
  rcases h with ⟨count, rfl⟩
  exact ⟨count + 1, rfl⟩

theorem Leads.step (h : Leads nameserver id dialogue last) :
    Leads nameserver id dialogue (last.step nameserver id) := by
  rcases h with ⟨count, rfl⟩
  exact ⟨count + 1, Function.iterate_succ_apply' ..⟩

def settle (dialogue : Dialogue) : Except Error Message → Dialogue
  | .error error => dialogue.finish (.error error)
  | .ok message => dialogue.accept message

theorem settle_stage (dialogue : Dialogue) (stage : Stage) (result : Except Error Message) :
    { dialogue with stage }.settle result = dialogue.settle result := by
  cases result with
  | error error => rfl
  | ok message =>
    simp only [settle, accept]
    split
    . split <;> rfl
    . rfl

section Receive

variable {wait : Nat} (hstage : dialogue.stage = .receive wait)

include hstage

theorem step_of_in_time (nameserver : Nameserver) (id : UInt16) {arrival : Arrival}
    {arrivals : List Arrival} (harrivals : dialogue.arrivals = arrival :: arrivals)
    (htime : arrival.time < dialogue.now + wait) (hnow : dialogue.now ≤ arrival.time) :
    dialogue.step nameserver id
      =
    { dialogue with now := arrival.time, arrivals }.take nameserver.address id nameserver.timeout
      arrival.content := by
  unfold step
  simp only [hstage, harrivals, if_pos htime, Nat.max_eq_right hnow]

theorem step_of_silent (nameserver : Nameserver) (id : UInt16)
    (hlate : ∀ arrival ∈ dialogue.arrivals.head?, dialogue.now + wait ≤ arrival.time) :
    dialogue.step nameserver id
      =
    { dialogue with now := dialogue.now + wait }.finish (.error .timeout) := by
  unfold step
  simp only [hstage]
  cases harrivals : dialogue.arrivals with
  | nil => rfl
  | cons arrival arrivals =>
    rw [harrivals] at hlate
    have := hlate arrival rfl
    simp only [if_neg (Nat.not_lt.mpr this)]

/--
The waiting comes to what the first answer is, however many datagrams are in front of it.
-/
theorem exists_leads_settle (id : UInt16) (hdeadline : dialogue.now + wait = nameserver.timeout)
    (hnow : ∀ arrival ∈ dialogue.arrivals, dialogue.now ≤ arrival.time)
    (horder : dialogue.arrivals.Pairwise fun a b => a.time ≤ b.time) :
    let first := firstAnswer nameserver.address id nameserver.timeout dialogue.arrivals
    ∃ rest, Leads nameserver id dialogue
      ({ dialogue with now := first.1, arrivals := rest }.settle first.2) := by
  generalize harrivals : dialogue.arrivals = arrivals at hnow horder
  induction arrivals generalizing dialogue wait with
  | nil =>
    refine ⟨dialogue.arrivals, .of_step ?_⟩
    rw [step_of_silent hstage nameserver id (by simp [harrivals]), hdeadline]
    exact .refl ..
  | cons arrival arrivals ih =>
    rw [List.forall_mem_cons] at hnow
    rw [List.pairwise_cons] at horder
    by_cases htime : arrival.time < nameserver.timeout
    . have hstep := step_of_in_time hstage nameserver id harrivals (hdeadline ▸ htime) hnow.1
      cases hcontent : arrival.content with
      | error fault =>
        refine ⟨arrivals, .of_step ?_⟩
        rw [hstep, firstAnswer, if_pos htime, hcontent]
        exact .refl ..
      | ok datagram =>
        cases hanswer : answerIn? nameserver.address id datagram with
        | some message =>
          have hanswers := answers_of_answerIn?_eq_some htime hcontent hanswer
          refine ⟨arrivals, .of_step ?_⟩
          rw [hstep, firstAnswer_cons_of_answers hanswers, hcontent, take, hanswer]
          exact .refl ..
        | none =>
          -- The loop goes on with less time, which ends at the same deadline.
          have hpasses := passes_of_answerIn?_eq_none htime hcontent hanswer
          have hresume : dialogue.step nameserver id
              =
            { dialogue with
              now := arrival.time
              arrivals
              stage := .receive (nameserver.timeout - arrival.time) } := by
            rw [hstep, hcontent, take, hanswer, resume, if_neg (by dsimp only; omega)]
          have hleft : arrival.time + (nameserver.timeout - arrival.time) = nameserver.timeout := by
            omega
          have hgoes := @ih { dialogue with
            now := arrival.time
            arrivals
            stage := .receive (nameserver.timeout - arrival.time) } _ rfl hleft rfl
          rcases hgoes horder.1 horder.2 with ⟨rest, hrest⟩
          refine ⟨rest, .of_step ?_⟩
          rw [firstAnswer_cons_of_passes hpasses, hresume]
          rwa [← settle_stage]
    . refine ⟨dialogue.arrivals, .of_step ?_⟩
      have hlate : ∀ other ∈ dialogue.arrivals.head?, dialogue.now + wait ≤ other.time := by
        rw [harrivals]
        rintro other ⟨⟩
        omega
      rw [step_of_silent hstage nameserver id hlate, firstAnswer, if_neg htime, hdeadline]
      exact .refl ..

end Receive

structure Ends (dialogue : Dialogue) (exchange : Exchange) : Prop where
  stage : dialogue.stage = .done exchange.result
  now : dialogue.now = exchange.time
  samples : dialogue.samples = exchange.samples

/--
Whether a query comes to this exchange in the end, with these frames written on streams, and stays
there.
-/
def EndsUp (nameserver : Nameserver) (query : Message) (exchange : Exchange)
    (frames : List (List UInt8)) : Prop :=
  ∃ count, ∀ more, (after nameserver query (count + more)).Ends exchange ∧
    (after nameserver query (count + more)).frames = frames

theorem Leads.endsUp {exchange : Exchange}
    (h : Leads nameserver query.id (begin nameserver query) last) (hends : last.Ends exchange) :
    EndsUp nameserver query exchange last.frames := by
  rcases h with ⟨count, hcount⟩
  refine ⟨count, fun more => ?_⟩
  have hstays : after nameserver query (count + more) = last := by
    rw [Nat.add_comm, after, Function.iterate_add_apply, hcount]
    refine Function.iterate_fixed ?_ more
    simp only [Dialogue.step, hends.stage]
  rw [hstays]
  exact ⟨hends, rfl⟩

/--
The frames with which the nameserver has to be asked over streams after the first answer.
-/
def retries (bytes : List UInt8) : Except Error Message → List (List UInt8)
  | .error _ => []
  | .ok message => if message.truncated then (Frame.encode? bytes).toList else []

end Leads

end Dialogue

open Dialogue

variable {nameserver : Nameserver} {query : Message} {bytes : List UInt8}

namespace Sends

theorem begin_eq (h : nameserver.Sends query bytes) :
    begin nameserver query = { stage := .bind, bytes } := by
  unfold begin
  rw [if_neg (by simp [h.closed]), h.encode]

def sent (nameserver : Nameserver) (bytes : List UInt8) : Dialogue :=
  { stage := .transmit
    bytes
    arrivals := (nameserver.host.traffic nameserver.address bytes).arrivals
    samples := Sample.packetSent .unicast bytes.length }

theorem leads_of_resume (h : nameserver.Sends query bytes) {last : Dialogue}
    (hlast : Leads nameserver query.id ((sent nameserver bytes).resume nameserver.timeout) last) :
    Leads nameserver query.id (begin nameserver query) last := by
  have hbind : (begin nameserver query).step nameserver query.id
      =
    { stage := .transmit, bytes } := by
    simp only [h.begin_eq, step, h.bind]
  refine .of_step (.of_step ?_)
  rw [hbind]
  simp only [step, h.transmit]
  exact hlast

theorem exists_leads_settle (h : nameserver.Sends query bytes)
    (horder : (nameserver.host.traffic nameserver.address bytes).arrivals.Pairwise
      fun a b => a.time ≤ b.time) :
    let first := firstAnswer nameserver.address query.id nameserver.timeout
      (nameserver.host.traffic nameserver.address bytes).arrivals
    ∃ rest, Leads nameserver query.id (begin nameserver query)
      ({ sent nameserver bytes with now := first.1, arrivals := rest }.settle first.2) := by
  by_cases htimeout : nameserver.timeout = 0
  . -- There is no time for even one wait.
    refine ⟨(sent nameserver bytes).arrivals, h.leads_of_resume ?_⟩
    rw [htimeout, firstAnswer_of_timeout_eq_zero, resume, if_pos (by omega)]
    exact .refl ..
  . have hresume : (sent nameserver bytes).resume nameserver.timeout
        =
      { sent nameserver bytes with stage := .receive nameserver.timeout } := by
      rw [resume, if_neg (by simpa [sent] using htimeout)]
      rfl
    have hwait :
        ({ sent nameserver bytes with stage := .receive nameserver.timeout } : Dialogue).stage
          =
        .receive nameserver.timeout := rfl
    rcases Dialogue.exists_leads_settle hwait query.id (Nat.zero_add _)
      (fun _ _ => Nat.zero_le _) horder with ⟨rest, hrest⟩
    refine ⟨rest, h.leads_of_resume ?_⟩
    rw [hresume]
    rwa [← settle_stage]

theorem exists_frame (h : nameserver.Sends query bytes) :
    ∃ frame, Frame.encode? bytes = some frame := by
  apply Frame.exists_encode_eq
  have htransmit := h.transmit
  unfold Host.transmit at htransmit
  split at htransmit
  . contradiction
  . next hlength => exact Nat.le_trans (Nat.le_of_not_lt hlength) (maxDatagram_le _)

theorem exchange_of_error (h : nameserver.Sends query bytes) {time : Nat} {error : Error}
    (hfirst : firstAnswer nameserver.address query.id nameserver.timeout
      (nameserver.host.traffic nameserver.address bytes).arrivals = (time, .error error)) :
    nameserver.exchange query
      =
    { time, result := .error error, samples := Sample.packetSent .unicast bytes.length } := by
  unfold Nameserver.exchange
  simp only [h.closed, h.encode, h.bind, h.transmit, hfirst, Bool.false_eq_true, if_false]

theorem exchange_of_truncated (h : nameserver.Sends query bytes) {time : Nat} {message : Message}
    (hfirst : nameserver.FirstAnswers query bytes time message)
    (htruncated : message.truncated = true) {frame : List UInt8}
    (hframe : Frame.encode? bytes = some frame) :
    let traffic := nameserver.host.traffic nameserver.address bytes
    let concluded := conclude nameserver.address (traffic.conversation frame)
    nameserver.exchange query
      =
    { time := time + traffic.conversationTime
      result := concluded.1
      samples := Sample.packetSent .unicast bytes.length ++ [Sample.tcpRetry] ++ concluded.2 } := by
  rw [h.exchange hfirst, if_pos htruncated]
  simp only [askByStream, hframe]

theorem exists_leads_ends (h : nameserver.Sends query bytes)
    (horder : (nameserver.host.traffic nameserver.address bytes).arrivals.Pairwise
      fun a b => a.time ≤ b.time) :
    let first := firstAnswer nameserver.address query.id nameserver.timeout
      (nameserver.host.traffic nameserver.address bytes).arrivals
    ∃ last, Leads nameserver query.id (begin nameserver query) last ∧
      last.Ends (nameserver.exchange query) ∧ last.frames = retries bytes first.2 := by
  intro first
  rcases h.exists_leads_settle horder with ⟨rest, hleads⟩
  rcases hfirst : first with ⟨time, error | message⟩
  . rw [show firstAnswer _ _ _ _ = _ from hfirst] at hleads
    rw [h.exchange_of_error hfirst]
    exact ⟨_, hleads, ⟨rfl, rfl, rfl⟩, rfl⟩
  . rw [show firstAnswer _ _ _ _ = _ from hfirst, settle] at hleads
    cases htruncated : message.truncated with
    | false =>
      rw [accept_of_not_truncated htruncated] at hleads
      rw [h.exchange hfirst, if_neg (by simp [htruncated]), retries, if_neg (by simp [htruncated])]
      exact ⟨_, hleads, ⟨rfl, rfl, rfl⟩, rfl⟩
    | true =>
      rcases h.exists_frame with ⟨frame, hframe⟩
      rw [accept_of_truncated htruncated hframe] at hleads
      rw [h.exchange_of_truncated hfirst htruncated hframe, retries, if_pos htruncated, hframe]
      exact ⟨_, hleads.step, ⟨rfl, rfl, rfl⟩, rfl⟩

theorem endsUp (h : nameserver.Sends query bytes)
    (horder : (nameserver.host.traffic nameserver.address bytes).arrivals.Pairwise
      fun a b => a.time ≤ b.time)
    {time : Nat} {result : Except Error Message}
    (hfirst : firstAnswer nameserver.address query.id nameserver.timeout
      (nameserver.host.traffic nameserver.address bytes).arrivals = (time, result)) :
    EndsUp nameserver query (nameserver.exchange query) (retries bytes result) := by
  rcases h.exists_leads_ends horder with ⟨last, hleads, hends, hframes⟩
  rw [hfirst] at hframes
  rw [← hframes]
  exact hleads.endsUp hends

end Sends

end Zeroconf.Nameserver
