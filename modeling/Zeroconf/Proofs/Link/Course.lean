import Zeroconf.Proofs.Link
import Zeroconf.Proofs.Machine

/-!
This module contains links at work. A call of a link consists of separate steps, between which other
calls go on, the time passes and the network changes. Whoever closes the link or stops its sending
does that in steps, too. A call that nobody interferes with is a call of the link.
-/

namespace Zeroconf.Link

inductive Request where
  | ask (query : Message) (sink : Sink)
  | announce (message : Message) (known : Bool)
  | close
  /-- The link is to send no more; nobody closes it. -/
  | halt

inductive Stage where
  | called
  /-- The link was open and the message has these bytes. -/
  | ready (bytes : List UInt8)
  /-- Whoever asks waits for responses. -/
  | waits (bytes : List UInt8)
  /-- The link was sending. -/
  | sends (bytes : List UInt8)
  /-- There is no way to the group, so that the link is to stop sending. -/
  | lost (error : Error)
  /-- The call has stopped the sending, and takes the socket away. -/
  | leaves (error : Error)
  | refused (error : Error)
  /-- The call has closed the link. -/
  | marked
  /-- The call has stopped the sending, and takes the socket away. -/
  | stops
  | stopped
  | ended (result : Except Error Unit)

structure Call where
  request : Request
  stage : Stage := .called

/--
A datagram that a call has handed to the socket, and the fault that it met.
-/
structure Handing where
  call : Nat
  bytes : List UInt8
  fault : Option Transport.Fault

structure Course where
  link : Link
  now : Nat := 0
  /-- Whether the socket is still there. -/
  socket : Bool := true
  /-- The calls in the order in which they were made; each one's number is its place. -/
  calls : List Call := []
  /-- Everything that the socket was handed, the latest datagram last. -/
  handed : List Handing := []
  /-- Those who wait, each behind the number of the call for which he does. -/
  waiting : List (Nat × Inbox.Pending Sink) := []

inductive Act where
  | call (request : Request)
  /-- The call with the given number goes on. -/
  | step (number : Nat)
  | pass (time : Nat)
  /-- The network is not as it was. -/
  | change (host : Transport.Host)
  | setTimeout (timeout : Nat)
  /-- Those whose time has passed are forgotten. -/
  | expire

def Request.message? : Request → Option Message
  | .ask query _ => some query
  | .announce message known => some (message.withKnown known)
  | _ => none

def Request.sink? : Request → Option Sink
  | .ask _ sink => some sink
  | _ => none

def Request.join (link : Link) (now : Nat) : Request → Link
  | .ask query sink => { link with inbox := link.inbox.addPending query.id sink now link.timeout }
  | _ => link

def Request.leave (link : Link) : Request → Link
  | .ask _ sink => { link with inbox := link.inbox.removePending sink }
  | _ => link

/--
How often a call goes on at most before it ends.
-/
@[simp]
def Stage.rest : Stage → Nat
  | .called => 7
  | .ready _ => 6
  | .waits _ => 5
  | .sends _ => 4
  | .lost _ | .marked => 3
  | .leaves _ | .stops => 2
  | .refused _ | .stopped => 1
  | .ended _ => 0

theorem Stage.rest_le (stage : Stage) : stage.rest ≤ 7 := by
  cases stage <;> simp

theorem Stage.rest_pos_or (stage : Stage) : 0 < stage.rest ∨ ∃ result, stage = .ended result := by
  cases stage with
  | ended result => exact .inr ⟨result, rfl⟩
  | _ => exact .inl (Nat.zero_lt_succ _)

def Act.steps (number : Nat) : Act → Bool
  | .step other => other == number
  | _ => false

namespace Course

def initial (link : Link) : Course := { link }

def goTo (number : Nat) (stage : Stage) (s : Course) : Course :=
  { s with calls := s.calls.modify number fun call => { call with stage } }

/--
Stop the sending. Only the first one who does that goes on to take the socket away.
-/
def silence (number : Nat) (first later : Stage) (s : Course) : Course :=
  if s.link.sending then
    { s with link := { s.link with sending := false } }.goTo number first
  else
    s.goTo number later

def takeSocket (s : Course) : Course := { s with socket := false }

def prepare (number : Nat) (message : Message) (s : Course) : Course :=
  match s.link.ensureOpen *> encode message with
  | .ok bytes => s.goTo number (.ready bytes)
  | .error error => s.goTo number (.ended (.error error))

def begin (number : Nat) (s : Course) : Request → Course
  | .ask query _ => s.prepare number query
  | .announce message known => s.prepare number (message.withKnown known)
  | .close =>
    if s.link.closed then s.goTo number (.ended (.ok ()))
    else { s with link := { s.link with closed := true } }.goTo number .marked
  | .halt => s.silence number .stops (.ended (.ok ()))

def join (number : Nat) (request : Request) (s : Course) : Course :=
  { s with
    link := request.join s.link s.now
    waiting :=
      match request with
      | .ask query sink => s.waiting ++ [(number, ⟨query.id, sink, s.now + s.link.timeout⟩)]
      | _ => s.waiting }

def leave (request : Request) (s : Course) : Course :=
  { s with
    link := request.leave s.link
    waiting :=
      match request with
      | .ask _ sink => s.waiting.filter (·.2.listener != sink)
      | _ => s.waiting }

def hand (number : Nat) (bytes : List UInt8) (s : Course) : Course :=
  let fault := s.link.host.transmit s.link.group bytes
  let handing : Handing := { call := number, bytes, fault }
  let handed := { s with handed := s.handed ++ [handing] }
  match fault with
  | none => handed.goTo number (.ended (.ok ()))
  | some fault =>
    let error := Error.send s.link.group fault.text
    handed.goTo number (if fault.isUnreachable then .lost error else .refused error)

def clear (s : Course) : Course :=
  { s with link := { s.link with inbox := s.link.inbox.close }, waiting := [] }

def step (number : Nat) (s : Course) : Course :=
  match s.calls[number]? with
  | none => s
  | some { request, stage } =>
    match stage with
    | .called => s.begin number request
    | .ready bytes => (s.join number request).goTo number (.waits bytes)
    | .waits bytes => s.goTo number (if s.link.sending then .sends bytes else .ended (.ok ()))
    | .sends bytes => if s.socket then s.hand number bytes else s.goTo number (.ended (.ok ()))
    | .lost error => s.silence number (.leaves error) (.refused error)
    | .leaves error => s.takeSocket.goTo number (.refused error)
    | .refused error => (s.leave request).goTo number (.ended (.error error))
    | .marked => s.silence number .stops .stopped
    | .stops =>
      s.takeSocket.goTo number (match request with | .close => .stopped | _ => .ended (.ok ()))
    | .stopped => s.clear.goTo number (.ended (.ok ()))
    | .ended _ => s

def next (s : Course) : Act → Course
  | .call request => { s with calls := s.calls ++ [⟨request, .called⟩] }
  | .step number => s.step number
  | .pass time => { s with now := s.now + time }
  | .change host => { s with link := { s.link with host } }
  | .setTimeout timeout => { s with link := { s.link with timeout } }
  | .expire =>
    { s with
      link := { s.link with inbox := s.link.inbox.expire s.now }
      waiting := s.waiting.filter (·.2.expires > s.now) }

end Course

/--
Everything can happen at any time.
-/
def machine : Machine Course Act where
  Enabled _ _ := True
  next := Course.next

/--
What a request comes to when nobody interferes.
-/
def perform (link : Link) (now : Nat) : Request → Except Error Unit × Link
  | .ask query sink =>
    let (link, reaction) := link.ask now query sink
    (reaction.verdict.map fun _ => (), link)
  | .announce message known =>
    let (link, announcement) := link.announce message known
    (announcement.verdict, link)
  | .close => (.ok (), link.close)
  | .halt => (.ok (), { link with sending := false })

namespace Course

theorem modify_calls (calls : List Call) (call : Call) (change : Call → Call) :
    (calls ++ [call]).modify calls.length change = calls ++ [change call] := by
  simp [List.modify_eq_take_cons_drop]

@[simp]
theorem sending_leave (request : Request) (link : Link) :
    (request.leave link).sending = link.sending := by
  cases request <;> rfl

theorem foldl_waits (s : Course) (hsocket : s.link.sending = true → s.socket = true)
    {calls : List Call} {request : Request} {bytes : List UInt8}
    (hcalls : s.calls = calls ++ [⟨request, .waits bytes⟩]) :
    let later := (List.replicate 5 (Act.step calls.length)).foldl next s
    let (verdict, link, _) := s.link.transmit bytes
    later.link = (if verdict.isOk then link else request.leave link) ∧
    later.calls = calls ++ [⟨request, .ended verdict⟩] ∧
    (later.link.sending = true → later.socket = true) := by
  rcases s with ⟨link, now, socket, _, handed, waiting⟩
  cases hcalls
  simp only [List.replicate, List.foldl, next]
  cases hsending : link.sending with
  | false =>
    simp [step, goTo, modify_calls, transmit, hsending, Except.isOk, Except.toBool]
  | true =>
    have hthere : socket = true := hsocket hsending
    cases hfault : link.host.transmit link.group bytes with
    | none =>
      simp [step, goTo, hand, modify_calls, transmit, hsending, hfault, hthere, Except.isOk,
        Except.toBool]
    | some fault =>
      cases hlost : fault.isUnreachable with
      | true =>
        simp [step, goTo, hand, silence, takeSocket, leave, modify_calls, transmit, hsending,
          hfault, hlost, hthere, Except.isOk, Except.toBool]
      | false =>
        simp [step, goTo, hand, leave, modify_calls, transmit, hsending, hfault, hlost, hthere,
          Except.isOk, Except.toBool]

section Message

variable {request : Request} {message : Message} (hmessage : request.message? = some message)

include hmessage

theorem begin_eq_prepare (s : Course) (number : Nat) :
    s.begin number request = s.prepare number message := by
  cases request <;> cases hmessage <;> rfl

theorem step_called (s : Course) :
    ({ s with calls := s.calls ++ [⟨request, .called⟩] } : Course).step s.calls.length
      =
    match s.link.ensureOpen *> encode message with
    | .ok bytes => { s with calls := s.calls ++ [⟨request, .ready bytes⟩] }
    | .error error => { s with calls := s.calls ++ [⟨request, .ended (.error error)⟩] } := by
  simp only [step, List.getElem?_concat_length, begin_eq_prepare hmessage, prepare]
  split <;> simp [goTo, modify_calls]

theorem perform_of_ready (link : Link) (now : Nat) {bytes : List UInt8}
    (hready : link.ensureOpen *> encode message = .ok bytes) :
    let (verdict, sent, _) := (request.join link now).transmit bytes
    perform link now request = (verdict, if verdict.isOk then sent else request.leave sent) := by
  rcases hsent : (request.join link now).transmit bytes with ⟨verdict, sent, samples⟩
  cases request with
  | ask query sink =>
    cases hmessage
    simp only [Request.join] at hsent
    simp only [perform, ask, hready, hsent]
    cases verdict with
    | ok => rfl
    | error error => rfl
  | announce message known =>
    cases hmessage
    simp only [Request.join] at hsent
    simp only [Message.withKnown] at hready
    simp only [perform, announce, hready, hsent]
    cases verdict with
    | ok => rfl
    | error error => rfl
  | close => contradiction
  | halt => contradiction

theorem perform_of_not_ready (link : Link) (now : Nat) {error : Error}
    (hready : link.ensureOpen *> encode message = .error error) :
    perform link now request = (.error error, link) := by
  cases request with
  | ask query sink =>
    cases hmessage
    simp only [perform, ask, hready]
    rfl
  | announce message known =>
    cases hmessage
    simp only [Message.withKnown] at hready
    simp only [perform, announce, hready]
  | close => contradiction
  | halt => contradiction

end Message

theorem follow_call (s : Course) (request : Request) :
    machine.follow s (.call request :: List.replicate 7 (.step s.calls.length))
      =
    (List.replicate 6 (Act.step s.calls.length)).foldl next
      ((s.next (.call request)).step s.calls.length) := by
  rfl

theorem follow_ready (s : Course) {request : Request} {message : Message} {bytes : List UInt8}
    (hmessage : request.message? = some message)
    (hready : s.link.ensureOpen *> encode message = .ok bytes) :
    machine.follow s (.call request :: List.replicate 7 (.step s.calls.length))
      =
    (List.replicate 6 (Act.step s.calls.length)).foldl next
      { s with calls := s.calls ++ [⟨request, .ready bytes⟩] } := by
  rw [follow_call, next, step_called hmessage, hready]

/--
A call that nobody interferes with is a call of the link.
-/
theorem follow_alone (s : Course) (hsocket : s.link.sending = true → s.socket = true)
    (request : Request) :
    let later := machine.follow s (.call request :: List.replicate 7 (.step s.calls.length))
    later.link = (perform s.link s.now request).2 ∧
    later.calls = s.calls ++ [⟨request, .ended (perform s.link s.now request).1⟩] ∧
    (later.link.sending = true → later.socket = true) := by
  dsimp only
  rw [follow_call]
  cases hmessage : request.message? with
  | some message =>
    rw [next, step_called hmessage]
    cases hready : s.link.ensureOpen *> encode message with
    | error error =>
      rw [perform_of_not_ready hmessage s.link s.now hready]
      simpa [List.replicate, next, step] using hsocket
    | ok bytes =>
      -- One step to begin to wait; what follows is the same for those who ask and who announce.
      have hjoin : ({ s with calls := s.calls ++ [⟨request, .ready bytes⟩] } : Course).step
          s.calls.length
          = { s.join s.calls.length request with
              calls := s.calls ++ [⟨request, .waits bytes⟩] } := by
        simp [step, join, goTo, modify_calls]
      have hsending : (request.join s.link s.now).sending = s.link.sending := by
        cases request <;> rfl
      have hperform := perform_of_ready hmessage s.link s.now hready
      have hsent := foldl_waits
        { s.join s.calls.length request with calls := s.calls ++ [⟨request, .waits bytes⟩] }
        (hsending ▸ hsocket) rfl
      dsimp only at hsent hperform ⊢
      rw [List.replicate_succ, List.foldl_cons, next, hjoin, hperform]
      exact hsent
  | none =>
    rcases s with ⟨link, now, socket, calls, handed, waiting⟩
    cases request with
    | ask query sink => contradiction
    | announce message known => contradiction
    | halt =>
      cases hsending : link.sending with
      | true =>
        simp [List.replicate, next, step, begin, silence, goTo, takeSocket, perform, modify_calls,
          hsending]
      | false =>
        have hsame : { link with sending := false } = link := by rw [← hsending]
        simp [List.replicate, next, step, begin, silence, goTo, perform, modify_calls, hsending,
          hsame]
    | close =>
      cases hclosed : link.closed with
      | true =>
        simpa [List.replicate, next, step, begin, goTo, perform, close, modify_calls, hclosed]
          using hsocket
      | false =>
        cases hsending : link.sending with
        | true =>
          simp [List.replicate, next, step, begin, silence, goTo, takeSocket, clear, perform,
            close, modify_calls, hsending, hclosed]
        | false =>
          simp [List.replicate, next, step, begin, silence, goTo, clear, perform, close,
            modify_calls, hsending, hclosed]

section Ending

variable {s : Course} {number : Nat} {request : Request} {stage : Stage}

theorem getElem?_goTo_self (hcall : s.calls[number]? = some ⟨request, stage⟩) (next : Stage) :
    (s.goTo number next).calls[number]? = some ⟨request, next⟩ := by
  simp [goTo, hcall]

theorem getElem?_goTo_of_ne {other : Nat} (hne : other ≠ number) (s : Course) (next : Stage) :
    (s.goTo number next).calls[other]? = s.calls[other]? := by
  simp [goTo, hne.symm]

theorem exists_getElem?_goTo {other : Nat} {call : Call} (hcall : s.calls[other]? = some call)
    (number : Nat) (next : Stage) :
    ∃ moved, (s.goTo number next).calls[other]? = some moved ∧ moved.request = call.request := by
  by_cases hne : other = number
  . subst hne
    exact ⟨_, getElem?_goTo_self hcall next, rfl⟩
  . exact ⟨call, (getElem?_goTo_of_ne hne s next).trans hcall, rfl⟩

theorem getElem?_concat_of_eq_some {calls : List Call} {call : Call}
    (hcall : calls[number]? = some call) (other : Call) :
    (calls ++ [other])[number]? = some call := by
  rw [List.getElem?_append_left (List.getElem?_eq_some_iff.mp hcall).1, hcall]

theorem step_of_ended {result : Except Error Unit}
    (hcall : s.calls[number]? = some ⟨request, .ended result⟩) : s.step number = s := by
  simp [step, hcall]

theorem step_calls (hcall : s.calls[number]? = some ⟨request, stage⟩) (hrest : 0 < stage.rest) :
    ∃ next, (s.step number).calls = (s.goTo number next).calls ∧ next.rest < stage.rest := by
  unfold step
  rw [hcall]
  cases stage with
  | called =>
    cases hmessage : request.message? with
    | some message =>
      simp only [begin_eq_prepare hmessage, prepare]
      split <;> exact ⟨_, rfl, by simp⟩
    | none =>
      cases request with
      | ask query sink => contradiction
      | announce message known => contradiction
      | close =>
        simp only [begin]
        split <;> exact ⟨_, rfl, by simp⟩
      | halt =>
        simp only [begin, silence]
        split <;> exact ⟨_, rfl, by simp⟩
  | ready bytes => exact ⟨_, rfl, by simp⟩
  | waits bytes => exact ⟨_, rfl, by split <;> simp⟩
  | sends bytes =>
    dsimp only
    split
    . unfold hand
      dsimp only
      split
      . exact ⟨_, rfl, by simp⟩
      . exact ⟨_, rfl, by split <;> simp⟩
    . exact ⟨_, rfl, by simp⟩
  | lost error =>
    simp only [silence]
    split <;> exact ⟨_, rfl, by simp⟩
  | leaves error => exact ⟨_, rfl, by simp⟩
  | refused error => exact ⟨_, rfl, by simp⟩
  | marked =>
    simp only [silence]
    split <;> exact ⟨_, rfl, by simp⟩
  | stops => exact ⟨_, rfl, by split <;> simp⟩
  | stopped => exact ⟨_, rfl, by simp⟩
  | ended result => contradiction

theorem getElem?_step_of_ne {other : Nat} (hne : other ≠ number) (s : Course) :
    (s.step number).calls[other]? = s.calls[other]? := by
  cases hcall : s.calls[number]? with
  | none => simp [step, hcall]
  | some call =>
    rcases call with ⟨request, stage⟩
    rcases stage.rest_pos_or with hrest | ⟨result, rfl⟩
    . rcases step_calls hcall hrest with ⟨next, hcalls, _⟩
      rw [hcalls, getElem?_goTo_of_ne hne]
    . rw [step_of_ended hcall]

theorem getElem?_next {call : Call} (hcall : s.calls[number]? = some call) {act : Act}
    (hother : act.steps number = false) : (s.next act).calls[number]? = some call := by
  cases act with
  | call request => exact getElem?_concat_of_eq_some hcall _
  | step other =>
    have hne : other ≠ number := by simpa [Act.steps] using hother
    exact (getElem?_step_of_ne hne.symm s).trans hcall
  | _ => exact hcall

theorem getElem?_next_of_ended {result : Except Error Unit}
    (hcall : s.calls[number]? = some ⟨request, .ended result⟩) (act : Act) :
    (s.next act).calls[number]? = some ⟨request, .ended result⟩ := by
  cases hother : act.steps number with
  | false => exact getElem?_next hcall hother
  | true =>
    cases act with
    | step other =>
      have heq : other = number := by simpa [Act.steps] using hother
      subst heq
      exact (congrArg (·.calls[other]?) (step_of_ended hcall)).trans hcall
    | _ => contradiction

theorem getElem?_follow_of_ended {result : Except Error Unit}
    (hcall : s.calls[number]? = some ⟨request, .ended result⟩) (acts : List Act) :
    (machine.follow s acts).calls[number]? = some ⟨request, .ended result⟩ :=
  Machine.keeps (P := fun later : Course => later.calls[number]? = some ⟨request, .ended result⟩)
    (fun _ act h _ => getElem?_next_of_ended h act) hcall
    (Machine.admits_of_forall (fun _ _ _ => trivial) _)

theorem exists_ended (hcall : s.calls[number]? = some ⟨request, stage⟩) (acts : List Act)
    (hacts : stage.rest ≤ acts.countP (·.steps number)) :
    ∃ result, (machine.follow s acts).calls[number]? = some ⟨request, .ended result⟩ := by
  induction acts generalizing s stage with
  | nil =>
    cases stage with
    | ended result => exact ⟨result, hcall⟩
    | _ => contradiction
  | cons act acts ih =>
    cases hother : act.steps number with
    | false =>
      rw [List.countP_cons_of_neg (by simp [hother])] at hacts
      exact ih (getElem?_next hcall hother) hacts
    | true =>
      rw [List.countP_cons_of_pos hother] at hacts
      cases act with
      | step other =>
        have heq : other = number := by simpa [Act.steps] using hother
        subst heq
        rcases stage.rest_pos_or with hrest | ⟨result, rfl⟩
        . rcases step_calls hcall hrest with ⟨next, hcalls, hlt⟩
          have hnext : (s.step other).calls[other]? = some ⟨request, next⟩ := by
            rw [hcalls, getElem?_goTo_self hcall]
          exact ih hnext (Nat.le_of_lt_succ (Nat.lt_of_lt_of_le hlt hacts))
        . exact ⟨result, getElem?_follow_of_ended hcall (_ :: acts)⟩
      | _ => contradiction

end Ending

end Course

end Zeroconf.Link
