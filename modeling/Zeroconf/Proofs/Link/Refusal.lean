import Zeroconf.Proofs.Link.Sending

/-!
This module contains what a request that a link refuses does to those who wait. It takes away
everything for which the same listener waits, for other requests as well; whoever else waits is left
alone.
-/

namespace Zeroconf.Link

/--
Whether a link that is asked comes as far as the sending.
-/
def sends (link : Link) (query : Message) : Bool := !link.closed && query.encode.isOk

theorem sends_eq_true_iff {link : Link} {query : Message} :
    link.sends query = true ↔ ∃ bytes, link.ensureOpen *> encode query = .ok bytes := by
  simp only [ensureOpen_encode_eq_ok_iff, exists_and_left, sends, Bool.and_eq_true,
    Bool.not_eq_true']
  cases query.encode with
  | ok bytes => simp [Except.isOk, Except.toBool]
  | error fault => simp [Except.isOk, Except.toBool]

theorem pending_of_refused {link : Link} {now : Nat} {query : Message} {sink : Sink}
    {error : Error} (hrefused : (link.ask now query sink).2.verdict = .error error) :
    (link.ask now query sink).1.inbox.pending
      =
    link.inbox.pending.filter fun entry => !(link.sends query && entry.listener == sink) := by
  cases hready : link.ensureOpen *> encode query with
  | error reason =>
    have hsends : link.sends query = false := by
      rw [← Bool.not_eq_true, sends_eq_true_iff]
      rintro ⟨bytes, hbytes⟩
      rw [hready] at hbytes
      contradiction
    simp [ask, hready, hsends]
  | ok bytes =>
    have hsends : link.sends query = true := sends_eq_true_iff.mpr ⟨bytes, hready⟩
    let waiting : Link :=
      { link with inbox := link.inbox.addPending query.id sink now link.timeout }
    have hinbox := (waiting.transmit_kept bytes).2
    rcases hsent : waiting.transmit bytes with ⟨verdict, later, samples⟩
    rw [hsent] at hinbox
    simp only [ask, hready] at hrefused ⊢
    rw [hsent] at hrefused ⊢
    cases verdict with
    | ok => contradiction
    | error error =>
      dsimp only at hinbox
      simp [hinbox, waiting, hsends, Inbox.removePending, Inbox.addPending, bne]

section Transmit

variable {link : Link} {query : Message} {bytes : List UInt8}
  (hready : link.ensureOpen *> encode query = .ok bytes) (hsending : link.sending = true)

include hready hsending

theorem ask_of_transmit_none (hsent : link.host.transmit link.group bytes = none) (now : Nat)
    (sink : Sink) :
    (link.ask now query sink).1
        = { link with inbox := link.inbox.addPending query.id sink now link.timeout } ∧
      (link.ask now query sink).2.verdict = .ok query.id := by
  simp [ask, hready, transmit, hsending, hsent]

theorem verdict_ask_of_transmit_some {fault : Transport.Fault}
    (hfault : link.host.transmit link.group bytes = some fault) (now : Nat) (sink : Sink) :
    (link.ask now query sink).2.verdict = .error (.send link.group fault.text) := by
  cases hlost : fault.isUnreachable <;>
    simp [ask, hready, transmit, hsending, hfault, hlost]

end Transmit

namespace Course

/--
Whether an act ends the waiting for an entry: its time has passed, the link is closed, or a request
of the same listener is refused, which need not be the one for which he waits.
-/
def Ends (s : Course) (entry : Inbox.Pending Sink) : Act → Prop
  | .expire => entry.expires ≤ s.now
  | .step number => ∃ request stage, s.calls[number]? = some ⟨request, stage⟩ ∧
      (stage = .stopped ∨
        ∃ error, stage = .refused error ∧ request.sink? = some entry.listener)
  | _ => False

variable {s : Course} {number : Nat} {entry : Inbox.Pending Sink}

@[simp]
theorem waiting_goTo (s : Course) (number : Nat) (stage : Stage) :
    (s.goTo number stage).waiting = s.waiting := by
  rfl

@[simp]
theorem waiting_silence (s : Course) (number : Nat) (first later : Stage) :
    (s.silence number first later).waiting = s.waiting := by
  unfold silence
  split <;> rfl

@[simp]
theorem waiting_begin (s : Course) (number : Nat) (request : Request) :
    (s.begin number request).waiting = s.waiting := by
  cases request with
  | ask query sink =>
    simp only [begin, prepare]
    split <;> rfl
  | announce message known =>
    simp only [begin, prepare]
    split <;> rfl
  | close =>
    simp only [begin]
    split <;> rfl
  | halt => simp [begin]

@[simp]
theorem waiting_hand (s : Course) (number : Nat) (bytes : List UInt8) :
    (s.hand number bytes).waiting = s.waiting := by
  simp only [hand]
  split <;> rfl

theorem mem_waiting_join (h : (number, entry) ∈ s.waiting) (other : Nat) (request : Request) :
    (number, entry) ∈ (s.join other request).waiting := by
  cases request with
  | ask query sink => exact List.mem_append_left _ h
  | _ => exact h

theorem mem_waiting_leave (h : (number, entry) ∈ s.waiting) (request : Request) :
    (number, entry) ∈ (s.leave request).waiting ↔ request.sink? ≠ some entry.listener := by
  cases request with
  | ask query sink =>
    rw [Request.sink?, ne_eq, Option.some.injEq, eq_comm]
    simp [leave, h]
  | _ => simpa [leave, Request.sink?] using h

theorem mem_waiting_next (h : (number, entry) ∈ s.waiting) (act : Act) :
    (number, entry) ∈ (s.next act).waiting ↔ ¬ s.Ends entry act := by
  cases act with
  | expire => simp [next, Ends, h]
  | step other =>
    simp only [next, Ends, step]
    cases hcall : s.calls[other]? with
    | none => simpa using h
    | some call =>
      rcases call with ⟨request, stage⟩
      cases stage with
      | ready bytes => simpa using mem_waiting_join h other request
      | refused error => simpa using mem_waiting_leave h request
      | stopped => simp [clear]
      | waits bytes => simpa using h
      | sends bytes =>
        dsimp only
        split <;> simpa using h
      | _ => simpa [takeSocket] using h
  | _ => simpa [next, Ends] using h

theorem mem_waiting_of_next {act : Act} (h : (number, entry) ∈ (s.next act).waiting) :
    (number, entry) ∈ s.waiting ∨
      ∃ request bytes, act = .step number ∧ s.calls[number]? = some ⟨request, .ready bytes⟩ := by
  cases act with
  | expire => exact .inl (List.mem_of_mem_filter h)
  | step other =>
    simp only [next, step] at h
    cases hcall : s.calls[other]? with
    | none =>
      rw [hcall] at h
      exact .inl h
    | some call =>
      rcases call with ⟨request, stage⟩
      rw [hcall] at h
      cases stage with
      | ready bytes =>
        rw [waiting_goTo] at h
        cases request with
        | ask query sink =>
          rcases List.mem_append.mp h with h | h
          . exact .inl h
          . right
            cases List.mem_singleton.mp h
            exact ⟨_, bytes, rfl, hcall⟩
        | _ => exact .inl h
      | refused error =>
        rw [waiting_goTo] at h
        cases request with
        | ask query sink => exact .inl (List.mem_of_mem_filter h)
        | _ => exact .inl h
      | stopped => simp [clear] at h
      | waits bytes => exact .inl (by simpa using h)
      | sends bytes =>
        left
        dsimp only at h
        split at h <;> simpa using h
      | _ => exact .inl (by simpa [takeSocket] using h)
  | _ => exact .inl h

/--
Whether a call has come further than to the point at which somebody begins to wait for it.
-/
def Past (s : Course) (number : Nat) : Prop :=
  ∃ request stage, s.calls[number]? = some ⟨request, stage⟩ ∧ stage.rest ≤ 5

theorem Past.next (h : s.Past number) (act : Act) : (s.next act).Past number := by
  rcases h with ⟨request, stage, hcall, hrest⟩
  cases hother : act.steps number with
  | false => exact ⟨request, stage, getElem?_next hcall hother, hrest⟩
  | true =>
    cases act with
    | step other =>
      have heq : other = number := by simpa [Act.steps] using hother
      subst heq
      rcases stage.rest_pos_or with hpos | ⟨result, rfl⟩
      . rcases step_calls hcall hpos with ⟨later, hcalls, hlt⟩
        refine ⟨request, later, ?_, Nat.le_trans (Nat.le_of_lt hlt) hrest⟩
        exact (congrArg (·[other]?) hcalls).trans (getElem?_goTo_self hcall later)
      . exact ⟨request, _, getElem?_next_of_ended hcall (.step other), hrest⟩
    | _ => contradiction

theorem past_of_mem_waiting {link : Link} {acts : List Act}
    (h : (number, entry) ∈ (machine.follow (initial link) acts).waiting) :
    (machine.follow (initial link) acts).Past number := by
  induction acts using List.reverseRecOn with
  | nil => contradiction
  | append_singleton acts act ih =>
    rw [Machine.follow_concat] at h ⊢
    rcases mem_waiting_of_next h with hbefore | ⟨request, bytes, rfl, hcall⟩
    . exact (ih hbefore).next act
    . rcases step_calls hcall (by simp) with ⟨later, hcalls, hlt⟩
      refine ⟨request, later, ?_, Nat.le_of_lt_succ hlt⟩
      exact (congrArg (·[number]?) hcalls).trans (getElem?_goTo_self hcall later)

theorem not_mem_waiting_next (hpast : s.Past number) (h : (number, entry) ∉ s.waiting)
    (act : Act) : (number, entry) ∉ (s.next act).waiting := by
  intro hmem
  rcases mem_waiting_of_next hmem with hbefore | ⟨request, bytes, rfl, hcall⟩
  . exact h hbefore
  . rcases hpast with ⟨other, stage, hother, hrest⟩
    rw [hcall, Option.some.injEq, Call.mk.injEq] at hother
    rw [← hother.2] at hrest
    simp at hrest

theorem not_mem_waiting_follow (hpast : s.Past number) (h : (number, entry) ∉ s.waiting)
    (acts : List Act) : (number, entry) ∉ (machine.follow s acts).waiting := by
  induction acts generalizing s with
  | nil => exact h
  | cons act acts ih => exact ih (hpast.next act) (not_mem_waiting_next hpast h act)

def Spares (entry : Inbox.Pending Sink) (s : Course) (acts : List Act) : Prop :=
  ∀ front act behind, acts = front ++ act :: behind → ¬ (machine.follow s front).Ends entry act

theorem spares_cons_iff {act : Act} {acts : List Act} :
    Spares entry s (act :: acts) ↔ ¬ s.Ends entry act ∧ Spares entry (s.next act) acts := by
  constructor
  . intro h
    exact ⟨h [] act acts rfl, fun front other behind heq =>
      h (act :: front) other behind (congrArg (act :: ·) heq)⟩
  . rintro ⟨hfirst, hothers⟩ front other behind heq
    cases front with
    | nil =>
      cases heq
      exact hfirst
    | cons first front =>
      rw [List.cons_append, List.cons.injEq] at heq
      rcases heq with ⟨rfl, heq⟩
      exact hothers front other behind heq

theorem mem_waiting_follow (hpast : s.Past number) (h : (number, entry) ∈ s.waiting)
    (acts : List Act) :
    (number, entry) ∈ (machine.follow s acts).waiting ↔ Spares entry s acts := by
  induction acts generalizing s with
  | nil => exact iff_of_true h (by simp [Spares])
  | cons act acts ih =>
    rw [spares_cons_iff]
    by_cases hends : s.Ends entry act
    . have hgone : (number, entry) ∉ (s.next act).waiting := by
        simpa [mem_waiting_next h] using hends
      exact iff_of_false (not_mem_waiting_follow (hpast.next act) hgone acts) (by simp [hends])
    . rw [and_iff_right hends]
      exact ih (hpast.next act) ((mem_waiting_next h act).mpr hends)

end Course

/--
A request that is refused leaves those who wait as they were exactly if the link has not come to the
sending or the same listener does not wait for anything else. Whoever waits while calls go on at a
link does so until his time has passed, the link is closed, or a request of his is refused.
-/
theorem pending_of_refused_eq_iff (link : Link) (now : Nat) (query : Message) (sink : Sink)
    {error : Error} (hrefused : (link.ask now query sink).2.verdict = .error error) :
    let later := (link.ask now query sink).1.inbox.pending
    (later = link.inbox.pending
      ↔
    link.sends query = false ∨ ∀ entry ∈ link.inbox.pending, entry.listener ≠ sink) ∧
    (∀ entry, entry ∈ later ↔ entry ∈ link.inbox.pending ∧
      ¬ (link.sends query = true ∧ entry.listener = sink)) ∧
    ∀ fresh : Link, fresh.sending = true → fresh.inbox.pending = [] → ∀ acts : List Act,
      let s := machine.follow (.initial fresh) acts
      s.waiting.map (·.2) = s.link.inbox.pending ∧
      ∀ behind, ∀ waiting ∈ s.waiting,
        (waiting ∈ (machine.follow s behind).waiting ↔ Course.Spares waiting.2 s behind) := by
  dsimp only
  rw [pending_of_refused hrefused]
  refine ⟨?_, ?_, ?_⟩
  . rw [List.filter_eq_self]
    cases link.sends query <;> simp
  . intro entry
    cases link.sends query <;> simp
  . intro fresh hsending hpending acts
    refine ⟨(Course.valid_follow hsending hpending acts).pending, ?_⟩
    intro behind waiting hmem
    exact Course.mem_waiting_follow (Course.past_of_mem_waiting hmem) hmem behind

/--
The host of this link sends no message of more than 19 bytes.
-/
def narrow : Link where
  interface := .v4 ⟨10, 0, 0, 2⟩
  group := .v4 groupV4 5353
  timeout := 6000
  host := { send := fun _ bytes => if bytes.length > 19 then some .messageTooLong else none }

def short : Message := .query 7 ⟨[[0x68]], true⟩ .a

def long : Message := .query 8 ⟨[[0x68, 0x68]], true⟩ .a

theorem ready_short :
    narrow.ensureOpen *> encode short
      =
    .ok [0, 7, 1, 0, 0, 1, 0, 0, 0, 0, 0, 0, 1, 0x68, 0, 0, 1, 0, 1] :=
  ensureOpen_encode_eq_ok_iff.mpr ⟨rfl, by decide +kernel⟩

theorem ready_long :
    narrow.ensureOpen *> encode long
      =
    .ok [0, 8, 1, 0, 0, 1, 0, 0, 0, 0, 0, 0, 2, 0x68, 0x68, 0, 0, 1, 0, 1] :=
  ensureOpen_encode_eq_ok_iff.mpr ⟨rfl, by decide +kernel⟩

theorem pending_of_refused_eq_iff_other :
    let link := { narrow with inbox := { pending := [⟨7, .inquiry 0, 6000⟩] } }
    (link.ask 1 long (.inquiry 1)).2.verdict
      = .error (.send link.group Transport.Fault.messageTooLong.text) ∧
    (link.ask 1 long (.inquiry 1)).1.inbox.pending = [⟨7, .inquiry 0, 6000⟩] := by
  intro link
  have hrefused : (link.ask 1 long (.inquiry 1)).2.verdict
      = .error (.send link.group Transport.Fault.messageTooLong.text) :=
    verdict_ask_of_transmit_some ready_long rfl rfl 1 (.inquiry 1)
  refine ⟨hrefused, ?_⟩
  apply (pending_of_refused_eq_iff link 1 long (.inquiry 1) hrefused).1.mpr
  simp [link]

theorem receive_of_nobody {link : Link} (hpending : link.inbox.pending = [])
    (hobservers : link.inbox.observers.members = []) (payload : List UInt8)
    (reception : Reception) : (link.receive payload reception).2.2 = reception := by
  unfold receive Inbox.deliver Inbox.receive
  cases Inbox.response? payload with
  | none => rfl
  | some response =>
    simp [Inbox.route, Inbox.expire, hpending, hobservers, Fanout.dispatch, Fanout.callAll]

/--
Who has asked twice and was refused the second time hears of no response any more, although he was
to hear of those to his first question.
-/
theorem refused_forgotten :
    let sink := Sink.observer ⟨"a", .ok⟩
    let asked := { narrow with inbox := { pending := [⟨7, sink, 6000⟩] } }
    let response : List UInt8 := [0, 7, 0x80, 0, 0, 0, 0, 0, 0, 0, 0, 0]
    (narrow.ask 0 short sink).1 = asked ∧ (narrow.ask 0 short sink).2.verdict = .ok 7 ∧
    (asked.receive response {}).2.2.heard
      = [("a", ⟨7, .message { id := 7, isResponse := true }⟩)] ∧
    (asked.ask 1 long sink).2.verdict
      = .error (.send narrow.group Transport.Fault.messageTooLong.text) ∧
    (asked.ask 1 long sink).1.inbox.pending = [] ∧
    ∀ reception, ((asked.ask 1 long sink).1.receive response reception).2.2 = reception := by
  intro sink asked response
  have hasked := ask_of_transmit_none ready_short rfl rfl 0 sink
  have hrefused : (asked.ask 1 long sink).2.verdict
      = .error (.send narrow.group Transport.Fault.messageTooLong.text) :=
    verdict_ask_of_transmit_some ready_long rfl rfl 1 sink
  have hpending : (asked.ask 1 long sink).1.inbox.pending = [] := by
    have hsends : asked.sends long = true := sends_eq_true_iff.mpr ⟨_, ready_long⟩
    rw [pending_of_refused hrefused]
    simp [asked, hsends]
  refine ⟨hasked.1, hasked.2, by decide +kernel, hrefused, hpending, ?_⟩
  exact receive_of_nobody hpending (by rw [(ask_asked asked 1 long sink).kept.observers])
    response

end Zeroconf.Link
