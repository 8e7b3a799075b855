import Mathlib.Data.List.Permutation
import Zeroconf.Nameserver.Exchange
import Zeroconf.Proofs.Address
import Zeroconf.Proofs.Transport.Frame

/-!
This module contains what is known of a message with which a nameserver answers a query. Datagrams
are told apart by the number of the query; what comes over a stream is taken for the answer without
a look at it, and nothing tells a response from a query.
-/

namespace Zeroconf.Nameserver

open Transport

section Datagrams

variable {server : SocketAddress} {id : UInt16} {timeout time : Nat} {message : Message}

/--
Whether an arrival is passed over by whoever awaits the answer with the number `id`: a datagram in
time that is not from the server, or not a message with this number.
-/
def Passes (server : SocketAddress) (id : UInt16) (timeout : Nat) (arrival : Arrival) : Prop :=
  arrival.time < timeout ∧ ∃ source payload, arrival.content = .ok (source, payload) ∧
    (source = server → ∀ message, Message.decode payload = .ok message → message.id ≠ id)

def Answers (server : SocketAddress) (id : UInt16) (timeout : Nat) (arrival : Arrival)
    (message : Message) : Prop :=
  arrival.time < timeout ∧ message.id = id ∧ ∃ payload,
    arrival.content = .ok (server, payload) ∧ Message.decode payload = .ok message

theorem firstAnswer_cons_of_passes {arrival : Arrival} (h : Passes server id timeout arrival)
    (arrivals : List Arrival) :
    firstAnswer server id timeout (arrival :: arrivals)
      =
    firstAnswer server id timeout arrivals := by
  rcases h with ⟨htime, source, payload, hcontent, hother⟩
  rw [firstAnswer, if_pos htime, hcontent]
  dsimp only
  split
  . next hsource =>
    split
    . next message hdecode => rw [if_neg (by simp [hother (eq_of_beq hsource) message hdecode])]
    . rfl
  . rfl

theorem firstAnswer_cons_of_answers {arrival : Arrival}
    (h : Answers server id timeout arrival message) (arrivals : List Arrival) :
    firstAnswer server id timeout (arrival :: arrivals) = (arrival.time, .ok message) := by
  rcases h with ⟨htime, hid, payload, hcontent, hdecode⟩
  rw [firstAnswer, if_pos htime, hcontent]
  simp [hdecode, hid]

theorem passes_or_answers (server : SocketAddress) (id : UInt16) (timeout : Nat)
    (arrival : Arrival) (arrivals : List Arrival) :
    Passes server id timeout arrival ∨ (∃ message, Answers server id timeout arrival message) ∨
      ∃ time error, firstAnswer server id timeout (arrival :: arrivals) = (time, .error error) := by
  by_cases htime : arrival.time < timeout
  . cases hcontent : arrival.content with
    | error fault =>
      refine .inr (.inr ⟨arrival.time, fault.awaiting, ?_⟩)
      rw [firstAnswer, if_pos htime, hcontent]
    | ok datagram =>
      by_cases hanswer : datagram.1 = server ∧
          ∃ message, Message.decode datagram.2 = .ok message ∧ message.id = id
      . rcases hanswer with ⟨rfl, message, hdecode, hid⟩
        exact .inr (.inl ⟨message, htime, hid, datagram.2, hcontent, hdecode⟩)
      . refine .inl ⟨htime, datagram.1, datagram.2, hcontent, ?_⟩
        intro hsource message hdecode hid
        exact hanswer ⟨hsource, message, hdecode, hid⟩
  . refine .inr (.inr ⟨timeout, .timeout, ?_⟩)
    rw [firstAnswer, if_neg htime]

theorem firstAnswer_eq_ok_iff {arrivals : List Arrival} :
    firstAnswer server id timeout arrivals = (time, .ok message)
      ↔
    ∃ front arrival behind, arrivals = front ++ arrival :: behind ∧
      (∀ other ∈ front, Passes server id timeout other) ∧
      Answers server id timeout arrival message ∧ arrival.time = time := by
  constructor
  . intro h
    induction arrivals with
    | nil => simp [firstAnswer] at h
    | cons arrival arrivals ih =>
      rcases passes_or_answers server id timeout arrival arrivals with
        hpasses | ⟨other, hanswers⟩ | ⟨later, error, hfailure⟩
      . rw [firstAnswer_cons_of_passes hpasses] at h
        rcases ih h with ⟨front, answer, behind, rfl, hfront, hanswer⟩
        refine ⟨arrival :: front, answer, behind, rfl, ?_, hanswer⟩
        rw [List.forall_mem_cons]
        exact ⟨hpasses, hfront⟩
      . rw [firstAnswer_cons_of_answers hanswers] at h
        simp only [Prod.mk.injEq, Except.ok.injEq] at h
        rcases h with ⟨htime, rfl⟩
        exact ⟨[], arrival, arrivals, rfl, by simp, hanswers, htime⟩
      . rw [hfailure] at h
        simp at h
  . rintro ⟨front, arrival, behind, rfl, hfront, hanswers, rfl⟩
    induction front with
    | nil => exact firstAnswer_cons_of_answers hanswers behind
    | cons other front ih =>
      rw [List.forall_mem_cons] at hfront
      rw [List.cons_append, firstAnswer_cons_of_passes hfront.1]
      exact ih hfront.2

end Datagrams

section Exchange

variable {nameserver : Nameserver} {query message first : Message} {bytes : List UInt8} {time : Nat}

structure Sends (nameserver : Nameserver) (query : Message) (bytes : List UInt8) : Prop where
  closed : nameserver.closed = false
  encode : query.encode = .ok bytes
  bind : nameserver.host.bind (localAddress nameserver.address) = none
  transmit : nameserver.host.transmit nameserver.address bytes = none

def FirstAnswers (nameserver : Nameserver) (query : Message) (bytes : List UInt8) (time : Nat)
    (first : Message) : Prop :=
  firstAnswer nameserver.address query.id nameserver.timeout
    (nameserver.host.traffic nameserver.address bytes).arrivals = (time, .ok first)

theorem Sends.exchange (h : nameserver.Sends query bytes)
    (hfirst : nameserver.FirstAnswers query bytes time first) :
    nameserver.exchange query
      =
    if first.truncated then
      let traffic := nameserver.host.traffic nameserver.address bytes
      let (result, samples) := askByStream nameserver.address bytes traffic.conversation
      { time := time + traffic.conversationTime
        result
        samples := Sample.packetSent .unicast bytes.length ++ [Sample.tcpRetry] ++ samples }
    else
      { time, result := .ok first, samples := Sample.packetSent .unicast bytes.length } := by
  unfold Nameserver.exchange
  simp only [h.closed, h.encode, h.bind, h.transmit, Bool.false_eq_true, if_false]
  rw [show firstAnswer _ _ _ _ = _ from hfirst]

theorem exists_sends_of_ok (h : (nameserver.exchange query).result = .ok message) :
    ∃ bytes time first, nameserver.Sends query bytes ∧
      nameserver.FirstAnswers query bytes time first := by
  unfold Nameserver.exchange at h
  dsimp only at h
  split at h
  . contradiction
  . next hclosed =>
    split at h
    . contradiction
    . next bytes hencode =>
      split at h
      . contradiction
      . next hbind =>
        split at h
        . contradiction
        . next htransmit =>
          split at h
          . contradiction
          . next time first hfirst =>
            exact ⟨bytes, time, first, ⟨by simpa using hclosed, hencode, hbind, htransmit⟩, hfirst⟩

theorem tcpRetry_not_mem_packetSent (count : Nat) :
    Sample.tcpRetry ∉ Sample.packetSent .unicast count := by
  simp [Sample.packetSent, Sample.tcpRetry, Sample.count, Sample.histogram]

/--
Whether the query was sent once more, over a stream.
-/
def Exchange.Retried (exchange : Exchange) : Prop := Sample.tcpRetry ∈ exchange.samples

theorem Sends.retried_iff (h : nameserver.Sends query bytes)
    (hfirst : nameserver.FirstAnswers query bytes time first) :
    (nameserver.exchange query).Retried ↔ first.truncated = true := by
  rw [h.exchange hfirst, Exchange.Retried]
  split
  . next htruncated => simp [htruncated]
  . next htruncated => simp [htruncated, tcpRetry_not_mem_packetSent]

theorem id_eq_of_not_retried (h : (nameserver.exchange query).result = .ok message)
    (hretried : ¬ (nameserver.exchange query).Retried) :
    message.id = query.id ∧ message.truncated = false := by
  rcases exists_sends_of_ok h with ⟨bytes, time, first, hsends, hfirst⟩
  rw [hsends.retried_iff hfirst, Bool.not_eq_true] at hretried
  rw [hsends.exchange hfirst, if_neg (by simp [hretried])] at h
  have : first = message := by simpa using h
  subst this
  rcases firstAnswer_eq_ok_iff.mp hfirst with ⟨-, arrival, -, -, -, hanswers, -⟩
  exact ⟨hanswers.2.1, hretried⟩

theorem report_eq_message_iff {exchange : Exchange} {id : UInt16} :
    exchange.report id = ⟨id, .message message⟩ ↔ exchange.result = .ok message := by
  unfold Exchange.report
  split
  . next h => simp [h]
  . next h => simp [h]

theorem mem_later_ask_iff :
    (∃ delay, (delay, ⟨query.id, .message message⟩) ∈ (nameserver.ask query).later)
      ↔
    (nameserver.exchange query).result = .ok message := by
  unfold ask
  split
  . next hclosed => simp [exchange, hclosed]
  . simp only [List.mem_singleton, Prod.mk.injEq, exists_eq_left]
    rw [eq_comm, report_eq_message_iff]

end Exchange

section Respondents

variable {nameserver : Nameserver} {query message : Message} {payload : List UInt8}

/--
A host on which the nameserver answers each datagram and each frame with the same messages.
-/
def respondent (datagram stream : List UInt8) : Host where
  traffic server _ :=
    { arrivals := [⟨0, .ok (server, datagram)⟩]
      conversation := fun _ => .reply stream .unexpectedEnd }

def withHost (nameserver : Nameserver) (host : Host) : Nameserver := { nameserver with host }

/--
Whether a query can be sent to a nameserver if the host lets it.
-/
structure Ready (nameserver : Nameserver) (query : Message) (bytes : List UInt8) : Prop where
  closed : nameserver.closed = false
  timeout : 0 < nameserver.timeout
  encode : query.encode = .ok bytes
  length : bytes.length ≤ maxDatagram nameserver.address.ip

theorem maxDatagram_le (ip : IpAddress) : maxDatagram ip ≤ Frame.maxLength := by
  simp only [maxDatagram, datagramBound, datagramHeader, Frame.maxLength]
  omega

theorem Ready.sends {bytes : List UInt8} (h : nameserver.Ready query bytes)
    (datagram stream : List UInt8) :
    (nameserver.withHost (respondent datagram stream)).Sends query bytes where
  closed := h.closed
  encode := h.encode
  bind := rfl
  transmit := by
    have hfits : ¬ bytes.length > maxDatagram nameserver.address.ip := Nat.not_lt.mpr h.length
    simp [Host.transmit, withHost, respondent, hfits]

theorem Ready.firstAnswers {bytes : List UInt8} (h : nameserver.Ready query bytes)
    (hdecode : Message.decode payload = .ok message) (hid : message.id = query.id)
    (stream : List UInt8) :
    (nameserver.withHost (respondent payload stream)).FirstAnswers query bytes 0 message :=
  firstAnswer_cons_of_answers ⟨h.timeout, hid, payload, rfl, hdecode⟩ []

def truncatedBytes (id : UInt16) : List UInt8 :=
  Message.Writer.wordBytes id ++ [0x82, 0, 0, 0, 0, 0, 0, 0, 0, 0]

theorem decode_truncatedBytes (id : UInt16) :
    Message.decode (truncatedBytes id) = .ok { id, isResponse := true, truncated := true } := by
  have hheader : ∀ high low : UInt8, Message.decode [high, low, 0x82, 0, 0, 0, 0, 0, 0, 0, 0, 0]
      =
    .ok { id := high.toUInt16 <<< 8 ||| low.toUInt16, isResponse := true, truncated := true } := by
    intro high low
    cbv
  have := hheader (id >>> 8).toUInt8 id.toUInt8
  rw [word_of_bytes] at this
  exact this

theorem askByStream_frame {query frame : List UInt8} (hquery : query.length ≤ Frame.maxLength)
    (hframe : Frame.encode? payload = some frame)
    (hdecode : Message.decode payload = .ok message) (server : SocketAddress) (ending : Fault) :
    askByStream server query (fun _ => .reply frame ending) = (.ok message, []) := by
  have hdrain := Frame.drain_append hframe []
  rw [List.append_nil] at hdrain
  unfold askByStream Frame.encode?
  rw [if_pos hquery]
  simp [conclude, firstFrame, hdrain, hdecode, Except.mapError]

theorem Ready.exists_retried {bytes : List UInt8} (h : nameserver.Ready query bytes)
    (hdecode : Message.decode payload = .ok message)
    (hlength : payload.length ≤ Frame.maxLength) :
    ∃ host, ((nameserver.withHost host).exchange query).result = .ok message ∧
      ((nameserver.withHost host).exchange query).Retried := by
  rcases Frame.exists_encode_eq hlength with ⟨frame, hframe⟩
  -- A truncated answer with the right number makes the query go out over a stream.
  refine ⟨respondent (truncatedBytes query.id) frame, ?_⟩
  have hsends := h.sends (truncatedBytes query.id) frame
  have hfirst := h.firstAnswers (decode_truncatedBytes query.id) rfl frame
  have hquery := Nat.le_trans h.length (maxDatagram_le nameserver.address.ip)
  refine ⟨?_, (hsends.retried_iff hfirst).mpr rfl⟩
  rw [hsends.exchange hfirst, if_pos rfl]
  exact congrArg Prod.fst (askByStream_frame hquery hframe hdecode ..)

theorem Ready.exists_not_retried {bytes : List UInt8} (h : nameserver.Ready query bytes)
    (hdecode : Message.decode payload = .ok message) (hid : message.id = query.id)
    (htruncated : message.truncated = false) :
    ∃ host, ((nameserver.withHost host).exchange query).result = .ok message ∧
      ¬ ((nameserver.withHost host).exchange query).Retried := by
  refine ⟨respondent payload [], ?_⟩
  have hsends := h.sends payload []
  have hfirst := h.firstAnswers hdecode hid []
  rw [hsends.retried_iff hfirst, htruncated]
  refine ⟨?_, by simp⟩
  rw [hsends.exchange hfirst, if_neg (by simp [htruncated])]

end Respondents

/--
A message that comes of a query, be it awaited or reported later, has the number of the query unless
it came over a stream. Nothing more is sure: without a retry the nameserver can have any message of
this number taken for the answer, a query as well, and with a retry any message at all.
-/
theorem id_eq_unless_retried (nameserver : Nameserver) (query : Message) :
    (∀ message, (nameserver.exchange query).result = .ok message →
      ¬ (nameserver.exchange query).Retried →
      message.id = query.id ∧ message.truncated = false) ∧
    (∀ message,
      ((∃ delay, (delay, ⟨query.id, .message message⟩) ∈ (nameserver.ask query).later) ↔
        (nameserver.exchange query).result = .ok message) ∧
      ∀ (α : Type) (listener : α),
        (nameserver.carryOut ⟨query, listener⟩).1 = ⟨query.id, .message message⟩ ↔
          (nameserver.exchange query).result = .ok message) ∧
    ∀ bytes payload message, nameserver.Ready query bytes →
      Message.decode payload = .ok message →
      payload.length ≤ maxDatagram nameserver.address.ip →
      ((∃ host, ((nameserver.withHost host).exchange query).result = .ok message ∧
          ¬ ((nameserver.withHost host).exchange query).Retried) ↔
        message.id = query.id ∧ message.truncated = false) ∧
      ∃ host, ((nameserver.withHost host).exchange query).result = .ok message ∧
        ((nameserver.withHost host).exchange query).Retried := by
  refine ⟨fun _ => id_eq_of_not_retried, ?_, ?_⟩
  . intro message
    exact ⟨mem_later_ask_iff, fun _ _ => report_eq_message_iff⟩
  . intro bytes payload message hready hdecode hlength
    refine ⟨⟨?_, ?_⟩, ?_⟩
    . rintro ⟨host, hresult, hretried⟩
      exact id_eq_of_not_retried hresult hretried
    . rintro ⟨hid, htruncated⟩
      exact hready.exists_not_retried hdecode hid htruncated
    . exact hready.exists_retried hdecode (Nat.le_trans hlength (maxDatagram_le _))

def emptyHeader (id flags : UInt16) : List UInt8 :=
  [id, flags, 0, 0, 0, 0].flatMap Message.Writer.wordBytes

/--
A datagram with another number is passed over, and one with the number of the query is the answer,
although it is marked as a query. Over a stream the same nameserver can answer with anything.
-/
theorem id_eq_unless_retried_second :
    let server : SocketAddress := .v4 ⟨10, 0, 0, 1⟩ 53
    let arrivals : List Arrival :=
      [⟨3, .ok (server, emptyHeader 8 0x8000)⟩, ⟨5, .ok (server, emptyHeader 7 0x0100)⟩]
    let nameserver : Nameserver :=
      { address := server, timeout := 1000, host := { traffic := fun _ _ => { arrivals } } }
    let query : Message := .query 7 ⟨[[0x68]], true⟩ .a
    let message : Message := { id := 7, recursionDesired := true }
    (nameserver.exchange query).result = .ok message ∧ message.id = query.id ∧
    ∃ host, ((nameserver.withHost host).exchange query).result
        = .ok { id := 8, isResponse := true } ∧
      ((nameserver.withHost host).exchange query).Retried := by
  intro server arrivals nameserver query message
  rcases id_eq_unless_retried nameserver query with ⟨hid, -, hhosts⟩
  have hresult : (nameserver.exchange query).result = .ok message := by decide +kernel
  have hretried : ¬ (nameserver.exchange query).Retried := by
    unfold Exchange.Retried
    decide +kernel
  let bytes : List UInt8 := [0, 7, 1, 0, 0, 1, 0, 0, 0, 0, 0, 0, 1, 0x68, 0, 0, 1, 0, 1]
  have hready : nameserver.Ready query bytes :=
    ⟨rfl, by decide, by decide +kernel, by decide⟩
  have hforeign : Message.decode (emptyHeader 8 0x8000) = .ok { id := 8, isResponse := true } := by
    decide +kernel
  exact ⟨hresult, (hid message hresult hretried).1, (hhosts _ _ _ hready hforeign (by decide)).2⟩

/--
What is marked as a query is returned as the answer to one, and so is a response with another number
that comes over a stream.
-/
theorem ok_not_answer :
    let nameserver : Nameserver :=
      { address := .v4 ⟨10, 0, 0, 1⟩ 53, timeout := 1000, host := {} }
    let query : Message := .query 7 ⟨[[0x68]], true⟩ .a
    let unmarked := respondent (emptyHeader 7 0x0100) []
    let foreign := respondent (truncatedBytes 7) ([0, 12] ++ emptyHeader 8 0x8000)
    ((nameserver.withHost unmarked).exchange query).result
      = .ok { id := 7, recursionDesired := true } ∧
    ((nameserver.withHost foreign).exchange query).result = .ok { id := 8, isResponse := true } ∧
    ¬ ∀ (nameserver : Nameserver) (query message : Message),
      (nameserver.exchange query).result = .ok message →
      message.isResponse = true ∧ message.id = query.id := by
  intro nameserver query unmarked foreign
  have hunmarked : ((nameserver.withHost unmarked).exchange query).result
      = .ok { id := 7, recursionDesired := true } := by
    decide +kernel
  refine ⟨hunmarked, by decide +kernel, ?_⟩
  intro hall
  exact absurd (hall _ _ _ hunmarked).1 (by decide)

end Zeroconf.Nameserver
