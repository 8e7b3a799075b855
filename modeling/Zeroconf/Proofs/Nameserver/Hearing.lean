import Zeroconf.Proofs.Nameserver.Dialogue

/-!
This module contains what comes of a query when any datagrams, of anybody and of any bytes, come in
while the answer of a nameserver is awaited.
-/

namespace Zeroconf.Nameserver

open Transport Dialogue

section Answers

variable {server : SocketAddress} {id : UInt16} {timeout : Nat}

def answer? (server : SocketAddress) (id : UInt16) (timeout : Nat) (arrival : Arrival) :
    Option (Nat × Message) :=
  if arrival.time < timeout then
    (arrival.content.toOption.bind (answerIn? server id)).map (arrival.time, ·)
  else
    none

theorem answer?_of_in_time {arrival : Arrival} {datagram : SocketAddress × List UInt8}
    (htime : arrival.time < timeout) (hcontent : arrival.content = .ok datagram) :
    answer? server id timeout arrival = (answerIn? server id datagram).map (arrival.time, ·) := by
  unfold answer?
  rw [if_pos htime, hcontent]
  rfl

theorem answer?_eq_none_of_le {arrival : Arrival} (h : timeout ≤ arrival.time) :
    answer? server id timeout arrival = none := by
  exact if_neg (Nat.not_lt.mpr h)

/--
Whether these are datagrams in the order in which they come in.
-/
structure Datagrams (arrivals : List Arrival) : Prop where
  content : ∀ arrival ∈ arrivals, ∃ datagram, arrival.content = .ok datagram
  order : arrivals.Pairwise fun a b => a.time ≤ b.time

theorem Datagrams.tail {arrival : Arrival} {arrivals : List Arrival}
    (h : Datagrams (arrival :: arrivals)) : Datagrams arrivals where
  content := (List.forall_mem_cons.mp h.content).2
  order := (List.pairwise_cons.mp h.order).2

theorem firstAnswer_eq {arrivals : List Arrival} (h : Datagrams arrivals) :
    firstAnswer server id timeout arrivals
      =
    match arrivals.findSome? (answer? server id timeout) with
    | none => (timeout, .error .timeout)
    | some (time, message) => (time, .ok message) := by
  induction arrivals with
  | nil => rfl
  | cons arrival arrivals ih =>
    by_cases htime : arrival.time < timeout
    . rcases h.content _ List.mem_cons_self with ⟨datagram, hcontent⟩
      rw [List.findSome?_cons, answer?_of_in_time htime hcontent]
      cases hanswer : answerIn? server id datagram with
      | none =>
        have hpasses := passes_of_answerIn?_eq_none htime hcontent hanswer
        rw [firstAnswer_cons_of_passes hpasses, ih h.tail]
        rfl
      | some message =>
        have hanswers := answers_of_answerIn?_eq_some htime hcontent hanswer
        rw [firstAnswer_cons_of_answers hanswers]
        rfl
    . -- What comes too late ends the waiting, and everything behind it is as late.
      have hnone : (arrival :: arrivals).findSome? (answer? server id timeout) = none := by
        rw [List.findSome?_eq_none_iff, List.forall_mem_cons]
        refine ⟨answer?_eq_none_of_le (Nat.le_of_not_lt htime), ?_⟩
        intro other hmem
        have := (List.pairwise_cons.mp h.order).1 other hmem
        exact answer?_eq_none_of_le (by omega)
      rw [hnone, firstAnswer, if_neg htime]

end Answers

variable {nameserver : Nameserver} {query : Message} {bytes : List UInt8}

/--
The nameserver on the same host, to which these datagrams come for every query that goes out.
-/
def hearing (nameserver : Nameserver) (arrivals : List Arrival) : Nameserver :=
  nameserver.withHost { nameserver.host with
    traffic server bytes := { nameserver.host.traffic server bytes with arrivals } }

section Hearing

variable {arrivals : List Arrival}

theorem firstAnswers_hearing (harrivals : Datagrams arrivals) {time : Nat} {message : Message}
    (hsome : arrivals.findSome? (answer? nameserver.address query.id nameserver.timeout)
      = some (time, message)) :
    (nameserver.hearing arrivals).FirstAnswers query bytes time message := by
  have hfirst : firstAnswer nameserver.address query.id nameserver.timeout arrivals = _ :=
    firstAnswer_eq harrivals
  rw [hsome] at hfirst
  exact hfirst

variable (hsends : nameserver.Sends query bytes)

include hsends

theorem Sends.hearing (arrivals : List Arrival) :
    (nameserver.hearing arrivals).Sends query bytes where
  closed := hsends.closed
  encode := hsends.encode
  bind := hsends.bind
  transmit := hsends.transmit

variable (harrivals : Datagrams arrivals)

include harrivals

theorem exchange_of_none
    (hnone : arrivals.findSome? (answer? nameserver.address query.id nameserver.timeout) = none) :
    let heard := nameserver.hearing arrivals
    heard.exchange query
      =
    { time := nameserver.timeout
      result := .error .timeout
      samples := Sample.packetSent .unicast bytes.length } ∧
    EndsUp heard query (heard.exchange query) [] := by
  intro heard
  have hfirst : firstAnswer nameserver.address query.id nameserver.timeout arrivals
      =
    (nameserver.timeout, .error .timeout) := by
    rw [firstAnswer_eq harrivals, hnone]
  exact ⟨(hsends.hearing arrivals).exchange_of_error hfirst,
    (hsends.hearing arrivals).endsUp harrivals.order hfirst⟩

section Some

variable {time : Nat} {message : Message}
  (hsome : arrivals.findSome? (answer? nameserver.address query.id nameserver.timeout)
    = some (time, message))

include hsome

theorem endsUp_of_some :
    let heard := nameserver.hearing arrivals
    EndsUp heard query (heard.exchange query) (retries bytes (.ok message)) := by
  exact (hsends.hearing arrivals).endsUp harrivals.order
    (firstAnswers_hearing harrivals hsome)

theorem exchange_of_not_truncated (htruncated : message.truncated = false) :
    let heard := nameserver.hearing arrivals
    heard.exchange query
      =
    { time, result := .ok message, samples := Sample.packetSent .unicast bytes.length } ∧
    EndsUp heard query (heard.exchange query) [] := by
  intro heard
  have hends := endsUp_of_some hsends harrivals hsome
  rw [retries, if_neg (by simp [htruncated])] at hends
  refine ⟨?_, hends⟩
  rw [(hsends.hearing arrivals).exchange (firstAnswers_hearing harrivals hsome),
    if_neg (by simp [htruncated])]

theorem exchange_of_truncated (htruncated : message.truncated = true) :
    let heard := nameserver.hearing arrivals
    let traffic := nameserver.host.traffic nameserver.address bytes
    ∃ frame, Frame.encode? bytes = some frame ∧
      (let concluded := conclude nameserver.address (traffic.conversation frame)
      heard.exchange query
        =
      { time := time + traffic.conversationTime
        result := concluded.1
        samples :=
          Sample.packetSent .unicast bytes.length ++ [Sample.tcpRetry] ++ concluded.2 }) ∧
      EndsUp heard query (heard.exchange query) [frame] := by
  intro heard traffic
  have hends := endsUp_of_some hsends harrivals hsome
  rcases hsends.exists_frame with ⟨frame, hframe⟩
  rw [retries, if_pos htruncated, hframe] at hends
  refine ⟨frame, hframe, ?_, hends⟩
  exact (hsends.hearing arrivals).exchange_of_truncated
    (firstAnswers_hearing harrivals hsome) htruncated hframe

end Some

/--
What is passed over has no effect at all.
-/
theorem exchange_congr {others : List Arrival} (hothers : Datagrams others)
    (hsame : others.filterMap (answer? nameserver.address query.id nameserver.timeout)
      = arrivals.filterMap (answer? nameserver.address query.id nameserver.timeout)) :
    (nameserver.hearing others).exchange query = (nameserver.hearing arrivals).exchange query := by
  have hfirst : others.findSome? (answer? nameserver.address query.id nameserver.timeout)
      =
    arrivals.findSome? (answer? nameserver.address query.id nameserver.timeout) := by
    rw [← List.head?_filterMap, hsame, List.head?_filterMap]
  cases harrived :
      arrivals.findSome? (answer? nameserver.address query.id nameserver.timeout) with
  | none =>
    rw [(exchange_of_none hsends harrivals harrived).1,
      (exchange_of_none hsends hothers (hfirst.trans harrived)).1]
  | some found =>
    rw [(hsends.hearing others).exchange
        (firstAnswers_hearing hothers (hfirst.trans harrived)),
      (hsends.hearing arrivals).exchange (firstAnswers_hearing harrivals harrived)]
    rfl

/--
Whatever datagrams come in, the first one in time that comes from the nameserver, can be decoded and
has the number of the query is the answer, and those that are passed over make no difference. With
an answer that is not truncated the exchange is over. A truncated one has the query sent over a
stream, exactly once, and what comes of this is the result. Without an answer the exchange ends at
the deadline, at which each of the waits ends, however many datagrams were passed over.
-/
theorem exchange_takes_first :
    let heard := nameserver.hearing arrivals
    let exchange := heard.exchange query
    let answer? := answer? nameserver.address query.id nameserver.timeout
    (arrivals.findSome? answer? = none →
      exchange.result = .error .timeout ∧ exchange.time = nameserver.timeout ∧
        EndsUp heard query exchange []) ∧
    (∀ time message, arrivals.findSome? answer? = some (time, message) →
      (message.truncated = false →
        exchange.result = .ok message ∧ exchange.time = time ∧ EndsUp heard query exchange []) ∧
      (message.truncated = true →
        let traffic := nameserver.host.traffic nameserver.address bytes
        ∃ frame, Frame.encode? bytes = some frame ∧
          exchange.result = (conclude nameserver.address (traffic.conversation frame)).1 ∧
          exchange.time = time + traffic.conversationTime ∧
          EndsUp heard query exchange [frame])) ∧
    (∀ others, Datagrams others → others.filterMap answer? = arrivals.filterMap answer? →
      (nameserver.hearing others).exchange query = exchange) ∧
    ∀ count wait, (after heard query count).stage = .receive wait →
      (after heard query count).now + wait = nameserver.timeout := by
  intro heard exchange answer?
  refine ⟨?_, ?_, ?_, ?_⟩
  . intro hnone
    rcases exchange_of_none hsends harrivals hnone with ⟨hexchange, hends⟩
    exact ⟨congrArg (·.result) hexchange, congrArg (·.time) hexchange, hends⟩
  . intro time message hsome
    refine ⟨?_, ?_⟩
    . intro htruncated
      rcases exchange_of_not_truncated hsends harrivals hsome htruncated with ⟨hexchange, hends⟩
      exact ⟨congrArg (·.result) hexchange, congrArg (·.time) hexchange, hends⟩
    . intro htruncated
      rcases exchange_of_truncated hsends harrivals hsome htruncated with
        ⟨frame, hframe, hexchange, hends⟩
      exact ⟨frame, hframe, congrArg (·.result) hexchange, congrArg (·.time) hexchange, hends⟩
  . intro others hothers hsame
    exact exchange_congr hsends harrivals hothers hsame
  . intro count wait hstage
    exact (sound_after heard query count).deadline wait hstage

end Hearing

/--
Three datagrams are passed over, of a stranger, of no message and with another number. The answer
behind them is truncated, so that the query goes out over a stream, and a whole answer that comes
still later is not looked at.
-/
theorem exchange_takes_first_truncated :
    let server : SocketAddress := .v4 ⟨10, 0, 0, 1⟩ 53
    let conversation := fun _ => Conversation.reply ([0, 12] ++ emptyHeader 7 0x8180) .unexpectedEnd
    let nameserver : Nameserver :=
      { address := server
        timeout := 1000
        host := { traffic := fun _ _ => { conversation, conversationTime := 4 } } }
    let query : Message := .query 7 ⟨[[0x68]], true⟩ .a
    let arrivals : List Arrival :=
      [⟨1, .ok (.v4 ⟨10, 0, 0, 2⟩ 53, emptyHeader 7 0x8000)⟩, ⟨1, .ok (server, [1, 2, 3])⟩,
        ⟨3, .ok (server, emptyHeader 8 0x8000)⟩, ⟨5, .ok (server, emptyHeader 7 0x8200)⟩,
        ⟨6, .ok (server, emptyHeader 7 0x8000)⟩]
    let answer : Message :=
      { id := 7, isResponse := true, recursionDesired := true, recursionAvailable := true }
    let heard := nameserver.hearing arrivals
    ∃ bytes frame, nameserver.Sends query bytes ∧ Datagrams arrivals ∧
      Frame.encode? bytes = some frame ∧
      (heard.exchange query).result = .ok answer ∧
      (heard.exchange query).time = 9 ∧ EndsUp heard query (heard.exchange query) [frame] := by
  intro server conversation nameserver query arrivals answer heard
  let bytes : List UInt8 := [0, 7, 1, 0, 0, 1, 0, 0, 0, 0, 0, 0, 1, 0x68, 0, 0, 1, 0, 1]
  have hsends : nameserver.Sends query bytes := ⟨rfl, by decide +kernel, rfl, rfl⟩
  have harrivals : Datagrams arrivals := ⟨by simp [arrivals], by decide⟩
  have hsome : arrivals.findSome? (answer? nameserver.address query.id nameserver.timeout)
      =
    some (5, { id := 7, isResponse := true, truncated := true }) := by
    decide +kernel
  rcases exchange_takes_first hsends harrivals with ⟨-, hanswered, -, -⟩
  rcases (hanswered _ _ hsome).2 rfl with ⟨frame, hframe, hresult, htime, hends⟩
  have hreply : (conclude server (conversation [])).1 = .ok answer := by decide +kernel
  exact ⟨bytes, frame, hsends, harrivals, hframe, hresult.trans hreply, htime, hends⟩

end Zeroconf.Nameserver
