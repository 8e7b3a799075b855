import Zeroconf.Message.Reader
import Zeroconf.Message.Writer
import Zeroconf.Peer
import Zeroconf.Transport.Frame
import Zeroconf.Transport.Host
import Zeroconf.Work.Pool

/-!
This module contains the questions that are put to a single nameserver: a datagram first, and a
stream if the answer did not fit into a datagram.
-/

namespace Zeroconf

/--
A nameserver as it is seen from a host. Times are in milliseconds.
-/
structure Nameserver where
  address : SocketAddress
  timeout : Nat
  host : Transport.Host
  closed : Bool := false

namespace Nameserver

open Transport

/--
The answer to the query with the number `id`: the first message before the deadline that comes from
the server and has this number. The result comes with the time at which it is known.
-/
def firstAnswer (server : SocketAddress) (id : UInt16) (timeout : Nat) :
    List Arrival → Nat × Except Error Message
  | [] => (timeout, .error .timeout)
  | arrival :: arrivals =>
    if arrival.time < timeout then
      match arrival.content with
      | .error fault => (arrival.time, .error fault.awaiting)
      | .ok (source, payload) =>
        if source == server then
          match Message.decode payload with
          | .ok message =>
            if message.id == id then
              (arrival.time, .ok message)
            else
              firstAnswer server id timeout arrivals
          | .error _ => firstAnswer server id timeout arrivals
        else
          firstAnswer server id timeout arrivals
    else
      (timeout, .error .timeout)

def sendFailure (server : SocketAddress) (fault : Fault) : Error × List Sample :=
  (.send server fault.text, [Sample.sendError .unicast])

def firstFrame (bytes : List UInt8) (ending : Fault) : Except Error Message :=
  match (Frame.drain bytes).1 with
  | payload :: _ => (Message.decode payload).mapError fun fault => .malformed fault.message
  | [] => .error ending.awaiting

def conclude (server : SocketAddress) : Conversation → Except Error Message × List Sample
  | .refused fault => (.error fault.awaiting, [])
  | .unsent fault =>
    let (error, samples) := sendFailure server fault
    (.error error, samples)
  | .reply bytes ending => (firstFrame bytes ending, [])

/--
Ask over a stream, on which the query is written in a frame. A query that does not fit into a frame
is not sent at all.
-/
def askByStream (server : SocketAddress) (query : List UInt8)
    (conversation : List UInt8 → Conversation) : Except Error Message × List Sample :=
  match Frame.encode? query with
  | none => (.error (.config s!"query of {query.length} bytes exceeds tcp framing"), [])
  | some frame => conclude server (conversation frame)

structure Exchange where
  time : Nat := 0
  result : Except Error Message
  samples : List Sample := []

def localAddress : SocketAddress → SocketAddress
  | .v4 .. => .v4 .unspecified 0
  | .v6 .. => .v6 .unspecified 0 0

def exchange (nameserver : Nameserver) (query : Message) : Exchange :=
  let { address := server, timeout, host, closed } := nameserver
  if closed then
    { result := .error (.closed "unicast resolver") }
  else
    match query.encode with
    | .error fault => { result := .error (.malformed fault.message) }
    | .ok bytes =>
      match host.bind (localAddress server) with
      | some fault => { result := .error (.bind (localAddress server) fault.text) }
      | none =>
        match host.transmit server bytes with
        | some fault =>
          let (error, samples) := sendFailure server fault
          { result := .error error, samples }
        | none =>
          let sent := Sample.packetSent .unicast bytes.length
          let traffic := host.traffic server bytes
          match firstAnswer server query.id timeout traffic.arrivals with
          | (time, .error error) => { time, result := .error error, samples := sent }
          | (time, .ok message) =>
            if message.truncated then
              let (result, samples) := askByStream server bytes traffic.conversation
              { time := time + traffic.conversationTime
                result
                samples := sent ++ [Sample.tcpRetry] ++ samples }
            else
              { time, result := .ok message, samples := sent }

def Exchange.report (exchange : Exchange) (id : UInt16) : Report :=
  match exchange.result with
  | .ok message => ⟨id, .message message⟩
  | .error error => ⟨id, .failure error⟩

/--
A query that waits for a worker, and the one to whom its result is reported.
-/
structure Request (α : Type) where
  query : Message
  listener : α
  deriving DecidableEq, Repr

/--
Give a query to a pool of workers. The result is the number of the request.
-/
def submit {α : Type} (nameserver : Nameserver) (pool : Work.Pool (Request α)) (query : Message)
    (listener : α) : Except Error UInt16 × Work.Pool (Request α) × List Sample :=
  if nameserver.closed then
    (.error (.closed "unicast resolver"), pool, [])
  else
    let (verdict, pool, samples) := pool.submit ⟨query, listener⟩
    (verdict.map fun _ => query.id, pool, samples)

def carryOut {α : Type} (nameserver : Nameserver) (request : Request α) : Report × List Sample :=
  let exchange := nameserver.exchange request.query
  (exchange.report request.query.id, exchange.samples)

/--
Ask and have the result reported when it is known; there is a worker for everything.
-/
def ask (nameserver : Nameserver) (query : Message) : Reaction :=
  if nameserver.closed then
    { verdict := .error (.closed "unicast resolver") }
  else
    let exchange := nameserver.exchange query
    { later := [(exchange.time, exchange.report query.id)]
      samples := exchange.samples
      verdict := .ok query.id }

end Nameserver

instance : Peer Nameserver where
  name nameserver := nameserver.address.text
  ask nameserver _ query _ := (nameserver, nameserver.ask query)
  setTimeout nameserver timeout := { nameserver with timeout }
  close nameserver := { nameserver with closed := true }

end Zeroconf
