import Zeroconf.Reception

/-!
This module contains queriers: responders that reach groups on the local link and nameservers,
behind a single front. A query goes to all who are in charge of its domains, and their replies are
put together.
-/

namespace Zeroconf

/--
The peers of a querier and its settings. Times are in milliseconds.
-/
structure Querier (P U : Type) where
  /-- Those who reach groups on the local link. -/
  multicast : List P
  nameservers : List U
  responseWait : Nat
  timeout : Nat
  closed : Bool := false
  reception : Reception := {}

namespace Querier

variable {P U : Type}

/--
Register `sink` with all peers, or else with those in front of the first one that refuses.
-/
def enlist [GroupPeer P] (sink : Sink) : List P → List P × Except Error Unit
  | [] => ([], .ok ())
  | peer :: peers =>
    match GroupPeer.register peer sink with
    | (peer, .ok ()) =>
      let (peers, result) := enlist sink peers
      (peer :: peers, result)
    | (peer, .error error) => (peer :: peers, .error error)

/--
The querier with these peers. Those who reach groups report to its observers. If there is no
querier, the error comes with the multicast peers as they are now.
-/
def assemble [GroupPeer P] (multicast : List P) (nameservers : List U)
    (responseWait timeout : Nat) : Except (Error × List P) (Querier P U) :=
  if multicast.isEmpty && nameservers.isEmpty then
    .error (.noResponders, multicast)
  else
    match enlist .observers multicast with
    | (multicast, .ok ()) => .ok { multicast, nameservers, responseWait, timeout }
    | (multicast, .error error) => .error (error, multicast)

/--
Ask all peers in turn. The reports of one are received, and its verdict is heard by `conclude`,
before the next one is asked.
-/
def askAll [Peer P] (query : Message) (sink : Sink)
    (conclude : Except Error UInt16 → Reception → Reception) :
    List P → Reception → List P × Reception
  | [], reception => ([], reception)
  | peer :: peers, reception =>
    let name := Peer.name peer
    let (peer, reaction) := Peer.ask peer reception.now query sink
    let reception := (reception.note (.asked name query)).receive name sink reaction
    let (peers, reception) := askAll query sink conclude peers (conclude reaction.verdict reception)
    (peer :: peers, reception)

/--
Send the inquiry with the given number to all who are in charge, unless that has been done.
-/
def start [Peer P] [Peer U] (querier : Querier P U) (number : Nat) : Querier P U :=
  match querier.reception.cases[number]? with
  | none => querier
  | some { inquiry, .. } =>
    if inquiry.phase == .created then
      let query := inquiry.query
      let toMulticast := Inquiry.selectsMulticast query querier.multicast.length
      let toNameservers := Inquiry.selectsUnicast query querier.nameservers.length
      let sink := Sink.inquiry number
      let conclude := fun verdict (reception : Reception) =>
        reception.step number (.ofVerdict verdict)
      let reception := querier.reception.step number (.begun querier.reception.now toNameservers)
      let (multicast, reception) :=
        if toMulticast then askAll query sink conclude querier.multicast reception
        else (querier.multicast, reception)
      let (nameservers, reception) :=
        if toNameservers then askAll query sink conclude querier.nameservers reception
        else (querier.nameservers, reception)
      { querier with multicast, nameservers, reception := reception.step number .dispatched }
    else
      querier

/--
Start an inquiry and return its number. `caller` is told of every reply that it keeps.
-/
def resolve [Peer P] [Peer U] (querier : Querier P U) (query : Message)
    (caller : Option Observer) : Except Error Nat × Querier P U :=
  if querier.closed then
    (.error (.closed "querier"), querier)
  else
    let (number, reception) :=
      querier.reception.openCase query caller querier.responseWait querier.timeout
    (.ok number, { querier with reception }.start number)

def answer (querier : Querier P U) (number : Nat) : Except Error Message × Querier P U :=
  let (result, reception) := querier.reception.answer number
  (result, { querier with reception })

def send [Peer P] [Peer U] (querier : Querier P U) (query : Message) :
    Except Error Message × Querier P U :=
  match querier.resolve query none with
  | (.ok number, querier) => querier.answer number
  | (.error error, querier) => (.error error, querier)

/--
Send a query; `caller` is told of every reply. The result is the number of the request.
-/
def sendAsync [Peer P] [Peer U] (querier : Querier P U) (query : Message) (caller : Observer) :
    Except Error UInt16 × Querier P U :=
  match querier.resolve query (some caller) with
  | (.ok _, querier) => (.ok query.id, querier)
  | (.error error, querier) => (.error error, querier)

def announceAll [GroupPeer P] (message : Message) (known : Bool) :
    List P → Reception → List P × List (Except Error Unit) × Reception
  | [], reception => ([], [], reception)
  | peer :: peers, reception =>
    let name := Peer.name peer
    let (peer, announcement) := GroupPeer.announce peer message known
    let reception := (reception.note (.announced name message known)).measure announcement.samples
    let (peers, verdicts, reception) := announceAll message known peers reception
    (peer :: peers, announcement.verdict :: verdicts, reception)

/--
The verdict on an announcement: the first refusal if nobody took it and somebody refused.
-/
def announcementVerdict (verdicts : List (Except Error Unit)) : Except Error Unit :=
  if verdicts.any Except.isOk then .ok () else (verdicts.head?).getD (.ok ())

/--
Send a message to everybody. What the nameservers reply to it goes to the observers.
-/
def broadcast [GroupPeer P] [Peer U] (querier : Querier P U) (message : Message) (known : Bool) :
    Except Error Unit × Querier P U :=
  if querier.closed then
    (.error (.closed "querier"), querier)
  else
    let (multicast, verdicts, reception) :=
      announceAll message known querier.multicast querier.reception
    let (nameservers, reception) :=
      askAll message .observers (fun _ reception => reception) querier.nameservers reception
    (announcementVerdict verdicts, { querier with multicast, nameservers, reception })

def withObservers (querier : Querier P U) (observers : Fanout Observer) : Querier P U :=
  { querier with reception := { querier.reception with observers } }

def register (querier : Querier P U) (listener : Observer) :
    Except Error Observer × Querier P U :=
  match querier.reception.observers.register listener with
  | .ok (present, observers) => (.ok present, querier.withObservers observers)
  | .error error => (.error error, querier)

def unregister (querier : Querier P U) (listener : Observer) : Option Observer × Querier P U :=
  let (removed, observers) := querier.reception.observers.unregister listener
  (removed, querier.withObservers observers)

def setTimeout [Peer P] [Peer U] (querier : Querier P U) (timeout : Nat) : Querier P U :=
  { querier with
    timeout
    multicast := querier.multicast.map (Peer.setTimeout · timeout)
    nameservers := querier.nameservers.map (Peer.setTimeout · timeout) }

def closeAll [Peer P] : List P → Reception → List P × Reception
  | [], reception => ([], reception)
  | peer :: peers, reception =>
    let reception := reception.note (.closed (Peer.name peer))
    let (peers, reception) := closeAll peers reception
    (Peer.close peer :: peers, reception)

def close [Peer P] [Peer U] (querier : Querier P U) : Querier P U :=
  if querier.closed then
    querier
  else
    let (multicast, reception) := closeAll querier.multicast querier.reception
    let (nameservers, reception) := closeAll querier.nameservers reception
    { querier with multicast, nameservers, closed := true, reception }.withObservers
      reception.observers.close

def askAndWait [Peer P] (peer : P) (query : Message) (timeout : Nat) (reception : Reception) :
    Except Error Message × P × Reception :=
  let number := reception.waiters.length
  let sink := Sink.waiter number
  let waiter : Waiter := ⟨query, none⟩
  let reception := { reception with waiters := reception.waiters ++ [waiter] }
  let name := Peer.name peer
  let (peer, reaction) := Peer.ask peer reception.now query sink
  let reception := (reception.note (.asked name query)).receive name sink reaction
  match reaction.verdict with
  | .error error => (.error error, peer, reception)
  | .ok _ =>
    let answered := fun (reception : Reception) =>
      reception.waiters[number]?.any (·.reply.isSome)
    let reception := reception.advance (reception.now + timeout) answered
    (((reception.waiters[number]?).map Waiter.result).getD (.error .timeout), peer, reception)

end Querier

end Zeroconf
