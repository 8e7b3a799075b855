import Zeroconf.Inquiry.Merge

/-!
This module contains inquiries: one query that is sent to several others at once, and the replies
that have come in so far. An inquiry is complete when it has been sent to all of them and has at
least as many replies as there are sub-queries, and it ends at its deadline at the latest.
-/

namespace Zeroconf

inductive Inquiry.Phase where
  | created
  | dispatching
  | started
  deriving DecidableEq, Repr

/--
A query on its way. Times are in milliseconds.
-/
structure Inquiry where
  query : Message
  /-- How long an inquiry waits that was sent to multicast responders only. -/
  responseWait : Nat
  /-- How long any other inquiry waits. -/
  timeout : Nat
  startedAt : Nat
  phase : Inquiry.Phase := .created
  usesUnicast : Bool := false
  /-- The numbers under which the query was taken. -/
  ids : List UInt16 := []
  sent : Nat := 0
  /-- What has come back, in the order of arrival. -/
  replies : List Reply := []
  deriving DecidableEq, Repr

namespace Inquiry

/--
An inquiry that has not been sent yet. It never waits longer than `timeout`.
-/
def create (query : Message) (responseWait timeout now : Nat) : Inquiry :=
  { query, responseWait := min responseWait timeout, timeout, startedAt := now }

def selectsMulticast (query : Message) (responders : Nat) : Bool :=
  responders != 0 && query.asksMulticast

def selectsUnicast (query : Message) (nameservers : Nat) : Bool :=
  nameservers != 0 && query.asksUnicast

inductive Event where
  | begun (now : Nat) (usesUnicast : Bool)
  | taken (id : UInt16)
  | refused (error : Error)
  | dispatched
  | reported (report : Report)
  deriving DecidableEq, Repr

/--
Whether a message belongs to the inquiry: nothing is known yet about the numbers of the requests,
it has one of these numbers, or it holds an answer.
-/
def isAttributed (inquiry : Inquiry) (id : UInt16) (response : Message) : Bool :=
  inquiry.ids.isEmpty || inquiry.ids.contains id || inquiry.query.isAnsweredBy response

/--
Whether a report is kept. Failures are kept always.
-/
def keeps (inquiry : Inquiry) (report : Report) : Bool :=
  match report.reply with
  | .message response => inquiry.isAttributed report.id response
  | .failure _ => true

/--
The inquiry after an event. It begins only once.
-/
def step (inquiry : Inquiry) : Event → Inquiry
  | .begun now usesUnicast =>
    if inquiry.phase == .created then
      { inquiry with phase := .dispatching, startedAt := now, usesUnicast }
    else
      inquiry
  | .taken id => { inquiry with sent := inquiry.sent + 1, ids := inquiry.ids ++ [id] }
  | .refused error =>
    { inquiry with sent := inquiry.sent + 1, replies := inquiry.replies ++ [.failure error] }
  | .dispatched => { inquiry with phase := .started }
  | .reported report =>
    if inquiry.keeps report then
      { inquiry with replies := inquiry.replies ++ [report.reply] }
    else
      inquiry

def Event.ofVerdict : Except Error UInt16 → Event
  | .ok id => taken id
  | .error error => refused error

/--
Whether all have been asked, and there are as many replies as sub-queries.
-/
def hasResults (inquiry : Inquiry) : Bool :=
  inquiry.phase == .started && inquiry.replies.length ≥ inquiry.sent

def deadline (inquiry : Inquiry) : Nat :=
  inquiry.startedAt + (if inquiry.usesUnicast then inquiry.timeout else inquiry.responseWait)

/--
What somebody sees who waits until `deadline` and looks at the inquiry `now`: that it is complete,
that it is too late, or neither.
-/
def look (inquiry : Inquiry) (deadline now : Nat) : Option Bool :=
  if inquiry.hasResults then some true
  else if deadline ≤ now then some false
  else none

def answer (inquiry : Inquiry) : Except Error Message :=
  merge inquiry.query inquiry.replies inquiry.sent

inductive Rating where
  | success
  /-- Something is missing, but something was found. -/
  | partially
  | nxDomain
  | failed
  deriving DecidableEq, Repr

def Rating.label : Rating → String
  | success => "success"
  | partially => "partial"
  | nxDomain => "nxdomain"
  | failed => "failed"

def rating (inquiry : Inquiry) (complete : Bool) : Rating :=
  match inquiry.answer with
  | .error _ => .failed
  | .ok answer =>
    if answer.code == .nxDomain then .nxDomain
    else if !complete || inquiry.replies.any (·.failure?.isSome) then .partially
    else .success

def Phase.text : Phase → String
  | created => "Created"
  | dispatching => "Dispatching"
  | started => "Started"

def describe (inquiry : Inquiry) : String :=
  s!"Resolution \x7b id: {inquiry.query.id.toNat}, phase: {inquiry.phase.text}, " ++
    s!"sent: {inquiry.sent}, responses: {inquiry.replies.length} \x7d"

end Inquiry

end Zeroconf
