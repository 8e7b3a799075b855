import Zeroconf.Address

/-!
This module contains the failures of queries and of the things that carry them out, with their
wording.
-/

namespace Zeroconf

/--
What can go wrong between a question and its answer. Where a failure of the operating system is
behind it, `cause` is the text of that failure.
-/
inductive Error where
  | config (reason : String)
  | parse (reason : String)
  | bind (address : SocketAddress) (cause : String)
  | join (group : IpAddress) (cause : String)
  | send (destination : SocketAddress) (cause : String)
  | closed (what : String)
  | receiveOnly (address : SocketAddress)
  | malformed (cause : String)
  | io (cause : String)
  | timeout
  | listener (reason : String)
  | rejected (pool : String)
  | noResponders
  deriving DecidableEq, Repr

namespace Error

def message : Error → String
  | config reason => s!"Invalid configuration: {reason}"
  | parse reason => s!"Parse error: {reason}"
  | bind address cause => s!"Failed to bind {address.text}: {cause}"
  | join group cause => s!"Failed to join multicast group {group.text}: {cause}"
  | send destination cause => s!"Error sending to {destination.text}: {cause}"
  | closed what => s!"{what} is closed"
  | receiveOnly address => s!"Processor at {address.text} is receive-only"
  | malformed cause => s!"DNS protocol error: {cause}"
  | io cause => s!"IO error: {cause}"
  | timeout => "Timed out waiting for response"
  | listener reason => s!"Listener dispatch failed: {reason}"
  | rejected pool => s!"Task rejected by {pool} pool"
  | noResponders => "No multicast responders or unicast resolvers available"

/--
Whether a failure keeps the failure of the operating system that is behind it.
-/
def hasSource : Error → Bool
  | bind .. | join .. | send .. => true
  | _ => false

end Error

end Zeroconf
