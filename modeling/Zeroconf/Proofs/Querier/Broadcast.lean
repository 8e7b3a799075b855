import Zeroconf.Proofs.Link
import Zeroconf.Proofs.Nameserver.Exchange
import Zeroconf.Proofs.Querier.Watched

/-!
This module contains which messages a querier sends when it is asked to tell everybody. The groups
get the answers of the message only if that is wanted; the nameservers always get them.
-/

namespace Zeroconf

namespace Transport.Host

/--
The host as it is, apart from one datagram that meets a fault.
-/
def refusing (host : Host) (destination : SocketAddress) (bytes : List UInt8) (fault : Fault) :
    Host :=
  { host with
    send := fun other sent =>
      if other = destination ∧ sent = bytes then some fault else host.send other sent }

/--
Whether a datagram is handed to the host: something depends on what the host makes of it.
-/
def Handed {ρ : Type} (act : Host → ρ) (host : Host) (destination : SocketAddress)
    (bytes : List UInt8) : Prop :=
  ∃ fault, act (host.refusing destination bytes fault) ≠ act host

variable {ρ : Type} {act : Host → ρ} {host : Host} {destination other : SocketAddress}
  {bytes sent : List UInt8}

theorem not_handed (h : ∀ fault, act (host.refusing destination bytes fault) = act host) :
    ¬ Handed act host destination bytes := by
  rintro ⟨fault, hne⟩
  exact hne (h fault)

theorem transmit_refusing (host : Host) (destination other : SocketAddress)
    (bytes sent : List UInt8) (fault : Fault) :
    (host.refusing destination bytes fault).transmit other sent
      =
    if (destination = other ∧ bytes = sent) ∧ bytes.length ≤ maxDatagram other.ip then some fault
    else host.transmit other sent := by
  unfold transmit refusing
  by_cases hsame : destination = other ∧ bytes = sent
  . rcases hsame with ⟨rfl, rfl⟩
    by_cases hfits : bytes.length ≤ maxDatagram destination.ip
    . simp [hfits]
    . simp [hfits, Nat.lt_of_not_le hfits]
  . have hother : ¬ (other = destination ∧ sent = bytes) := by
      rwa [eq_comm, eq_comm (a := sent)]
    simp [hsame, hother]

theorem handed_iff (outcome : Option Fault → ρ)
    (hact : ∀ host' : Host, host'.bind = host.bind → host'.traffic = host.traffic →
      act host' = outcome (host'.transmit other sent))
    (hnoticed : ∃ fault other, outcome (some fault) ≠ outcome (some other)) :
    Handed act host destination bytes
      ↔
    (destination = other ∧ bytes = sent) ∧ bytes.length ≤ maxDatagram other.ip := by
  have hrefusing : ∀ fault, act (host.refusing destination bytes fault)
      = outcome ((host.refusing destination bytes fault).transmit other sent) :=
    fun fault => hact _ rfl rfl
  constructor
  . rintro ⟨fault, hne⟩
    rw [hrefusing, hact host rfl rfl, transmit_refusing] at hne
    split at hne
    . next h => exact h
    . exact absurd rfl hne
  . intro h
    -- One of the two faults makes a difference.
    rcases hnoticed with ⟨first, second, hne⟩
    by_contra hnone
    apply hne
    have hsame : ∀ fault, outcome (some fault) = outcome (host.transmit other sent) := by
      intro fault
      by_contra hdiffers
      apply hnone
      refine ⟨fault, ?_⟩
      rwa [hrefusing, hact host rfl rfl, transmit_refusing, if_pos h]
    rw [hsame first, hsame second]

end Transport.Host

open Transport

namespace Link

def withHost (link : Link) (host : Host) : Link := { link with host }

variable {link : Link} {message : Message} {known : Bool} {destination : SocketAddress}
  {bytes : List UInt8}

/--
Whether a link hands its host a datagram when it is to announce a message.
-/
def Announces (link : Link) (message : Message) (known : Bool) (destination : SocketAddress)
    (bytes : List UInt8) : Prop :=
  Host.Handed (fun host => ((link.withHost host).announce message known).2.verdict) link.host
    destination bytes

def Carries (link : Link) (destination : SocketAddress) (bytes : List UInt8) : Prop :=
  link.closed = false ∧ link.sending = true ∧ destination = link.group ∧
    bytes.length ≤ maxDatagram link.group.ip

def verdictOn (link : Link) : Option Fault → Except Error Unit
  | none => .ok ()
  | some fault => .error (.send link.group fault.text)

theorem exists_verdictOn_ne (link : Link) :
    ∃ fault other, link.verdictOn (some fault) ≠ link.verdictOn (some other) := by
  refine ⟨.noDevice, .invalidArgument, ?_⟩
  simp [verdictOn, Fault.noDevice, Fault.invalidArgument]

theorem verdict_announce (link : Link) (message : Message) (known : Bool) (host : Host) :
    ((link.withHost host).announce message known).2.verdict
      =
    match link.ensureOpen *> encode (message.withKnown known) with
    | .ok bytes => ((link.withHost host).transmit bytes).1
    | .error error => .error error := by
  have hopen : (link.withHost host).ensureOpen = link.ensureOpen := rfl
  simp only [announce, hopen, Message.withKnown]
  generalize link.ensureOpen *> encode _ = ready
  cases ready <;> rfl

theorem transmit_of_sending (hsending : link.sending = true) (bytes : List UInt8) (host : Host) :
    ((link.withHost host).transmit bytes).1 = link.verdictOn (host.transmit link.group bytes) := by
  simp only [transmit, withHost, hsending, Bool.not_true, Bool.false_eq_true, if_false]
  cases host.transmit link.group bytes with
  | none => rfl
  | some fault =>
    dsimp only
    split <;> rfl

theorem announces_iff :
    link.Announces message known destination bytes
      ↔
    link.Carries destination bytes ∧ (message.withKnown known).encode = .ok bytes := by
  simp only [Announces, Carries, verdict_announce]
  cases hready : link.ensureOpen *> encode (message.withKnown known) with
  | ok sent =>
    rcases ensureOpen_encode_eq_ok_iff.mp hready with ⟨hopen, hencode⟩
    cases hsending : link.sending with
    | true =>
      rw [Host.handed_iff link.verdictOn (fun host _ _ => transmit_of_sending hsending sent host)
        link.exists_verdictOn_ne, hencode, hopen, Except.ok.injEq]
      constructor
      . rintro ⟨⟨hgroup, hbytes⟩, hfits⟩
        exact ⟨⟨rfl, rfl, hgroup, hfits⟩, hbytes.symm⟩
      . rintro ⟨⟨-, -, hgroup, hfits⟩, hbytes⟩
        exact ⟨⟨hgroup, hbytes.symm⟩, hfits⟩
    | false =>
      apply iff_of_false
      . apply Host.not_handed
        intro fault
        simp only [transmit, withHost, hsending]
        rfl
      . simp
  | error error =>
    apply iff_of_false
    . exact Host.not_handed fun _ => rfl
    . rintro ⟨⟨hopen, -⟩, hencode⟩
      rw [ensureOpen_encode_eq_ok_iff.mpr ⟨hopen, hencode⟩] at hready
      contradiction

end Link

namespace Nameserver

variable {nameserver : Nameserver} {message : Message} {destination : SocketAddress}
  {bytes : List UInt8}

/--
Whether a datagram is handed to the host of a nameserver when it is to be asked.
-/
def Asks (nameserver : Nameserver) (query : Message) (destination : SocketAddress)
    (bytes : List UInt8) : Prop :=
  Host.Handed (fun host => (nameserver.withHost host).ask query) nameserver.host destination bytes

def Carries (nameserver : Nameserver) (destination : SocketAddress) (bytes : List UInt8) : Prop :=
  nameserver.closed = false ∧ nameserver.host.bind (localAddress nameserver.address) = none ∧
    destination = nameserver.address ∧ bytes.length ≤ maxDatagram nameserver.address.ip

theorem ask_withHost_congr {host other : Host} (hbind : host.bind = other.bind)
    (htraffic : host.traffic = other.traffic)
    (htransmit : ∀ bytes, message.encode = .ok bytes →
      host.transmit nameserver.address bytes = other.transmit nameserver.address bytes) :
    (nameserver.withHost host).ask message = (nameserver.withHost other).ask message := by
  have hexchange : (nameserver.withHost host).exchange message
      = (nameserver.withHost other).exchange message := by
    unfold exchange withHost
    dsimp only
    rw [hbind, htraffic]
    cases hencode : message.encode with
    | error fault => rfl
    | ok bytes =>
      dsimp only
      rw [htransmit bytes hencode]
  unfold ask
  rw [hexchange]
  rfl

theorem asks_iff :
    nameserver.Asks message destination bytes
      ↔
    nameserver.Carries destination bytes ∧ message.encode = .ok bytes := by
  unfold Asks Carries
  let constant (result : Option Fault) : Host := { nameserver.host with send := fun _ _ => result }
  let asked (host : Host) : Reaction := (nameserver.withHost host).ask message
  by_cases hsends : ∃ sent, message.encode = .ok sent ∧ nameserver.closed = false ∧
      nameserver.host.bind (localAddress nameserver.address) = none ∧
      sent.length ≤ maxDatagram nameserver.address.ip
  . rcases hsends with ⟨sent, hencode, hopen, hbind, hfits⟩
    have hact : ∀ host : Host, host.bind = nameserver.host.bind →
        host.traffic = nameserver.host.traffic →
        asked host = asked (constant (host.transmit nameserver.address sent)) := by
      intro host hsame htraffic
      refine ask_withHost_congr hsame htraffic ?_
      intro bytes hbytes
      rw [hencode, Except.ok.injEq] at hbytes
      subst hbytes
      simp [constant, Host.transmit, Nat.not_lt.mpr hfits]
    -- The fault of the transmission is told, so that two of them can be told apart.
    have hnoticed : ∃ fault other,
        asked (constant (some fault)) ≠ asked (constant (some other)) := by
      refine ⟨.noDevice, .invalidArgument, ?_⟩
      simp [asked, ask, exchange, withHost, constant, hopen, hencode, hbind, Host.transmit,
        Nat.not_lt.mpr hfits, sendFailure, Exchange.report, Fault.noDevice, Fault.invalidArgument]
    rw [Host.handed_iff (fun result => asked (constant result)) hact hnoticed, hencode,
      Except.ok.injEq]
    constructor
    . rintro ⟨⟨haddress, hbytes⟩, hlength⟩
      exact ⟨⟨hopen, hbind, haddress, hlength⟩, hbytes.symm⟩
    . rintro ⟨⟨-, -, haddress, hlength⟩, hbytes⟩
      exact ⟨⟨haddress, hbytes.symm⟩, hlength⟩
  . apply iff_of_false
    . apply Host.not_handed
      intro fault
      cases hclosed : nameserver.closed with
      | true =>
        simp only [ask, withHost, hclosed]
        rfl
      | false =>
        cases hbind : nameserver.host.bind (localAddress nameserver.address) with
        | some other =>
          simp only [ask, exchange, withHost, hclosed, Host.refusing, hbind]
        | none =>
          refine ask_withHost_congr rfl rfl ?_
          intro sent hencode
          have hlong : ¬ sent.length ≤ maxDatagram nameserver.address.ip :=
            fun hfits => hsends ⟨sent, hencode, hclosed, hbind, hfits⟩
          simp [Host.transmit, Nat.lt_of_not_le hlong]
    . rintro ⟨⟨hopen, hbind, -, hlength⟩, hencode⟩
      exact hsends ⟨bytes, hencode, hopen, hbind, hlength⟩

end Nameserver

namespace Querier

open Watched

variable {querier : Querier (Watched Link) (Watched Nameserver)}

theorem called_broadcast (querier : Querier (Watched Link) (Watched Nameserver))
    (message : Message) (known : Bool) :
    let later := (querier.broadcast message known).2
    let calls (call : Peer.Call) := if querier.closed then [] else [call]
    Called querier.multicast later.multicast (calls (.announce message known)) ∧
    Called querier.nameservers later.nameservers (calls (.ask message .observers)) := by
  unfold broadcast
  cases hclosed : querier.closed with
  | true => exact ⟨.refl _, .refl _⟩
  | false => exact ⟨called_announceAll .., called_askAll ..⟩

/--
Groups are sent the answers of a message only if that is wanted, and nameservers always. So a
broadcast sends everybody what is wanted exactly if that makes no difference or no nameserver is
sent anything.
-/
theorem answers_sent (querier : Querier (Watched Link) (Watched Nameserver))
    (message : Message) (known : Bool) :
    let later := (querier.broadcast message known).2
    let calls (call : Peer.Call) := if querier.closed then [] else [call]
    Called querier.multicast later.multicast (calls (.announce message known)) ∧
    Called querier.nameservers later.nameservers (calls (.ask message .observers)) ∧
    (∀ (link : Link) destination bytes, link.Announces message known destination bytes ↔
      link.Carries destination bytes ∧ (message.withKnown known).encode = .ok bytes) ∧
    (∀ (nameserver : Nameserver) destination bytes,
      nameserver.Asks message destination bytes ↔
        nameserver.Carries destination bytes ∧ message.encode = .ok bytes) ∧
    ((∀ peer ∈ querier.nameservers, ∀ destination bytes,
        peer.peer.Asks message destination bytes → (message.withKnown known).encode = .ok bytes)
      ↔
    (message.withKnown known).encode = message.encode ∨
      ∀ peer ∈ querier.nameservers, ∀ destination bytes,
        ¬ peer.peer.Asks message destination bytes) := by
  intro later calls
  rcases called_broadcast querier message known with ⟨hlinks, hnameservers⟩
  refine ⟨hlinks, hnameservers, fun _ _ _ => Link.announces_iff,
    fun _ _ _ => Nameserver.asks_iff, ?_⟩
  constructor
  . intro hwanted
    by_cases hsent : ∃ peer ∈ querier.nameservers, ∃ destination bytes,
        peer.peer.Asks message destination bytes
    . rcases hsent with ⟨peer, hmem, destination, bytes, hasks⟩
      left
      rw [hwanted peer hmem destination bytes hasks, (Nameserver.asks_iff.mp hasks).2]
    . right
      intro peer hmem destination bytes hasks
      exact hsent ⟨peer, hmem, destination, bytes, hasks⟩
  . rintro (hsame | hnone) peer hmem destination bytes hasks
    . rw [hsame]
      exact (Nameserver.asks_iff.mp hasks).2
    . exact absurd hasks (hnone peer hmem destination bytes)

/--
A nameserver is sent the answer of a message although it is not wanted; the group is not.
-/
theorem answer_sent_unwanted :
    let host : Transport.Host := {}
    let interface : IpAddress := .v4 ⟨10, 0, 0, 2⟩
    let group : SocketAddress := .v4 Link.groupV4 5353
    let server : SocketAddress := .v4 ⟨10, 0, 0, 1⟩ 53
    let link : Link := { interface, group, timeout := 6000, host }
    let nameserver : Nameserver := { address := server, timeout := 6000, host }
    let name : Name := ⟨[[0x68]], true⟩
    let answer : Record := { name, type := .a, ttl := 120, data := .a ⟨10, 0, 0, 9⟩ }
    let message : Message := { Message.query 7 name .a with answers := [answer] }
    let querier : Querier (Watched Link) (Watched Nameserver) :=
      { multicast := [⟨link, []⟩]
        nameservers := [⟨nameserver, []⟩]
        responseWait := 250
        timeout := 6000 }
    let later := (querier.broadcast message false).2
    later.nameservers.map (·.calls) = [[.ask message .observers]] ∧
    ∃ bytes, nameserver.Asks message server bytes ∧ message.encode = .ok bytes ∧
      (message.withKnown false).encode ≠ .ok bytes := by
  intro host interface group server link nameserver name answer message querier later
  let bytes : List UInt8 :=
    [0, 7, 1, 0, 0, 1, 0, 1, 0, 0, 0, 0, 1, 0x68, 0, 0, 1, 0, 1, 0xC0, 12, 0, 1, 0, 1, 0, 0, 0,
      120, 0, 4, 10, 0, 0, 9]
  have hencode : message.encode = .ok bytes := by decide +kernel
  refine ⟨rfl, bytes, ?_, hencode, by decide +kernel⟩
  rw [Nameserver.asks_iff]
  exact ⟨⟨rfl, rfl, rfl, by decide⟩, hencode⟩

end Querier

end Zeroconf
