import Zeroconf.Station

/-!
This module contains what a new station is like: nobody waits at its links, and those who observe
them and the processor for streams are the observers of the station.
-/

namespace Zeroconf

/--
An inbox at which nobody waits yet, with the observers of a station.
-/
def Inbox.observed : Inbox Sink := { observers := { members := [.observers] } }

theorem Link.of_create {host : Transport.Host} {interface : IpAddress} {querier : QuerierSettings}
    {network : NetworkSettings} {now : Nat} {link : Link}
    (h : Link.create host interface querier network now = .ok link) :
    link.inbox = {} ∧ link.timeout = querier.timeout ∧ link.closed = false := by
  unfold Link.create at h
  dsimp only at h
  cases hopen : Transport.Processor.openGroup host interface (groupOf interface)
    querier.multicastPort network now with
  | error error =>
    rw [hopen] at h
    contradiction
  | ok processor =>
    rw [hopen] at h
    cases h
    exact ⟨rfl, rfl, rfl⟩

theorem Querier.enlist_observers {links : List Link} (hlinks : ∀ link ∈ links, link.inbox = {}) :
    Querier.enlist .observers links
      =
    (links.map fun link => { link with inbox := .observed }, .ok ()) := by
  induction links with
  | nil => rfl
  | cons link links ih =>
    rw [List.forall_mem_cons] at hlinks
    have hregister : GroupPeer.register link .observers
        = ({ link with inbox := .observed }, .ok ()) := by
      simp only [GroupPeer.register, Link.register, hlinks.1]
      rfl
    rw [Querier.enlist, hregister, ih hlinks.2]
    rfl

namespace Station

structure Fresh {τ : Type} (station : Station τ) (settings : QuerierSettings) : Prop where
  links : ∀ link ∈ station.querier.multicast,
    link.inbox = .observed ∧ link.timeout = settings.timeout ∧ link.closed = false
  timeout : station.querier.timeout = settings.timeout
  isOpen : station.querier.closed = false
  reception : station.querier.reception = {}
  listening : ∀ listening, station.listening = some listening → listening.inbox = .observed

theorem of_mem_links {host : Transport.Host} {settings : Settings} {now : Nat} {link : Link}
    (h : link ∈ links host settings now) :
    link.inbox = {} ∧ link.timeout = settings.querier.timeout ∧ link.closed = false := by
  have hlink : ∀ (enabled : Bool) (interface : IpAddress),
      link ∈ (if enabled then
        (Link.create host interface settings.querier settings.network now).toOption
      else none).toList →
      link.inbox = {} ∧ link.timeout = settings.querier.timeout ∧ link.closed = false := by
    intro enabled interface hmem
    cases enabled with
    | false => simp at hmem
    | true =>
      cases hcreate : Link.create host interface settings.querier settings.network now with
      | error error => simp [hcreate, Except.toOption] at hmem
      | ok created =>
        have hsame : link = created := by simpa [hcreate, Except.toOption] using hmem
        rw [hsame]
        exact Link.of_create hcreate
  rcases List.mem_append.mp h with hmem | hmem
  . exact hlink _ _ hmem
  . exact hlink _ _ hmem

theorem fresh_assemble {τ : Type} (crew : Option (Work.Crew τ)) {links : List Link}
    {nameservers : List Nameserver} {settings : QuerierSettings} {querier : Querier Link Nameserver}
    (hlinks : ∀ link ∈ links,
      link.inbox = {} ∧ link.timeout = settings.timeout ∧ link.closed = false)
    (h : Querier.assemble links nameservers settings.responseWait settings.timeout = .ok querier) :
    Fresh { querier, crew } settings := by
  unfold Querier.assemble at h
  split at h
  . contradiction
  . rw [Querier.enlist_observers fun link hmem => (hlinks link hmem).1] at h
    cases h
    refine ⟨?_, rfl, rfl, rfl, ?_⟩
    . rw [List.forall_mem_map]
      intro link hmem
      exact ⟨rfl, (hlinks link hmem).2⟩
    . intro listening hlistening
      contradiction

theorem Fresh.listen {τ : Type} {station : Station τ} {settings : Settings}
    (h : Fresh station settings.querier) (host : Transport.Host) (address : SocketAddress)
    (look : τ) (now : Nat) :
    Fresh (station.listen host settings address look now) settings.querier := by
  unfold Station.listen
  split
  . exact h
  . dsimp only
    split
    . exact ⟨h.links, h.timeout, h.isOpen, h.reception, h.listening⟩
    . refine ⟨h.links, h.timeout, h.isOpen, h.reception, ?_⟩
      intro listening hlistening
      rw [← Option.some_inj.mp hlistening]
      rfl

theorem fresh_create {τ : Type} {host : Transport.Host} {settings : Settings}
    {system : List SocketAddress} {look : τ} {crew : Option (Work.Crew τ)} {now : Nat}
    {station : Station τ} (h : create host settings system look crew now = .ok station) :
    Fresh station settings.querier := by
  unfold create at h
  dsimp only at h
  split at h
  . contradiction
  . next querier hassemble =>
    have hfresh := fresh_assemble crew (fun _ => of_mem_links) hassemble
    split at h
    . cases h
      exact hfresh
    . next address _ =>
      cases h
      exact hfresh.listen host address look now

end Station

end Zeroconf
