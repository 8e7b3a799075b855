import Zeroconf.Proofs.Station.Asking
import Zeroconf.Proofs.Station.Creation

/-!
This module contains the ways on which responses reach a station, and the observers on them:
whatever comes from a group, over a stream or in reply to a broadcast is reported to all who observe
the station then. What a nameserver replies to any other query is reported to the one who asked
only.
-/

namespace Zeroconf.Station

def enroll (listeners : List Observer) : Act → List Observer
  | .register listener => if listener ∈ listeners then listeners else listeners ++ [listener]
  | .unregister listener => listeners.erase listener
  | _ => listeners

def enrolled (acts : List Act) : List Observer := acts.foldl enroll []

/--
Whether a task asks on behalf of an inquiry, or asks nameservers on behalf of the observers.
-/
def Task.Wired : Task → Prop
  | .askLink _ _ sink => ∃ number, sink = .inquiry number
  | .askNameserver _ _ sink => sink = .observers ∨ ∃ number, sink = .inquiry number
  | _ => True

/--
Whether those who observe a link are the observers of the station, and only inquiries wait at it.
-/
structure WiredLink (link : Link) : Prop where
  observers : link.inbox.observers.members = [.observers]
  waiting : ∀ entry ∈ link.inbox.pending, ∃ number, entry.listener = .inquiry number

theorem WiredLink.of_kept {link later : Link} (h : WiredLink link) (hkept : link.Kept later)
    (hpending : later.inbox.pending ⊆ link.inbox.pending) : WiredLink later where
  observers := by
    rw [hkept.observers]
    exact h.observers
  waiting entry hmem := h.waiting entry (hpending hmem)

theorem WiredLink.asked {link later : Link} (h : WiredLink link) {number expires : Nat}
    {reaction : Reaction} (hasked : link.Asked later (.inquiry number) expires reaction) :
    WiredLink later where
  observers := by
    rw [hasked.kept.observers]
    exact h.observers
  waiting entry hmem := by
    cases hverdict : reaction.verdict.isOk with
    | true =>
      rcases hasked.taken hverdict with ⟨id, hpending⟩
      rw [hpending, List.mem_append] at hmem
      rcases hmem with hold | hnew
      . exact h.waiting entry hold
      . rw [List.mem_singleton.mp hnew]
        exact ⟨number, rfl⟩
    | false =>
      rcases hasked.refused hverdict with hpending | hpending
      . rw [hpending] at hmem
        exact h.waiting entry hmem
      . rw [hpending] at hmem
        exact h.waiting entry (List.mem_filter.mp hmem).1

structure Wired {τ : Type} (s : Course τ) (listeners : List Observer) : Prop where
  observers : s.reception.observers = ⟨listeners, false⟩
  links : ∀ link ∈ s.querier.multicast, WiredLink link
  listening : ∀ listening, s.station.listening = some listening →
    listening.inbox.observers.members = [.observers] ∧ listening.inbox.pending = []
  upcoming : ∀ due ∈ s.reception.upcoming,
    due.sink = .observers ∨ ∃ number, due.sink = .inquiry number
  tasks : ∀ task ∈ s.tasks, task.Wired

variable {τ : Type} {s : Course τ} {listeners : List Observer}

theorem Wired.withQuerier (h : Wired s listeners) (querier : Querier Link Nameserver)
    {others : List Observer} (hobservers : querier.reception.observers = ⟨others, false⟩)
    (hlinks : ∀ link ∈ querier.multicast, WiredLink link)
    (hupcoming : ∀ due ∈ querier.reception.upcoming,
      due.sink = .observers ∨ ∃ number, due.sink = .inquiry number) :
    Wired (s.withQuerier querier) others where
  observers := hobservers
  links := hlinks
  listening := h.listening
  upcoming := hupcoming
  tasks := h.tasks

theorem Wired.withSent (h : Wired s listeners) (sent : List (Nat × Sink)) :
    Wired { s with sent } listeners :=
  ⟨h.observers, h.links, h.listening, h.upcoming, h.tasks⟩

theorem Wired.withReception (h : Wired s listeners) {reception : Reception}
    (hobservers : reception.observers = s.reception.observers)
    (hupcoming : ∀ due ∈ reception.upcoming,
      due.sink = .observers ∨ ∃ number, due.sink = .inquiry number) :
    Wired (s.withReception reception) listeners :=
  h.withQuerier _ (hobservers.trans h.observers) h.links hupcoming

theorem Wired.register (h : Wired s listeners) (listener : Observer) :
    Wired (s.next (.register listener)) (enroll listeners (.register listener)) := by
  have hobservers : s.querier.reception.observers = ⟨listeners, false⟩ := h.observers
  simp only [Course.next, Querier.register, Fanout.register, hobservers, enroll]
  cases hfind : listeners.find? (· == listener) with
  | some present =>
    have hmem : listener ∈ listeners := by
      have hpresent := List.find?_some hfind
      rw [← eq_of_beq hpresent]
      exact List.mem_of_find?_eq_some hfind
    rw [if_pos hmem]
    exact h.withQuerier _ rfl h.links h.upcoming
  | none =>
    have hmem : listener ∉ listeners := by
      intro hmem
      simpa using List.find?_eq_none.mp hfind listener hmem
    rw [if_neg hmem]
    exact h.withQuerier _ rfl h.links h.upcoming

theorem Wired.unregister (h : Wired s listeners) (listener : Observer) :
    Wired (s.next (.unregister listener)) (enroll listeners (.unregister listener)) := by
  have hobservers : s.querier.reception.observers = ⟨listeners, false⟩ := h.observers
  simp only [Course.next, Querier.unregister, Fanout.unregister, hobservers, enroll]
  exact h.withQuerier _ rfl h.links h.upcoming

theorem Wired.set (h : Wired s listeners) (place : Nat) {link : Link} (hlink : WiredLink link) :
    ∀ other ∈ s.querier.multicast.set place link, WiredLink other := by
  intro other hmem
  rcases List.mem_or_eq_of_mem_set hmem with hmem | rfl
  . exact h.links other hmem
  . exact hlink

theorem Wired.mapLinks (h : Wired s listeners) (change : Link → Link)
    (hchange : ∀ link, (change link).inbox = link.inbox) :
    ∀ link ∈ s.querier.multicast.map change, WiredLink link := by
  intro later hmem
  rcases List.mem_map.mp hmem with ⟨link, hlink, rfl⟩
  have hwired := h.links link hlink
  constructor
  . rw [hchange]
    exact hwired.observers
  . rw [hchange]
    exact hwired.waiting

theorem Wired.asked (h : Wired s listeners) {sink : Sink}
    (hsink : sink = .observers ∨ ∃ number, sink = .inquiry number) {later : Reception}
    (hasked : s.reception.Asked later sink) :
    later.observers = ⟨listeners, false⟩ ∧
      ∀ due ∈ later.upcoming, due.sink = .observers ∨ ∃ number, due.sink = .inquiry number := by
  refine ⟨hasked.observers.trans h.observers, ?_⟩
  intro due hmem
  rcases hasked.upcoming due hmem with hold | rfl
  . exact h.upcoming due hold
  . exact hsink

theorem Wired.askLink (h : Wired s listeners) (place : Nat) (query : Message) (number : Nat) :
    Wired (s.perform (.askLink place query (.inquiry number))) listeners := by
  cases hlink : s.querier.multicast[place]? with
  | none =>
    simp only [Course.perform, hlink]
    exact h
  | some link =>
    have hwired := h.links link (List.mem_of_getElem? hlink)
    have hspec := link.ask_asked s.reception.now query (.inquiry number)
    have hasked := h.asked (.inr ⟨number, rfl⟩)
      (asked_askOne_link query (.inquiry number) link s.reception)
    have hlater : WiredLink (askOne query (.inquiry number) link s.reception).1 :=
      hwired.asked hspec
    rw [Course.perform_askLink hlink]
    apply Wired.withSent
    exact h.withQuerier _ hasked.1 (h.set place hlater) hasked.2

theorem Wired.perform (h : Wired s listeners) {task : Task} (htask : task.Wired) :
    Wired (s.perform task) listeners := by
  cases task with
  | askLink place query sink =>
    rcases htask with ⟨number, rfl⟩
    exact h.askLink place query number
  | askNameserver place query sink =>
    cases hnameserver : s.querier.nameservers[place]? with
    | none =>
      simp only [Course.perform, hnameserver]
      exact h
    | some nameserver =>
      have hasked := h.asked htask (asked_askOne_nameserver query sink nameserver s.reception)
      rw [Course.perform_askNameserver hnameserver]
      exact h.withQuerier _ hasked.1 h.links hasked.2
  | announce place message known =>
    simp only [Course.perform]
    split
    . exact h
    . next link hlink =>
      have hkept : link.Kept (GroupPeer.announce link message known).1 ∧
          (GroupPeer.announce link message known).1.inbox = link.inbox :=
        link.announce_kept message known
      have hlater : WiredLink (GroupPeer.announce link message known).1 := by
        apply (h.links link (List.mem_of_getElem? hlink)).of_kept hkept.1
        rw [hkept.2]
        exact List.Subset.refl _
      exact h.withQuerier _ h.observers (h.set place hlater) h.upcoming
  | dispatched number => exact h.withReception rfl h.upcoming

theorem Wired.resolve (h : Wired s listeners) (query : Message) (caller : Option Observer) :
    Wired (s.resolve query caller) listeners := by
  refine ⟨h.observers, h.links, h.listening, h.upcoming, ?_⟩
  simp only [Course.resolve, List.forall_mem_append]
  refine ⟨⟨?_, ?_⟩, ?_⟩
  . exact forall_mem_tasksFor fun place => ⟨_, rfl⟩
  . exact forall_mem_tasksFor fun place => .inr ⟨_, rfl⟩
  . simp [Task.Wired]

theorem Wired.broadcast (h : Wired s listeners) (message : Message) (known : Bool) :
    Wired (s.broadcast message known) listeners := by
  refine ⟨h.observers, h.links, h.listening, h.upcoming, ?_⟩
  simp only [Course.broadcast, List.forall_mem_append]
  refine ⟨?_, ?_⟩
  . exact forall_mem_tasksFor fun place => trivial
  . exact forall_mem_tasksFor fun place => .inl rfl

theorem Wired.work (h : Wired s listeners) : Wired (s.next .work) listeners := by
  simp only [Course.next]
  cases htasks : s.tasks with
  | nil => exact h
  | cons task tasks =>
    have hall := h.tasks
    rw [htasks, List.forall_mem_cons] at hall
    have hothers : Wired { s with tasks } listeners :=
      ⟨h.observers, h.links, h.listening, h.upcoming, hall.2⟩
    exact hothers.perform hall.1

theorem Wired.packet (h : Wired s listeners) (place : Nat) (payload : List UInt8) :
    Wired (s.next (.packet place payload)) listeners := by
  simp only [Course.next]
  split
  . exact h
  . next link hlink =>
    have hwired := h.links link (List.mem_of_getElem? hlink)
    rcases Link.receive_kept hwired.observers payload s.reception with ⟨hkept, hpending, halike⟩
    refine h.withQuerier _ (halike.observers.trans h.observers) ?_ ?_
    . exact h.set place (hwired.of_kept hkept hpending)
    . rw [show _ = s.reception.upcoming from halike.upcoming]
      exact h.upcoming

theorem Wired.frame (h : Wired s listeners) (payload : List UInt8) :
    Wired (s.next (.frame payload)) listeners := by
  simp only [Course.next, handle]
  split
  . exact h
  . next listening hlistening =>
    rcases h.listening listening hlistening with ⟨hobservers, hpending⟩
    rcases Inbox.deliver_alike hobservers payload s.station.querier.reception with
      ⟨hkept, hfewer, halike⟩
    refine ⟨halike.observers.trans h.observers, h.links, ?_, ?_, h.tasks⟩
    . intro later hlater
      rw [← Option.some_inj.mp hlater, hkept]
      refine ⟨hobservers, List.eq_nil_of_subset_nil ?_⟩
      rw [← hpending]
      exact hfewer
    . intro due hmem
      rw [Course.reception, halike.upcoming] at hmem
      exact h.upcoming due hmem

theorem Wired.reply (h : Wired s listeners) (place : Nat) :
    Wired (s.next (.reply place)) listeners := by
  simp only [Course.next]
  split
  . exact h
  . next due _ =>
    have halike := Reception.receiveDue_alike due
      { s.reception with upcoming := s.reception.upcoming.eraseIdx place }
    refine h.withReception halike.observers ?_
    rw [halike.upcoming]
    intro other hmem
    exact h.upcoming other (List.mem_of_mem_eraseIdx hmem)

theorem Wired.next (h : Wired s listeners) (act : Act)
    (hopen : (s.next act).querier.closed = false) : Wired (s.next act) (enroll listeners act) := by
  cases act with
  | pass time => exact h.withReception rfl h.upcoming
  | register listener => exact h.register listener
  | unregister listener => exact h.unregister listener
  | setTimeout timeout =>
    refine h.withQuerier (s.querier.setTimeout timeout) h.observers ?_ h.upcoming
    exact h.mapLinks _ fun _ => rfl
  | resolve query caller =>
    simp only [Course.next]
    split
    . exact h
    . exact h.resolve query caller
  | broadcast message known =>
    simp only [Course.next]
    split
    . exact h
    . exact h.broadcast message known
  | work => exact h.work
  | measure samples => exact h.withReception rfl h.upcoming
  | packet place payload => exact h.packet place payload
  | frame payload => exact h.frame payload
  | reply place => exact h.reply place
  | change host =>
    refine h.withQuerier _ h.observers ?_ h.upcoming
    exact h.mapLinks _ fun _ => rfl
  | close =>
    rw [s.closed_close] at hopen
    contradiction

theorem wired_initial {station : Station τ} {settings : QuerierSettings}
    (h : station.Fresh settings) : Wired (.initial station) [] := by
  have hreception : (Course.initial station).reception = {} := h.reception
  exact {
    observers := by rw [hreception]
    links := by
      intro link hmem
      have hinbox := (h.links link hmem).1
      constructor
      . rw [hinbox]
        rfl
      . rw [hinbox]
        exact fun _ hmem => absurd hmem List.not_mem_nil
    listening := by
      intro listening hlistening
      rw [h.listening listening hlistening]
      exact ⟨rfl, rfl⟩
    upcoming := by
      intro due hmem
      rw [hreception] at hmem
      exact absurd hmem List.not_mem_nil
    tasks := fun _ hmem => absurd hmem List.not_mem_nil }

theorem wired_follow {station : Station τ} {settings : QuerierSettings}
    (h : station.Fresh settings) {acts : List Act}
    (hadmits : (machine τ).Admits (.initial station) acts)
    (hopen : ((machine τ).follow (.initial station) acts).querier.closed = false) :
    Wired ((machine τ).follow (.initial station) acts) (enrolled acts) := by
  refine Machine.run_induction
    (P := fun acts s => s.querier.closed = false → Wired s (enrolled acts))
    (fun _ => wired_initial h) ?_ hadmits hopen
  intro acts act _ ih _ hopen
  have hnext := (ih (Course.open_of_next hopen)).next act hopen
  rw [enrolled, List.foldl_append]
  exact hnext

theorem WiredLink.exists_numbers {link : Link} (h : WiredLink link) (now : Nat) :
    ∃ numbers : List Nat,
      (link.inbox.expire now).pending.map (·.listener) = numbers.map Sink.inquiry := by
  have hwaiting : ∀ entry ∈ (link.inbox.expire now).pending,
      ∃ number, entry.listener = .inquiry number := by
    intro entry hmem
    exact h.waiting entry (List.mem_filter.mp hmem).1
  generalize (link.inbox.expire now).pending = pending at *
  induction pending with
  | nil => exact ⟨[], rfl⟩
  | cons entry pending ih =>
    rw [List.forall_mem_cons] at hwaiting
    rcases hwaiting.1 with ⟨number, hnumber⟩
    rcases ih hwaiting.2 with ⟨numbers, hnumbers⟩
    exact ⟨number :: numbers, by rw [List.map_cons, hnumber, hnumbers, List.map_cons]⟩

theorem reception_packet {place : Nat} {link : Link}
    (hlink : s.querier.multicast[place]? = some link) (payload : List UInt8) :
    (s.next (.packet place payload)).reception
      =
    (link.inbox.deliver payload s.reception).2.2 := by
  simp only [Course.next, hlink]
  rfl

theorem Wired.heard_packet (h : Wired s listeners) {place : Nat} {link : Link}
    (hlink : s.querier.multicast[place]? = some link) {payload : List UInt8} {response : Message}
    (hresponse : Inbox.response? payload = some response) :
    ∃ numbers : List Nat,
      (link.inbox.expire s.reception.now).pending.map (·.listener) = numbers.map Sink.inquiry ∧
      (s.next (.packet place payload)).reception.heard = s.reception.heard ++
        numbers.flatMap (fun number =>
          s.reception.callsFor ⟨response.id, .message response⟩ (.inquiry number)) ++
        Observer.told ⟨response.id, .message response⟩ listeners := by
  have hwired := h.links link (List.mem_of_getElem? hlink)
  rcases hwired.exists_numbers s.reception.now with ⟨numbers, hnumbers⟩
  refine ⟨numbers, hnumbers, ?_⟩
  have hheard := Inbox.heard_deliver hwired.observers hresponse s.reception
  rw [hnumbers, List.flatMap_map] at hheard
  rw [reception_packet hlink, hheard, Reception.callsFor, h.observers]

theorem Wired.heard_frame (h : Wired s listeners) (hlistening : s.station.listening.isSome = true)
    {payload : List UInt8} {response : Message}
    (hresponse : Inbox.response? payload = some response) :
    (s.next (.frame payload)).reception.heard
      =
    s.reception.heard ++ Observer.told ⟨response.id, .message response⟩ listeners := by
  rcases Option.isSome_iff_exists.mp hlistening with ⟨listening, hsome⟩
  rcases h.listening listening hsome with ⟨hobservers, hpending⟩
  have hheard := Inbox.heard_deliver hobservers hresponse s.reception
  have hreception : (s.next (.frame payload)).reception
      = (listening.inbox.deliver payload s.reception).2.2 := by
    simp only [Course.next, handle, hsome]
    rfl
  rw [hreception, hheard, Inbox.expire, hpending, Reception.callsFor, h.observers]
  simp

theorem heard_reply {place : Nat} {due : Reception.Due}
    (hdue : s.reception.upcoming[place]? = some due) :
    (s.next (.reply place)).reception.heard
      =
    s.reception.heard ++ s.reception.callsFor due.report due.sink := by
  simp only [Course.next, hdue]
  exact Reception.heard_deliver due.sink due.report
    { s.reception with
      upcoming := s.reception.upcoming.eraseIdx place
      now := max s.reception.now due.time }

/--
Each response that comes from a group or over a stream, and each reply of a nameserver to a
broadcast, is reported to those who are registered then, in the order of their registration. A reply
to any other query is reported to the one who asked and to nobody else.
-/
theorem reported_to_enrolled {host : Transport.Host} {settings : Settings}
    {system : List SocketAddress} {look : τ} {crew : Option (Work.Crew τ)} {now : Nat}
    {station : Station τ} (hcreate : create host settings system look crew now = .ok station)
    {acts : List Act} (hadmits : (machine τ).Admits (.initial station) acts)
    (hopen : ((machine τ).follow (.initial station) acts).querier.closed = false) :
    let s := (machine τ).follow (.initial station) acts
    (∀ place link payload response, s.querier.multicast[place]? = some link →
      Inbox.response? payload = some response →
      ∃ numbers : List Nat,
        (link.inbox.expire s.reception.now).pending.map (·.listener) = numbers.map Sink.inquiry ∧
        (s.next (.packet place payload)).reception.heard = s.reception.heard ++
          numbers.flatMap (fun number =>
            s.reception.callsFor ⟨response.id, .message response⟩ (.inquiry number)) ++
          Observer.told ⟨response.id, .message response⟩ (enrolled acts)) ∧
    (∀ payload response, s.station.listening.isSome = true →
      Inbox.response? payload = some response →
      (s.next (.frame payload)).reception.heard = s.reception.heard ++
        Observer.told ⟨response.id, .message response⟩ (enrolled acts)) ∧
    ∀ place due, s.reception.upcoming[place]? = some due →
      due.sink = .observers ∧
        (s.next (.reply place)).reception.heard = s.reception.heard ++
          Observer.told due.report (enrolled acts) ∨
      ∃ number, due.sink = .inquiry number ∧
        (s.next (.reply place)).reception.heard = s.reception.heard ++
          s.reception.callsFor due.report (.inquiry number) := by
  intro s
  have hwired : Wired s (enrolled acts) := wired_follow (fresh_create hcreate) hadmits hopen
  refine ⟨?_, ?_, ?_⟩
  . intro place link payload response hlink hresponse
    exact hwired.heard_packet hlink hresponse
  . intro payload response hlistening hresponse
    exact hwired.heard_frame hlistening hresponse
  . intro place due hdue
    have hheard := heard_reply hdue
    rcases hwired.upcoming due (List.mem_of_getElem? hdue) with hsink | ⟨number, hsink⟩
    . rw [hsink, Reception.callsFor, hwired.observers] at hheard
      exact .inl ⟨hsink, hheard⟩
    . rw [hsink] at hheard
      exact .inr ⟨number, hsink, hheard⟩

/--
The first observer hears of the reply to a broadcast and of a packet, the second stops both, and the
third hears of none.
-/
theorem reported_to_enrolled_stopped :
    let server : SocketAddress := .v4 ⟨10, 0, 0, 1⟩ 53
    let payload : List UInt8 := [0, 7, 0x80, 0, 0, 0, 0, 0, 0, 0, 0, 0]
    let host : Transport.Host :=
      { traffic := fun _ _ => { arrivals := [⟨5, .ok (server, payload)⟩] } }
    let settings : Settings := { querier := { ipv6 := false, nameservers := [server] } }
    let first : Observer := ⟨"first", .ok⟩
    let second : Observer := ⟨"second", .stop⟩
    let report : Report := ⟨7, .message { id := 7, isResponse := true }⟩
    let acts : List Act :=
      [.register first, .register second, .register ⟨"third", .ok⟩,
        .broadcast (.query 7 ⟨[[0x68]], true⟩ .a) false, .work, .work]
    ∃ station : Station Unit, create host settings [] () none 0 = .ok station ∧
      let s := (machine Unit).follow (.initial station) acts
      (machine Unit).Admits (.initial station) acts ∧
      (s.next (.packet 0 payload)).reception.heard = [("first", report), ("second", report)] ∧
      (s.next (.reply 0)).reception.heard = [("first", report), ("second", report)] := by
  intro server payload host settings first second report acts
  let link : Link :=
    { interface := .v4 .unspecified
      group := .of (.v4 Link.groupV4) 5353
      timeout := 6000
      host
      inbox := .observed }
  let nameserver : Nameserver := { address := server, timeout := 6000, host }
  let querier : Querier Link Nameserver :=
    { multicast := [link], nameservers := [nameserver], responseWait := 250, timeout := 6000 }
  let station : Station Unit := { querier, crew := none }
  have hcreate : create host settings [] () none 0 = .ok station := by rfl
  have hadmits : (machine Unit).Admits (.initial station) acts := by decide +kernel
  have hopen : ((machine Unit).follow (.initial station) acts).querier.closed = false := by
    decide +kernel
  rcases reported_to_enrolled hcreate hadmits hopen with ⟨hpacket, -, hreply⟩
  have hresponse : Inbox.response? payload = some { id := 7, isResponse := true } := by
    decide +kernel
  have hheard : ((machine Unit).follow (.initial station) acts).reception.heard = [] := by
    decide +kernel
  have htold : Observer.told report (enrolled acts) = [("first", report), ("second", report)] := by
    decide
  have hwaiting : (((machine Unit).follow (.initial station) acts).querier.multicast[0]?.map
      fun link => link.inbox.pending.map (·.listener)) = some [] := by
    decide +kernel
  rcases Option.map_eq_some_iff.mp hwaiting with ⟨asked, hlink, hnobody⟩
  have hdue : ((machine Unit).follow (.initial station) acts).reception.upcoming[0]?
      = some ⟨5, .observers, report⟩ := by
    decide +kernel
  refine ⟨station, hcreate, hadmits, ?_, ?_⟩
  . rcases hpacket 0 asked payload _ hlink hresponse with ⟨numbers, hnumbers, hreported⟩
    have hnone : numbers = [] := by
      rw [List.map_eq_nil_iff] at hnobody
      simpa [Inbox.expire, hnobody] using hnumbers.symm
    rw [hreported, hheard, hnone, htold]
    rfl
  . rcases hreply 0 _ hdue with ⟨-, hreported⟩ | ⟨number, hsink, -⟩
    . rw [hreported, hheard, htold]
      rfl
    . exact absurd hsink nofun

/--
A nameserver answers an ordinary query. The answer comes to the inquiry, but not to the observer.
-/
theorem answer_not_reported :
    let server : SocketAddress := .v4 ⟨10, 0, 0, 1⟩ 53
    let payload : List UInt8 := [0, 7, 0x80, 0, 0, 0, 0, 0, 0, 0, 0, 0]
    let host : Transport.Host :=
      { traffic := fun _ _ => { arrivals := [⟨5, .ok (server, payload)⟩] } }
    let settings : Settings :=
      { querier := { ipv4 := false, ipv6 := false, nameservers := [server] } }
    let response : Message := { id := 7, isResponse := true }
    let acts : List Act :=
      [.register ⟨"observer", .ok⟩, .resolve (.query 7 ⟨[[0x68]], true⟩ .a) none, .work, .work]
    ∃ station : Station Unit, create host settings [] () none 0 = .ok station ∧
      let s := (machine Unit).follow (.initial station) acts
      (machine Unit).Admits (.initial station) acts ∧ s.querier.closed = false ∧
      (s.next (.reply 0)).reception.cases.map (·.inquiry.replies) = [[.message response]] ∧
      ∀ others, (s.next (.reply 0)).reception.heard
        ≠ others ++ Observer.told ⟨7, .message response⟩ (enrolled acts) := by
  intro server payload host settings response acts
  let nameserver : Nameserver := { address := server, timeout := 6000, host }
  let querier : Querier Link Nameserver :=
    { multicast := [], nameservers := [nameserver], responseWait := 250, timeout := 6000 }
  let station : Station Unit := { querier, crew := none }
  have hheard : (((machine Unit).follow (.initial station) acts).next
      (.reply 0)).reception.heard = [] := by
    decide +kernel
  refine ⟨station, rfl, by decide +kernel, by decide +kernel, by decide +kernel, ?_⟩
  intro others hothers
  rw [hheard] at hothers
  have hlength := congrArg List.length hothers
  simp [Observer.told, enrolled, enroll, acts] at hlength

end Zeroconf.Station
