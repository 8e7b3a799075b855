import Zeroconf.Proofs.Querier.Watched
import Zeroconf.Proofs.Station.Calls

/-!
This module contains the proof that a querier is closed once and for good: its peers are closed one
after the other when it is closed for the first time, and are asked nothing any more.
-/

namespace Zeroconf

namespace Reception

def Entry.closed? : Entry → Option String
  | .closed peer => some peer
  | _ => none

def closings (reception : Reception) : List String := reception.journal.filterMap Entry.closed?

/--
Whether nobody was closed between two receptions, and the observers are the same.
-/
structure Undisturbed (reception later : Reception) : Prop where
  observers : later.observers = reception.observers
  closings : later.closings = reception.closings

variable {reception between later : Reception}

theorem Undisturbed.refl (reception : Reception) : Undisturbed reception reception := ⟨rfl, rfl⟩

theorem closings_note (reception : Reception) (entry : Entry) :
    (reception.note entry).closings = reception.closings ++ entry.closed?.toList := by
  simp only [closings, note, List.filterMap_append]
  cases h : entry.closed? with
  | none => simp [h]
  | some peer => simp [h]

theorem Undisturbed.note (h : Undisturbed reception later) {entry : Entry}
    (hentry : entry.closed? = none) : Undisturbed reception (later.note entry) where
  observers := h.observers
  closings := by
    rw [closings_note, hentry, h.closings]
    exact List.append_nil _

theorem Undisturbed.measure (h : Undisturbed reception later) (samples : List Sample) :
    Undisturbed reception (later.measure samples) := ⟨h.observers, h.closings⟩

theorem Undisturbed.step (h : Undisturbed reception later) (number : Nat)
    (event : Inquiry.Event) : Undisturbed reception (later.step number event) :=
  ⟨h.observers, h.closings⟩

theorem Undisturbed.hear (h : Undisturbed reception later) (report : Report)
    (listener : Observer) : Undisturbed reception (later.hear report listener).2 := h.note rfl

theorem Undisturbed.deliver (h : Undisturbed reception later) (sink : Sink) (report : Report) :
    Undisturbed reception (later.deliver sink report).2 := by
  cases sink with
  | observer listener => exact h.hear report listener
  | inquiry number =>
    simp only [Reception.deliver, deliverToInquiry]
    split
    . exact h
    . split
      . split
        . exact (h.step number _).hear report _
        . exact h.step number _
      . exact h
  | waiter number => exact ⟨h.observers, h.closings⟩
  | observers =>
    simp only [Reception.deliver, Fanout.hear_audience]
    apply Fanout.callAll_keeps (Undisturbed reception)
    . intro listener s h
      exact h.hear report listener
    . exact h

theorem Undisturbed.receive (h : Undisturbed reception later) (peer : String) (sink : Sink)
    (reaction : Reaction) : Undisturbed reception (later.receive peer sink reaction) := by
  have hreports : Undisturbed reception
      (reaction.reports.foldl
        (fun reception report =>
          (reception.deliver sink report).2.note
            (.delivered peer (reception.deliver sink report).1))
        later) := by
    generalize reaction.reports = reports
    induction reports generalizing later with
    | nil => exact h
    | cons report reports ih => exact ih ((h.deliver sink report).note rfl)
  have hmeasured := hreports.measure reaction.samples
  unfold Reception.receive
  dsimp only
  generalize Reception.measure _ _ = measured at hmeasured
  generalize reaction.later = reports
  induction reports generalizing measured with
  | nil => exact hmeasured
  | cons report reports ih => exact ih _ ⟨hmeasured.observers, hmeasured.closings⟩

theorem Undisturbed.receiveDue (h : Undisturbed reception later) (due : Due) :
    Undisturbed reception (later.receiveDue due) := by
  have hnow : Undisturbed reception { later with now := max later.now due.time } :=
    ⟨h.observers, h.closings⟩
  exact hnow.deliver due.sink due.report

theorem Undisturbed.advance (h : Undisturbed reception later) (limit : Nat)
    (done : Reception → Bool) : Undisturbed reception (later.advance limit done) := by
  unfold Reception.advance
  generalize later.upcoming = upcoming
  induction upcoming generalizing later with
  | nil =>
    unfold advance.go
    split
    . exact ⟨h.observers, h.closings⟩
    . exact ⟨h.observers, h.closings⟩
  | cons due others ih =>
    unfold advance.go
    split
    . exact ⟨h.observers, h.closings⟩
    . dsimp only
      split
      . exact ih (h.receiveDue due)
      . exact ⟨h.observers, h.closings⟩

theorem undisturbed_answer (reception : Reception) (number : Nat) :
    Undisturbed reception (reception.answer number).2 := by
  have hwait : Undisturbed reception (reception.wait number).2 := by
    unfold wait
    split
    . exact .refl reception
    . exact (Undisturbed.refl reception).advance ..
  unfold answer
  dsimp only
  split
  . exact hwait
  . exact hwait.measure _

end Reception

namespace Querier

open Reception Watched

variable {P U : Type} {reception later : Reception}

theorem undisturbed_askAll [Peer P] (query : Message) (sink : Sink)
    {conclude : Except Error UInt16 → Reception → Reception}
    (hconclude : ∀ {later : Reception}, Undisturbed reception later →
      ∀ verdict, Undisturbed reception (conclude verdict later))
    (peers : List P) (h : Undisturbed reception later) :
    Undisturbed reception (askAll query sink conclude peers later).2 := by
  induction peers generalizing later with
  | nil => exact h
  | cons peer peers ih => exact ih (hconclude ((h.note rfl).receive ..) _)

theorem undisturbed_announceAll [GroupPeer P] (message : Message) (known : Bool) (peers : List P)
    (h : Undisturbed reception later) :
    Undisturbed reception (announceAll message known peers later).2.2 := by
  induction peers generalizing later with
  | nil => exact h
  | cons peer peers ih => exact ih ((h.note rfl).measure _)

theorem closings_closeAll [Peer P] (peers : List P) (reception : Reception) :
    (closeAll peers reception).2.closings = reception.closings ++ peers.map Peer.name := by
  induction peers generalizing reception with
  | nil => simp [closeAll]
  | cons peer peers ih =>
    simp only [closeAll, ih, closings_note, List.map_cons]
    simp [Entry.closed?]

/--
The calls of all peers that are made whether the querier is open or not.
-/
def Operation.timeouts : Operation → List Peer.Call
  | .setTimeout timeout => [.setTimeout timeout]
  | _ => []

/--
How a querier changes when its peers are called and nobody is closed.
-/
structure Calls (querier later : Querier (Watched P) (Watched U))
    (multicast nameservers : List Peer.Call) : Prop where
  multicast : Called querier.multicast later.multicast multicast
  nameservers : Called querier.nameservers later.nameservers nameservers
  closed : later.closed = querier.closed
  closings : later.reception.closings = querier.reception.closings

variable {querier later : Querier (Watched P) (Watched U)}

theorem Calls.trans {between : Querier (Watched P) (Watched U)}
    {multicast nameservers others further : List Peer.Call}
    (h : Calls querier between multicast nameservers) (h' : Calls between later others further) :
    Calls querier later (multicast ++ others) (nameservers ++ further) where
  multicast := h.multicast.trans h'.multicast
  nameservers := h.nameservers.trans h'.nameservers
  closed := h'.closed.trans h.closed
  closings := h'.closings.trans h.closings

theorem calls_withReception {reception : Reception}
    (h : Undisturbed querier.reception reception) :
    Calls querier (querier.withReception reception) [] [] where
  multicast := .refl _
  nameservers := .refl _
  closed := rfl
  closings := h.closings

theorem calls_withObservers (querier : Querier (Watched P) (Watched U))
    (observers : Fanout Observer) : Calls querier (querier.withObservers observers) [] [] where
  multicast := .refl _
  nameservers := .refl _
  closed := rfl
  closings := rfl

theorem Calls.refl (querier : Querier (Watched P) (Watched U)) : Calls querier querier [] [] :=
  calls_withReception (.refl _)

theorem exists_called_selected [Peer P] {reception later : Reception} (selected : Bool)
    (query : Message) (sink : Sink) (peers : List (Watched P))
    (h : Undisturbed reception later) :
    let asked :=
      if selected then askAll query sink (Station.conclude sink) peers later else (peers, later)
    Undisturbed reception asked.2 ∧ ∃ calls, .close ∉ calls ∧ Called peers asked.1 calls := by
  cases selected with
  | false => exact ⟨h, [], by simp, .refl peers⟩
  | true =>
    refine ⟨undisturbed_askAll query sink ?_ peers h, [.ask query sink], by simp, ?_⟩
    . intro later h verdict
      unfold Station.conclude
      split
      . exact h.step _ _
      . exact h
    . exact called_askAll query sink _ peers later

theorem exists_calls_resolve [Peer P] [Peer U] (hopen : querier.closed = false) (query : Message)
    (caller : Option Observer) :
    ∃ multicast nameservers, .close ∉ multicast ∧ .close ∉ nameservers ∧
      Calls querier (querier.resolve query caller).2 multicast nameservers := by
  have hcase : Undisturbed querier.reception
      (querier.reception.openCase query caller querier.responseWait querier.timeout).2 := ⟨rfl, rfl⟩
  have hbegun := hcase.step querier.reception.cases.length
    (.begun querier.reception.now (Inquiry.selectsUnicast query querier.nameservers.length))
  rcases exists_called_selected (Inquiry.selectsMulticast query querier.multicast.length) query
    (.inquiry querier.reception.cases.length) querier.multicast hbegun with
    ⟨hasked, multicast, hmulticast, hlinks⟩
  rcases exists_called_selected (Inquiry.selectsUnicast query querier.nameservers.length) query
    (.inquiry querier.reception.cases.length) querier.nameservers hasked with
    ⟨hanswered, nameservers, hnameservers, hservers⟩
  refine ⟨multicast, nameservers, hmulticast, hnameservers, ?_⟩
  rw [Station.resolve_eq hopen]
  exact ⟨hlinks, hservers, rfl, (hanswered.step _ _).closings⟩

theorem calls_answer (querier : Querier (Watched P) (Watched U)) (number : Nat) :
    Calls querier (querier.answer number).2 [] [] :=
  calls_withReception (undisturbed_answer querier.reception number)

theorem calls_broadcast [GroupPeer P] [Peer U] (hopen : querier.closed = false)
    (message : Message) (known : Bool) :
    Calls querier (querier.broadcast message known).2 [.announce message known]
      [.ask message .observers] := by
  unfold broadcast
  rw [if_neg (by simp [hopen])]
  have hannounced := undisturbed_announceAll message known querier.multicast
    (Undisturbed.refl querier.reception)
  exact ⟨called_announceAll .., called_askAll .., rfl,
    (undisturbed_askAll message .observers (fun h _ => h) querier.nameservers hannounced).closings⟩

theorem calls_setTimeout [Peer P] [Peer U] (querier : Querier (Watched P) (Watched U))
    (timeout : Nat) :
    Calls querier (querier.setTimeout timeout) [.setTimeout timeout] [.setTimeout timeout] :=
  ⟨called_setTimeout timeout _, called_setTimeout timeout _, rfl, rfl⟩

theorem calls_register (querier : Querier (Watched P) (Watched U)) (listener : Observer) :
    Calls querier (querier.register listener).2 [] [] := by
  unfold register
  split
  . exact calls_withObservers querier _
  . exact .refl querier

/--
A querier that is closed refuses everything, and nobody observes.
-/
structure Finished (querier : Querier P U) : Prop where
  closed : querier.closed = true
  observers : querier.reception.observers = ⟨[], true⟩

section Finished

variable {querier : Querier P U}

theorem Finished.resolve [Peer P] [Peer U] (h : querier.Finished) (query : Message)
    (caller : Option Observer) :
    querier.resolve query caller = (.error (.closed "querier"), querier) := by
  rw [Querier.resolve, if_pos h.closed]

theorem Finished.send [Peer P] [Peer U] (h : querier.Finished) (query : Message) :
    querier.send query = (.error (.closed "querier"), querier) := by
  rw [Querier.send, h.resolve]

theorem Finished.sendAsync [Peer P] [Peer U] (h : querier.Finished) (query : Message)
    (caller : Observer) :
    querier.sendAsync query caller = (.error (.closed "querier"), querier) := by
  rw [Querier.sendAsync, h.resolve]

theorem Finished.broadcast [GroupPeer P] [Peer U] (h : querier.Finished) (message : Message)
    (known : Bool) :
    querier.broadcast message known = (.error (.closed "querier"), querier) := by
  rw [Querier.broadcast, if_pos h.closed]

theorem Finished.register (h : querier.Finished) (listener : Observer) :
    querier.register listener = (.error (.closed "listener registry"), querier) := by
  simp only [Querier.register, Fanout.register, h.observers, if_true]

theorem Finished.unregister (h : querier.Finished) (listener : Observer) :
    querier.unregister listener = (none, querier) := by
  have hsame : querier.withObservers ⟨[], true⟩ = querier := by
    rw [withObservers, ← h.observers]
  simp only [Querier.unregister, Fanout.unregister, h.observers]
  exact Prod.ext rfl hsame

theorem Finished.deliver (h : querier.Finished) (report : Report) :
    querier.reception.deliver .observers report = (.ok, querier.reception) := by
  simp only [Reception.deliver, h.observers]
  rfl

theorem Finished.close [Peer P] [Peer U] (h : querier.Finished) : querier.close = querier := by
  rw [Querier.close, if_pos h.closed]

theorem Finished.withReception (h : querier.Finished) {reception : Reception}
    (hundisturbed : Undisturbed querier.reception reception) :
    (querier.withReception reception).Finished :=
  ⟨h.closed, hundisturbed.observers.trans h.observers⟩

theorem Finished.operate [GroupPeer P] [Peer U] {querier : Querier (Watched P) (Watched U)}
    (h : querier.Finished) (operation : Operation) :
    (querier.operate operation).Finished ∧
      Calls querier (querier.operate operation) operation.timeouts operation.timeouts := by
  cases operation with
  | answer number =>
    exact ⟨h.withReception (undisturbed_answer querier.reception number), calls_answer ..⟩
  | setTimeout timeout => exact ⟨⟨h.closed, h.observers⟩, calls_setTimeout ..⟩
  | report sink report =>
    have hdelivered := (Undisturbed.refl querier.reception).deliver sink report
    exact ⟨h.withReception hdelivered, calls_withReception hdelivered⟩
  | pass limit =>
    have hadvanced := (Undisturbed.refl querier.reception).advance limit fun _ => false
    exact ⟨h.withReception hadvanced, calls_withReception hadvanced⟩
  | resolve query caller =>
    rw [Querier.operate, h.resolve]
    exact ⟨h, .refl querier⟩
  | send query =>
    rw [Querier.operate, h.send]
    exact ⟨h, .refl querier⟩
  | sendAsync query caller =>
    rw [Querier.operate, h.sendAsync]
    exact ⟨h, .refl querier⟩
  | broadcast message known =>
    rw [Querier.operate, h.broadcast]
    exact ⟨h, .refl querier⟩
  | register listener =>
    rw [Querier.operate, h.register]
    exact ⟨h, .refl querier⟩
  | unregister listener =>
    rw [Querier.operate, h.unregister]
    exact ⟨h, .refl querier⟩
  | close =>
    rw [Querier.operate, h.close]
    exact ⟨h, .refl querier⟩

theorem Finished.run [GroupPeer P] [Peer U] {querier : Querier (Watched P) (Watched U)}
    (h : querier.Finished) (operations : List Operation) :
    (querier.run operations).Finished ∧
      Calls querier (querier.run operations) (operations.flatMap Operation.timeouts)
        (operations.flatMap Operation.timeouts) := by
  induction operations generalizing querier with
  | nil => exact ⟨h, .refl querier⟩
  | cons operation operations ih =>
    rcases h.operate operation with ⟨hfinished, hcalls⟩
    rcases ih hfinished with ⟨hlater, hothers⟩
    exact ⟨hlater, hcalls.trans hothers⟩

end Finished

theorem exists_calls_operate [GroupPeer P] [Peer U] (hopen : querier.closed = false)
    {operation : Operation} (hne : operation ≠ .close) :
    ∃ multicast nameservers, .close ∉ multicast ∧ .close ∉ nameservers ∧
      Calls querier (querier.operate operation) multicast nameservers := by
  have hquiet : ∀ {later : Querier (Watched P) (Watched U)}, Calls querier later [] [] →
      ∃ multicast nameservers, .close ∉ multicast ∧ .close ∉ nameservers ∧
        Calls querier later multicast nameservers :=
    fun h => ⟨[], [], by simp, by simp, h⟩
  cases operation with
  | resolve query caller => exact exists_calls_resolve hopen query caller
  | answer number => exact hquiet (calls_answer querier number)
  | send query =>
    rcases exists_calls_resolve hopen query none with
      ⟨multicast, nameservers, hmulticast, hnameservers, hcalls⟩
    refine ⟨multicast, nameservers, hmulticast, hnameservers, ?_⟩
    simp only [operate, send]
    -- Sending is to resolve and then to wait, which calls nobody.
    split
    . next number resolved hresolve =>
      rw [hresolve] at hcalls
      have hall := hcalls.trans (calls_answer resolved number)
      rwa [List.append_nil, List.append_nil] at hall
    . next hresolve =>
      rw [hresolve] at hcalls
      exact hcalls
  | sendAsync query caller =>
    rcases exists_calls_resolve hopen query (some caller) with
      ⟨multicast, nameservers, hmulticast, hnameservers, hcalls⟩
    refine ⟨multicast, nameservers, hmulticast, hnameservers, ?_⟩
    simp only [operate, sendAsync]
    split
    . next hresolve =>
      rw [hresolve] at hcalls
      exact hcalls
    . next hresolve =>
      rw [hresolve] at hcalls
      exact hcalls
  | broadcast message known => exact ⟨_, _, by simp, by simp, calls_broadcast hopen message known⟩
  | register listener => exact hquiet (calls_register querier listener)
  | unregister listener => exact hquiet (calls_withObservers querier _)
  | setTimeout timeout => exact ⟨_, _, by simp, by simp, calls_setTimeout querier timeout⟩
  | report sink report =>
    exact hquiet (calls_withReception ((Undisturbed.refl querier.reception).deliver sink report))
  | pass limit =>
    exact hquiet (calls_withReception ((Undisturbed.refl querier.reception).advance limit _))
  | close => exact absurd rfl hne

theorem exists_calls_run [GroupPeer P] [Peer U] (hopen : querier.closed = false)
    {operations : List Operation} (hclose : .close ∉ operations) :
    ∃ multicast nameservers, .close ∉ multicast ∧ .close ∉ nameservers ∧
      Calls querier (querier.run operations) multicast nameservers := by
  induction operations generalizing querier with
  | nil => exact ⟨[], [], by simp, by simp, .refl querier⟩
  | cons operation operations ih =>
    rw [List.mem_cons, not_or] at hclose
    rcases exists_calls_operate hopen (Ne.symm hclose.1) with
      ⟨multicast, nameservers, hmulticast, hnameservers, hcalls⟩
    rcases ih (hcalls.closed.trans hopen) hclose.2 with
      ⟨others, further, hothers, hfurther, hlater⟩
    refine ⟨multicast ++ others, nameservers ++ further, ?_, ?_, hcalls.trans hlater⟩
    . simp [hmulticast, hothers]
    . simp [hnameservers, hfurther]

theorem finished_close [Peer P] [Peer U] (hopen : querier.closed = false) :
    querier.close.Finished ∧
    Called querier.multicast querier.close.multicast [.close] ∧
    Called querier.nameservers querier.close.nameservers [.close] ∧
    querier.close.reception.closings
      =
    querier.reception.closings ++
      (querier.multicast.map Peer.name ++ querier.nameservers.map Peer.name) := by
  have hclosings := closings_closeAll querier.nameservers
    (closeAll querier.multicast querier.reception).2
  rw [closings_closeAll querier.multicast, List.append_assoc] at hclosings
  unfold Querier.close
  rw [if_neg (by simp [hopen])]
  exact ⟨⟨rfl, rfl⟩, called_closeAll .., called_closeAll .., hclosings⟩

theorem of_assemble [GroupPeer P] {multicast : List (Watched P)} {nameservers : List (Watched U)}
    {responseWait timeout : Nat}
    (h : assemble multicast nameservers responseWait timeout = .ok querier) :
    querier.closed = false ∧ querier.reception.closings = [] ∧
      Called multicast querier.multicast [.register .observers] ∧
      querier.nameservers = nameservers := by
  unfold assemble at h
  split at h
  . contradiction
  . split at h
    . next enlisted henlist =>
      cases h
      exact ⟨rfl, rfl, called_enlist henlist, rfl⟩
    . contradiction

/--
A querier closes its peers when it is closed for the first time: those who reach groups first, in
turn, and then the nameservers. Until then it closes none of them. From then on it asks nothing of
any of them, refuses everything, and reports that go to its observers reach nobody. Whoever lets go
of a querier closes it. The peers are watched, which makes no difference to the querier.
-/
theorem closed_for_good [GroupPeer P] [Peer U] {multicast : List P} {nameservers : List U}
    {responseWait timeout : Nat}
    (hassemble : assemble (multicast.map fun peer => (⟨peer, []⟩ : Watched P))
      (nameservers.map fun peer => (⟨peer, []⟩ : Watched U)) responseWait timeout = .ok querier)
    {front : List Operation} (hfront : .close ∉ front) (behind : List Operation) :
    let before := querier.run front
    let after := querier.run (front ++ .close :: behind)
    assemble multicast nameservers responseWait timeout = .ok querier.unwatched ∧
    (∀ operations, querier.unwatched.run operations = (querier.run operations).unwatched) ∧
    (before.multicast.length = multicast.length ∧
      before.nameservers.length = nameservers.length) ∧
    (∀ peer ∈ before.multicast, .register .observers ∈ peer.calls ∧ .close ∉ peer.calls) ∧
    (∀ peer ∈ before.nameservers, .close ∉ peer.calls) ∧
    Called before.multicast after.multicast (.close :: behind.flatMap Operation.timeouts) ∧
    Called before.nameservers after.nameservers (.close :: behind.flatMap Operation.timeouts) ∧
    after.reception.closings
      = before.multicast.map Peer.name ++ before.nameservers.map Peer.name ∧
    (∀ query caller, after.resolve query caller = (.error (.closed "querier"), after)) ∧
    (∀ query, after.send query = (.error (.closed "querier"), after)) ∧
    (∀ query caller, after.sendAsync query caller = (.error (.closed "querier"), after)) ∧
    (∀ message known, after.broadcast message known = (.error (.closed "querier"), after)) ∧
    after.reception.observers = ⟨[], true⟩ ∧
    (∀ report, after.reception.deliver .observers report = (.ok, after.reception)) ∧
    (∀ listener, after.register listener = (.error (.closed "listener registry"), after)) ∧
    ∀ listener, after.unregister listener = (none, after) := by
  intro before after
  rcases of_assemble hassemble with ⟨hopen, hnone, henlisted, hnameservers⟩
  rcases exists_calls_run hopen hfront with ⟨calls, others, hcalls, hothers, hbefore⟩
  rcases finished_close (hbefore.closed.trans hopen) with
    ⟨hfinished, hmulticast, hservers, hclosings⟩
  rcases hfinished.run behind with ⟨hafter, hlater⟩
  have hrun : after = before.close.run behind := by
    simp only [after, before, run, List.foldl_append, List.foldl_cons, operate]
  rw [← hrun] at hafter hlater
  have hlinks := henlisted.trans hbefore.multicast
  have hwatched := hbefore.nameservers
  rw [hnameservers] at hwatched
  have hplain := assemble_unwatched hassemble
  simp only [List.map_map, Function.comp_def, List.map_id'] at hplain
  refine ⟨hplain, run_unwatched querier, ⟨?_, ?_⟩, ?_, ?_, hmulticast.trans hlater.multicast,
    hservers.trans hlater.nameservers, ?_, hafter.resolve, hafter.send, hafter.sendAsync,
    hafter.broadcast, hafter.observers, hafter.deliver, hafter.register, hafter.unregister⟩
  . rw [hlinks.length_eq, List.length_map]
  . rw [hwatched.length_eq, List.length_map]
  . intro peer hmem
    rcases hlinks.exists_of_mem hmem with ⟨earlier, hearlier, heq⟩
    rcases List.mem_map.mp hearlier with ⟨_, -, rfl⟩
    simp [heq, hcalls]
  . intro peer hmem
    rcases hwatched.exists_of_mem hmem with ⟨earlier, hearlier, heq⟩
    rcases List.mem_map.mp hearlier with ⟨_, -, rfl⟩
    simp [heq, hothers]
  . rw [hlater.closings, hclosings, hbefore.closings, hnone, List.nil_append]

/--
A link and a nameserver get one announcement, and are closed once although the querier is closed
twice.
-/
theorem closed_for_good_twice :
    let host : Transport.Host := {}
    let interface : IpAddress := .v4 ⟨10, 0, 0, 2⟩
    let group : SocketAddress := .v4 Link.groupV4 5353
    let link : Link := { interface, group, timeout := 6000, host }
    let nameserver : Nameserver := { address := .v4 ⟨10, 0, 0, 1⟩ 53, timeout := 6000, host }
    let message : Message := .query 7 ⟨[[0x68]], true⟩ .a
    let front : List Operation := [.register ⟨"observer", .ok⟩, .broadcast message false]
    let behind : List Operation := [.send message, .setTimeout 9, .broadcast message true, .close]
    ∃ querier : Querier (Watched Link) (Watched Nameserver),
      assemble [⟨link, []⟩] [⟨nameserver, []⟩] 250 6000 = .ok querier ∧ .close ∉ front ∧
      let after := querier.run (front ++ .close :: behind)
      after.multicast.map (·.calls)
        = [[.register .observers, .announce message false, .close, .setTimeout 9]] ∧
      after.nameservers.map (·.calls) = [[.ask message .observers, .close, .setTimeout 9]] ∧
      after.reception.closings = ["10.0.0.2", "10.0.0.1:53"] ∧
      after.send message = (.error (.closed "querier"), after) := by
  intro host interface group link nameserver message front behind
  let querier : Querier (Watched Link) (Watched Nameserver) :=
    { multicast := [⟨(link.register .observers).1, [.register .observers]⟩]
      nameservers := [⟨nameserver, []⟩]
      responseWait := 250
      timeout := 6000 }
  have hassemble : assemble ([link].map fun peer => (⟨peer, []⟩ : Watched Link))
      ([nameserver].map fun peer => (⟨peer, []⟩ : Watched Nameserver)) 250 6000 = .ok querier := by
    rfl
  have hfront : .close ∉ front := by decide
  rcases closed_for_good hassemble hfront behind with
    ⟨-, -, -, -, -, hmulticast, hnameservers, hclosings, -, hsend, -⟩
  have hlinks : (querier.run front).multicast.map (·.calls)
      = [[.register .observers, .announce message false]] := by
    rfl
  have hservers : (querier.run front).nameservers.map (·.calls)
      = [[.ask message .observers]] := by
    rfl
  rw [Called, hlinks] at hmulticast
  rw [Called, hservers] at hnameservers
  exact ⟨querier, rfl, hfront, hmulticast, hnameservers, hclosings, hsend message⟩

end Querier

end Zeroconf
