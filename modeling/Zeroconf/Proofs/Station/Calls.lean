import Zeroconf.Proofs.Reception.Delivery
import Zeroconf.Proofs.Station.Course

/-!
This module contains the proof that a station at work does what its calls do: each call is a run of
small acts, in which the peers are asked one after another and replies come in while somebody waits.
-/

namespace Zeroconf.Station

inductive Call where
  | register (listener : Observer)
  | unregister (listener : Observer)
  | setTimeout (timeout : Nat)
  | resolve (query : Message) (caller : Option Observer)
  | send (query : Message)
  | sendAsync (query : Message) (caller : Observer)
  | broadcast (message : Message) (known : Bool)
  | close

def call {τ : Type} (station : Station τ) : Call → Station τ
  | .register listener => { station with querier := (station.querier.register listener).2 }
  | .unregister listener => { station with querier := (station.querier.unregister listener).2 }
  | .setTimeout timeout => { station with querier := station.querier.setTimeout timeout }
  | .resolve query caller => { station with querier := (station.querier.resolve query caller).2 }
  | .send query => { station with querier := (station.querier.send query).2 }
  | .sendAsync query caller =>
    { station with querier := (station.querier.sendAsync query caller).2 }
  | .broadcast message known =>
    { station with querier := (station.querier.broadcast message known).2 }
  | .close => station.close

theorem resolve_eq {P U : Type} [Peer P] [Peer U] {querier : Querier P U}
    (hopen : querier.closed = false) (query : Message) (caller : Option Observer) :
    (querier.resolve query caller).2
      =
    let number := querier.reception.cases.length
    let sink := Sink.inquiry number
    let toNameservers := Inquiry.selectsUnicast query querier.nameservers.length
    let reception :=
      (querier.reception.openCase query caller querier.responseWait querier.timeout).2.step number
        (.begun querier.reception.now toNameservers)
    let asked :=
      if Inquiry.selectsMulticast query querier.multicast.length then
        Querier.askAll query sink (conclude sink) querier.multicast reception
      else
        (querier.multicast, reception)
    let answered :=
      if toNameservers then
        Querier.askAll query sink (conclude sink) querier.nameservers asked.2
      else
        (querier.nameservers, asked.2)
    { querier with
      multicast := asked.1
      nameservers := answered.1
      reception := answered.2.step number .dispatched } := by
  have hcase : (querier.reception.openCase query caller querier.responseWait
      querier.timeout).2.cases[querier.reception.cases.length]?
      =
      some ⟨.create query querier.responseWait querier.timeout querier.reception.now, caller⟩ := by
    simp [Reception.openCase]
  have hstart : (querier.resolve query caller).2
      = ({ querier with
          reception := (querier.reception.openCase query caller querier.responseWait
            querier.timeout).2 } : Querier P U).start querier.reception.cases.length := by
    unfold Querier.resolve
    rw [if_neg (by simp [hopen])]
    rfl
  rw [hstart]
  unfold Querier.start
  dsimp only
  rw [hcase]
  rfl

theorem broadcast_eq {P U : Type} [GroupPeer P] [Peer U] {querier : Querier P U}
    (hopen : querier.closed = false) (message : Message) (known : Bool) :
    (querier.broadcast message known).2
      =
    let announced := Querier.announceAll message known querier.multicast querier.reception
    let asked :=
      Querier.askAll message .observers (conclude .observers) querier.nameservers announced.2.2
    { querier with multicast := announced.1, nameservers := asked.1, reception := asked.2 } := by
  unfold Querier.broadcast
  rw [if_neg (by simp [hopen])]
  rfl

namespace Course

variable {τ : Type}

theorem perform_tasks (s : Course τ) (tasks : List Task) (task : Task) :
    { s with tasks }.perform task = { s.perform task with tasks } := by
  cases task with
  | dispatched number => rfl
  | _ =>
    simp only [perform, querier, reception]
    split <;> rfl

theorem foldl_perform_tasks (s : Course τ) (others tasks : List Task) :
    others.foldl perform { s with tasks } = { others.foldl perform s with tasks } := by
  induction others generalizing s with
  | nil => rfl
  | cons task others ih => rw [List.foldl_cons, perform_tasks, ih, List.foldl_cons]

theorem follow_work (s : Course τ) :
    (machine τ).follow s (List.replicate s.tasks.length .work)
      =
    { s.tasks.foldl perform s with tasks := [] } := by
  generalize htasks : s.tasks = tasks
  induction tasks generalizing s with
  | nil =>
    rcases s with ⟨station, tasks, sent⟩
    rw [show tasks = [] from htasks]
    rfl
  | cons task tasks ih =>
    have hnext : (machine τ).next s .work = { s with tasks }.perform task := by
      simp only [machine, next, htasks]
    have hothers : ({ s with tasks }.perform task).tasks = tasks := by rw [perform_tasks]
    have hfollow := ih _ hothers
    rw [perform_tasks, foldl_perform_tasks] at hfollow
    rw [List.length_cons, List.replicate_succ, List.foldl_cons, ← hfollow, ← perform_tasks,
      ← hnext]
    rfl

theorem set_length {β : Type} {all front behind : List β} {peer : β}
    (h : all = front ++ peer :: behind) (asked : β) :
    all.set front.length asked = front ++ [asked] ++ behind := by
  simp [h]

theorem foldl_askLink (query : Message) (sink : Sink) (front : List Link) {links : List Link}
    {s : Course τ} (hlinks : s.querier.multicast = front ++ links) :
    (((List.range' front.length links.length).map (Task.askLink · query sink)).foldl perform
        s).station
      =
    { s.station with
      querier :=
        { s.querier with
          multicast := front ++ (Querier.askAll query sink (conclude sink) links s.reception).1
          reception := (Querier.askAll query sink (conclude sink) links s.reception).2 } } := by
  -- The links in `front` have been asked.
  induction links generalizing front s with
  | nil =>
    rw [List.append_nil] at hlinks
    simp only [List.length_nil, List.range'_zero, List.map_nil, List.foldl_nil, Querier.askAll,
      List.append_nil, ← hlinks]
    rfl
  | cons link links ih =>
    have hlink : s.querier.multicast[front.length]? = some link := by simp [hlinks]
    have hasked : (s.perform (.askLink front.length query sink)).querier.multicast
        = (front ++ [(askOne query sink link s.reception).1]) ++ links := by
      rw [perform_askLink hlink]
      apply set_length
      exact hlinks
    have hothers := ih (front ++ [(askOne query sink link s.reception).1]) hasked
    rw [List.length_cons, List.range'_succ, List.map_cons, List.foldl_cons]
    rw [List.length_append, List.length_singleton] at hothers
    rw [hothers, perform_askLink hlink, List.append_assoc]
    rfl

theorem foldl_askNameserver (query : Message) (sink : Sink) (front : List Nameserver)
    {nameservers : List Nameserver} {s : Course τ}
    (hnameservers : s.querier.nameservers = front ++ nameservers) :
    (((List.range' front.length nameservers.length).map
        (Task.askNameserver · query sink)).foldl perform s).station
      =
    { s.station with
      querier :=
        { s.querier with
          nameservers :=
            front ++ (Querier.askAll query sink (conclude sink) nameservers s.reception).1
          reception :=
            (Querier.askAll query sink (conclude sink) nameservers s.reception).2 } } := by
  induction nameservers generalizing front s with
  | nil =>
    rw [List.append_nil] at hnameservers
    simp only [List.length_nil, List.range'_zero, List.map_nil, List.foldl_nil, Querier.askAll,
      List.append_nil, ← hnameservers]
    rfl
  | cons nameserver nameservers ih =>
    have hfirst : s.querier.nameservers[front.length]? = some nameserver := by
      simp [hnameservers]
    have hasked : (s.perform (.askNameserver front.length query sink)).querier.nameservers
        = (front ++ [(askOne query sink nameserver s.reception).1]) ++ nameservers := by
      rw [perform_askNameserver hfirst]
      exact set_length hnameservers _
    have hothers := ih (front ++ [(askOne query sink nameserver s.reception).1]) hasked
    rw [List.length_cons, List.range'_succ, List.map_cons, List.foldl_cons]
    rw [List.length_append, List.length_singleton] at hothers
    rw [hothers, perform_askNameserver hfirst, List.append_assoc]
    rfl

theorem foldl_announce (message : Message) (known : Bool) (front : List Link) {links : List Link}
    {s : Course τ} (hlinks : s.querier.multicast = front ++ links) :
    (((List.range' front.length links.length).map (Task.announce · message known)).foldl perform
        s).station
      =
    { s.station with
      querier :=
        { s.querier with
          multicast := front ++ (Querier.announceAll message known links s.reception).1
          reception := (Querier.announceAll message known links s.reception).2.2 } } := by
  induction links generalizing front s with
  | nil =>
    rw [List.append_nil] at hlinks
    simp only [List.length_nil, List.range'_zero, List.map_nil, List.foldl_nil,
      Querier.announceAll, List.append_nil, ← hlinks]
    rfl
  | cons link links ih =>
    have hlink : s.querier.multicast[front.length]? = some link := by simp [hlinks]
    have htask : s.perform (.announce front.length message known)
        = s.withQuerier
          { s.querier with
            multicast :=
              s.querier.multicast.set front.length (GroupPeer.announce link message known).1
            reception :=
              (s.reception.note (.announced (Peer.name link) message known)).measure
                (GroupPeer.announce link message known).2.samples } := by
      simp only [perform, hlink]
    have hannounced : (s.perform (.announce front.length message known)).querier.multicast
        = (front ++ [(GroupPeer.announce link message known).1]) ++ links := by
      rw [htask]
      exact set_length hlinks _
    have hothers := ih (front ++ [(GroupPeer.announce link message known).1]) hannounced
    rw [List.length_cons, List.range'_succ, List.map_cons, List.foldl_cons]
    rw [List.length_append, List.length_singleton] at hothers
    rw [hothers, htask, List.append_assoc]
    rfl

theorem station_askLinks (selected : Bool) (query : Message) (sink : Sink) (s : Course τ) :
    ((tasksFor selected (.askLink · query sink) s.querier.multicast.length).foldl perform s).station
      =
    let asked :=
      if selected then
        Querier.askAll query sink (conclude sink) s.querier.multicast s.reception
      else
        (s.querier.multicast, s.reception)
    { s.station with
      querier := { s.querier with multicast := asked.1, reception := asked.2 } } := by
  cases selected with
  | false => rfl
  | true => exact foldl_askLink query sink [] rfl

theorem station_askNameservers (selected : Bool) (query : Message) (sink : Sink) (s : Course τ) :
    ((tasksFor selected (.askNameserver · query sink) s.querier.nameservers.length).foldl perform
        s).station
      =
    let asked :=
      if selected then
        Querier.askAll query sink (conclude sink) s.querier.nameservers s.reception
      else
        (s.querier.nameservers, s.reception)
    { s.station with
      querier := { s.querier with nameservers := asked.1, reception := asked.2 } } := by
  cases selected with
  | false => rfl
  | true => exact foldl_askNameserver query sink [] rfl

theorem station_announce (message : Message) (known : Bool) (s : Course τ) :
    ((tasksFor true (.announce · message known) s.querier.multicast.length).foldl perform
        s).station
      =
    let announced := Querier.announceAll message known s.querier.multicast s.reception
    { s.station with
      querier := { s.querier with multicast := announced.1, reception := announced.2.2 } } :=
  foldl_announce message known [] rfl

/--
Whether a run leads to a station that has nothing left to do for a call.
-/
def Leads (s : Course τ) (station : Station τ) : Prop :=
  ∃ acts, (machine τ).Admits s acts ∧ ((machine τ).follow s acts).station = station ∧
    ((machine τ).follow s acts).tasks = []

theorem Leads.trans {s : Course τ} {station later : Station τ} (h : s.Leads station)
    (h' : ∀ between : Course τ, between.station = station → between.tasks = [] →
      between.Leads later) : s.Leads later := by
  rcases h with ⟨acts, hadmits, hstation, htasks⟩
  rcases h' _ hstation htasks with ⟨others, hothers, hlater⟩
  refine ⟨acts ++ others, ?_, ?_⟩
  . exact (machine τ).admits_append_iff.mpr ⟨hadmits, hothers⟩
  . rw [Machine.follow_append]
    exact hlater

theorem leads_of_next (later : Course τ) {s : Course τ} {act : Act} {station : Station τ}
    (henabled : (machine τ).Enabled s act) (hnext : (machine τ).next s act = later)
    (hstation : (later.tasks.foldl perform later).station = station) : s.Leads station := by
  have hfollow : (machine τ).follow s (act :: .replicate later.tasks.length .work)
      = { later.tasks.foldl perform later with tasks := [] } := by
    rw [← follow_work, ← hnext]
    rfl
  have hwork : ∀ other ∈ List.replicate later.tasks.length Act.work, ∀ s,
      (machine τ).Enabled s other := by
    intro other hmem s
    rw [List.eq_of_mem_replicate hmem]
    trivial
  refine ⟨act :: List.replicate later.tasks.length .work,
    ⟨henabled, Machine.admits_of_forall hwork _⟩, ?_, ?_⟩
  . rw [hfollow]
    exact hstation
  . rw [hfollow]

theorem leads_resolve {s : Course τ} (htasks : s.tasks = []) (query : Message)
    (caller : Option Observer) :
    s.Leads { s.station with querier := (s.querier.resolve query caller).2 } := by
  have henabled : (machine τ).Enabled s (.resolve query caller) := List.isEmpty_iff.mpr htasks
  cases hclosed : s.querier.closed with
  | true =>
    apply leads_of_next s henabled
    . simp [machine, next, hclosed]
    . rw [htasks, Querier.resolve, hclosed]
      rfl
  | false =>
    apply leads_of_next (s.resolve query caller) henabled
    . simp [machine, next, hclosed]
    generalize hbegun : s.resolve query caller = begun
    have hlinks := begun.station_askLinks
      (Inquiry.selectsMulticast query s.querier.multicast.length) query
      (.inquiry s.reception.cases.length)
    generalize hasked : (tasksFor (Inquiry.selectsMulticast query s.querier.multicast.length)
      (.askLink · query (.inquiry s.reception.cases.length))
      begun.querier.multicast.length).foldl perform begun = asked at hlinks
    have hnameservers := asked.station_askNameservers
      (Inquiry.selectsUnicast query s.querier.nameservers.length) query
      (.inquiry s.reception.cases.length)
    have hquerier : asked.querier = _ := congrArg Station.querier hlinks
    have hreception : asked.reception = _ := congrArg Querier.reception hquerier
    have hall : begun.tasks =
        tasksFor (Inquiry.selectsMulticast query s.querier.multicast.length)
          (.askLink · query (.inquiry s.reception.cases.length)) begun.querier.multicast.length ++
        tasksFor (Inquiry.selectsUnicast query s.querier.nameservers.length)
          (.askNameserver · query (.inquiry s.reception.cases.length))
          asked.querier.nameservers.length ++
        [.dispatched s.reception.cases.length] := by
      rw [hquerier, ← hbegun]
      rfl
    have hdispatched : ∀ last : Course τ,
        (last.perform (.dispatched s.reception.cases.length)).station
          = { last.station with
              querier := { last.station.querier with
                reception := last.station.querier.reception.step s.reception.cases.length
                  .dispatched } } := fun _ => rfl
    rw [hall, List.foldl_append, List.foldl_append, hasked, List.foldl_cons, List.foldl_nil,
      hdispatched, hnameservers, hquerier, hreception, hlinks, resolve_eq hclosed, ← hbegun]
    rfl

theorem leads_broadcast {s : Course τ} (htasks : s.tasks = []) (message : Message) (known : Bool) :
    s.Leads { s.station with querier := (s.querier.broadcast message known).2 } := by
  have henabled : (machine τ).Enabled s (.broadcast message known) := List.isEmpty_iff.mpr htasks
  cases hclosed : s.querier.closed with
  | true =>
    apply leads_of_next s henabled
    . simp [machine, next, hclosed]
    . rw [htasks, Querier.broadcast, hclosed]
      rfl
  | false =>
    apply leads_of_next (s.broadcast message known) henabled
    . simp [machine, next, hclosed]
    generalize hbegun : s.broadcast message known = begun
    have hlinks := begun.station_announce message known
    generalize hannounced : (tasksFor true (.announce · message known)
      begun.querier.multicast.length).foldl perform begun = announced at hlinks
    have hnameservers := announced.station_askNameservers true message .observers
    have hquerier : announced.querier = _ := congrArg Station.querier hlinks
    have hreception : announced.reception = _ := congrArg Querier.reception hquerier
    have hall : begun.tasks =
        tasksFor true (.announce · message known) begun.querier.multicast.length ++
        tasksFor true (.askNameserver · message .observers)
          announced.querier.nameservers.length := by
      rw [hquerier, ← hbegun]
      rfl
    rw [hall, List.foldl_append, hannounced, hnameservers, hquerier, hreception, hlinks,
      broadcast_eq hclosed, ← hbegun]
    rfl

theorem follow_reply (count : Nat) (s : Course τ) :
    (machine τ).follow s (.replicate count (.reply 0))
      =
    s.withReception
      { Reception.receiveAll (s.reception.upcoming.take count) s.reception with
        upcoming := s.reception.upcoming.drop count } := by
  induction count generalizing s with
  | zero => rfl
  | succ count ih =>
    have hfollow : (machine τ).follow s (.replicate (count + 1) (.reply 0))
        = (machine τ).follow (s.next (.reply 0)) (.replicate count (.reply 0)) := rfl
    rw [hfollow, ih]
    cases hupcoming : s.reception.upcoming with
    | nil =>
      have hnext : s.next (.reply 0) = s := by simp [next, hupcoming]
      rw [hnext, hupcoming, List.take_nil, List.drop_nil, List.take_nil, List.drop_nil]
    | cons due others =>
      have hnext : s.next (.reply 0)
          = s.withReception { s.reception.receiveDue due with upcoming := others } := by
        simp only [next, hupcoming]
        rw [← Reception.receiveDue_upcoming]
        rfl
      have hreception : (s.withReception { s.reception.receiveDue due with
          upcoming := others }).reception = { s.reception.receiveDue due with
          upcoming := others } := rfl
      rw [hnext, hreception, Reception.receiveAll_upcoming]
      rfl

theorem exists_follow_wait (s : Course τ) (number : Nat) :
    ∃ count time, (machine τ).follow s (.replicate count (.reply 0) ++ [.pass time])
      =
    s.withReception (s.reception.wait number).2 := by
  cases hcase : s.reception.cases[number]? with
  | none =>
    have hwait : s.reception.wait number = (false, s.reception) := by
      simp only [Reception.wait, hcase]
    exact ⟨0, 0, by rw [hwait]; rfl⟩
  | some case =>
    have hended : ∀ s : Reception, (s.look number case.inquiry.deadline).isSome = true →
        True ∨ case.inquiry.deadline ≤ s.now := fun _ _ => .inl trivial
    rcases Reception.exists_advance_go_eq hended (fun _ _ _ => id) s.reception.upcoming
      s.reception with ⟨count, time, hadvance, -⟩
    have hwait : (s.reception.wait number).2
        = Reception.advance.go case.inquiry.deadline
          (fun s => (s.look number case.inquiry.deadline).isSome) s.reception.upcoming
          s.reception := by
      simp only [Reception.wait, hcase, Reception.advance]
    rw [hadvance] at hwait
    generalize hreceived :
      Reception.receiveAll (s.reception.upcoming.take count) s.reception = received at hwait
    refine ⟨count, max received.now time - received.now, ?_⟩
    have hnow : received.now + (max received.now time - received.now) = max received.now time := by
      omega
    have hpass : ∀ upcoming later, (machine τ).next (s.withReception { received with upcoming })
        (.pass later) = s.withReception { received with upcoming, now := received.now + later } :=
      fun _ _ => rfl
    rw [Machine.follow_concat, follow_reply, hreceived, hwait, hpass, hnow]

theorem exists_follow_answer (s : Course τ) (number : Nat) :
    ∃ count time samples,
      (machine τ).follow s (.replicate count (.reply 0) ++ [.pass time, .measure samples])
        =
      s.withQuerier (s.querier.answer number).2 := by
  rcases s.exists_follow_wait number with ⟨count, time, hwait⟩
  have hmeasure : ∃ samples, (s.querier.answer number).2
      = { s.querier with reception := (s.reception.wait number).2.measure samples } := by
    unfold Querier.answer Reception.answer
    dsimp only
    split
    . exact ⟨[], by simp [Reception.measure]; rfl⟩
    . exact ⟨_, rfl⟩
  rcases hmeasure with ⟨samples, hmeasure⟩
  refine ⟨count, time, samples, ?_⟩
  have hsplit : List.replicate count (Act.reply 0) ++ [.pass time, .measure samples]
      = (List.replicate count (Act.reply 0) ++ [.pass time]) ++ [.measure samples] := by simp
  rw [hsplit, Machine.follow_concat, hwait, hmeasure]
  rfl

theorem leads_answer {s : Course τ} (htasks : s.tasks = []) (number : Nat) :
    s.Leads { s.station with querier := (s.querier.answer number).2 } := by
  rcases s.exists_follow_answer number with ⟨count, time, samples, hfollow⟩
  have hall : ∀ act ∈ List.replicate count (Act.reply 0) ++ [.pass time, .measure samples], ∀ s,
      (machine τ).Enabled s act := by
    intro act hmem s
    rcases List.mem_append.mp hmem with hreply | hlast
    . rw [List.eq_of_mem_replicate hreply]
      trivial
    . rcases List.mem_pair.mp hlast with rfl | rfl
      . trivial
      . trivial
  refine ⟨_, Machine.admits_of_forall hall s, ?_, ?_⟩
  . rw [hfollow]
    rfl
  . rw [hfollow]
    exact htasks

theorem leads_send {s : Course τ} (htasks : s.tasks = []) (query : Message) :
    s.Leads { s.station with querier := (s.querier.send query).2 } := by
  have hresolve := leads_resolve htasks query none
  unfold Querier.send
  split
  . next number querier heq =>
    rw [heq] at hresolve
    apply hresolve.trans
    intro between hstation hidle
    have hanswer := between.leads_answer hidle number
    rw [Course.querier, hstation] at hanswer
    exact hanswer
  . next error querier heq =>
    rw [heq] at hresolve
    exact hresolve

theorem leads_of_idle {s : Course τ} (htasks : s.tasks = []) (act : Act) {station : Station τ}
    (henabled : (machine τ).Enabled s act) (hkept : (s.next act).tasks = s.tasks)
    (hstation : (s.next act).station = station) : s.Leads station := by
  apply leads_of_next (s.next act) henabled rfl
  rw [hkept, htasks]
  exact hstation

/--
A call is a run of small acts.
-/
theorem leads_call {s : Course τ} (htasks : s.tasks = []) (call : Call) :
    s.Leads (s.station.call call) := by
  have hidle : s.tasks.isEmpty = true := List.isEmpty_iff.mpr htasks
  cases call with
  | register listener =>
    exact leads_of_idle htasks (.register listener) trivial rfl rfl
  | unregister listener => exact leads_of_idle htasks (.unregister listener) trivial rfl rfl
  | setTimeout timeout => exact leads_of_idle htasks (.setTimeout timeout) hidle rfl rfl
  | resolve query caller => exact leads_resolve htasks query caller
  | send query => exact leads_send htasks query
  | sendAsync query caller =>
    have hresolve := leads_resolve htasks query (some caller)
    have hasync : (s.querier.sendAsync query caller).2
        = (s.querier.resolve query (some caller)).2 := by
      unfold Querier.sendAsync
      split
      . next heq => rw [heq]
      . next heq => rw [heq]
    rw [← hasync] at hresolve
    exact hresolve
  | broadcast message known => exact leads_broadcast htasks message known
  | close => exact leads_of_idle htasks .close trivial rfl rfl

theorem leads_calls {s : Course τ} (htasks : s.tasks = []) (calls : List Call) :
    s.Leads (calls.foldl call s.station) := by
  induction calls generalizing s with
  | nil => exact ⟨[], trivial, rfl, htasks⟩
  | cons first others ih =>
    apply (leads_call htasks first).trans
    intro between hstation hidle
    have hothers := ih hidle
    rw [hstation] at hothers
    exact hothers

end Course

end Zeroconf.Station
