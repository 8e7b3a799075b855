import Zeroconf.Proofs.Station.Wiring

/-!
This module contains what an act of a station can change with regard to those who wait at its links:
they keep their entries until their time comes, unless a link is asked, and the time at which an
inquiry ends is settled when it begins.
-/

namespace Zeroconf.Station

def waiting (link : Link) (number : Nat) : List (Inbox.Pending Sink) :=
  link.inbox.pending.filter (·.listener = .inquiry number)

def Task.link? : Task → Option (Nat × Sink)
  | .askLink place _ sink => some (place, sink)
  | _ => none

/--
The links, by their places, that are still to be asked, and on whose behalf.
-/
def Course.asks {τ : Type} (s : Course τ) : List (Nat × Sink) := s.tasks.filterMap Task.link?

/--
Whether a link is as before for those whose time has not come.
-/
structure KeepsWaiting (now : Nat) (link later : Link) : Prop where
  timeout : later.timeout = link.timeout
  pending : ∃ keep : Inbox.Pending Sink → Bool,
    later.inbox.pending = link.inbox.pending.filter keep ∧
    ∀ entry ∈ link.inbox.pending, now < entry.expires → keep entry = true

theorem KeepsWaiting.of_pending {link later : Link} (htimeout : later.timeout = link.timeout)
    (hpending : later.inbox.pending = link.inbox.pending) (now : Nat) :
    KeepsWaiting now link later :=
  ⟨htimeout, fun _ => true, by rw [hpending, List.filter_true], fun _ _ _ => rfl⟩

theorem KeepsWaiting.trans {earlier now : Nat} {link between later : Link}
    (h : KeepsWaiting earlier link between) (h' : KeepsWaiting now between later)
    (hnow : earlier ≤ now) : KeepsWaiting now link later where
  timeout := h'.timeout.trans h.timeout
  pending := by
    rcases h.pending with ⟨keep, hbetween, hkeep⟩
    rcases h'.pending with ⟨keep', hlater, hkeep'⟩
    refine ⟨fun entry => keep' entry && keep entry, ?_, ?_⟩
    . rw [hlater, hbetween, List.filter_filter]
    . intro entry hmem hlate
      have hkept := hkeep entry hmem (Nat.lt_of_le_of_lt hnow hlate)
      have hthere : entry ∈ between.inbox.pending := by
        rw [hbetween]
        exact List.mem_filter.mpr ⟨hmem, hkept⟩
      simp [hkept, hkeep' entry hthere hlate]

theorem KeepsWaiting.exists_keep {now : Nat} {link later : Link} (h : KeepsWaiting now link later)
    (number : Nat) :
    ∃ keep : Inbox.Pending Sink → Bool,
      waiting later number = (waiting link number).filter keep ∧
      ∀ entry ∈ waiting link number, now < entry.expires → keep entry = true := by
  rcases h.pending with ⟨keep, hpending, hkeep⟩
  refine ⟨keep, ?_, ?_⟩
  . simp only [waiting, hpending, List.filter_filter, Bool.and_comm]
  . intro entry hmem
    exact hkeep entry (List.mem_filter.mp hmem).1

theorem KeepsWaiting.waiting_eq_nil {now number : Nat} {link later : Link}
    (h : KeepsWaiting now link later) (hnone : waiting link number = []) :
    waiting later number = [] := by
  rcases h.exists_keep number with ⟨keep, hwaiting, -⟩
  rw [hwaiting, hnone, List.filter_nil]

theorem KeepsWaiting.waiting_eq {now number : Nat} {link later : Link}
    (h : KeepsWaiting now link later) {entry : Inbox.Pending Sink}
    (hentry : waiting link number = [entry]) (hlate : now < entry.expires) :
    waiting later number = [entry] := by
  rcases h.exists_keep number with ⟨keep, hwaiting, hkeep⟩
  have hkept := hkeep entry (by rw [hentry]; exact List.mem_singleton_self entry) hlate
  rw [hwaiting, hentry, List.filter_cons_of_pos hkept, List.filter_nil]

/--
Whether nobody was asked and no inquiry has begun, and the time has not gone back.
-/
structure Steady {τ : Type} (s later : Course τ) : Prop where
  timeout : later.querier.timeout = s.querier.timeout
  now_le : s.reception.now ≤ later.reception.now
  deadlines : later.reception.deadlines = s.reception.deadlines
  sent : later.sent = s.sent
  asks : later.asks.Sublist s.asks
  links : ∀ (place : Nat) (link : Link), later.querier.multicast[place]? = some link →
    ∃ old : Link, s.querier.multicast[place]? = some old ∧ KeepsWaiting later.reception.now old link

variable {τ : Type} {s later : Course τ}

theorem Steady.refl (s : Course τ) : Steady s s :=
  ⟨rfl, Nat.le_refl _, rfl, rfl, List.Sublist.refl _,
    fun _ link hlink => ⟨link, hlink, .of_pending rfl rfl _⟩⟩

theorem Steady.trans {between : Course τ} (h : Steady s between) (h' : Steady between later) :
    Steady s later where
  timeout := h'.timeout.trans h.timeout
  now_le := Nat.le_trans h.now_le h'.now_le
  deadlines := h'.deadlines.trans h.deadlines
  sent := h'.sent.trans h.sent
  asks := h'.asks.trans h.asks
  links place link hlink := by
    rcases h'.links place link hlink with ⟨middle, hmiddle, hkeeps'⟩
    rcases h.links place middle hmiddle with ⟨old, hold, hkeeps⟩
    exact ⟨old, hold, hkeeps.trans hkeeps' h'.now_le⟩

theorem steady_of_multicast (hmulticast : later.querier.multicast = s.querier.multicast)
    (htimeout : later.querier.timeout = s.querier.timeout)
    (hnow : s.reception.now ≤ later.reception.now)
    (hdeadlines : later.reception.deadlines = s.reception.deadlines)
    (hsent : later.sent = s.sent) (hasks : later.asks.Sublist s.asks) : Steady s later where
  timeout := htimeout
  now_le := hnow
  deadlines := hdeadlines
  sent := hsent
  asks := hasks
  links place link hlink := by
    rw [hmulticast] at hlink
    exact ⟨link, hlink, .of_pending rfl rfl _⟩

theorem steady_tasks {tasks : List Task}
    (hasks : (tasks.filterMap Task.link?).Sublist s.asks) : Steady s { s with tasks } :=
  steady_of_multicast rfl rfl (Nat.le_refl _) rfl rfl hasks

theorem steady_withQuerier (querier : Querier Link Nameserver)
    (hmulticast : querier.multicast = s.querier.multicast)
    (htimeout : querier.timeout = s.querier.timeout)
    (hnow : s.reception.now ≤ querier.reception.now)
    (hdeadlines : querier.reception.deadlines = s.reception.deadlines) :
    Steady s (s.withQuerier querier) :=
  steady_of_multicast hmulticast htimeout hnow hdeadlines rfl (List.Sublist.refl _)

theorem steady_withReception (reception : Reception) (hnow : s.reception.now ≤ reception.now)
    (hdeadlines : reception.deadlines = s.reception.deadlines) :
    Steady s (s.withReception reception) :=
  steady_withQuerier _ rfl rfl hnow hdeadlines

theorem steady_set {place : Nat} {link later : Link}
    (hlink : s.querier.multicast[place]? = some link) {reception : Reception}
    (hkeeps : KeepsWaiting reception.now link later) (hnow : s.reception.now ≤ reception.now)
    (hdeadlines : reception.deadlines = s.reception.deadlines) :
    Steady s (s.withQuerier
      { s.querier with multicast := s.querier.multicast.set place later, reception }) where
  timeout := rfl
  now_le := hnow
  deadlines := hdeadlines
  sent := rfl
  asks := List.Sublist.refl _
  links other found hfound := by
    rw [show (s.withQuerier { s.querier with
        multicast := s.querier.multicast.set place later
        reception }).querier.multicast = s.querier.multicast.set place later from rfl,
      List.getElem?_set] at hfound
    split at hfound
    . next heq =>
      split at hfound
      . rw [← heq, ← Option.some_inj.mp hfound]
        exact ⟨link, hlink, hkeeps⟩
      . contradiction
    . exact ⟨found, hfound, .of_pending rfl rfl _⟩

theorem steady_map (change : Link → Link) (hinbox : ∀ link, (change link).inbox = link.inbox)
    (htimeout : ∀ link, (change link).timeout = link.timeout) (nameservers : List Nameserver) :
    Steady s (s.withQuerier
      { s.querier with multicast := s.querier.multicast.map change, nameservers }) where
  timeout := rfl
  now_le := Nat.le_refl _
  deadlines := rfl
  sent := rfl
  asks := List.Sublist.refl _
  links place found hfound := by
    have hmap : (s.querier.multicast.map change)[place]? = some found := hfound
    rw [List.getElem?_map] at hmap
    rcases Option.map_eq_some_iff.mp hmap with ⟨link, hlink, rfl⟩
    exact ⟨link, hlink, .of_pending (htimeout link) (congrArg Inbox.pending (hinbox link)) _⟩

theorem steady_broadcast (message : Message) (known : Bool) :
    Steady s (s.broadcast message known) := by
  have hnothing : ∀ task ∈ (s.broadcast message known).tasks, task.link? = none := by
    simp only [Course.broadcast, List.forall_mem_append]
    refine ⟨?_, ?_⟩
    . exact forall_mem_tasksFor (P := fun task => task.link? = none) fun _ => rfl
    . exact forall_mem_tasksFor (P := fun task => task.link? = none) fun _ => rfl
  have hasks : ((s.broadcast message known).tasks.filterMap Task.link?).Sublist s.asks := by
    rw [List.filterMap_eq_nil_iff.mpr hnothing]
    exact List.nil_sublist _
  exact steady_tasks hasks

theorem keepsWaiting_receive (link : Link) (payload : List UInt8) (reception : Reception)
    (hobservers : link.inbox.observers.members = [.observers]) :
    KeepsWaiting reception.now link (link.receive payload reception).2.1 := by
  cases hresponse : Inbox.response? payload with
  | none =>
    have hdeliver := Inbox.deliver_of_none hresponse link.inbox reception
    rw [Link.receive_eq, hdeliver]
    exact .of_pending rfl rfl _
  | some response =>
    have hdeliver := Inbox.deliver_eq_of_observers hobservers hresponse reception
    rw [Link.receive_eq, hdeliver]
    refine ⟨rfl, (·.expires > reception.now), rfl, ?_⟩
    intro entry _ hlate
    exact decide_eq_true hlate

theorem steady_packet {listeners : List Observer} (hwired : Wired s listeners) (place : Nat)
    (payload : List UInt8) : Steady s (s.next (.packet place payload)) := by
  simp only [Course.next]
  split
  . exact .refl s
  . next link hlink =>
    have hobservers := (hwired.links link (List.mem_of_getElem? hlink)).observers
    have hkeeps := keepsWaiting_receive link payload s.reception hobservers
    rcases Link.receive_kept hobservers payload s.reception with ⟨-, -, halike⟩
    rw [← halike.now] at hkeeps
    exact steady_set hlink hkeeps (Nat.le_of_eq halike.now.symm) halike.deadlines

theorem steady_reply (place : Nat) : Steady s (s.next (.reply place)) := by
  simp only [Course.next]
  split
  . exact .refl s
  . next due _ =>
    have halike := Reception.receiveDue_alike due
      { s.reception with upcoming := s.reception.upcoming.eraseIdx place }
    refine steady_withReception _ ?_ halike.deadlines
    rw [halike.now]
    exact Nat.le_max_left ..

theorem steady_frame {listeners : List Observer} (hwired : Wired s listeners)
    (payload : List UInt8) : Steady s (s.next (.frame payload)) := by
  simp only [Course.next, handle]
  cases hlistening : s.station.listening with
  | none => exact steady_tasks (List.Sublist.refl _)
  | some listening =>
    have hobservers := (hwired.listening listening hlistening).1
    rcases Inbox.deliver_alike hobservers payload s.reception with ⟨-, -, halike⟩
    exact steady_of_multicast rfl rfl (Nat.le_of_eq halike.now.symm) halike.deadlines rfl
      (List.Sublist.refl _)

section

variable {link asked : Link} {number expires : Nat} {reaction : Reaction}
  (hasked : link.Asked asked (.inquiry number) expires reaction)

include hasked

theorem waiting_asked_of_ne {other : Nat} (hne : other ≠ number) :
    waiting asked other = waiting link other := by
  have hsink : Sink.inquiry number ≠ .inquiry other := by simpa using Ne.symm hne
  unfold waiting
  cases hverdict : reaction.verdict.isOk with
  | true =>
    rcases hasked.taken hverdict with ⟨id, hpending⟩
    simp [hpending, hsink]
  | false =>
    rcases hasked.refused hverdict with hpending | hpending
    . rw [hpending]
    . rw [hpending, List.filter_filter]
      apply List.filter_congr
      intro entry _
      by_cases hentry : entry.listener = .inquiry other
      . simp [hentry, Ne.symm hsink]
      . simp [hentry]

theorem waiting_asked (hnone : waiting link number = []) (hverdict : reaction.verdict.isOk = true) :
    ∃ id, waiting asked number = [⟨id, .inquiry number, expires⟩] := by
  rcases hasked.taken hverdict with ⟨id, hpending⟩
  refine ⟨id, ?_⟩
  unfold waiting at hnone ⊢
  rw [hpending, List.filter_append, hnone]
  simp

theorem known_asked {bound : Nat} (hnumber : number < bound)
    (hknown : ∀ entry ∈ link.inbox.pending, ∀ other, entry.listener = .inquiry other →
      other < bound) :
    ∀ entry ∈ asked.inbox.pending, ∀ other, entry.listener = .inquiry other → other < bound := by
  intro entry hmem other hother
  cases hverdict : reaction.verdict.isOk with
  | true =>
    rcases hasked.taken hverdict with ⟨id, hpending⟩
    rw [hpending, List.mem_append] at hmem
    rcases hmem with hold | hnew
    . exact hknown entry hold other hother
    . rw [List.mem_singleton.mp hnew, Sink.inquiry.injEq] at hother
      rw [← hother]
      exact hnumber
  | false =>
    rcases hasked.refused hverdict with hpending | hpending
    . rw [hpending] at hmem
      exact hknown entry hmem other hother
    . rw [hpending] at hmem
      exact hknown entry (List.mem_filter.mp hmem).1 other hother

end

structure AsksLink (s later : Course τ) (place number : Nat) (link asked : Link)
    (reaction : Reaction) : Prop where
  found : s.querier.multicast[place]? = some link
  reacts : link.Asked asked (.inquiry number) (s.reception.now + link.timeout) reaction
  multicast : later.querier.multicast = s.querier.multicast.set place asked
  timeout : later.querier.timeout = s.querier.timeout
  reception : s.reception.Asked later.reception (.inquiry number)
  sent : later.sent =
    if reaction.verdict.isOk then s.sent ++ [(place, .inquiry number)] else s.sent
  asks : s.asks = (place, .inquiry number) :: later.asks

section

variable {place number : Nat} {link asked : Link} {reaction : Reaction}
  (h : AsksLink s later place number link asked reaction)

include h

theorem AsksLink.cases_link {other : Nat} {found : Link}
    (hfound : later.querier.multicast[other]? = some found) :
    other = place ∧ found = asked ∨
      other ≠ place ∧ s.querier.multicast[other]? = some found := by
  rw [h.multicast, List.getElem?_set] at hfound
  split at hfound
  . next heq =>
    split at hfound
    . exact .inl ⟨heq.symm, (Option.some_inj.mp hfound).symm⟩
    . contradiction
  . next hne => exact .inr ⟨Ne.symm hne, hfound⟩

theorem AsksLink.cases_sent {entry : Nat × Sink} (hmem : entry ∈ later.sent) :
    entry ∈ s.sent ∨ entry = (place, .inquiry number) ∧ reaction.verdict.isOk = true := by
  rw [h.sent] at hmem
  split at hmem
  . next hverdict =>
    rcases List.mem_append.mp hmem with hold | hnew
    . exact .inl hold
    . exact .inr ⟨List.mem_singleton.mp hnew, hverdict⟩
  . exact .inl hmem

theorem AsksLink.exists_waiting {other third : Nat} {found : Link}
    (hne : (other, Sink.inquiry third) ≠ (place, .inquiry number))
    (hfound : later.querier.multicast[other]? = some found) :
    ∃ old : Link, s.querier.multicast[other]? = some old ∧
      waiting found third = waiting old third := by
  rcases h.cases_link hfound with ⟨rfl, rfl⟩ | ⟨-, hold⟩
  . have hthird : third ≠ number := by
      rintro rfl
      exact hne rfl
    exact ⟨link, h.found, waiting_asked_of_ne h.reacts hthird⟩
  . exact ⟨found, hold, rfl⟩

end

def Course.deadline (s : Course τ) (query : Message) : Nat :=
  s.reception.now +
    if Inquiry.selectsUnicast query s.querier.nameservers.length then s.querier.timeout
    else min s.querier.responseWait s.querier.timeout

theorem modify_concat {β : Type} (front : List β) (last : β) (change : β → β) :
    (front ++ [last]).modify front.length change = front ++ [change last] := by
  induction front with
  | nil => rfl
  | cons first front ih => exact congrArg (first :: ·) ih

theorem deadlines_resolve (query : Message) (caller : Option Observer) :
    (s.resolve query caller).reception.deadlines
      =
    s.reception.deadlines ++ [s.deadline query] := by
  have hcases : (s.resolve query caller).reception.cases = s.reception.cases ++ [_] :=
    modify_concat ..
  rw [Reception.deadlines, hcases, List.map_append]
  rfl

theorem asks_resolve (query : Message) (caller : Option Observer) :
    (s.resolve query caller).asks
      =
    if Inquiry.selectsMulticast query s.querier.multicast.length then
      (List.range' 0 s.querier.multicast.length).map (·, .inquiry s.reception.cases.length)
    else [] := by
  have hnameservers : ((tasksFor (Inquiry.selectsUnicast query s.querier.nameservers.length)
      (.askNameserver · query (.inquiry s.reception.cases.length))
      s.querier.nameservers.length).filterMap Task.link?) = [] := by
    rw [List.filterMap_eq_nil_iff]
    exact forall_mem_tasksFor (P := fun task => task.link? = none) fun _ => rfl
  have htasks : (s.resolve query caller).tasks
      = tasksFor (Inquiry.selectsMulticast query s.querier.multicast.length)
          (.askLink · query (.inquiry s.reception.cases.length)) s.querier.multicast.length ++
        tasksFor (Inquiry.selectsUnicast query s.querier.nameservers.length)
          (.askNameserver · query (.inquiry s.reception.cases.length))
          s.querier.nameservers.length ++
        [.dispatched s.reception.cases.length] := rfl
  have hdispatched : [Task.dispatched s.reception.cases.length].filterMap Task.link? = [] := rfl
  rw [Course.asks, htasks, List.filterMap_append, List.filterMap_append, hnameservers, hdispatched,
    List.append_nil, List.append_nil, tasksFor]
  split
  . rw [List.filterMap_map, ← List.filterMap_eq_map]
    rfl
  . rfl

/--
What an act can change: somebody may be asked, an inquiry may begin, or the timeout may be set while
no call is being made.
-/
inductive Change (s later : Course τ) : Prop where
  | steady (h : Steady s later)
  | asked {place number : Nat} {link asked : Link} {reaction : Reaction}
    (h : AsksLink s later place number link asked reaction)
  | begun (query : Message) (caller : Option Observer) (h : later = s.resolve query caller)
  | set (timeout : Nat) (hidle : s.tasks = []) (h : later = s.next (.setTimeout timeout))

theorem Change.deadlines (h : Change s later) :
    s.reception.deadlines <+: later.reception.deadlines := by
  cases h with
  | steady h => exact ⟨[], (List.append_nil _).trans h.deadlines.symm⟩
  | asked h => exact ⟨[], (List.append_nil _).trans h.reception.deadlines.symm⟩
  | begun query caller h =>
    rw [h, deadlines_resolve]
    exact List.prefix_append ..
  | set timeout hidle h =>
    subst h
    exact List.prefix_rfl

theorem change_askLink {tasks : List Task} {place number : Nat} {query : Message}
    (htasks : s.tasks = .askLink place query (.inquiry number) :: tasks) :
    Change s ({ s with tasks }.perform (.askLink place query (.inquiry number))) := by
  have hasks : s.asks = (place, .inquiry number) :: tasks.filterMap Task.link? := by
    rw [Course.asks, htasks]
    rfl
  generalize hrest : ({ s with tasks } : Course τ) = rest
  have hmulticast : rest.querier.multicast = s.querier.multicast := by rw [← hrest]; rfl
  cases hlink : s.querier.multicast[place]? with
  | none =>
    have hperform : rest.perform (.askLink place query (.inquiry number)) = rest := by
      rw [← hmulticast] at hlink
      simp only [Course.perform, hlink]
    rw [hperform, ← hrest]
    apply Change.steady
    apply steady_tasks
    rw [hasks]
    exact List.sublist_cons_self ..
  | some link =>
    have hreacts := link.ask_asked s.reception.now query (.inquiry number)
    have hasked := asked_askOne_link query (.inquiry number) link s.reception
    rw [← hmulticast] at hlink
    rw [Course.perform_askLink hlink, ← hrest]
    rw [hmulticast] at hlink
    exact .asked ⟨hlink, hreacts, rfl, rfl, hasked, rfl, hasks⟩

theorem change_perform {tasks : List Task} {task : Task} (htasks : s.tasks = task :: tasks)
    (hwired : task.Wired) : Change s ({ s with tasks }.perform task) := by
  have hasks : (tasks.filterMap Task.link?).Sublist s.asks := by
    rw [Course.asks, htasks]
    exact (List.sublist_cons_self ..).filterMap _
  -- Only the tasks for links begin anything that waits.
  have hothers : Steady s { s with tasks } := steady_tasks hasks
  cases task with
  | askLink place query sink =>
    rcases hwired with ⟨number, rfl⟩
    exact change_askLink htasks
  | askNameserver place query sink =>
    apply Change.steady
    apply hothers.trans
    generalize ({ s with tasks } : Course τ) = rest
    cases hnameserver : rest.querier.nameservers[place]? with
    | none =>
      simp only [Course.perform, hnameserver]
      exact Steady.refl rest
    | some nameserver =>
      have hasked := asked_askOne_nameserver query sink nameserver rest.reception
      rw [Course.perform_askNameserver hnameserver]
      exact steady_withQuerier _ rfl rfl (Nat.le_of_eq hasked.now.symm) hasked.deadlines
  | announce place message known =>
    apply Change.steady
    apply hothers.trans
    simp only [Course.perform]
    split
    . exact Steady.refl _
    . next link hlink =>
      have hkept : link.Kept (GroupPeer.announce link message known).1 ∧
          (GroupPeer.announce link message known).1.inbox = link.inbox :=
        link.announce_kept message known
      apply steady_set hlink
      . exact .of_pending hkept.1.timeout (congrArg Inbox.pending hkept.2) _
      . exact Nat.le_refl _
      . rfl
  | dispatched number =>
    apply Change.steady
    apply hothers.trans
    exact steady_withReception _ (Nat.le_refl _)
      (Reception.deadlines_step (fun _ => rfl) s.reception number)

theorem Wired.change {listeners : List Observer} (h : Wired s listeners) {act : Act}
    (henabled : (machine τ).Enabled s act) (hopen : (s.next act).querier.closed = false) :
    Change s (s.next act) := by
  cases act with
  | pass time => exact .steady (steady_withReception _ (Nat.le_add_right ..) rfl)
  | register listener =>
    apply Change.steady
    simp only [Course.next, Querier.register]
    split
    . exact steady_withQuerier _ rfl rfl (Nat.le_refl _) rfl
    . exact steady_withQuerier _ rfl rfl (Nat.le_refl _) rfl
  | unregister listener => exact .steady (steady_withQuerier _ rfl rfl (Nat.le_refl _) rfl)
  | setTimeout timeout => exact .set timeout (List.isEmpty_iff.mp henabled) rfl
  | resolve query caller =>
    simp only [Course.next]
    split
    . exact .steady (.refl s)
    . exact .begun query caller rfl
  | broadcast message known =>
    simp only [Course.next]
    split
    . exact .steady (.refl s)
    . exact .steady (steady_broadcast message known)
  | work =>
    simp only [Course.next]
    cases htasks : s.tasks with
    | nil => exact .steady (.refl s)
    | cons task tasks =>
      exact change_perform htasks (h.tasks task (by rw [htasks]; exact List.mem_cons_self))
  | measure samples => exact .steady (steady_withReception _ (Nat.le_refl _) rfl)
  | packet place payload => exact .steady (steady_packet h place payload)
  | frame payload => exact .steady (steady_frame h payload)
  | reply place => exact .steady (steady_reply place)
  | change host => exact .steady (steady_map ({ · with host }) (fun _ => rfl) (fun _ => rfl) _)
  | close =>
    rw [s.closed_close] at hopen
    contradiction

end Zeroconf.Station
