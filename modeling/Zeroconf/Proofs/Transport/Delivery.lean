import Zeroconf.Proofs.Transport.Handover

/-!
This module contains the proof that packets get to the listener: whatever happens in between, and
however the listener takes each of them, each is handed over once or counts as dropped once.
-/

namespace Zeroconf

theorem Work.Pool.queue_place {τ : Type} (pool : Pool τ) (task : τ) :
    (pool.place task).2.1.queue = pool.queue := by
  unfold place
  split
  . rfl
  . split <;> rfl

namespace Work.Workshop

variable {shop : Workshop}

/--
How much work is left at most, with the tasks that have no place yet.
-/
def burden (shop : Workshop) : Nat := shop.remaining + 4 * shop.full.length

theorem burden_call_le (hdepth : 0 < shop.pool.settings.queueDepth) :
    (shop.next .call).burden ≤ shop.burden + 4 := by
  simp only [next, Pool.offer_eq hdepth]
  cases shop.pool.accepting with
  | false =>
    simp only [Bool.false_eq_true, if_false, burden, remaining]
    omega
  | true =>
    by_cases hroom : shop.pool.queue.length < shop.pool.settings.queueDepth
    . simp only [if_true, if_pos hroom, burden, remaining, List.length_append,
        List.length_singleton]
      omega
    . simp only [if_true, if_neg hroom, burden, remaining, List.length_append,
        List.length_singleton]
      omega

theorem burden_place_lt {task : Nat} (htask : task ∈ shop.full) :
    (shop.next (.place task)).burden < shop.burden := by
  have hfull := List.length_pos_of_mem htask
  have hlength := List.length_erase_of_mem htask
  simp only [next]
  split
  . simp only [burden, remaining, Pool.queue_place, List.length_append, List.length_singleton]
    omega
  . simp only [burden, remaining, Pool.queue_place]
    omega

theorem burden_next_lt {act : Act} (hwork : act.isWork = true) (henabled : shop.Enabled act) :
    (shop.next act).burden < shop.burden := by
  have hlt := remaining_next_lt hwork henabled
  have hfull : (shop.next act).full = shop.full := by
    cases act with
    | place task => contradiction
    | call => contradiction
    | _ => rfl
  simp only [burden, hfull]
  omega

end Work.Workshop

namespace Transport

open Work (Workshop)

namespace Passage

def left (passage : Passage) : Nat :=
  match passage.stage with
  | .received => 7
  | .found => 6
  | .lost => 1
  | .submitted _ => 1
  | .dropped _ => 0

theorem stage_follow (shop : Workshop) (act : Workshop.Act) (passage : Passage) :
    (passage.follow shop act).stage = passage.stage := by
  unfold follow
  split
  . split <;> rfl
  . rfl

theorem packet_follow (shop : Workshop) (act : Workshop.Act) (passage : Passage) :
    (passage.follow shop act).packet = passage.packet := by
  unfold follow
  split
  . split <;> rfl
  . rfl

theorem left_follow (shop : Workshop) (act : Workshop.Act) (passage : Passage) :
    (passage.follow shop act).left = passage.left := by
  rw [left, stage_follow, left]

end Passage

namespace Handover

variable {settings : PoolSettings} {channel : Channel} {s : Handover}

def Act.packet? : Act → Option Packet
  | .receive packet => some packet
  | _ => none

/--
The same act, but the calls of the listener end as stated.
-/
def Act.ending (endings : Nat → Ending) : Act → Act
  | .finish task _ => .finish task (endings task)
  | act => act

/--
Whether an act carries on what has begun, where the calls of the listener end as stated.
-/
def Act.CarriesOn (endings : Nat → Ending) : Act → Prop
  | .look _ => True
  | .submit _ => True
  | .drop _ => True
  | .work act => act.isWork = true ∨ ∃ task, act = .place task
  | .finish task ending => ending = endings task
  | _ => False

theorem packets_change (s : Handover) (place : Nat) {f : Passage → Passage}
    (h : ∀ passage, (f passage).packet = passage.packet) :
    (s.change place f).passages.map (·.packet) = s.passages.map (·.packet) := by
  apply List.ext_getElem?
  intro other
  simp only [change, List.getElem?_map, List.getElem?_modify]
  split
  . cases s.passages[other]? with
    | none => rfl
    | some passage => simp [h]
  . simp

theorem packets_next (s : Handover) (act : Act) :
    (s.next act).passages.map (·.packet)
      =
    s.passages.map (·.packet) ++ act.packet?.toList := by
  cases act with
  | receive packet => simp [next, Act.packet?]
  | look place =>
    simp only [Act.packet?, Option.toList_none, List.append_nil]
    exact packets_change s place (fun _ => rfl)
  | submit place =>
    simp only [Act.packet?, Option.toList_none, List.append_nil]
    exact packets_change s place (fun _ => rfl)
  | drop place =>
    simp only [Act.packet?, Option.toList_none, List.append_nil]
    exact packets_change s place (fun _ => rfl)
  | work act => simp [next, Act.packet?, Passage.packet_follow]
  | _ => simp [next, Act.packet?]

theorem packets_follow (s : Handover) (acts : List Act) :
    (machine.follow s acts).passages.map (·.packet)
      =
    s.passages.map (·.packet) ++ acts.filterMap Act.packet? := by
  induction acts generalizing s with
  | nil => simp [Machine.follow]
  | cons act acts ih =>
    have hothers : (machine.follow s (act :: acts)).passages.map (·.packet) = _ := ih (s.next act)
    rw [hothers, packets_next, List.append_assoc]
    cases hpacket : act.packet? with
    | none => simp [hpacket]
    | some packet => simp [hpacket]

/--
How the calls of the listener end makes no difference to anything that can happen, or that it leads
to.
-/
theorem follow_ending (endings : Nat → Ending) (s : Handover) (acts : List Act) :
    (machine.Admits s (acts.map (Act.ending endings)) ↔ machine.Admits s acts) ∧
      machine.follow s (acts.map (Act.ending endings)) = machine.follow s acts := by
  induction acts generalizing s with
  | nil => exact ⟨Iff.rfl, rfl⟩
  | cons act acts ih =>
    have hsame : (machine.Enabled s (act.ending endings) ↔ machine.Enabled s act) ∧
        machine.next s (act.ending endings) = machine.next s act := by
      cases act <;> exact ⟨Iff.rfl, rfl⟩
    rw [List.map_cons, Machine.Admits, Machine.Admits, hsame.2, hsame.1, (ih _).1]
    refine ⟨Iff.rfl, ?_⟩
    calc machine.follow (machine.next s (act.ending endings)) (acts.map (Act.ending endings))
      _ = machine.follow (machine.next s act) (acts.map (Act.ending endings)) := by rw [hsame.2]
      _ = machine.follow (machine.next s act) acts := (ih _).2

/--
Whether a packet has got to the listener or was given up.
-/
def Arrived (s : Handover) (passage : Passage) : Prop :=
  match passage.stage with
  | .dropped _ => True
  | .submitted task => task ∈ s.shop.starts
  | _ => False

theorem Sound.balance_of_arrived (h : s.Sound settings channel) {passage : Passage}
    (hmem : passage ∈ s.passages) (harrived : s.Arrived passage) :
    s.handed passage + passage.drops channel = 1 := by
  have hsound := h.passages passage hmem
  rw [hsound.drops_eq]
  unfold handed Passage.task? Passage.losses
  unfold Arrived at harrived
  cases hstage : passage.stage with
  | dropped task =>
    cases task with
    | none => simp
    | some task => simp [h.count_starts_of_rejected (hsound.rejected task hstage)]
  | submitted task =>
    rw [hstage] at harrived
    simp [List.count_eq_one_of_mem h.accounts.nodup_starts harrived]
  | _ => simp [hstage] at harrived

def left (s : Handover) : Nat := (s.passages.map Passage.left).sum + s.shop.burden

theorem left_change {place : Nat} {stage : Passage.Stage} (h : s.stage? place = some stage)
    (f : Passage → Passage) (less : Nat)
    (hless : ∀ passage, passage.stage = stage → (f passage).left + less = passage.left) :
    (s.change place f).left + less = s.left := by
  rcases exists_change h f with ⟨front, passage, behind, hpassages, hstage, hchange⟩
  have := hless passage hstage
  rw [hchange]
  simp only [left, hpassages, List.map_append, List.map_cons, List.sum_append, List.sum_cons]
  omega

theorem left_work (act : Workshop.Act) :
    (s.next (.work act)).left = (s.passages.map Passage.left).sum + (s.shop.next act).burden := by
  simp only [left, next, List.map_map, Function.comp_def, Passage.left_follow]

theorem exists_work (hvalid : s.shop.Valid settings) (hcore : 0 < settings.coreThreads)
    (endings : Nat → Ending) (hdone : ¬ s.shop.Done) :
    ∃ act : Act, act.CarriesOn endings ∧ s.Enabled act ∧ (s.next act).left < s.left := by
  rcases hvalid.exists_work hcore hdone with ⟨act, hwork, henabled⟩
  have hlt := Workshop.burden_next_lt hwork henabled
  cases hfinish : act.isFinish with
  | true =>
    cases act with
    | finish task =>
      exact ⟨.finish task (endings task), rfl, henabled, Nat.add_lt_add_left hlt _⟩
    | _ => contradiction
  | false =>
    refine ⟨.work act, .inl hwork, ⟨henabled, hfinish⟩, ?_⟩
    rw [left_work]
    exact Nat.add_lt_add_left hlt _

theorem exists_step_of_submitted (hvalid : s.shop.Valid settings)
    (hcore : 0 < settings.coreThreads) (endings : Nat → Ending) {place task : Nat}
    (hstage : s.stage? place = some (.submitted task)) (htask : task < s.shop.calls)
    (hstarted : task ∉ s.shop.starts) :
    ∃ act : Act, act.CarriesOn endings ∧ s.Enabled act ∧ (s.next act).left < s.left := by
  have hcall := List.mem_range.mpr htask
  rw [hvalid.accounts.calls.mem_iff, List.mem_append, List.mem_append, List.mem_append] at hcall
  rcases hcall with ((haccepted | hreserved) | hrejected) | hfull
  . -- It waits for a worker, or a worker has it and has not started it.
    apply exists_work hvalid hcore endings
    rintro ⟨hqueue, -, hheld, hcarrying⟩
    rw [hvalid.accounts.accepted.mem_iff, hqueue, hheld] at haccepted
    exact hstarted (hvalid.accounts.starts.mem_iff.mpr haccepted)
  . apply exists_work hvalid hcore endings
    rintro ⟨-, hnone, -⟩
    rw [hnone] at hreserved
    contradiction
  . refine ⟨.drop place, trivial, .inr ⟨task, hrejected, hstage⟩, ?_⟩
    have hless := left_change hstage (·.drop s.processor.channel) 1
      (fun passage hpassage => by rw [Passage.left, Passage.left, hpassage]; rfl)
    exact Nat.lt_of_succ_le (Nat.le_of_eq hless)
  . refine ⟨.work (.place task), .inr ⟨task, rfl⟩, ⟨hfull, rfl⟩, ?_⟩
    rw [left_work]
    exact Nat.add_lt_add_left (Workshop.burden_place_lt hfull) _

theorem exists_step (h : s.Sound settings channel) (hvalid : s.shop.Valid settings)
    (hcore : 0 < settings.coreThreads) (hdepth : 0 < settings.queueDepth)
    (endings : Nat → Ending) {passage : Passage} (hmem : passage ∈ s.passages)
    (hunderway : ¬ s.Arrived passage) :
    ∃ act : Act, act.CarriesOn endings ∧ s.Enabled act ∧ (s.next act).left < s.left := by
  rcases List.getElem?_of_mem hmem with ⟨place, hplace⟩
  have hget : s.stage? place = some passage.stage := by rw [stage?, hplace, Option.map_some]
  -- Up to its submission the dispatch goes on by itself, and then the pool has to.
  cases hstage : passage.stage with
  | received =>
    rw [hstage] at hget
    refine ⟨.look place, trivial, hget, ?_⟩
    have hless := left_change hget (·.move (if s.manned then .found else .lost))
      (if s.manned then 1 else 6) (fun passage hpassage => by
        rw [Passage.left, Passage.left, hpassage]
        cases s.manned <;> rfl)
    have hpos : 0 < if s.manned then 1 else 6 := by split <;> omega
    exact Nat.lt_of_lt_of_eq (Nat.lt_add_of_pos_right hpos) hless
  | lost =>
    rw [hstage] at hget
    refine ⟨.drop place, trivial, .inl hget, ?_⟩
    have hless := left_change hget (·.drop s.processor.channel) 1
      (fun passage hpassage => by rw [Passage.left, Passage.left, hpassage]; rfl)
    exact Nat.lt_of_succ_le (Nat.le_of_eq hless)
  | found =>
    rw [hstage] at hget
    refine ⟨.submit place, trivial, hget, ?_⟩
    have hless := left_change hget (·.move (.submitted s.shop.calls)) 5
      (fun passage hpassage => by rw [Passage.left, Passage.left, hpassage]; rfl)
    have hburden : (s.shop.next .call).burden ≤ s.shop.burden + 4 :=
      Workshop.burden_call_le (by rwa [h.settings_eq])
    simp only [left, next, change] at hless ⊢
    omega
  | submitted task =>
    rw [hstage] at hget
    have htask : task ∈ s.tasks :=
      List.mem_filterMap.mpr ⟨passage, hmem, by rw [Passage.task?, hstage]⟩
    have hstarted : task ∉ s.shop.starts := fun hstarted =>
      hunderway (by rwa [Arrived, hstage])
    exact exists_step_of_submitted hvalid hcore endings hget (h.known task htask) hstarted
  | dropped task => exact absurd (by rw [Arrived, hstage]; trivial) hunderway

theorem valid_next (hvalid : s.shop.Valid settings) (hdepth : 0 < settings.queueDepth) {act : Act}
    (henabled : s.Enabled act) (hthreads : ∀ task, act ≠ .refuse task) :
    (s.next act).shop.Valid settings := by
  cases act with
  | receive packet => exact hvalid
  | look place => exact hvalid
  | submit place =>
    have hcalled : (s.shop.next .call).Valid settings := hvalid.next hdepth trivial
    exact hcalled
  | drop place => exact hvalid
  | work act => exact hvalid.next hdepth henabled.1
  | finish task ending =>
    have hfinished : (s.shop.next (.finish task)).Valid settings := hvalid.next hdepth henabled
    exact hfinished
  | refuse task => exact absurd rfl (hthreads task)
  | dismiss =>
    have hclosed : (s.shop.next .shutdown).Valid settings := hvalid.next hdepth trivial
    exact hclosed

theorem valid_follow (hvalid : s.shop.Valid settings) (hdepth : 0 < settings.queueDepth)
    {acts : List Act} (hadmits : machine.Admits s acts)
    (hthreads : ∀ task, .refuse task ∉ acts) : (machine.follow s acts).shop.Valid settings := by
  induction acts generalizing s with
  | nil => exact hvalid
  | cons act acts ih =>
    simp only [List.mem_cons, not_or] at hthreads
    have hfirst := valid_next hvalid hdepth hadmits.1 fun task heq => (hthreads task).1 heq.symm
    exact ih hfirst hadmits.2 fun task => (hthreads task).2

theorem exists_arrival (h : s.Sound settings channel) (hvalid : s.shop.Valid settings)
    (hcore : 0 < settings.coreThreads) (hdepth : 0 < settings.queueDepth)
    (endings : Nat → Ending) :
    ∃ more : List Act, (∀ act ∈ more, act.CarriesOn endings) ∧ machine.Admits s more ∧
      (machine.follow s more).Sound settings channel ∧
      ∀ passage ∈ (machine.follow s more).passages, (machine.follow s more).Arrived passage := by
  have hrun : ∃ more : List Act, (∀ act ∈ more, act.CarriesOn endings) ∧ machine.Admits s more ∧
      ((machine.follow s more).Sound settings channel ∧
        (machine.follow s more).shop.Valid settings) ∧
      ∀ passage ∈ (machine.follow s more).passages, (machine.follow s more).Arrived passage := by
    refine @Machine.exists_run _ _ _ (fun s => s.Sound settings channel ∧ s.shop.Valid settings)
      (fun s => ∀ passage ∈ s.passages, s.Arrived passage) _ left _ ?_ ⟨h, hvalid⟩
    rintro s ⟨h, hvalid⟩ hdone
    simp only [not_forall] at hdone
    rcases hdone with ⟨passage, hmem, hunderway⟩
    rcases exists_step h hvalid hcore hdepth endings hmem hunderway with
      ⟨act, hcarries, henabled, hlt⟩
    have hthreads : ∀ task, act ≠ .refuse task := by
      rintro task rfl
      exact hcarries
    have hkept := valid_next hvalid hdepth henabled hthreads
    exact ⟨act, hcarries, henabled, ⟨h.next hdepth henabled, hkept⟩, hlt⟩
  rcases hrun with ⟨more, hcarries, hadmits, hkept, hdone⟩
  exact ⟨more, hcarries, hadmits, hkept.1, hdone⟩

theorem packets_carriesOn {endings : Nat → Ending} {more : List Act}
    (h : ∀ act ∈ more, act.CarriesOn endings) : more.filterMap Act.packet? = [] := by
  rw [List.filterMap_eq_nil_iff]
  intro act hmem
  cases act with
  | receive packet => exact absurd (h _ hmem) id
  | _ => rfl

section Alone

variable {packet : Packet} {stage : Passage.Stage} {samples : List Sample} {shop : Workshop}

def arrive (s : Handover) (packet : Packet) (stage : Passage.Stage) (samples : List Sample)
    (shop : Workshop) : Handover :=
  { s with
    processor := { s.processor with lastPacket := some packet.created }
    shop
    passages := s.passages ++ [⟨packet, stage, samples⟩] }

theorem stage?_arrive :
    (s.arrive packet stage samples shop).stage? s.passages.length = some stage := by
  simp [stage?, arrive]

theorem change_arrive (f : Passage → Passage) :
    (s.arrive packet stage samples shop).change s.passages.length f
      =
    { s.arrive packet stage samples shop with
      passages := s.passages ++ [f ⟨packet, stage, samples⟩] } := by
  rw [change, arrive, List.modify_eq_take_cons_drop (by simp)]
  simp

theorem Sound.map_follow (h : s.Sound settings channel) (shop : Workshop) :
    s.passages.map (·.follow shop (.place s.shop.calls)) = s.passages := by
  apply (List.map_congr_left _).trans (List.map_id' s.passages)
  intro passage hmem
  have hne : passage.stage ≠ .submitted s.shop.calls := by
    intro hstage
    have htask : s.shop.calls ∈ s.tasks :=
      List.mem_filterMap.mpr ⟨passage, hmem, by rw [Passage.task?, hstage]⟩
    exact Nat.lt_irrefl _ (h.known _ htask)
  simp only [Passage.follow, if_neg hne]

theorem Sound.place_arrive (h : s.Sound settings channel) :
    (s.arrive packet (.submitted s.shop.calls) samples shop).next (.work (.place s.shop.calls))
      =
    s.arrive packet (.submitted s.shop.calls) (samples ++ (shop.pool.place s.shop.calls).2.2)
      (shop.next (.place s.shop.calls)) := by
  have hlast : Passage.follow shop (.place s.shop.calls) ⟨packet, .submitted s.shop.calls, samples⟩
      = ⟨packet, .submitted s.shop.calls, samples ++ (shop.pool.place s.shop.calls).2.2⟩ :=
    if_pos rfl
  simp only [Handover.next, arrive, List.map_append, h.map_follow, List.map_singleton, hlast]

theorem hire_arrive (task : Nat) :
    (s.arrive packet stage samples shop).next (.work (.hire task))
      =
    s.arrive packet stage samples (shop.next (.hire task)) := by
  simp only [next, Passage.follow, List.map_id', arrive]

def Leads (s later : Handover) : Prop :=
  ∃ acts, machine.Admits s acts ∧ machine.follow s acts = later

theorem Leads.refl (s : Handover) : s.Leads s := ⟨[], trivial, rfl⟩

theorem Leads.step {between : Handover} (h : s.Leads between) (act : Act)
    (henabled : between.Enabled act) : s.Leads (between.next act) := by
  rcases h with ⟨acts, hadmits, rfl⟩
  refine ⟨acts ++ [act], ?_, machine.follow_concat s acts act⟩
  rw [Machine.admits_append_iff]
  exact ⟨hadmits, henabled, trivial⟩

theorem leads_looked (s : Handover) (packet : Packet) :
    s.Leads (s.arrive packet (if s.manned then .found else .lost)
      (Sample.packetReceived s.processor.channel packet.payload.length) s.shop) := by
  have hreceived : s.Leads (s.arrive packet .received _ s.shop) :=
    (Leads.refl s).step (.receive packet) trivial
  have hlooked := hreceived.step (.look s.passages.length) stage?_arrive
  rw [next, change_arrive] at hlooked
  exact hlooked

theorem leads_submitted (hmanned : s.manned = true) (packet : Packet) :
    s.Leads (s.arrive packet (.submitted s.shop.calls)
      (Sample.packetReceived s.processor.channel packet.payload.length) (s.shop.next .call)) := by
  have hfound := s.leads_looked packet
  rw [if_pos hmanned] at hfound
  have hsubmitted := hfound.step (.submit s.passages.length) stage?_arrive
  rw [next, change_arrive] at hsubmitted
  exact hsubmitted

theorem Leads.dropped (h : s.Leads (s.arrive packet stage samples shop))
    (henabled : (s.arrive packet stage samples shop).Enabled (.drop s.passages.length)) :
    s.Leads (s.arrive packet (.dropped (Passage.task? ⟨packet, stage, samples⟩))
      (samples ++ [Passage.loss s.processor.channel ⟨packet, stage, samples⟩]) shop) := by
  have hdropped := h.step _ henabled
  rw [next, change_arrive] at hdropped
  exact hdropped

theorem Sound.leads_placed (h : s.Sound settings channel) (hmanned : s.manned = true)
    (hfull : s.shop.pool.offer s.shop.calls = .full) (packet : Packet) :
    let shop := { s.shop with calls := s.shop.calls + 1, full := s.shop.full ++ [s.shop.calls] }
    s.Leads (s.arrive packet (.submitted s.shop.calls)
      (Sample.packetReceived s.processor.channel packet.payload.length ++
        (s.shop.pool.place s.shop.calls).2.2)
      (shop.next (.place s.shop.calls))) := by
  intro shop
  have hcalled : s.shop.next .call = shop := by simp only [Workshop.next, hfull, shop]
  have hsubmitted := leads_submitted hmanned packet
  rw [hcalled] at hsubmitted
  have hplaced := hsubmitted.step (.work (.place s.shop.calls))
    ⟨List.mem_append_right _ (List.mem_singleton.mpr rfl), rfl⟩
  rw [h.place_arrive] at hplaced
  exact hplaced

theorem leads_dispatch (h : s.Sound settings channel) (packet : Packet)
    {crew : Option (Work.Crew Nat)}
    (hcrew : crew.map (·.network) = if s.manned then some s.shop.pool else none) :
    let change := s.processor.dispatch (fun _ => s.shop.calls) packet crew
    ∃ stage shop, s.Leads (s.arrive packet stage change.samples shop) ∧
      (s.arrive packet stage change.samples shop).Over ⟨packet, stage, change.samples⟩ ∧
      change.processor = (s.arrive packet stage change.samples shop).processor ∧
      change.crew = crew.map (fun workers => { workers with network := shop.pool }) := by
  cases hmanned : s.manned with
  | false =>
    have hnone : crew = none := by simpa [hmanned] using hcrew
    subst hnone
    have hlost := s.leads_looked packet
    rw [hmanned] at hlost
    exact ⟨_, _, hlost.dropped (.inl stage?_arrive), trivial, rfl, rfl⟩
  | true =>
    rcases crew with _ | ⟨network, general, scheduled, timetable⟩
    . simp [hmanned] at hcrew
    have hnetwork : network = s.shop.pool := by simpa [hmanned] using hcrew
    subst hnetwork
    have hsubmitted := leads_submitted hmanned packet
    -- The steps of the pool are those that `submit` takes at once.
    simp only [Processor.dispatch, Work.Pool.submit]
    cases hoffer : s.shop.pool.offer s.shop.calls with
    | taken pool =>
      simp only [List.append_nil]
      refine ⟨_, _, hsubmitted, ?_, rfl, ?_⟩
      . simp [Over, arrive, Workshop.next, hoffer]
      . simp [Workshop.next, hoffer]
    | refused =>
      simp only [List.append_nil]
      have hdropped := hsubmitted.dropped
        (.inr ⟨s.shop.calls, by simp [arrive, Workshop.next, hoffer], stage?_arrive⟩)
      refine ⟨_, _, hdropped, trivial, rfl, ?_⟩
      simp [Workshop.next, hoffer]
    | full =>
      have hplaced := h.leads_placed hmanned hoffer packet
      rcases hplace : s.shop.pool.place s.shop.calls with ⟨verdict, pool, samples⟩
      simp only [Workshop.next, hplace] at hplaced ⊢
      cases verdict with
      | ok =>
        have hhired := hplaced.step (.work (.hire s.shop.calls))
          ⟨List.mem_append_right _ (List.mem_singleton.mpr rfl), rfl⟩
        rw [hire_arrive] at hhired
        simp only [List.append_nil]
        refine ⟨_, _, hhired, ?_, rfl, rfl⟩
        exact List.mem_append_right _ (List.mem_singleton.mpr rfl)
      | error error =>
        have hdropped := hplaced.dropped (.inr
          ⟨s.shop.calls, List.mem_append_right _ (List.mem_singleton.mpr rfl), stage?_arrive⟩)
        exact ⟨_, _, hdropped, trivial, rfl, rfl⟩

end Alone

/--
Packets arrive at a processor and are dispatched, while others use the pool, the pool is shut down,
the crew is dismissed, and the calls of the listener end in whatever way. Each packet counts as
received once. It is handed to the listener or counts as dropped, never both and never twice, and
one of them is true when its dispatch is over, if the pool carries out what it accepts. How the
calls of the listener end makes no difference, and as long as there are threads, each packet can
still get to the listener if it is not dropped, however they end.
-/
theorem packets_conserved (name : String) {settings : PoolSettings}
    (hsettings : Settings.poolProblem name settings = none) (processor : Processor)
    {acts : List Act} (hadmits : machine.Admits (initial name settings processor) acts) :
    let channel := processor.channel
    let s := machine.follow (initial name settings processor) acts
    s.passages.map (·.packet) = acts.filterMap Act.packet? ∧
    s.tasks.Nodup ∧
    (∀ passage ∈ s.passages,
      passage.samples.count (.receipt channel) = 1 ∧
      s.handed passage + passage.drops channel ≤ 1 ∧
      (s.Over passage → (∀ task ∈ s.shop.accepted, s.shop.starts.count task = 1) →
        s.handed passage + passage.drops channel = 1)) ∧
    (∀ endings, machine.Admits (initial name settings processor) (acts.map (Act.ending endings)) ∧
      machine.follow (initial name settings processor) (acts.map (Act.ending endings)) = s) ∧
    ((∀ task, .refuse task ∉ acts) → ∀ endings, ∃ more : List Act,
      (∀ act ∈ more, act.CarriesOn endings) ∧ machine.Admits s more ∧
      let later := machine.follow s more
      later.passages.map (·.packet) = s.passages.map (·.packet) ∧
      ∀ passage ∈ later.passages, later.handed passage + passage.drops channel = 1) := by
  intro channel s
  rcases Settings.poolProblem_eq_none_iff.mp hsettings with ⟨hcore, hmax, hdepth⟩
  have hsound : s.Sound settings channel :=
    (sound_initial name settings processor).follow hdepth hadmits
  refine ⟨packets_follow _ acts, hsound.nodup, fun passage hmem => hsound.balance hmem, ?_, ?_⟩
  . intro endings
    have hsame := follow_ending endings (initial name settings processor) acts
    exact ⟨hsame.1.mpr hadmits, hsame.2⟩
  . intro hthreads endings
    have hvalid : s.shop.Valid settings :=
      valid_follow (Workshop.valid_initial name hmax) hdepth hadmits hthreads
    rcases exists_arrival hsound hvalid hcore hdepth endings with
      ⟨more, hcarries, hmore, hlater, harrived⟩
    refine ⟨more, hcarries, hmore, ?_, ?_⟩
    . rw [packets_follow, packets_carriesOn hcarries, List.append_nil]
    . intro passage hmem
      exact hlater.balance_of_arrived hmem (harrived passage hmem)

/--
The pool has a single worker. The listener panics at the first packet and fails at the second one,
which waits in the queue when the crew is dismissed; there is no room for the third one, and the
last one arrives too late.
-/
theorem packets_conserved_dismissed :
    let settings : PoolSettings :=
      { coreThreads := 1, maxThreads := 1, queueDepth := 1, overflow := .reject }
    let processor : Processor := { channel := .multicast, address := .v4 ⟨0, 0, 0, 0⟩ 5353 }
    let packet (sequence : UInt64) : Packet := ⟨.v4 ⟨10, 0, 0, 1⟩ 5353, [0], sequence, 0⟩
    let acts : List Act :=
      [.receive (packet 0), .look 0, .submit 0, .work .take, .work (.start 0),
        .receive (packet 1), .look 1, .submit 1, .receive (packet 2), .look 2, .submit 2,
        .work (.place 2), .drop 2, .finish 0 .panicked, .dismiss, .receive (packet 3), .look 3,
        .drop 3, .work .take, .work (.start 1), .finish 1 (.returned (.fail "no"))]
    let s := machine.follow (initial "mdns-net" settings processor) acts
    Settings.poolProblem "mdns-net" settings = none ∧
    machine.Admits (initial "mdns-net" settings processor) acts ∧
    s.passages.map (·.packet) = [packet 0, packet 1, packet 2, packet 3] ∧
    s.passages.map s.handed = [1, 1, 0, 0] ∧
    ∀ passage ∈ s.passages, s.handed passage + passage.drops .multicast = 1 := by
  intro settings processor packet acts s
  have hsettings : Settings.poolProblem "mdns-net" settings = none := rfl
  have hadmits : machine.Admits (initial "mdns-net" settings processor) acts := by decide
  rcases packets_conserved "mdns-net" hsettings processor hadmits with ⟨hpackets, -, hbalance, -⟩
  refine ⟨hsettings, hadmits, hpackets, by decide, ?_⟩
  have hover : ∀ passage ∈ s.passages, s.Over passage := by decide
  have hran : ∀ task ∈ s.shop.accepted, s.shop.starts.count task = 1 := by decide
  intro passage hmem
  exact (hbalance passage hmem).2.2 (hover passage hmem) hran

end Handover

end Transport

end Zeroconf
