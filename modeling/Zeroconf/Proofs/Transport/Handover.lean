import Mathlib.Data.List.Nodup
import Zeroconf.Outcome
import Zeroconf.Proofs.Transport.Dispatch
import Zeroconf.Proofs.Work.Conservation

/-!
This module contains the way of packets from a processor to the listener. Each is dispatched in
steps, between which others use the pool, the pool is shut down or the whole crew is dismissed; in
the end a worker calls the listener, who may fail, or the packet is dropped.
-/

namespace Zeroconf

namespace Work.Pool

variable {τ : Type} (pool : Pool τ)

@[simp]
theorem settings_place (task : τ) : (pool.place task).2.1.settings = pool.settings := by
  unfold place
  split
  . rfl
  . split <;> rfl

theorem exists_eq_rejectedTask_of_mem_place {pool : Pool τ} {task : τ} {sample : Sample}
    (h : sample ∈ (pool.place task).2.2) : ∃ name, sample = .rejectedTask name := by
  unfold place at h
  split at h
  . simp at h
  . split at h
    . exact ⟨pool.name, List.mem_singleton.mp h⟩
    . simp at h

@[simp]
theorem settings_take : pool.take.settings = pool.settings := by
  unfold take
  split <;> rfl

@[simp]
theorem settings_finish [BEq τ] (task : τ) : (pool.finish task).settings = pool.settings := by
  unfold finish
  split
  . rfl
  . split <;> rfl

end Work.Pool

namespace Work.Workshop

variable {shop : Workshop}

theorem settings_next (hdepth : 0 < shop.pool.settings.queueDepth) (act : Act) :
    (shop.next act).pool.settings = shop.pool.settings := by
  cases act with
  | call =>
    simp only [next, Pool.offer_eq hdepth]
    cases shop.pool.accepting with
    | false => rfl
    | true =>
      by_cases hroom : shop.pool.queue.length < shop.pool.settings.queueDepth
      . simp [hroom]
      . simp [hroom]
  | place task =>
    simp only [next]
    split
    . exact Pool.settings_place ..
    . exact Pool.settings_place ..
  | take => exact Pool.settings_take _
  | finish task => exact Pool.settings_finish ..
  | retire => simp only [next, Pool.retire_eq]
  | leave => simp only [next, Pool.leave_eq]
  | _ => rfl

theorem calls_next (shop : Workshop) (act : Act) :
    (shop.next act).calls = shop.calls + if act = .call then 1 else 0 := by
  cases act with
  | call =>
    simp only [next]
    split <;> rfl
  | place task =>
    simp only [next]
    split <;> rfl
  | _ => rfl

theorem rejected_subset_next (shop : Workshop) (act : Act) :
    shop.rejected ⊆ (shop.next act).rejected := by
  cases act with
  | call =>
    simp only [next]
    split
    . exact List.Subset.refl _
    . exact List.subset_append_left ..
    . exact List.Subset.refl _
  | place task =>
    simp only [next]
    split
    . exact List.Subset.refl _
    . exact List.subset_append_left ..
  | _ => exact List.Subset.refl _

def Act.isFinish : Act → Bool
  | .finish _ => true
  | _ => false

/--
No thread can be created for the worker of a task, so that its call fails.
-/
def refuse (shop : Workshop) (task : Nat) : Workshop :=
  let pool := shop.pool
  { shop with
    pool :=
      if task ∈ pool.running then { pool with running := pool.running.erase task }
      else { pool with unpooled := pool.unpooled.erase task }
    reserved := shop.reserved.erase task
    rejected := shop.rejected ++ [task] }

theorem settings_refuse (shop : Workshop) (task : Nat) :
    (shop.refuse task).pool.settings = shop.pool.settings := by
  simp only [refuse]
  split <;> rfl

theorem Accounts.refuse (h : shop.Accounts) {task : Nat} (htask : task ∈ shop.reserved) :
    (shop.refuse task).Accounts := by
  have hworker : task ∈ shop.pool.running ++ shop.pool.unpooled :=
    h.workers.symm.subset (List.mem_append_left _ (List.mem_append_left _ htask))
  rw [List.mem_append] at hworker
  rw [accounts_iff] at *
  intro other
  have := h other
  have := count_erase_add htask other
  by_cases hrunning : task ∈ shop.pool.running
  . have := count_erase_add hrunning other
    simp only [Workshop.refuse, if_pos hrunning, List.count_append]
    omega
  . have := count_erase_add (hworker.resolve_left hrunning) other
    simp only [Workshop.refuse, if_neg hrunning, List.count_append]
    omega

end Work.Workshop

namespace Sample

def receipt (channel : Channel) : Sample := count "mdns.packet.received.count" [kind channel]

theorem count_receipt_packetReceived (channel : Channel) (bytes : Nat) :
    (packetReceived channel bytes).count (receipt channel) = 1 := by
  simp [packetReceived, receipt, count, histogram]

theorem receipt_ne_packetDropped (channel : Channel) (reason : String) :
    receipt channel ≠ packetDropped channel reason := by
  simp [receipt, packetDropped, count]

theorem receipt_ne_rejectedTask (channel : Channel) (pool : String) :
    receipt channel ≠ rejectedTask pool := by
  simp [receipt, rejectedTask, count]

theorem packetDropped_not_mem_packetReceived (channel : Channel) (reason : String) (bytes : Nat) :
    packetDropped channel reason ∉ packetReceived channel bytes := by
  simp [packetReceived, packetDropped, count, histogram]

theorem packetDropped_ne_rejectedTask (channel : Channel) (reason pool : String) :
    packetDropped channel reason ≠ rejectedTask pool := by
  simp [packetDropped, rejectedTask, count]

theorem packetDropped_inj {channel : Channel} {reason other : String} :
    packetDropped channel reason = packetDropped channel other ↔ reason = other := by
  simp [packetDropped, count]

end Sample

namespace Transport

open Work (Workshop)

inductive Passage.Stage where
  | received
  /-- The crew was gone. -/
  | lost
  /-- The crew was there, and stays until the packet is submitted. -/
  | found
  | submitted (task : Nat)
  /-- The packet counts as dropped. If it was submitted, its task was rejected. -/
  | dropped (task : Option Nat)
  deriving DecidableEq, Repr

structure Passage where
  packet : Packet
  stage : Passage.Stage
  samples : List Sample

namespace Passage

def task? (passage : Passage) : Option Nat :=
  match passage.stage with
  | .submitted task => some task
  | .dropped task => task
  | _ => none

def move (passage : Passage) (stage : Stage) : Passage := { passage with stage }

def measure (passage : Passage) (samples : List Sample) : Passage :=
  { passage with samples := passage.samples ++ samples }

def loss (channel : Channel) (passage : Passage) : Sample :=
  .packetDropped channel (if passage.task? = none then "shutdown" else "rejected")

def drop (channel : Channel) (passage : Passage) : Passage :=
  (passage.measure [passage.loss channel]).move (.dropped passage.task?)

def losses (channel : Channel) (passage : Passage) : List Sample :=
  match passage.stage with
  | .dropped _ => [passage.loss channel]
  | _ => []

def drops (channel : Channel) (passage : Passage) : Nat :=
  passage.samples.count (.packetDropped channel "shutdown") +
    passage.samples.count (.packetDropped channel "rejected")

theorem losses_of_ne_dropped {channel : Channel} {passage : Passage}
    (h : ∀ task, passage.stage ≠ .dropped task) : passage.losses channel = [] := by
  unfold losses
  split
  . next task hstage => exact absurd hstage (h task)
  . rfl

theorem task?_drop (channel : Channel) (passage : Passage) :
    (passage.drop channel).task? = passage.task? := by
  rfl

theorem losses_drop (channel : Channel) (passage : Passage) :
    (passage.drop channel).losses channel = [passage.loss channel] := by
  rfl

/--
What the dispatch of the packet measures when its task looks for a place in the pool.
-/
def follow (shop : Workshop) (act : Workshop.Act) (passage : Passage) : Passage :=
  match act with
  | .place task =>
    if passage.stage = .submitted task then passage.measure (shop.pool.place task).2.2 else passage
  | _ => passage

/--
Whether the dispatch needs the crew.
-/
def holds (shop : Workshop) (passage : Passage) : Bool :=
  match passage.stage with
  | .found => true
  | .submitted task => shop.full.contains task || shop.reserved.contains task
  | _ => false

end Passage

inductive Ending where
  | returned (outcome : Outcome)
  | panicked
  deriving DecidableEq, Repr

structure Handover where
  processor : Processor
  shop : Workshop
  /-- Whether the crew is there. -/
  manned : Bool := true
  passages : List Passage := []

namespace Handover

inductive Act where
  /-- A packet arrives and is measured. -/
  | receive (packet : Packet)
  /-- A dispatch looks whether the crew is there. -/
  | look (place : Nat)
  | submit (place : Nat)
  | drop (place : Nat)
  /-- Anything that happens in the pool, apart from the end of a task. -/
  | work (act : Workshop.Act)
  /-- The call of the listener ends, and the task with it: the worker catches a panic. -/
  | finish (task : Nat) (ending : Ending)
  /-- No thread can be created for the worker of a task. -/
  | refuse (task : Nat)
  /-- The crew is dropped, when no dispatch holds it, and shut down thereby. -/
  | dismiss
  deriving DecidableEq

def stage? (s : Handover) (place : Nat) : Option Passage.Stage :=
  s.passages[place]?.map (·.stage)

def Enabled (s : Handover) : Act → Prop
  | .receive _ => True
  | .look place => s.stage? place = some .received
  | .submit place => s.stage? place = some .found
  | .drop place =>
    s.stage? place = some .lost ∨ ∃ task ∈ s.shop.rejected, s.stage? place = some (.submitted task)
  | .work act => s.shop.Enabled act ∧ act.isFinish = false
  | .finish task _ => s.shop.Enabled (.finish task)
  | .refuse task => task ∈ s.shop.reserved
  | .dismiss => s.passages.all fun passage => !passage.holds s.shop

instance (s : Handover) (act : Act) : Decidable (s.Enabled act) := by
  cases act <;> unfold Enabled <;> infer_instance

def change (s : Handover) (place : Nat) (f : Passage → Passage) : Handover :=
  { s with passages := s.passages.modify place f }

def next (s : Handover) : Act → Handover
  | .receive packet =>
    let samples := Sample.packetReceived s.processor.channel packet.payload.length
    { s with
      processor := { s.processor with lastPacket := some packet.created }
      passages := s.passages ++ [⟨packet, .received, samples⟩] }
  | .look place => s.change place (·.move (if s.manned then .found else .lost))
  | .submit place =>
    { s.change place (·.move (.submitted s.shop.calls)) with shop := s.shop.next .call }
  | .drop place => s.change place (·.drop s.processor.channel)
  | .work act =>
    { s with shop := s.shop.next act, passages := s.passages.map (·.follow s.shop act) }
  -- A caught panic and a failure are only logged.
  | .finish task _ => { s with shop := s.shop.next (.finish task) }
  | .refuse task => { s with shop := s.shop.refuse task }
  | .dismiss => { s with shop := s.shop.next .shutdown, manned := false }

def machine : Machine Handover Act := ⟨Enabled, next⟩

instance (s : Handover) (act : Act) : Decidable (machine.Enabled s act) :=
  inferInstanceAs (Decidable (s.Enabled act))

def initial (name : String) (settings : PoolSettings) (processor : Processor) : Handover :=
  { processor, shop := .initial name settings }

def tasks (s : Handover) : List Nat := s.passages.filterMap Passage.task?

end Handover

/--
What is true of a packet on its way: it was received once, and if it was dropped, that was measured
once, for the reason that there was.
-/
structure Passage.Sound (channel : Channel) (shop : Workshop) (passage : Passage) : Prop where
  samples : ∃ refusal, (∀ sample ∈ refusal, ∃ pool, sample = .rejectedTask pool) ∧
    passage.samples = Sample.packetReceived channel passage.packet.payload.length ++ refusal ++
      passage.losses channel
  rejected : ∀ task, passage.stage = .dropped (some task) → task ∈ shop.rejected

namespace Passage

variable {channel : Channel} {shop : Workshop} {passage : Passage}

theorem sound_received (channel : Channel) (shop : Workshop) (packet : Packet) :
    Sound channel shop
      ⟨packet, .received, Sample.packetReceived channel packet.payload.length⟩ where
  samples := ⟨[], by simp, by simp [losses]⟩
  rejected := nofun

theorem Sound.move (h : passage.Sound channel shop) {stage : Stage}
    (hbefore : ∀ task, passage.stage ≠ .dropped task) (hafter : ∀ task, stage ≠ .dropped task) :
    (passage.move stage).Sound channel shop where
  samples := by
    rcases h.samples with ⟨refusal, hrefusal, hsamples⟩
    refine ⟨refusal, hrefusal, ?_⟩
    rw [losses_of_ne_dropped hbefore] at hsamples
    rw [show (passage.move stage).losses channel = [] from losses_of_ne_dropped hafter]
    exact hsamples
  rejected task heq := absurd heq (hafter (some task))

theorem Sound.drop (h : passage.Sound channel shop)
    (hbefore : ∀ task, passage.stage ≠ .dropped task)
    (hrejected : ∀ task, passage.task? = some task → task ∈ shop.rejected) :
    (passage.drop channel).Sound channel shop where
  samples := by
    rcases h.samples with ⟨refusal, hrefusal, hsamples⟩
    refine ⟨refusal, hrefusal, ?_⟩
    rw [losses_of_ne_dropped hbefore, List.append_nil] at hsamples
    rw [losses_drop]
    exact congrArg (· ++ _) hsamples
  rejected task heq := by
    apply hrejected task
    simpa [Passage.drop, Passage.move] using heq

theorem Sound.follow (h : passage.Sound channel shop) (act : Workshop.Act) :
    (passage.follow shop act).Sound channel shop := by
  cases act with
  | place task =>
    unfold Passage.follow
    dsimp only
    split
    . next hstage =>
      have hbefore : ∀ other, passage.stage ≠ .dropped other := by simp [hstage]
      rcases h.samples with ⟨refusal, hrefusal, hsamples⟩
      refine ⟨⟨refusal ++ (shop.pool.place task).2.2, ?_, ?_⟩, h.rejected⟩
      . intro sample hmem
        rcases List.mem_append.mp hmem with hmem | hmem
        . exact hrefusal sample hmem
        . exact Work.Pool.exists_eq_rejectedTask_of_mem_place hmem
      . rw [losses_of_ne_dropped hbefore, List.append_nil] at hsamples
        rw [show (passage.measure _).losses channel = [] from losses_of_ne_dropped hbefore,
          List.append_nil]
        simp only [Passage.measure, hsamples, List.append_assoc]
    . exact h
  | _ => exact h

theorem Sound.count_receipt (h : passage.Sound channel shop) :
    passage.samples.count (.receipt channel) = 1 := by
  rcases h.samples with ⟨refusal, hrefusal, hsamples⟩
  have hnone : refusal.count (.receipt channel) = 0 := by
    rw [List.count_eq_zero]
    intro hmem
    rcases hrefusal _ hmem with ⟨pool, heq⟩
    exact Sample.receipt_ne_rejectedTask channel pool heq
  have hlosses : (passage.losses channel).count (.receipt channel) = 0 := by
    rw [List.count_eq_zero]
    unfold losses
    split
    . rw [List.mem_singleton]
      exact Sample.receipt_ne_packetDropped channel _
    . exact List.not_mem_nil
  rw [hsamples, List.count_append, List.count_append, Sample.count_receipt_packetReceived, hnone,
    hlosses]

theorem count_packetDropped (h : passage.Sound channel shop) (reason : String) :
    passage.samples.count (.packetDropped channel reason)
      =
    (passage.losses channel).count (.packetDropped channel reason) := by
  rcases h.samples with ⟨refusal, hrefusal, hsamples⟩
  have hreceived : (Sample.packetReceived channel passage.packet.payload.length).count
      (.packetDropped channel reason) = 0 :=
    List.count_eq_zero.mpr (Sample.packetDropped_not_mem_packetReceived channel reason _)
  have hnone : refusal.count (.packetDropped channel reason) = 0 := by
    rw [List.count_eq_zero]
    intro hmem
    rcases hrefusal _ hmem with ⟨pool, heq⟩
    exact Sample.packetDropped_ne_rejectedTask channel reason pool heq
  rw [hsamples, List.count_append, List.count_append, hreceived, hnone, Nat.zero_add]

theorem Sound.drops_eq (h : passage.Sound channel shop) :
    passage.drops channel = (passage.losses channel).length := by
  rw [drops, count_packetDropped h, count_packetDropped h]
  unfold losses
  split
  . unfold loss
    split
    . simp [Sample.packetDropped_inj]
    . simp [Sample.packetDropped_inj]
  . rfl

theorem Sound.mono (h : passage.Sound channel shop) {later : Workshop}
    (hrejected : shop.rejected ⊆ later.rejected) : passage.Sound channel later where
  samples := h.samples
  rejected task heq := hrejected (h.rejected task heq)

theorem task?_follow (shop : Workshop) (act : Workshop.Act) (passage : Passage) :
    (passage.follow shop act).task? = passage.task? := by
  unfold follow
  split
  . split <;> rfl
  . rfl

end Passage

namespace Handover

variable {settings : PoolSettings} {channel : Channel} {s : Handover}

theorem exists_change {place : Nat} {stage : Passage.Stage} (h : s.stage? place = some stage)
    (f : Passage → Passage) :
    ∃ front passage behind, s.passages = front ++ passage :: behind ∧ passage.stage = stage ∧
      s.change place f = { s with passages := front ++ f passage :: behind } := by
  rcases Option.map_eq_some_iff.mp h with ⟨passage, hpassage, hstage⟩
  rcases List.getElem?_eq_some_iff.mp hpassage with ⟨hlt, hget⟩
  rcases List.exists_of_modify f hlt with ⟨front, other, behind, hpassages, hlength, hmodify⟩
  have hother : other = passage := by
    subst hlength
    rw [hpassages] at hpassage
    simpa using hpassage
  subst hother
  exact ⟨front, other, behind, hpassages, hstage, by rw [change, hmodify]⟩

/--
What is true in all states: the tasks are accounted for, and those of the packets are different.
-/
structure Sound (settings : PoolSettings) (channel : Channel) (s : Handover) : Prop where
  channel_eq : s.processor.channel = channel
  settings_eq : s.shop.pool.settings = settings
  accounts : s.shop.Accounts
  passages : ∀ passage ∈ s.passages, passage.Sound channel s.shop
  nodup : s.tasks.Nodup
  known : ∀ task ∈ s.tasks, task < s.shop.calls

theorem sound_initial (name : String) (settings : PoolSettings) (processor : Processor) :
    (initial name settings processor).Sound settings processor.channel where
  channel_eq := rfl
  settings_eq := rfl
  accounts := Workshop.accounts_initial name settings
  passages := nofun
  nodup := List.nodup_nil
  known := nofun

namespace Sound

theorem receive (h : s.Sound settings channel) (packet : Packet) :
    (s.next (.receive packet)).Sound settings channel := by
  have htasks : (s.next (.receive packet)).tasks = s.tasks := by
    simp [tasks, Handover.next, Passage.task?]
  refine ⟨h.channel_eq, h.settings_eq, h.accounts, ?_, ?_, ?_⟩
  . intro passage hmem
    rcases List.mem_append.mp hmem with hmem | hmem
    . exact h.passages passage hmem
    . rw [List.mem_singleton.mp hmem, h.channel_eq]
      exact Passage.sound_received ..
  . rw [htasks]
    exact h.nodup
  . rw [htasks]
    exact h.known

theorem change (h : s.Sound settings channel) {front behind : List Passage}
    {passage later : Passage} (hpassages : s.passages = front ++ passage :: behind)
    (hlater : passage.Sound channel s.shop → later.Sound channel s.shop)
    (htask : later.task? = passage.task?) :
    { s with passages := front ++ later :: behind }.Sound settings channel := by
  have htasks : ({ s with passages := front ++ later :: behind } : Handover).tasks = s.tasks := by
    simp only [tasks, hpassages, List.filterMap_append, List.filterMap_cons, htask]
  have hsound := h.passages
  rw [hpassages, List.forall_mem_append, List.forall_mem_cons] at hsound
  refine ⟨h.channel_eq, h.settings_eq, h.accounts, ?_, ?_, ?_⟩
  . rw [List.forall_mem_append, List.forall_mem_cons]
    exact ⟨hsound.1, hlater hsound.2.1, hsound.2.2⟩
  . rw [htasks]
    exact h.nodup
  . rw [htasks]
    exact h.known

theorem work (h : s.Sound settings channel) {shop : Workshop} (haccounts : shop.Accounts)
    (hsettings : shop.pool.settings = s.shop.pool.settings) (hcalls : s.shop.calls ≤ shop.calls)
    (hrejected : s.shop.rejected ⊆ shop.rejected) : { s with shop }.Sound settings channel where
  channel_eq := h.channel_eq
  settings_eq := hsettings.trans h.settings_eq
  accounts := haccounts
  passages passage hmem := (h.passages passage hmem).mono hrejected
  nodup := h.nodup
  known task hmem := Nat.lt_of_lt_of_le (h.known task hmem) hcalls

theorem work_next (h : s.Sound settings channel) (hdepth : 0 < settings.queueDepth)
    (act : Workshop.Act) (henabled : s.shop.Enabled act) :
    { s with shop := s.shop.next act }.Sound settings channel := by
  rw [← h.settings_eq] at hdepth
  apply h.work (h.accounts.next hdepth henabled) (Workshop.settings_next hdepth act)
  . rw [Workshop.calls_next]
    exact Nat.le_add_right ..
  . exact Workshop.rejected_subset_next ..

theorem submit (h : s.Sound settings channel) (hdepth : 0 < settings.queueDepth) {place : Nat}
    (henabled : s.stage? place = some .found) :
    (s.next (.submit place)).Sound settings channel := by
  rcases exists_change henabled (·.move (.submitted s.shop.calls)) with
    ⟨front, passage, behind, hpassages, hstage, hchange⟩
  have hnone : passage.task? = none := by simp [Passage.task?, hstage]
  have htasks : s.tasks = front.filterMap Passage.task? ++ behind.filterMap Passage.task? := by
    simp [tasks, hpassages, hnone]
  have hworked := h.work_next hdepth .call trivial
  have hnodup := h.nodup
  have hknown := h.known
  rw [htasks] at hnodup hknown
  have hlater : (s.next (.submit place)).tasks
      = front.filterMap Passage.task? ++ s.shop.calls :: behind.filterMap Passage.task? := by
    simp only [tasks, Handover.next, hchange, List.filterMap_append]
    rfl
  refine ⟨h.channel_eq, hworked.settings_eq, hworked.accounts, ?_, ?_, ?_⟩
  . have hsound := hworked.passages
    simp only [Handover.next, hchange, hpassages, List.forall_mem_append,
      List.forall_mem_cons] at hsound ⊢
    exact ⟨hsound.1, hsound.2.1.move (by simp [hstage]) nofun, hsound.2.2⟩
  . -- All tasks before have smaller numbers.
    rw [hlater, List.nodup_middle, List.nodup_cons]
    exact ⟨fun hmem => Nat.lt_irrefl _ (hknown _ hmem), hnodup⟩
  . intro task hmem
    have hcalls : (s.next (.submit place)).shop.calls = s.shop.calls + 1 :=
      Workshop.calls_next s.shop .call
    rw [hlater, List.perm_middle.mem_iff, List.mem_cons] at hmem
    rw [hcalls]
    rcases hmem with rfl | hmem
    . exact Nat.lt_succ_self _
    . exact Nat.lt_succ_of_lt (hknown task hmem)

theorem drop (h : s.Sound settings channel) {place : Nat} (henabled : s.Enabled (.drop place)) :
    (s.next (.drop place)).Sound settings channel := by
  rw [Handover.next, h.channel_eq]
  rcases henabled with hlost | ⟨task, hrejected, hsubmitted⟩
  . rcases exists_change hlost (·.drop channel) with
      ⟨front, passage, behind, hpassages, hstage, hchange⟩
    rw [hchange]
    apply h.change hpassages _ (Passage.task?_drop channel passage)
    exact fun hsound => hsound.drop (by simp [hstage]) (by simp [Passage.task?, hstage])
  . rcases exists_change hsubmitted (·.drop channel) with
      ⟨front, passage, behind, hpassages, hstage, hchange⟩
    rw [hchange]
    apply h.change hpassages _ (Passage.task?_drop channel passage)
    intro hsound
    apply hsound.drop (by simp [hstage])
    intro other heq
    have : task = other := by simpa [Passage.task?, hstage] using heq
    exact this ▸ hrejected

theorem next (h : s.Sound settings channel) (hdepth : 0 < settings.queueDepth) {act : Act}
    (henabled : s.Enabled act) : (s.next act).Sound settings channel := by
  cases act with
  | receive packet => exact h.receive packet
  | look place =>
    rcases exists_change henabled (·.move (if s.manned then .found else .lost)) with
      ⟨front, passage, behind, hpassages, hstage, hchange⟩
    rw [Handover.next, hchange]
    have hstages : ∀ task, (if s.manned then Passage.Stage.found else .lost) ≠ .dropped task := by
      intro task
      split <;> nofun
    apply h.change hpassages
    . exact fun hsound => hsound.move (by simp [hstage]) hstages
    . cases s.manned <;> simp [Passage.task?, Passage.move, hstage]
  | submit place => exact h.submit hdepth henabled
  | drop place => exact h.drop henabled
  | work act =>
    have hworked := h.work_next hdepth _ henabled.1
    have htasks : (s.next (.work act)).tasks = s.tasks := by
      simp only [tasks, Handover.next, List.filterMap_map, Function.comp_def, Passage.task?_follow]
    refine ⟨h.channel_eq, hworked.settings_eq, hworked.accounts, ?_, ?_, ?_⟩
    . intro later hmem
      rcases List.mem_map.mp hmem with ⟨passage, hpassage, rfl⟩
      exact ((h.passages passage hpassage).follow act).mono (Workshop.rejected_subset_next ..)
    . rw [htasks]
      exact h.nodup
    . rw [htasks]
      exact hworked.known
  | finish task ending => exact h.work_next hdepth _ henabled
  | refuse task =>
    exact h.work (h.accounts.refuse henabled) (Workshop.settings_refuse ..) (Nat.le_refl _)
      (List.subset_append_left ..)
  | dismiss =>
    have hworked := h.work_next hdepth .shutdown trivial
    exact { hworked with }

theorem follow (h : s.Sound settings channel) (hdepth : 0 < settings.queueDepth) {acts : List Act}
    (hadmits : machine.Admits s acts) : (machine.follow s acts).Sound settings channel :=
  Machine.keeps (fun _ _ h henabled => h.next hdepth henabled) h hadmits

end Sound

/--
How often a worker has called the listener with a packet, which is what its task consists of.
-/
def handed (s : Handover) (passage : Passage) : Nat :=
  passage.task?.elim 0 fun task => s.shop.starts.count task

def Over (s : Handover) (passage : Passage) : Prop :=
  match passage.stage with
  | .dropped _ => True
  | .submitted task => task ∈ s.shop.accepted
  | _ => False

instance (s : Handover) (passage : Passage) : Decidable (s.Over passage) := by
  unfold Over
  split <;> infer_instance

theorem Sound.count_starts_of_rejected (h : s.Sound settings channel) {task : Nat}
    (hrejected : task ∈ s.shop.rejected) : s.shop.starts.count task = 0 := by
  rw [List.count_eq_zero]
  intro hmem
  exact h.accounts.not_mem_accepted_of_mem_rejected hrejected
    (h.accounts.mem_accepted_of_mem_starts hmem)

/--
Each packet counts as received once. It is not both handed to the listener and dropped, nor one of
that twice, and when its dispatch is over it is one of them, if each accepted task is carried out.
-/
theorem Sound.balance (h : s.Sound settings channel) {passage : Passage}
    (hmem : passage ∈ s.passages) :
    passage.samples.count (.receipt channel) = 1 ∧
    s.handed passage + passage.drops channel ≤ 1 ∧
    (s.Over passage → (∀ task ∈ s.shop.accepted, s.shop.starts.count task = 1) →
      s.handed passage + passage.drops channel = 1) := by
  have hsound := h.passages passage hmem
  refine ⟨hsound.count_receipt, ?_⟩
  rw [hsound.drops_eq]
  unfold handed Passage.task? Passage.losses Over
  cases hstage : passage.stage with
  | dropped task =>
    cases task with
    | none => simp
    | some task => simp [h.count_starts_of_rejected (hsound.rejected task hstage)]
  | submitted task =>
    have hle : s.shop.starts.count task ≤ 1 :=
      List.nodup_iff_count_le_one.mp h.accounts.nodup_starts task
    refine ⟨by simpa using hle, ?_⟩
    intro hover hran
    simpa using hran task hover
  | _ => simp

end Handover

end Transport

end Zeroconf
