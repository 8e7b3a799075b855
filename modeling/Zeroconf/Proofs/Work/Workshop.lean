import Mathlib.Data.List.Count
import Mathlib.Data.List.Perm.Basic
import Mathlib.Data.List.Range
import Zeroconf.Proofs.Machine
import Zeroconf.Proofs.Settings
import Zeroconf.Work.Pool

/-!
This module contains pools at work: calls that submit tasks, workers that carry them out, and the
end of the pool, each of which consists of separate steps between which the others go on. No task is
lost or carried out twice, and as long as a task waits there are workers.
-/

namespace Zeroconf

namespace Work

namespace Pool

variable {τ : Type} {pool : Pool τ}

theorem offer_eq (h : 0 < pool.settings.queueDepth) (task : τ) :
    pool.offer task
      =
    if pool.accepting then
      if pool.queue.length < pool.settings.queueDepth then
        .taken { pool with queue := pool.queue ++ [task] }
      else
        .full
    else
      .refused := by
  have : ¬ pool.settings.queueDepth = 0 := by omega
  unfold offer
  cases pool.accepting <;> simp [this]

theorem take_eq {task : τ} {queue : List τ} (hidle : 0 < pool.idle)
    (hqueue : pool.queue = task :: queue) :
    pool.take
      =
    { pool with idle := pool.idle - 1, queue, running := pool.running ++ [task] } := by
  rcases Nat.exists_eq_add_one_of_ne_zero (Nat.ne_of_gt hidle) with ⟨idle, hidle⟩
  unfold take
  rw [hqueue, hidle]
  rfl

theorem finish_of_mem_running [BEq τ] [LawfulBEq τ] {task : τ} (h : task ∈ pool.running) :
    pool.finish task
      =
    { pool with
      idle := pool.idle + 1
      running := pool.running.erase task
      finished := pool.finished ++ [task] } := by
  unfold finish
  rw [if_pos (List.contains_iff_mem.mpr h)]

theorem finish_of_mem_unpooled [BEq τ] [LawfulBEq τ] {task : τ} (hrunning : task ∉ pool.running)
    (h : task ∈ pool.unpooled) :
    pool.finish task
      =
    { pool with
      unpooled := pool.unpooled.erase task
      finished := pool.finished ++ [task] } := by
  unfold finish
  rw [if_neg (mt List.contains_iff_mem.mp hrunning), if_pos (List.contains_iff_mem.mpr h)]

theorem retire_eq (pool : Pool τ) :
    pool.retire
      =
    { pool with
      idle :=
        if 0 < pool.idle ∧ pool.settings.coreThreads < pool.threads then pool.idle - 1
        else pool.idle } := by
  unfold retire
  by_cases h : 0 < pool.idle ∧ pool.settings.coreThreads < pool.threads
  . simp [h]
  . rw [if_neg (by simpa using h), if_neg h]

theorem leave_eq (pool : Pool τ) :
    pool.leave
      =
    { pool with
      idle :=
        if pool.accepting = false ∧ pool.queue = [] then pool.idle - 1 else pool.idle } := by
  unfold leave
  by_cases h : pool.accepting = false ∧ pool.queue = []
  . by_cases hidle : 0 < pool.idle
    . simp [h, hidle]
    . have : pool.idle - 1 = pool.idle := by omega
      rw [if_neg (by simp [hidle]), if_pos h, this]
  . rw [if_neg, if_neg h]
    simp only [Bool.and_eq_true, Bool.not_eq_true', List.isEmpty_iff]
    exact fun hall => h hall.1

end Pool

/--
A pool together with the calls and workers that are in the midst of something. The task of a call
has the number of the call.
-/
structure Workshop where
  pool : Pool Nat
  /-- How many calls have offered their tasks to the queue. -/
  calls : Nat := 0
  /-- The tasks that met a full queue and have no place yet. -/
  full : List Nat := []
  /-- The tasks for which there will be a worker that has not been created yet. -/
  reserved : List Nat := []
  /-- The tasks that a worker has in its hands and has not started. -/
  held : List Nat := []
  carrying : List Nat := []
  /-- All tasks that were started, in the order in which they were. -/
  starts : List Nat := []
  /-- The tasks of the calls that succeed. -/
  accepted : List Nat := []
  rejected : List Nat := []
  /-- How many workers have waited for long, and have not found out yet whether they may leave. -/
  tired : Nat := 0
  /-- How many workers have seen that there is nothing more to do, and have not left yet. -/
  leaving : Nat := 0

namespace Workshop

inductive Act where
  /-- A new call offers its task to the queue. -/
  | call
  | place (task : Nat)
  /-- The worker of a task is created, and the call succeeds. -/
  | hire (task : Nat)
  | take
  | start (task : Nat)
  /-- A task comes to its end or fails. -/
  | finish (task : Nat)
  | tire
  | retire
  | hangUp
  | leave
  | shutdown
  deriving DecidableEq, Repr

def Waits (shop : Workshop) : Prop := shop.tired + shop.leaving < shop.pool.idle

def Enabled (shop : Workshop) : Act → Prop
  | .call => True
  | .place task => task ∈ shop.full
  | .hire task => task ∈ shop.reserved
  | .take => shop.Waits ∧ shop.pool.queue ≠ []
  | .start task => task ∈ shop.held
  | .finish task => task ∈ shop.carrying
  | .tire => shop.Waits
  | .retire => 0 < shop.tired
  | .hangUp => shop.Waits ∧ shop.pool.accepting = false ∧ shop.pool.queue = []
  | .leave => 0 < shop.leaving
  | .shutdown => True

instance (shop : Workshop) (act : Act) : Decidable (shop.Enabled act) := by
  cases act <;> unfold Enabled Waits <;> infer_instance

def next (shop : Workshop) : Act → Workshop
  | .call =>
    let task := shop.calls
    let shop := { shop with calls := task + 1 }
    match shop.pool.offer task with
    | .taken pool => { shop with pool, accepted := shop.accepted ++ [task] }
    | .refused => { shop with rejected := shop.rejected ++ [task] }
    | .full => { shop with full := shop.full ++ [task] }
  | .place task =>
    let (verdict, pool, _) := shop.pool.place task
    let shop := { shop with pool, full := shop.full.erase task }
    match verdict with
    | .ok () => { shop with reserved := shop.reserved ++ [task] }
    | .error _ => { shop with rejected := shop.rejected ++ [task] }
  | .hire task =>
    { shop with
      reserved := shop.reserved.erase task
      held := shop.held ++ [task]
      accepted := shop.accepted ++ [task] }
  | .take =>
    { shop with pool := shop.pool.take, held := shop.held ++ shop.pool.queue.head?.toList }
  | .start task =>
    { shop with
      held := shop.held.erase task
      carrying := shop.carrying ++ [task]
      starts := shop.starts ++ [task] }
  | .finish task =>
    { shop with pool := shop.pool.finish task, carrying := shop.carrying.erase task }
  | .tire => { shop with tired := shop.tired + 1 }
  | .retire => { shop with pool := shop.pool.retire, tired := shop.tired - 1 }
  | .hangUp => { shop with leaving := shop.leaving + 1 }
  | .leave => { shop with pool := shop.pool.leave, leaving := shop.leaving - 1 }
  | .shutdown => { shop with pool := shop.pool.shutdown }

def machine : Machine Workshop Act := ⟨Enabled, next⟩

instance (shop : Workshop) (act : Act) : Decidable (machine.Enabled shop act) :=
  inferInstanceAs (Decidable (shop.Enabled act))

def initial (name : String) (settings : PoolSettings) : Workshop := { pool := .start name settings }

theorem count_erase_add {task : Nat} {tasks : List Nat} (h : task ∈ tasks) (other : Nat) :
    (tasks.erase task).count other + [task].count other = tasks.count other := by
  rw [(List.perm_cons_erase h).count_eq other, Nat.add_comm]
  exact List.count_append.symm

/--
Whether all tasks are accounted for: who has a task that has left the queue, what has become of
those that were started, where those are whose calls succeed, and how each call has ended.
-/
structure Accounts (shop : Workshop) : Prop where
  workers : (shop.pool.running ++ shop.pool.unpooled).Perm
    (shop.reserved ++ shop.held ++ shop.carrying)
  starts : shop.starts.Perm (shop.carrying ++ shop.pool.finished)
  accepted : shop.accepted.Perm
    (shop.pool.queue ++ shop.held ++ shop.carrying ++ shop.pool.finished)
  calls : (List.range shop.calls).Perm
    (shop.accepted ++ shop.reserved ++ shop.rejected ++ shop.full)

theorem accounts_iff {shop : Workshop} :
    shop.Accounts
      ↔
    ∀ task,
      shop.pool.running.count task + shop.pool.unpooled.count task =
        shop.reserved.count task + shop.held.count task + shop.carrying.count task ∧
      shop.starts.count task = shop.carrying.count task + shop.pool.finished.count task ∧
      shop.accepted.count task =
        shop.pool.queue.count task + shop.held.count task + shop.carrying.count task +
          shop.pool.finished.count task ∧
      (List.range shop.calls).count task =
        shop.accepted.count task + shop.reserved.count task + shop.rejected.count task +
          shop.full.count task := by
  constructor
  . intro h task
    simp only [← List.count_append]
    exact ⟨h.workers.count_eq task, h.starts.count_eq task, h.accepted.count_eq task,
      h.calls.count_eq task⟩
  . intro h
    simp only [← List.count_append] at h
    constructor
    . exact List.perm_iff_count.mpr fun task => (h task).1
    . exact List.perm_iff_count.mpr fun task => (h task).2.1
    . exact List.perm_iff_count.mpr fun task => (h task).2.2.1
    . exact List.perm_iff_count.mpr fun task => (h task).2.2.2

theorem accounts_initial (name : String) (settings : PoolSettings) :
    (initial name settings).Accounts := by
  constructor <;> exact .refl _

namespace Accounts

variable {shop : Workshop}

theorem call (h : shop.Accounts) (hdepth : 0 < shop.pool.settings.queueDepth) :
    (shop.next .call).Accounts := by
  rw [accounts_iff] at *
  intro task
  have := h task
  have hcalls : (List.range (shop.calls + 1)).count task
      =
    (List.range shop.calls).count task + [shop.calls].count task := by
    rw [List.range_succ, List.count_append]
  simp only [Workshop.next, Pool.offer_eq hdepth]
  cases shop.pool.accepting with
  | false =>
    simp only [Bool.false_eq_true, if_false, List.count_append]
    omega
  | true =>
    by_cases hroom : shop.pool.queue.length < shop.pool.settings.queueDepth
    . simp only [if_true, if_pos hroom, List.count_append]
      omega
    . simp only [if_true, if_neg hroom, List.count_append]
      omega

theorem place (h : shop.Accounts) {task : Nat} (htask : task ∈ shop.full) :
    (shop.next (.place task)).Accounts := by
  rw [accounts_iff] at *
  intro other
  have := h other
  have := count_erase_add htask other
  simp only [Workshop.next, Pool.place]
  by_cases hthreads : shop.pool.threads < shop.pool.settings.maxThreads
  . simp only [if_pos hthreads, List.count_append]
    omega
  . cases shop.pool.settings.overflow with
    | reject =>
      simp only [if_neg hthreads, List.count_append]
      omega
    | runUnpooled =>
      simp only [if_neg hthreads, List.count_append]
      omega

theorem hire (h : shop.Accounts) {task : Nat} (htask : task ∈ shop.reserved) :
    (shop.next (.hire task)).Accounts := by
  rw [accounts_iff] at *
  intro other
  have := h other
  have := count_erase_add htask other
  simp only [Workshop.next, List.count_append]
  omega

theorem take (h : shop.Accounts) (hwaits : shop.Waits) (hqueue : shop.pool.queue ≠ []) :
    (shop.next .take).Accounts := by
  rw [accounts_iff] at *
  intro other
  have := h other
  rcases List.exists_cons_of_ne_nil hqueue with ⟨task, queue, hqueue⟩
  have hidle : 0 < shop.pool.idle := by
    unfold Waits at hwaits
    omega
  have hcount : (task :: queue).count other = [task].count other + queue.count other := by
    rw [← List.singleton_append, List.count_append]
  rw [hqueue] at this
  simp only [Workshop.next, Pool.take_eq hidle hqueue, hqueue, List.head?_cons, Option.toList_some,
    List.count_append]
  omega

theorem start (h : shop.Accounts) {task : Nat} (htask : task ∈ shop.held) :
    (shop.next (.start task)).Accounts := by
  rw [accounts_iff] at *
  intro other
  have := h other
  have := count_erase_add htask other
  simp only [Workshop.next, List.count_append]
  omega

theorem finish (h : shop.Accounts) {task : Nat} (htask : task ∈ shop.carrying) :
    (shop.next (.finish task)).Accounts := by
  have hworker : task ∈ shop.pool.running ++ shop.pool.unpooled :=
    h.workers.symm.subset (List.mem_append_right _ htask)
  rw [List.mem_append] at hworker
  rw [accounts_iff] at *
  -- The task is taken off the list of the worker that has it, in the pool or outside of it.
  intro other
  have := h other
  have := count_erase_add htask other
  by_cases hrunning : task ∈ shop.pool.running
  . have := count_erase_add hrunning other
    simp only [Workshop.next, Pool.finish_of_mem_running hrunning, List.count_append]
    omega
  . have hunpooled := hworker.resolve_left hrunning
    have := count_erase_add hunpooled other
    simp only [Workshop.next, Pool.finish_of_mem_unpooled hrunning hunpooled, List.count_append]
    omega

theorem next (h : shop.Accounts) (hdepth : 0 < shop.pool.settings.queueDepth) {act : Act}
    (henabled : shop.Enabled act) : (shop.next act).Accounts := by
  cases act with
  | call => exact h.call hdepth
  | place task => exact h.place henabled
  | hire task => exact h.hire henabled
  | take => exact h.take henabled.1 henabled.2
  | start task => exact h.start henabled
  | finish task => exact h.finish henabled
  | retire =>
    simp only [Workshop.next, Pool.retire_eq]
    exact ⟨h.workers, h.starts, h.accepted, h.calls⟩
  | leave =>
    simp only [Workshop.next, Pool.leave_eq]
    exact ⟨h.workers, h.starts, h.accepted, h.calls⟩
  | tire => exact ⟨h.workers, h.starts, h.accepted, h.calls⟩
  | hangUp => exact ⟨h.workers, h.starts, h.accepted, h.calls⟩
  | shutdown => exact ⟨h.workers, h.starts, h.accepted, h.calls⟩

end Accounts

/--
Whether there are workers enough and not too many, and none leaves while something can be left to
do.
-/
structure Staffed (settings : PoolSettings) (shop : Workshop) : Prop where
  settings_eq : shop.pool.settings = settings
  threads_le : shop.pool.threads ≤ settings.maxThreads
  core_le : settings.coreThreads ≤ shop.pool.threads ∨
    shop.pool.accepting = false ∧ shop.pool.queue = []
  idle : shop.tired + shop.leaving ≤ shop.pool.idle
  drained : 0 < shop.leaving → shop.pool.accepting = false ∧ shop.pool.queue = []

theorem staffed_initial (name : String) {settings : PoolSettings}
    (h : settings.coreThreads ≤ settings.maxThreads) :
    (initial name settings).Staffed settings where
  settings_eq := rfl
  threads_le := h
  core_le := .inl (Nat.le_refl _)
  idle := Nat.zero_le _
  drained := by simp [initial]

namespace Staffed

variable {settings : PoolSettings} {shop : Workshop}

theorem call (h : shop.Staffed settings) (hdepth : 0 < shop.pool.settings.queueDepth) :
    (shop.next .call).Staffed settings := by
  have hcore := h.core_le
  have hdrained := h.drained
  simp only [Workshop.next, Pool.offer_eq hdepth]
  cases haccepting : shop.pool.accepting with
  | false => exact { h with }
  | true =>
    simp only [haccepting, Bool.true_eq_false, false_and, or_false, imp_false] at hcore hdrained
    by_cases hroom : shop.pool.queue.length < shop.pool.settings.queueDepth
    . simp only [if_true, if_pos hroom]
      exact { h with core_le := .inl hcore, drained := fun hpos => absurd hpos hdrained }
    . simp only [if_true, if_neg hroom]
      exact { h with }

theorem place (h : shop.Staffed settings) (task : Nat) :
    (shop.next (.place task)).Staffed settings := by
  simp only [Workshop.next, Pool.place]
  by_cases hthreads : shop.pool.threads < shop.pool.settings.maxThreads
  . have hgrown : ({ shop.pool with running := shop.pool.running ++ [task] } : Pool Nat).threads
        =
      shop.pool.threads + 1 := by
      simp only [Pool.threads, List.length_append, List.length_singleton, Nat.add_assoc]
    simp only [if_pos hthreads]
    exact { h with
      threads_le := by
        rw [hgrown, ← h.settings_eq]
        exact hthreads
      core_le := by
        rw [hgrown]
        exact h.core_le.imp_left Nat.le_succ_of_le }
  . cases shop.pool.settings.overflow with
    | reject =>
      simp only [if_neg hthreads]
      exact { h with }
    | runUnpooled =>
      simp only [if_neg hthreads]
      exact { h with }

theorem take (h : shop.Staffed settings) (hwaits : shop.Waits) (hqueue : shop.pool.queue ≠ []) :
    (shop.next .take).Staffed settings := by
  unfold Waits at hwaits
  have hidle : 0 < shop.pool.idle := by omega
  -- Who is about to leave has seen an empty queue, to which nothing was added since.
  have hdrained : ¬ 0 < shop.leaving := fun hpos => hqueue (h.drained hpos).2
  have hcore := h.core_le.resolve_right fun hright => hqueue hright.2
  rcases List.exists_cons_of_ne_nil hqueue with ⟨task, queue, hcons⟩
  have htaken : shop.pool.take.threads = shop.pool.threads := by
    rw [Pool.take_eq hidle hcons]
    simp only [Pool.threads, List.length_append, List.length_singleton]
    omega
  simp only [Workshop.next]
  refine ⟨?_, ?_, ?_, ?_, ?_⟩
  . rw [Pool.take_eq hidle hcons]
    exact h.settings_eq
  . rw [htaken]
    exact h.threads_le
  . rw [htaken]
    exact .inl hcore
  . rw [Pool.take_eq hidle hcons]
    dsimp only
    omega
  . intro hpos
    exact absurd hpos hdrained

theorem finish (h : shop.Staffed settings) {task : Nat}
    (htask : task ∈ shop.pool.running ∨ task ∈ shop.pool.unpooled) :
    (shop.next (.finish task)).Staffed settings := by
  by_cases hrunning : task ∈ shop.pool.running
  . have hlength : 0 < shop.pool.running.length := List.length_pos_of_mem hrunning
    have hfinished : (shop.pool.finish task).threads = shop.pool.threads := by
      rw [Pool.finish_of_mem_running hrunning]
      simp only [Pool.threads, List.length_erase_of_mem hrunning]
      omega
    have hidle := h.idle
    simp only [Workshop.next]
    refine ⟨?_, ?_, ?_, ?_, ?_⟩
    . rw [Pool.finish_of_mem_running hrunning]
      exact h.settings_eq
    . rw [hfinished]
      exact h.threads_le
    . rw [hfinished, Pool.finish_of_mem_running hrunning]
      exact h.core_le
    . rw [Pool.finish_of_mem_running hrunning]
      dsimp only
      omega
    . rw [Pool.finish_of_mem_running hrunning]
      exact h.drained
  . simp only [Workshop.next,
      Pool.finish_of_mem_unpooled hrunning (htask.resolve_left hrunning)]
    exact { h with }

theorem retire (h : shop.Staffed settings) (htired : 0 < shop.tired) :
    (shop.next .retire).Staffed settings := by
  have hidle := h.idle
  have hmax := h.threads_le
  simp only [Workshop.next, Pool.retire_eq]
  by_cases hmore : shop.pool.settings.coreThreads < shop.pool.threads
  . -- One worker is idle, namely the tired one itself.
    have hpos : 0 < shop.pool.idle := by omega
    simp only [hpos, hmore, and_self, if_true]
    rw [h.settings_eq] at hmore
    unfold Pool.threads at *
    exact { h with
      threads_le := by
        simp only [Pool.threads]
        omega
      core_le := by
        simp only [Pool.threads]
        omega
      idle := by
        dsimp only
        omega }
  . simp only [hmore, and_false, if_false]
    exact { h with
      idle := by
        dsimp only
        omega }

theorem leave (h : shop.Staffed settings) (hleaving : 0 < shop.leaving) :
    (shop.next .leave).Staffed settings := by
  have hidle := h.idle
  have hmax := h.threads_le
  have hdrained := h.drained hleaving
  simp only [Workshop.next, Pool.leave_eq, if_pos hdrained]
  unfold Pool.threads at hmax
  exact { h with
    threads_le := by
      simp only [Pool.threads]
      omega
    core_le := .inr hdrained
    idle := by
      dsimp only
      omega
    drained := fun _ => hdrained }

theorem next (h : shop.Staffed settings) (hdepth : 0 < settings.queueDepth)
    (haccounts : shop.Accounts) {act : Act} (henabled : shop.Enabled act) :
    (shop.next act).Staffed settings := by
  have hidle := h.idle
  cases act with
  | call => exact h.call (by rwa [h.settings_eq])
  | place task => exact h.place task
  | hire task => exact { h with }
  | take => exact h.take henabled.1 henabled.2
  | start task => exact { h with }
  | finish task =>
    have hworker := haccounts.workers.symm.subset (List.mem_append_right _ henabled)
    exact h.finish (List.mem_append.mp hworker)
  | tire => exact { h with idle := by simp only [Enabled, Waits, Workshop.next] at *; omega }
  | retire => exact h.retire henabled
  | hangUp =>
    exact { h with
      idle := by
        have := henabled.1
        simp only [Waits, Workshop.next] at *
        omega
      drained := fun _ => henabled.2 }
  | leave => exact h.leave henabled
  | shutdown =>
    exact { h with
      core_le := h.core_le.imp_right fun hright => ⟨rfl, hright.2⟩
      drained := fun hpos => ⟨rfl, (h.drained hpos).2⟩ }

end Staffed

end Workshop

end Work

end Zeroconf
