import Zeroconf.Proofs.Work.Workshop

/-!
This module contains what holds of pools at work on all their runs: where each task is, for which
reasons tasks are rejected, and that the workers can always carry out all that was accepted.
-/

namespace Zeroconf.Work

namespace Pool

variable {τ : Type} (pool : Pool τ)

@[simp]
theorem accepting_take : pool.take.accepting = pool.accepting := by
  unfold take
  split <;> rfl

@[simp]
theorem accepting_finish [BEq τ] (task : τ) : (pool.finish task).accepting = pool.accepting := by
  unfold finish
  split
  . rfl
  . split <;> rfl

@[simp]
theorem queue_finish [BEq τ] (task : τ) : (pool.finish task).queue = pool.queue := by
  unfold finish
  split
  . rfl
  . split <;> rfl

end Pool

namespace Workshop

variable {settings : PoolSettings} {name : String} {shop : Workshop} {acts : List Act}

structure Valid (settings : PoolSettings) (shop : Workshop) : Prop where
  accounts : shop.Accounts
  staffed : shop.Staffed settings

theorem valid_initial (name : String) (h : settings.coreThreads ≤ settings.maxThreads) :
    (initial name settings).Valid settings :=
  ⟨accounts_initial name settings, staffed_initial name h⟩

theorem Valid.next (h : shop.Valid settings) (hdepth : 0 < settings.queueDepth) {act : Act}
    (henabled : shop.Enabled act) : (shop.next act).Valid settings where
  accounts := h.accounts.next (by rwa [h.staffed.settings_eq]) henabled
  staffed := h.staffed.next hdepth h.accounts henabled

namespace Accounts

theorem nodup_calls (h : shop.Accounts) :
    (shop.accepted ++ shop.reserved ++ shop.rejected ++ shop.full).Nodup :=
  h.calls.nodup_iff.mp List.nodup_range

theorem nodup_accepted (h : shop.Accounts) : shop.accepted.Nodup := by
  have hcalls := h.nodup_calls
  simp only [List.nodup_append] at hcalls
  exact hcalls.1.1.1

theorem nodup_starts (h : shop.Accounts) : shop.starts.Nodup := by
  have hplaces := h.accepted.nodup_iff.mp h.nodup_accepted
  rw [List.append_assoc, List.nodup_append] at hplaces
  exact h.starts.nodup_iff.mpr hplaces.2.1

theorem mem_accepted_of_mem_starts (h : shop.Accounts) {task : Nat}
    (hmem : task ∈ shop.starts) : task ∈ shop.accepted := by
  rw [h.accepted.mem_iff, List.append_assoc]
  exact List.mem_append_right _ (h.starts.mem_iff.mp hmem)

theorem not_mem_accepted_of_mem_rejected (h : shop.Accounts) {task : Nat}
    (hmem : task ∈ shop.rejected) : task ∉ shop.accepted := by
  intro haccepted
  have hcalls := h.nodup_calls
  rw [List.nodup_append, List.nodup_append] at hcalls
  exact hcalls.1.2.2 task (List.mem_append_left _ haccepted) task hmem rfl

end Accounts

namespace Valid

theorem nodup_accepted (h : shop.Valid settings) : shop.accepted.Nodup := h.accounts.nodup_accepted

theorem nodup_starts (h : shop.Valid settings) : shop.starts.Nodup := h.accounts.nodup_starts

theorem mem_accepted_of_mem_starts (h : shop.Valid settings) {task : Nat}
    (hmem : task ∈ shop.starts) : task ∈ shop.accepted :=
  h.accounts.mem_accepted_of_mem_starts hmem

theorem not_mem_accepted_of_mem_rejected (h : shop.Valid settings) {task : Nat}
    (hmem : task ∈ shop.rejected) : task ∉ shop.accepted :=
  h.accounts.not_mem_accepted_of_mem_rejected hmem

end Valid

section Step

variable (hdepth : 0 < shop.pool.settings.queueDepth)

include hdepth

theorem accepting_next (act : Act) :
    (shop.next act).pool.accepting = (shop.pool.accepting && act != .shutdown) := by
  cases act with
  | call =>
    simp only [next, Pool.offer_eq hdepth]
    cases haccepting : shop.pool.accepting with
    | false => simp [haccepting]
    | true =>
      by_cases hroom : shop.pool.queue.length < shop.pool.settings.queueDepth
      . simp [hroom]
      . simp [hroom, haccepting]
  | place task =>
    simp only [next, Pool.place]
    by_cases hthreads : shop.pool.threads < shop.pool.settings.maxThreads
    . simp [hthreads]
    . cases shop.pool.settings.overflow <;> simp [hthreads]
  | take => simp [next]
  | finish task => simp [next]
  | retire => simp [next, Pool.retire_eq]
  | leave => simp [next, Pool.leave_eq]
  | shutdown => simp [next, Pool.shutdown]
  | hire task => simp [next]
  | start task => simp [next]
  | tire => simp [next]
  | hangUp => simp [next]

theorem mem_full_next {act : Act} {task : Nat} (h : task ∈ (shop.next act).full) :
    task ∈ shop.full ∨
      act = .call ∧ task = shop.calls ∧
        shop.pool.settings.queueDepth ≤ shop.pool.queue.length := by
  cases act with
  | call =>
    simp only [next, Pool.offer_eq hdepth] at h
    cases haccepting : shop.pool.accepting with
    | false => simp_all
    | true =>
      by_cases hroom : shop.pool.queue.length < shop.pool.settings.queueDepth
      . simp_all
      . simp only [haccepting, hroom, if_true, if_false, List.mem_append, List.mem_singleton] at h
        rcases h with h | h
        . exact .inl h
        . exact .inr ⟨rfl, h, Nat.le_of_not_lt hroom⟩
  | place other =>
    refine .inl (List.mem_of_mem_erase (b := other) ?_)
    simp only [next] at h
    split at h
    . exact h
    . exact h
  | _ => exact .inl h

theorem mem_rejected_next {act : Act} {task : Nat} (h : task ∈ (shop.next act).rejected) :
    task ∈ shop.rejected ∨
      act = .call ∧ task = shop.calls ∧ shop.pool.accepting = false ∨
      act = .place task ∧ shop.pool.settings.overflow = .reject ∧
        shop.pool.settings.maxThreads ≤ shop.pool.threads := by
  cases act with
  | call =>
    simp only [next, Pool.offer_eq hdepth] at h
    cases haccepting : shop.pool.accepting with
    | false =>
      simp only [haccepting, Bool.false_eq_true, if_false, List.mem_append,
        List.mem_singleton] at h
      rcases h with h | h
      . exact .inl h
      . exact .inr (.inl ⟨rfl, h, rfl⟩)
    | true =>
      by_cases hroom : shop.pool.queue.length < shop.pool.settings.queueDepth
      . simp_all
      . simp_all
  | place other =>
    simp only [next, Pool.place] at h
    by_cases hthreads : shop.pool.threads < shop.pool.settings.maxThreads
    . simp_all
    . cases hoverflow : shop.pool.settings.overflow with
      | reject =>
        simp only [hthreads, hoverflow, if_false, List.mem_append, List.mem_singleton] at h
        rcases h with h | rfl
        . exact .inl h
        . exact .inr (.inr ⟨rfl, rfl, Nat.le_of_not_lt hthreads⟩)
      | runUnpooled => simp_all
  | _ => exact .inl h

end Step

def after (name : String) (settings : PoolSettings) (acts : List Act) : Workshop :=
  machine.follow (initial name settings) acts

theorem after_concat (acts : List Act) (act : Act) :
    after name settings (acts ++ [act]) = (after name settings acts).next act :=
  machine.follow_concat ..

/--
Whether a task was offered when the queue took no more tasks at all.
-/
def RefusedAtEnd (name : String) (settings : PoolSettings) (acts : List Act) (task : Nat) : Prop :=
  Machine.Occurs acts .call fun front =>
    (after name settings front).calls = task ∧ .shutdown ∈ front

def MetFull (name : String) (settings : PoolSettings) (acts : List Act) (task : Nat) : Prop :=
  Machine.Occurs acts .call fun front =>
    (after name settings front).calls = task ∧
      settings.queueDepth ≤ (after name settings front).pool.queue.length

/--
Whether a task that had met a full queue found all workers there when it looked for a place.
-/
def RefusedPlace (name : String) (settings : PoolSettings) (acts : List Act) (task : Nat) : Prop :=
  Machine.Occurs acts (.place task) fun front =>
    MetFull name settings front task ∧
      settings.maxThreads ≤ (after name settings front).pool.threads

section Run

variable (hcore : settings.coreThreads ≤ settings.maxThreads) (hdepth : 0 < settings.queueDepth)

include hcore hdepth

theorem valid_after (hadmits : machine.Admits (initial name settings) acts) :
    (after name settings acts).Valid settings :=
  Machine.keeps (fun _ _ h henabled => h.next hdepth henabled) (valid_initial name hcore) hadmits

theorem settings_after (hadmits : machine.Admits (initial name settings) acts) :
    (after name settings acts).pool.settings = settings :=
  (valid_after hcore hdepth hadmits).staffed.settings_eq

theorem accepting_after_iff (hadmits : machine.Admits (initial name settings) acts) :
    (after name settings acts).pool.accepting = true ↔ .shutdown ∉ acts := by
  induction acts using List.reverseRecOn with
  | nil => simp [after, Machine.follow, initial, Pool.start]
  | append_singleton acts act ih =>
    rw [Machine.admits_append_iff] at hadmits
    have hsettings := settings_after hcore hdepth hadmits.1
    rw [after_concat, accepting_next (by rwa [hsettings]), Bool.and_eq_true, ih hadmits.1,
      bne_iff_ne, List.mem_append, List.mem_singleton, not_or]
    exact and_congr_right fun _ => ne_comm

theorem metFull_of_mem_full (hadmits : machine.Admits (initial name settings) acts) {task : Nat}
    (h : task ∈ (after name settings acts).full) : MetFull name settings acts task := by
  induction acts using List.reverseRecOn with
  | nil => simp [after, Machine.follow, initial] at h
  | append_singleton acts act ih =>
    rw [Machine.admits_append_iff] at hadmits
    rw [after_concat] at h
    have hsettings := settings_after hcore hdepth hadmits.1
    rcases mem_full_next (by rwa [hsettings]) h with h | ⟨rfl, hcalls, hlength⟩
    . exact (ih hadmits.1 h).concat act
    . rw [hsettings] at hlength
      exact ⟨acts, [], rfl, hcalls.symm, hlength⟩

theorem refused_of_mem_rejected (hadmits : machine.Admits (initial name settings) acts)
    {task : Nat} (h : task ∈ (after name settings acts).rejected) :
    RefusedAtEnd name settings acts task ∨
      settings.overflow = .reject ∧ RefusedPlace name settings acts task := by
  induction acts using List.reverseRecOn with
  | nil => simp [after, Machine.follow, initial] at h
  | append_singleton acts act ih =>
    rw [Machine.admits_append_iff] at hadmits
    rw [after_concat] at h
    have hsettings := settings_after hcore hdepth hadmits.1
    rcases mem_rejected_next (by rwa [hsettings]) h with
      h | ⟨rfl, hcalls, haccepting⟩ | ⟨rfl, hoverflow, hthreads⟩
    . exact (ih hadmits.1 h).imp (·.concat act) (And.imp_right (·.concat act))
    . refine .inl ⟨acts, [], rfl, hcalls.symm, ?_⟩
      by_contra hshutdown
      rw [(accepting_after_iff hcore hdepth hadmits.1).mpr hshutdown] at haccepting
      contradiction
    . rw [hsettings] at hoverflow hthreads
      have hmet := metFull_of_mem_full hcore hdepth hadmits.1 hadmits.2.1
      exact .inr ⟨hoverflow, acts, [], rfl, hmet, hthreads⟩

end Run

/--
Whether an act is one of those by which tasks that are on their way come to their end.
-/
def Act.isWork : Act → Bool
  | .hire _ => true
  | .take => true
  | .start _ => true
  | .finish _ => true
  | .retire => true
  | _ => false

def remaining (shop : Workshop) : Nat :=
  3 * shop.pool.queue.length + 3 * shop.reserved.length + 2 * shop.held.length +
    shop.carrying.length + shop.tired

def Done (shop : Workshop) : Prop :=
  shop.pool.queue = [] ∧ shop.reserved = [] ∧ shop.held = [] ∧ shop.carrying = []

theorem remaining_next_lt {act : Act} (hwork : act.isWork = true) (henabled : shop.Enabled act) :
    (shop.next act).remaining < shop.remaining := by
  cases act with
  | hire task =>
    have := List.length_pos_of_mem henabled
    simp only [remaining, next, List.length_erase_of_mem henabled, List.length_append,
      List.length_singleton]
    omega
  | take =>
    rcases henabled with ⟨hwaits, hqueue⟩
    unfold Waits at hwaits
    rcases List.exists_cons_of_ne_nil hqueue with ⟨task, queue, hcons⟩
    simp only [remaining, next, Pool.take_eq (Nat.zero_lt_of_lt hwaits) hcons, hcons,
      List.head?_cons, Option.toList_some, List.length_append, List.length_cons, List.length_nil]
    omega
  | start task =>
    have := List.length_pos_of_mem henabled
    simp only [remaining, next, List.length_erase_of_mem henabled, List.length_append,
      List.length_singleton]
    omega
  | finish task =>
    have := List.length_pos_of_mem henabled
    simp only [remaining, next, Pool.queue_finish, List.length_erase_of_mem henabled]
    omega
  | retire =>
    have : 0 < shop.tired := henabled
    simp only [remaining, next, Pool.retire_eq]
    omega
  | _ => contradiction

theorem Valid.core_le_idle (h : shop.Valid settings) (hqueue : shop.pool.queue ≠ [])
    (hreserved : shop.reserved = []) (hheld : shop.held = []) (hcarrying : shop.carrying = []) :
    settings.coreThreads ≤ shop.pool.idle := by
  have hworkers := h.accounts.workers
  rw [hreserved, hheld, hcarrying] at hworkers
  have hrunning := (List.append_eq_nil_iff.mp hworkers.eq_nil).1
  have hthreads := h.staffed.core_le.resolve_right fun hright => hqueue hright.2
  rw [Pool.threads, hrunning] at hthreads
  exact hthreads

theorem Valid.exists_work (h : shop.Valid settings) (hcore : 0 < settings.coreThreads)
    (hdone : ¬ shop.Done) : ∃ act : Act, act.isWork = true ∧ shop.Enabled act := by
  by_cases hreserved : shop.reserved = []
  . by_cases hheld : shop.held = []
    . by_cases hcarrying : shop.carrying = []
      . have hqueue : shop.pool.queue ≠ [] := fun hqueue =>
          hdone ⟨hqueue, hreserved, hheld, hcarrying⟩
        have hidle := h.core_le_idle hqueue hreserved hheld hcarrying
        have hleaving : ¬ 0 < shop.leaving := fun hpos => hqueue (h.staffed.drained hpos).2
        by_cases hwaits : shop.Waits
        . exact ⟨.take, rfl, hwaits, hqueue⟩
        . -- All idle workers have waited for too long; those who may not leave will wait again.
          unfold Waits at hwaits
          have htired : 0 < shop.tired := by omega
          exact ⟨.retire, rfl, htired⟩
      . rcases List.exists_mem_of_ne_nil _ hcarrying with ⟨task, hmem⟩
        exact ⟨.finish task, rfl, hmem⟩
    . rcases List.exists_mem_of_ne_nil _ hheld with ⟨task, hmem⟩
      exact ⟨.start task, rfl, hmem⟩
  . rcases List.exists_mem_of_ne_nil _ hreserved with ⟨task, hmem⟩
    exact ⟨.hire task, rfl, hmem⟩

theorem Valid.exists_done (h : shop.Valid settings) (hcore : 0 < settings.coreThreads)
    (hdepth : 0 < settings.queueDepth) :
    ∃ more : List Act, (∀ act ∈ more, act.isWork = true) ∧ machine.Admits shop more ∧
      (machine.follow shop more).Valid settings ∧ (machine.follow shop more).Done := by
  apply Machine.exists_run remaining _ h
  intro shop h hdone
  rcases h.exists_work hcore hdone with ⟨act, hwork, henabled⟩
  exact ⟨act, hwork, henabled, h.next hdepth henabled, remaining_next_lt hwork henabled⟩

theorem accepted_prefix_next (hdepth : 0 < shop.pool.settings.queueDepth) (act : Act) :
    shop.accepted <+: (shop.next act).accepted := by
  cases act with
  | call =>
    simp only [next, Pool.offer_eq hdepth]
    cases shop.pool.accepting with
    | false => simp
    | true =>
      by_cases hroom : shop.pool.queue.length < shop.pool.settings.queueDepth
      . simp [hroom]
      . simp [hroom]
  | place task =>
    simp only [next]
    split <;> exact List.prefix_refl _
  | hire task => exact List.prefix_append ..
  | _ => exact List.prefix_refl _

theorem Valid.accepted_prefix (h : shop.Valid settings) (hdepth : 0 < settings.queueDepth)
    {more : List Act} (hadmits : machine.Admits shop more) :
    shop.accepted <+: (machine.follow shop more).accepted := by
  have hkept := Machine.keeps
    (P := fun later => later.Valid settings ∧ shop.accepted <+: later.accepted)
    (fun later act h henabled => by
      refine ⟨h.1.next hdepth henabled, h.2.trans (accepted_prefix_next ?_ act)⟩
      rwa [h.1.staffed.settings_eq])
    ⟨h, List.prefix_refl _⟩ hadmits
  exact hkept.2

theorem exists_submit (shop : Workshop) :
    let task := shop.calls
    let (verdict, pool, _) := shop.pool.submit task
    ∃ acts, machine.Admits shop acts ∧ (machine.follow shop acts).pool = pool ∧
      match verdict with
      | .ok () => (machine.follow shop acts).accepted = shop.accepted ++ [task]
      | .error _ => (machine.follow shop acts).rejected = shop.rejected ++ [task] := by
  dsimp only
  cases hoffer : shop.pool.offer shop.calls with
  | taken pool =>
    simp only [Pool.submit, hoffer]
    refine ⟨[.call], ⟨trivial, trivial⟩, ?_⟩
    simp [Machine.follow, machine, next, hoffer]
  | refused =>
    simp only [Pool.submit, hoffer]
    refine ⟨[.call], ⟨trivial, trivial⟩, ?_⟩
    simp [Machine.follow, machine, next, hoffer]
  | full =>
    have hcall : shop.next .call
        =
      { shop with calls := shop.calls + 1, full := shop.full ++ [shop.calls] } := by
      simp only [next, hoffer]
    have hfull : machine.Enabled (shop.next .call) (.place shop.calls) := by
      rw [hcall]
      exact List.mem_append_right _ (List.mem_singleton.mpr rfl)
    rcases hplace : shop.pool.place shop.calls with ⟨verdict, pool, samples⟩
    simp only [Pool.submit, hoffer, hplace]
    cases verdict with
    | ok =>
      have hreserved : machine.Enabled ((shop.next .call).next (.place shop.calls))
          (.hire shop.calls) := by
        rw [hcall]
        simp only [next, hplace]
        exact List.mem_append_right _ (List.mem_singleton.mpr rfl)
      refine ⟨[.call, .place shop.calls, .hire shop.calls],
        ⟨trivial, hfull, hreserved, trivial⟩, ?_⟩
      simp [Machine.follow, machine, next, hoffer, hplace]
    | error error =>
      refine ⟨[.call, .place shop.calls], ⟨trivial, hfull, trivial⟩, ?_⟩
      simp [Machine.follow, machine, next, hoffer, hplace]

/--
On every run of a pool with settings that make sense, each task whose call succeeds is waiting, in
the hands of a worker, carried out at the moment or finished, and none was started twice. A rejected
task is not among them, and is rejected because the pool was shut down, or by a pool that rejects
tasks because there was room for it neither in the queue nor among the workers. The number of
workers stays in its bounds, none is missing while a task waits, and what was accepted can always be
carried out by those who have it in hands.
-/
theorem tasks_conserved (name : String) (settings : PoolSettings) (acts : List Act)
    (hsettings : Settings.poolProblem name settings = none)
    (hadmits : machine.Admits (initial name settings) acts) :
    let shop := after name settings acts
    shop.Accounts ∧ shop.accepted.Nodup ∧ shop.starts.Nodup ∧
    (∀ task ∈ shop.rejected, task ∉ shop.accepted ∧ task ∉ shop.starts ∧
      (RefusedAtEnd name settings acts task ∨
        settings.overflow = .reject ∧ RefusedPlace name settings acts task)) ∧
    (shop.pool.threads ≤ settings.maxThreads ∧
      (.shutdown ∉ acts → settings.coreThreads ≤ shop.pool.threads)) ∧
    (shop.pool.queue ≠ [] → 0 < shop.pool.threads ∧ shop.leaving = 0) ∧
    ∃ more : List Act, (∀ act ∈ more, act.isWork = true) ∧ machine.Admits shop more ∧
      ∀ task ∈ shop.accepted, task ∈ (machine.follow shop more).pool.finished := by
  intro shop
  rcases Settings.poolProblem_eq_none_iff.mp hsettings with ⟨hcore, hmax, hdepth⟩
  have hvalid : shop.Valid settings := valid_after hmax hdepth hadmits
  have hstaffed := hvalid.staffed
  refine ⟨hvalid.accounts, hvalid.nodup_accepted, hvalid.nodup_starts, ?_,
    ⟨hstaffed.threads_le, ?_⟩, ?_, ?_⟩
  . intro task hmem
    have hnot := hvalid.not_mem_accepted_of_mem_rejected hmem
    exact ⟨hnot, fun hstarts => hnot (hvalid.mem_accepted_of_mem_starts hstarts),
      refused_of_mem_rejected hmax hdepth hadmits hmem⟩
  . intro hshutdown
    have haccepting := (accepting_after_iff hmax hdepth hadmits).mpr hshutdown
    exact hstaffed.core_le.resolve_right (by simp [shop, haccepting])
  . intro hqueue
    have hthreads := hstaffed.core_le.resolve_right fun hright => hqueue hright.2
    exact ⟨Nat.lt_of_lt_of_le hcore hthreads,
      Nat.eq_zero_of_not_pos fun hpos => hqueue (hstaffed.drained hpos).2⟩
  . rcases hvalid.exists_done hcore hdepth with ⟨more, hwork, hmore, hlast, hdone⟩
    refine ⟨more, hwork, hmore, ?_⟩
    intro task hmem
    have haccepted := (hvalid.accepted_prefix hdepth hmore).subset hmem
    rcases hdone with ⟨hqueue, -, hheld, hcarrying⟩
    rw [hlast.accounts.accepted.mem_iff, hqueue, hheld, hcarrying] at haccepted
    exact haccepted

/--
The second task makes the pool grow. Its first worker leaves meanwhile, so that the first task waits
for the second one to be done, beyond the end of the pool. Two tasks are rejected, one for want of
room and one at the end.
-/
theorem tasks_conserved_grown :
    let settings : PoolSettings :=
      { coreThreads := 1, maxThreads := 2, queueDepth := 1, overflow := .reject }
    let acts : List Act :=
      [.call, .call, .call, .place 1, .tire, .place 2, .hire 1, .retire, .start 1, .shutdown,
        .call]
    let shop := after "exec" settings acts
    shop.pool.queue = [0] ∧ shop.carrying = [1] ∧ shop.rejected = [2, 3] ∧
    shop.accepted.Nodup ∧ 0 < shop.pool.threads ∧
    RefusedAtEnd "exec" settings acts 3 := by
  intro settings acts shop
  have hadmits : machine.Admits (initial "exec" settings) acts := by decide
  rcases tasks_conserved "exec" settings acts rfl hadmits with
    ⟨-, hnodup, -, hrejected, -, hqueue, -⟩
  have hwaiting : shop.pool.queue = [0] := by decide
  have hmem : 3 ∈ shop.rejected := by decide
  refine ⟨hwaiting, by decide, by decide, hnodup, ?_, ?_⟩
  . exact (hqueue (by rw [hwaiting]; simp)).1
  . -- The call did not look for a place.
    apply (hrejected 3 hmem).2.2.resolve_right
    rintro ⟨-, front, behind, hacts, -⟩
    have : Act.place 3 ∈ acts := by simp [hacts]
    exact absurd this (by decide)

end Workshop

end Zeroconf.Work
