import Zeroconf.Settings
import Zeroconf.Transport.Host

/-!
This module contains the settings that are accepted, and those with which the links to the groups
can be opened as they are meant to be.
-/

namespace Zeroconf

namespace Settings

def interface? (settings : Settings) (isV6 : Bool) : Option IpAddress :=
  if isV6 then settings.network.interfaceV6 else settings.network.interfaceV4

structure Checked (settings : Settings) : Prop where
  responseWait : 0 < settings.querier.responseWait
  timeout : settings.querier.responseWait ≤ settings.querier.timeout
  multicastTtl : 1 ≤ settings.network.multicastTtl
  pools : ∀ pool ∈ [settings.executors.network, settings.executors.general,
    settings.executors.scheduled],
    0 < pool.coreThreads ∧ pool.coreThreads ≤ pool.maxThreads ∧ 0 < pool.queueDepth

/--
What settings must be like for the links to be opened as they are meant to be.
-/
structure Workable (settings : Settings) : Prop extends Checked settings where
  maxHops : settings.network.multicastTtl ≤ Transport.maxHops
  interface : ∀ isV6 ip, settings.interface? isV6 = some ip → ip.isV6 = isV6

variable {settings : Settings}

theorem poolProblem_eq_none_iff {name : String} {settings : PoolSettings} :
    poolProblem name settings = none
      ↔
    0 < settings.coreThreads ∧ settings.coreThreads ≤ settings.maxThreads ∧
      0 < settings.queueDepth := by
  unfold poolProblem
  split
  . next h =>
    simp only [Bool.or_eq_true, beq_iff_eq, decide_eq_true_eq] at h
    constructor
    . intro; contradiction
    . omega
  . next h =>
    simp only [Bool.or_eq_true, beq_iff_eq, decide_eq_true_eq] at h
    split
    . next hdepth =>
      simp only [beq_iff_eq] at hdepth
      constructor
      . intro; contradiction
      . omega
    . next hdepth =>
      simp only [beq_iff_eq] at hdepth
      constructor
      . omega
      . intro; rfl

theorem problem_eq_none_iff : settings.problem = none ↔ settings.Checked := by
  have hpools {first second : Option String} :
      (first <|> second) = none ↔ first = none ∧ second = none := by
    cases first <;> simp
  have httl : settings.network.multicastTtl ≠ 0 ↔ 1 ≤ settings.network.multicastTtl := by
    rw [Ne, ← UInt32.toNat_inj, UInt32.le_iff_toNat_le]
    exact Nat.pos_iff_ne_zero.symm
  unfold problem
  dsimp only
  constructor
  . intro h
    split at h
    . contradiction
    . next hwait =>
      split at h
      . contradiction
      . next htimeout =>
        split at h
        . contradiction
        . next hzero =>
          refine ⟨?_, Nat.not_lt.mp htimeout, ?_, ?_⟩
          . exact Nat.pos_of_ne_zero (by simpa using hwait)
          . exact httl.mp (by simpa using hzero)
          . simpa [hpools, poolProblem_eq_none_iff] using h
  . intro h
    rw [if_neg, if_neg, if_neg]
    . simpa [hpools, poolProblem_eq_none_iff] using h.pools
    . simpa using httl.mpr h.multicastTtl
    . exact Nat.not_lt.mpr h.timeout
    . simpa using Nat.pos_iff_ne_zero.mp h.responseWait

theorem validate_eq_ok_iff : settings.validate = .ok () ↔ settings.Checked := by
  rw [← problem_eq_none_iff]
  unfold validate
  cases settings.problem <;> simp

end Settings

end Zeroconf
