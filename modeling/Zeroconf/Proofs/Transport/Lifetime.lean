import Zeroconf.Proofs.Machine
import Zeroconf.Proofs.Name.Wire
import Zeroconf.Proofs.Work.Timetable
import Zeroconf.Transport.Processor

/-!
This module contains the life of a processor: it is started, closed and looked at in any order,
while others use the crew. Closing is the end of one that belongs to a group. It is the end of one
that listens for streams only if that was started before; otherwise the processor keeps its socket,
and it can be started afterwards.
-/

namespace Zeroconf

namespace Work

/--
Whether a task is on the timetable of a crew that is there.
-/
def Plans {τ : Type} (task : τ) (crew : Option (Crew τ)) (number : Nat) : Prop :=
  ∃ workers, crew = some workers ∧ workers.timetable.Plans task number

end Work

namespace Transport

open Work (Plans)

namespace Processor

/--
Whether the processor has its socket. That of one that listens for streams is dropped by who reads.
-/
def holdsSocket (processor : Processor) : Bool :=
  match processor.channel with
  | .multicast => !processor.closed
  | .unicast => processor.reader != .stopped

namespace Reader

def begins : Reader → Reader → Bool
  | .idle, .running => true
  | .idle, .stopped => true
  | .stopped, .running => true
  | _, _ => false

def ends : Reader → Reader → Bool
  | .idle, .stopped => true
  | .running, .stopped => true
  | _, _ => false

def stop : Reader → Reader
  | .running => .stopped
  | reader => reader

def hasBegun : Reader → Bool
  | .idle => false
  | _ => true

def hasEnded : Reader → Bool
  | .stopped => true
  | _ => false

/--
Whether nobody reads again after reading was stopped.
-/
inductive GoesOn : Reader → Reader → Prop where
  | same (reader : Reader) : GoesOn reader reader
  | start : GoesOn .idle .running
  | stop : GoesOn .running .stopped
  | startAndStop : GoesOn .idle .stopped

@[simp]
theorem begins_self (reader : Reader) : reader.begins reader = false := by
  cases reader <;> rfl

@[simp]
theorem ends_self (reader : Reader) : reader.ends reader = false := by
  cases reader <;> rfl

theorem goesOn_stop (reader : Reader) : reader.GoesOn reader.stop :=
  match reader with
  | .idle => .same _
  | .running => .stop
  | .stopped => .same _

variable {before after : Reader}

theorem GoesOn.hasBegun (h : before.GoesOn after) :
    before.hasBegun.toNat + (before.begins after).toNat = after.hasBegun.toNat := by
  cases h with
  | same => cases before <;> rfl
  | _ => rfl

theorem GoesOn.hasEnded (h : before.GoesOn after) :
    before.hasEnded.toNat + (before.ends after).toNat = after.hasEnded.toNat := by
  cases h with
  | same => cases before <;> rfl
  | _ => rfl

end Reader

end Processor

/--
A processor and the crew, with the number of readers that were started and stopped and how often the
socket was released.
-/
structure Lifetime (τ : Type) where
  processor : Processor
  crew : Option (Work.Crew τ)
  starts : Nat := 0
  stops : Nat := 0
  releases : Nat := 0

namespace Lifetime

inductive Act (τ : Type) where
  | start (now : Nat)
  | close
  /-- The task that watches the processor looks at it. -/
  | look (now : Nat)
  /-- Somebody uses the timetable, or the timetable goes on. -/
  | use (use : Work.Timetable.Use τ)
  /-- Something happens in the pool for packets. -/
  | work (network : Work.Pool τ)
  | dismiss

variable {τ : Type} (settings : NetworkSettings) (look : τ)

/--
The processor is looked at only when it was started, and nobody else puts down the task that does.
-/
def Enabled (s : Lifetime τ) : Act τ → Prop
  | .look _ => 0 < s.starts
  | .use use => ∀ now delay period, use ≠ .put now delay period look
  | _ => True

def apply (s : Lifetime τ) (change : Processor.Change τ) : Lifetime τ where
  processor := change.processor
  crew := change.crew
  starts := s.starts + (s.processor.reader.begins change.processor.reader).toNat
  stops := s.stops + (s.processor.reader.ends change.processor.reader).toNat
  releases := s.releases + (s.processor.holdsSocket && !change.processor.holdsSocket).toNat

def next (s : Lifetime τ) : Act τ → Lifetime τ
  | .start now => s.apply (s.processor.start settings look now s.crew)
  | .close => s.apply (s.processor.close s.crew)
  | .look now => s.apply (s.processor.look now s.crew)
  | .use use =>
    { s with
      crew := s.crew.map fun workers => { workers with timetable := workers.timetable.use use } }
  | .work network => { s with crew := s.crew.map fun workers => { workers with network } }
  | .dismiss => { s with crew := none }

def machine : Machine (Lifetime τ) (Act τ) := ⟨Enabled look, next settings look⟩

/--
What is to be expected of an act: when a processor has been closed, its socket has been released
once, whoever read was stopped and nobody watches it; and it cannot be started any more.
-/
structure Proper (s : Lifetime τ) (act : Act τ) : Prop where
  closed : (s.next settings look act).processor.closed = true →
    (s.next settings look act).releases = 1 ∧
    (s.next settings look act).stops = (s.next settings look act).starts ∧
    ∀ number, ¬ Plans look (s.next settings look act).crew number
  start : ∀ now, act = .start now → s.processor.closed = true →
    (s.processor.start settings look now s.crew).result ≠ .ok () ∧
    (s.next settings look act).starts = s.starts ∧
    ∀ number, Plans look (s.next settings look act).crew number → Plans look s.crew number

/--
Whether an act heeds the rule that a processor is started before it is closed, and not any more
after that.
-/
structure Heeded (s : Lifetime τ) (act : Act τ) : Prop where
  start : ∀ now, act = .start now → s.processor.closed = false
  close : act = .close → s.processor.closed = false → s.processor.reader ≠ .idle

structure Kept (s : Lifetime τ) : Prop where
  starts : s.starts = s.processor.reader.hasBegun.toNat
  stops : s.stops = s.processor.reader.hasEnded.toNat
  releases : s.releases = (!s.processor.holdsSocket).toNat
  running : s.processor.reader = .running → s.processor.closed = false
  stopped : s.processor.reader = .stopped → s.processor.closed = true
  idle : s.processor.reader = .idle → s.processor.watch = none
  plans : ∀ number, Plans look s.crew number → s.processor.watch = some number

structure Settled (s : Lifetime τ) : Prop where
  holdsSocket : s.processor.closed = true → s.processor.holdsSocket = false
  watch : s.processor.closed = true → s.processor.watch = none

variable {settings : NetworkSettings} {look : τ} {s s' : Lifetime τ} {act : Act τ}

theorem not_plans_none (number : Nat) : ¬ Plans look none number := by
  rintro ⟨workers, h, -⟩
  contradiction

section Operations

variable {processor : Processor} {crew : Option (Work.Crew τ)}

theorem startWatch_spec (processor : Processor) (settings : NetworkSettings) (now : Nat)
    (crew : Option (Work.Crew τ)) :
    let change := processor.startWatch settings look now crew
    change.processor = { processor with watch := change.processor.watch } ∧
    ∀ number, Plans look change.crew number →
      change.processor.watch = some number ∨ Plans look crew number := by
  unfold Processor.startWatch
  split
  . cases crew with
    | none => exact ⟨rfl, fun _ h => .inr h⟩
    | some workers =>
      dsimp only
      split
      . exact ⟨rfl, fun _ h => .inr h⟩
      . next hpush =>
        refine ⟨rfl, ?_⟩
        rintro number ⟨later, hlater, h⟩
        cases hlater
        rcases Work.Timetable.plans_of_push hpush h with ⟨-, rfl⟩ | h
        . exact .inl rfl
        . exact .inr ⟨workers, rfl, h⟩
  . exact ⟨rfl, fun _ h => .inr h⟩

theorem start_of_closed_group (hchannel : processor.channel = .multicast)
    (hreader : processor.reader ≠ .running) (hclosed : processor.closed = true) (now : Nat) :
    processor.start settings look now crew
      =
    { result := .error (.closed "multicast processor"), processor, crew } := by
  unfold Processor.start
  cases hcase : processor.reader <;> simp_all

theorem start_of_begun (hreader : processor.reader ≠ .idle)
    (hstopped : processor.channel = .multicast → processor.reader ≠ .stopped) (now : Nat) :
    processor.start settings look now crew = { processor, crew } := by
  unfold Processor.start
  cases hchannel : processor.channel <;> cases hcase : processor.reader <;> simp_all

theorem start_eq_startWatch (settings : NetworkSettings) (look : τ) (now : Nat)
    (crew : Option (Work.Crew τ)) (hreader : processor.reader = .idle)
    (hopen : processor.channel = .multicast → processor.closed = false) :
    let reader := if processor.closed then .stopped else .running
    ∃ samples, processor.start settings look now crew
      = { Processor.startWatch { processor with reader } settings look now crew with samples } := by
  unfold Processor.start
  cases hchannel : processor.channel with
  | multicast =>
    rw [hreader, hopen hchannel]
    exact ⟨_, rfl⟩
  | unicast =>
    rw [hreader]
    cases processor.closed <;> exact ⟨_, rfl⟩

theorem start_of_idle (settings : NetworkSettings) (look : τ) (now : Nat)
    (crew : Option (Work.Crew τ)) (hreader : processor.reader = .idle)
    (hopen : processor.channel = .multicast → processor.closed = false) :
    let change := processor.start settings look now crew
    change.processor = { processor with
      reader := if processor.closed then .stopped else .running
      watch := change.processor.watch } ∧
    ∀ number, Plans look change.crew number →
      change.processor.watch = some number ∨ Plans look crew number := by
  rcases start_eq_startWatch settings look now crew hreader hopen with ⟨samples, hstart⟩
  rw [hstart]
  exact startWatch_spec _ settings now crew

theorem close_of_open (look : τ) (crew : Option (Work.Crew τ)) (hopen : processor.closed = false) :
    (processor.close crew).processor
      = { processor with closed := true, watch := none, reader := processor.reader.stop } ∧
    ∀ number, Plans look (processor.close crew).crew number →
      processor.watch ≠ some number ∧ Plans look crew number := by
  constructor
  . unfold Processor.close
    rw [hopen]
    cases hreader : processor.reader <;> simp [Processor.Reader.stop]
  . intro number hplans
    cases hwatch : processor.watch with
    | none =>
      have hcrew : (processor.close crew).crew = crew := by
        unfold Processor.close
        rw [hopen, hwatch]
        cases processor.reader <;> rfl
      rw [hcrew] at hplans
      exact ⟨by simp, hplans⟩
    | some watch =>
      have hcrew : (processor.close crew).crew = crew.map fun workers =>
          { workers with timetable := workers.timetable.cancel watch } := by
        unfold Processor.close
        rw [hopen, hwatch]
        cases processor.reader <;> rfl
      rw [hcrew] at hplans
      rcases hplans with ⟨later, hlater, hplans⟩
      rcases Option.map_eq_some_iff.mp hlater with ⟨workers, hworkers, rfl⟩
      rcases Work.Timetable.plans_of_cancel hplans with ⟨hne, hplans⟩
      exact ⟨by simpa using hne, workers, hworkers, hplans⟩

end Operations

/--
What an act can do. Other acts leave the processor alone, and put no new watch on the timetable.
-/
inductive Steps (look : τ) (s : Lifetime τ) : Act τ → Lifetime τ → Prop where
  | rest {act : Act τ} {crew : Option (Work.Crew τ)}
      (hplans : ∀ number, Plans look crew number → Plans look s.crew number) :
      Steps look s act { s with crew }
  | start {now : Nat} {change : Processor.Change τ} (hidle : s.processor.reader = .idle)
      (hopen : s.processor.channel = .multicast → s.processor.closed = false)
      (hprocessor : change.processor = { s.processor with
        reader := if s.processor.closed then .stopped else .running
        watch := change.processor.watch })
      (hplans : ∀ number, Plans look change.crew number →
        change.processor.watch = some number ∨ Plans look s.crew number) :
      Steps look s (.start now) (s.apply change)
  | close {act : Act τ} {change : Processor.Change τ} (hact : act = .close ∨ ∃ now, act = .look now)
      (hopen : s.processor.closed = false)
      (hprocessor : change.processor = { s.processor with
        closed := true, watch := none, reader := s.processor.reader.stop })
      (hplans : ∀ number, Plans look change.crew number →
        s.processor.watch ≠ some number ∧ Plans look s.crew number) :
      Steps look s act (s.apply change)

theorem apply_same (result : Except Error Unit) (crew : Option (Work.Crew τ))
    (samples : List Sample) :
    s.apply { result, processor := s.processor, crew, samples } = { s with crew } := by
  simp [apply]

theorem plans_of_map {crew : Option (Work.Crew τ)} {change : Work.Crew τ → Work.Crew τ}
    (hchange : ∀ workers number, (change workers).timetable.Plans look number →
      workers.timetable.Plans look number) {number : Nat}
    (h : Plans look (crew.map change) number) : Plans look crew number := by
  rcases h with ⟨later, hlater, hplans⟩
  rcases Option.map_eq_some_iff.mp hlater with ⟨workers, hworkers, rfl⟩
  exact ⟨workers, hworkers, hchange workers number hplans⟩

theorem steps_close (hact : act = .close ∨ ∃ now, act = .look now) (samples : List Sample) :
    Steps look s act (s.apply { s.processor.close s.crew with samples }) := by
  cases hclosed : s.processor.closed with
  | false =>
    have hclose := close_of_open look s.crew hclosed
    exact .close hact hclosed hclose.1 hclose.2
  | true =>
    simp only [Processor.close, hclosed, if_true, apply_same]
    exact .rest fun _ h => h

theorem steps_start (hstopped : s.processor.reader = .stopped → s.processor.closed = true)
    (now : Nat) :
    Steps look s (.start now) (s.apply (s.processor.start settings look now s.crew)) := by
  by_cases hreader : s.processor.reader = .idle
  . by_cases hgroup : s.processor.channel = .multicast ∧ s.processor.closed = true
    . rw [start_of_closed_group hgroup.1 (by simp [hreader]) hgroup.2, apply_same]
      exact .rest fun _ h => h
    . have hopen : s.processor.channel = .multicast → s.processor.closed = false := by
        simpa using hgroup
      have hstart := start_of_idle settings look now s.crew hreader hopen
      exact .start hreader hopen hstart.1 hstart.2
  . by_cases hgroup : s.processor.channel = .multicast ∧ s.processor.reader = .stopped
    . rw [start_of_closed_group hgroup.1 (by simp [hgroup.2]) (hstopped hgroup.2), apply_same]
      exact .rest fun _ h => h
    . rw [start_of_begun hreader (by simpa using hgroup), apply_same]
      exact .rest fun _ h => h

theorem steps_next (h : s.Kept look) (henabled : Enabled look s act) :
    Steps look s act (next settings look s act) := by
  cases act with
  | start now => exact steps_start h.stopped now
  | close => exact steps_close (.inl rfl) _
  | look now =>
    simp only [next, Processor.look]
    split
    . exact steps_close (.inr ⟨now, rfl⟩) _
    . rw [apply_same]
      exact .rest fun _ h => h
  | use use =>
    refine .rest fun number => plans_of_map fun workers number => ?_
    exact Work.Timetable.plans_of_use henabled
  | work network =>
    refine .rest fun number => plans_of_map fun workers number => ?_
    exact id
  | dismiss => exact .rest fun number h => absurd h (not_plans_none number)

namespace Kept

theorem apply (h : s.Kept look) {change : Processor.Change τ}
    (hreader : s.processor.reader.GoesOn change.processor.reader)
    (hsocket : change.processor.holdsSocket = true → s.processor.holdsSocket = true)
    (hrunning : change.processor.reader = .running → change.processor.closed = false)
    (hstopped : change.processor.reader = .stopped → change.processor.closed = true)
    (hidle : change.processor.reader = .idle → change.processor.watch = none)
    (hplans : ∀ number, Plans look change.crew number → change.processor.watch = some number) :
    (s.apply change).Kept look where
  starts := (congrArg (· + _) h.starts).trans hreader.hasBegun
  stops := (congrArg (· + _) h.stops).trans hreader.hasEnded
  releases := by
    have hreleases := h.releases
    simp only [Lifetime.apply]
    cases hbefore : s.processor.holdsSocket <;> cases hafter : change.processor.holdsSocket <;>
      simp_all
  running := hrunning
  stopped := hstopped
  idle := hidle
  plans := hplans

theorem not_plans_of_watch (h : s.Kept look) (hwatch : s.processor.watch = none) (number : Nat) :
    ¬ Plans look s.crew number := by
  intro hplans
  rw [h.plans number hplans] at hwatch
  contradiction

theorem steps (h : s.Kept look) (hsteps : Steps look s act s') : s'.Kept look := by
  cases hsteps with
  | rest hplans =>
    exact { h with plans := fun number hplan => h.plans number (hplans number hplan) }
  | start hidle hopen hprocessor hplans =>
    have hwatch := h.idle hidle
    apply h.apply
    . rw [hprocessor, hidle]
      cases s.processor.closed with
      | false => exact .start
      | true => exact .startAndStop
    . rw [hprocessor]
      cases hchannel : s.processor.channel <;> simp [Processor.holdsSocket, hchannel, hidle]
    . rw [hprocessor]
      cases s.processor.closed <;> simp
    . rw [hprocessor]
      cases s.processor.closed <;> simp
    . rw [hprocessor]
      cases s.processor.closed <;> simp
    . -- Nobody watched before, so that the only watch is the one that was put down.
      intro number hplan
      rcases hplans number hplan with hnew | hold
      . exact hnew
      . exact absurd hold (h.not_plans_of_watch hwatch number)
  | close hact hopen hprocessor hplans =>
    apply h.apply
    . rw [hprocessor]
      exact Processor.Reader.goesOn_stop _
    . rw [hprocessor]
      cases hchannel : s.processor.channel <;>
        cases hreader : s.processor.reader <;>
          simp [Processor.holdsSocket, Processor.Reader.stop, hchannel, hreader, hopen]
    . rw [hprocessor]
      cases hreader : s.processor.reader <;> simp [Processor.Reader.stop]
    . rw [hprocessor]
      exact fun _ => rfl
    . rw [hprocessor]
      exact fun _ => rfl
    . intro number hplan
      rcases hplans number hplan with ⟨hne, hold⟩
      exact absurd (h.plans number hold) hne

theorem begun_of_look (h : s.Kept look) {now : Nat} (henabled : Enabled look s (.look now)) :
    s.processor.reader ≠ .idle := by
  intro hidle
  have hstarts : s.starts = 0 := by
    rw [h.starts, hidle]
    rfl
  simp [Enabled, hstarts] at henabled

theorem running_of_open (h : s.Kept look) (hopen : s.processor.closed = false)
    (hbegun : s.processor.reader ≠ .idle) : s.processor.reader = .running := by
  cases hreader : s.processor.reader with
  | idle => contradiction
  | running => rfl
  | stopped => simp [h.stopped hreader] at hopen

end Kept

theorem steps_channel (h : Steps look s act s') :
    s'.processor.channel = s.processor.channel := by
  cases h with
  | rest => rfl
  | start _ _ hprocessor | close _ _ hprocessor =>
    simp only [apply]
    rw [hprocessor]

/--
A processor for a group comes to its end when it is closed, and so does one that heeds the rule.
-/
theorem Settled.steps (h : s.Settled) (hkept : s.Kept look) (henabled : Enabled look s act)
    (hheeded : s.processor.channel = .multicast ∨ s.Heeded act) (hsteps : Steps look s act s') :
    s'.Settled := by
  cases hsteps with
  | rest => exact ⟨h.holdsSocket, h.watch⟩
  | @start now change hidle hopen hprocessor =>
    have hbefore : s.processor.closed = false := by
      rcases hheeded with hchannel | hheeded
      . exact hopen hchannel
      . exact hheeded.start now rfl
    have hafter : (s.apply change).processor.closed = false := by
      simp only [apply]
      rw [hprocessor, hbefore]
    exact ⟨fun hclosed => by simp [hafter] at hclosed, fun hclosed => by simp [hafter] at hclosed⟩
  | close hact hopen hprocessor =>
    refine ⟨fun _ => ?_, fun _ => ?_⟩
    . simp only [apply]
      rw [hprocessor]
      cases hchannel : s.processor.channel with
      | multicast => simp [Processor.holdsSocket, hchannel]
      | unicast =>
        have hbegun : s.processor.reader ≠ .idle := by
          rcases hact with rfl | ⟨now, rfl⟩
          . rcases hheeded with hgroup | hheeded
            . simp [hchannel] at hgroup
            . exact hheeded.close rfl hopen
          . exact hkept.begun_of_look henabled
        have hreader := hkept.running_of_open hopen hbegun
        simp [Processor.holdsSocket, Processor.Reader.stop, hchannel, hreader]
    . simp only [apply]
      rw [hprocessor]

theorem proper_of_settled (hkept : s.Kept look) (henabled : Enabled look s act)
    (hheeded : s.processor.channel = .multicast ∨ s.Heeded act)
    (hsettled : (next settings look s act).Settled) : Proper settings look s act where
  closed hclosed := by
    have hlater : (next settings look s act).Kept look := hkept.steps (steps_next hkept henabled)
    refine ⟨?_, ?_, hlater.not_plans_of_watch (hsettled.watch hclosed)⟩
    . rw [hlater.releases, hsettled.holdsSocket hclosed]
      rfl
    . rw [hlater.stops, hlater.starts]
      cases hreader : (next settings look s act).processor.reader with
      | idle | stopped => rfl
      | running => simp [hlater.running hreader] at hclosed
  start now hact hclosed := by
    subst hact
    have hgroup : s.processor.channel = .multicast := by
      rcases hheeded with hchannel | hheeded
      . exact hchannel
      . simp [hheeded.start now rfl] at hclosed
    have hreader : s.processor.reader ≠ .running := by
      intro hreader
      simp [hkept.running hreader] at hclosed
    simp only [next, start_of_closed_group hgroup hreader hclosed, apply_same]
    exact ⟨by simp, by simp, fun _ h => h⟩

/--
One that listens for streams keeps its socket if it is closed too early, and starts if it is started
too late.
-/
theorem heeded_of_proper (hkept : s.Kept look) (hchannel : s.processor.channel = .unicast)
    (hproper : Proper settings look s act) : s.Heeded act where
  start now hact := by
    subst hact
    by_contra hclosed
    have hclosed : s.processor.closed = true := by simpa using hclosed
    rcases hproper.start now rfl hclosed with ⟨hresult, hstarts, -⟩
    by_cases hreader : s.processor.reader = .idle
    . have hstart := start_of_idle settings look now s.crew hreader (by simp [hchannel])
      simp only [next, apply] at hstarts
      rw [hstart.1, hreader, hclosed] at hstarts
      simp [Processor.Reader.begins] at hstarts
    . simp [start_of_begun hreader, hchannel] at hresult
  close hact hopen hidle := by
    subst hact
    have hclose := close_of_open look s.crew hopen
    have hclosed : (next settings look s .close).processor.closed = true := by
      simp only [next, apply]
      rw [hclose.1]
    have hreleases := (hproper.closed hclosed).1
    simp only [next, apply] at hreleases
    rw [hkept.releases, hclose.1] at hreleases
    simp [Processor.holdsSocket, Processor.Reader.stop, hchannel, hidle] at hreleases

section Run

variable {host : Host} {channel : Channel} {interface address : IpAddress} {port : UInt16}
  {now : Nat} {processor : Processor} {crew : Option (Work.Crew τ)} {acts : List (Act τ)}

theorem opened_eq (hopened : Processor.openOn host channel interface address port settings now
    = .ok processor) : ∃ address, processor = { channel, address, opened := now } := by
  unfold Processor.openOn at hopened
  cases channel with
  | multicast =>
    dsimp only at hopened
    unfold Processor.openGroup at hopened
    rcases bind_eq_ok_iff.mp hopened with ⟨isV6, -, hopened⟩
    cases hgroup : address.isMulticast with
    | false =>
      rw [hgroup] at hopened
      contradiction
    | true =>
      rw [hgroup] at hopened
      rcases bind_eq_ok_iff.mp hopened with ⟨-, -, hopened⟩
      rcases bind_eq_ok_iff.mp hopened with ⟨-, -, hopened⟩
      rcases bind_eq_ok_iff.mp hopened with ⟨-, -, hopened⟩
      cases hopened
      exact ⟨_, rfl⟩
  | unicast =>
    rcases bind_eq_ok_iff.mp hopened with ⟨-, -, hopened⟩
    rcases bind_eq_ok_iff.mp hopened with ⟨-, -, hopened⟩
    cases hopened
    exact ⟨_, rfl⟩

theorem kept_opened (hopened : Processor.openOn host channel interface address port settings now
    = .ok processor) (hfree : ∀ number, ¬ Plans look crew number) :
    Kept look { processor, crew } := by
  rcases opened_eq hopened with ⟨address, rfl⟩
  refine ⟨rfl, rfl, ?_, ?_, ?_, fun _ => rfl, fun number h => absurd h (hfree number)⟩
  . cases channel <;> rfl
  . simp
  . simp

theorem kept_follow (h : s.Kept look) (hadmits : (machine settings look).Admits s acts) :
    ((machine settings look).follow s acts).Kept look :=
  Machine.keeps (fun _ _ h henabled => h.steps (steps_next h henabled)) h hadmits

theorem channel_follow (h : s.Kept look) (hadmits : (machine settings look).Admits s acts) :
    ((machine settings look).follow s acts).processor.channel = s.processor.channel := by
  have hboth := Machine.keeps
    (P := fun later => later.Kept look ∧ later.processor.channel = s.processor.channel)
    (fun later act hlater henabled =>
      have hsteps := steps_next hlater.1 henabled
      ⟨hlater.1.steps hsteps, (steps_channel hsteps).trans hlater.2⟩)
    ⟨h, rfl⟩ hadmits
  exact hboth.2

theorem settled_follow (h : s.Settled) (hkept : s.Kept look)
    (hadmits : (machine settings look).Admits s acts)
    (hheeded : s.processor.channel = .multicast ∨
      (machine settings look).Throughout Heeded s acts) :
    ((machine settings look).follow s acts).Settled := by
  refine Machine.run_induction
    (P := fun acts later => s.processor.channel = .multicast ∨
      (machine settings look).Throughout Heeded s acts → later.Settled)
    (fun _ => h) ?_ hadmits hheeded
  intro acts act hadmits ih henabled hheeded
  have hbefore := kept_follow hkept hadmits
  have hearlier := hheeded.imp_right Machine.Throughout.front
  refine (ih hearlier).steps hbefore henabled ?_ (steps_next hbefore henabled)
  rw [channel_follow hkept hadmits]
  exact hheeded.imp_right fun h => h acts act [] rfl

/--
A processor is opened and then started, closed and looked at in any order, while others use the
crew. It starts to read at most once, and its socket is released at most once. A processor for a
group always does what is to be expected of it. One that listens for streams does exactly if it is
closed only when it has been started, and not started again after that.
-/
theorem proper_iff_heeded
    (hopened : Processor.openOn host channel interface address port settings now = .ok processor)
    (hfree : ∀ number, ¬ Plans look crew number)
    (hadmits : (machine settings look).Admits { processor, crew } acts) :
    let s := (machine settings look).follow { processor, crew } acts
    s.starts ≤ 1 ∧ s.stops ≤ s.starts ∧ s.releases ≤ 1 ∧
    ((machine settings look).Throughout (Proper settings look) { processor, crew } acts
      ↔
    channel = .multicast ∨
      (machine settings look).Throughout Heeded { processor, crew } acts) := by
  intro s
  have hkept := kept_opened hopened hfree
  have hchannel : processor.channel = channel := by
    rcases opened_eq hopened with ⟨address, rfl⟩
    rfl
  have hsettled : Settled { processor, crew } := by
    rcases opened_eq hopened with ⟨address, rfl⟩
    exact ⟨by simp, by simp⟩
  have hend := kept_follow hkept hadmits
  refine ⟨?_, ?_, ?_, ?_, ?_⟩
  . rw [hend.starts]
    apply Bool.toNat_le
  . rw [hend.starts, hend.stops]
    cases s.processor.reader <;> simp [Processor.Reader.hasBegun, Processor.Reader.hasEnded]
  . rw [hend.releases]
    apply Bool.toNat_le
  . intro hproper
    cases hcase : channel with
    | multicast => exact .inl rfl
    | unicast =>
      refine .inr ?_
      rintro front act behind rfl
      have hfront := (Machine.admits_append_iff _).mp hadmits
      refine heeded_of_proper (kept_follow hkept hfront.1) ?_ (hproper front act behind rfl)
      rw [channel_follow hkept hfront.1, hchannel, hcase]
  . rintro hheeded front act behind rfl
    rw [← hchannel] at hheeded
    have hfront := (Machine.admits_append_iff _).mp hadmits
    have hearlier := hheeded.imp_right Machine.Throughout.front
    have hbefore := kept_follow hkept hfront.1
    have hact := hheeded.imp_right fun h => h front act behind rfl
    rw [← channel_follow hkept hfront.1] at hact
    -- A run that has heeded the rule so far has brought a closed processor to its end.
    have hthen := settled_follow hsettled hkept hfront.1 hearlier
    exact proper_of_settled hbefore hfront.2.1 hact
      (hthen.steps hbefore hfront.2.1 hact (steps_next hbefore hfront.2.1))

/--
A processor for a group is watched, closed, and cannot be started again.
-/
theorem proper_iff_heeded_group :
    let settings : NetworkSettings := { threadMonitor := true }
    let interface : IpAddress := .v4 ⟨127, 0, 0, 1⟩
    let group : IpAddress := .v4 ⟨224, 0, 0, 251⟩
    let processor : Processor := { channel := .multicast, address := .of (.v4 .unspecified) 5353 }
    let crew : Option (Work.Crew Unit) := some (.start {})
    let acts : List (Act Unit) :=
      [.start 0, .use (.tick 1000), .look 1000, .close, .use (.tick 2000), .start 2000, .close]
    let s := (machine settings ()).follow { processor, crew } acts
    Processor.openOn {} .multicast interface group 5353 settings 0 = .ok processor ∧
    (∀ number, ¬ Plans () crew number) ∧
    (machine settings ()).Admits { processor, crew } acts ∧
    s.starts = 1 ∧ s.stops = 1 ∧ s.releases = 1 ∧
    (machine settings ()).Throughout (Proper settings ()) { processor, crew } acts := by
  intro settings interface group processor crew acts s
  have hopened : Processor.openOn {} .multicast interface group 5353 settings 0 = .ok processor :=
    rfl
  have hfree : ∀ number, ¬ Plans () crew number := by
    rintro number ⟨workers, hworkers, ⟨entry, hmem, -⟩, -⟩
    rw [← Option.some.inj hworkers] at hmem
    contradiction
  have hadmits : (machine settings ()).Admits { processor, crew } acts :=
    ⟨trivial, nofun, Nat.zero_lt_one, trivial, nofun, trivial, trivial, trivial⟩
  exact ⟨hopened, hfree, hadmits, rfl, rfl, rfl,
    (proper_iff_heeded hopened hfree hadmits).2.2.2.mpr (.inl rfl)⟩

/--
A processor that listens for streams is closed, which leaves it its socket, and then started. It
says that this has been done, and is watched for ever.
-/
theorem watched_when_closed :
    let settings : NetworkSettings := { threadMonitor := true }
    let interface : IpAddress := .v4 ⟨127, 0, 0, 1⟩
    let processor : Processor := { channel := .unicast, address := .of interface 5353 }
    let crew : Option (Work.Crew Unit) := some (.start {})
    let acts : List (Act Unit) := [.close, .start 0, .use (.tick 1000), .look 1000]
    let closed := (machine settings ()).next { processor, crew } .close
    let s := (machine settings ()).follow { processor, crew } acts
    Processor.openOn {} .unicast interface interface 5353 settings 0 = .ok processor ∧
    (machine settings ()).Admits { processor, crew } acts ∧
    closed.processor.closed = true ∧ closed.releases = 0 ∧
    (closed.processor.start settings () 0 closed.crew).result = .ok () ∧
    s.processor.closed = true ∧ s.starts = 1 ∧ Plans () s.crew 0 ∧
    ¬ (machine settings ()).Throughout (Proper settings ()) { processor, crew } acts := by
  intro settings interface processor crew acts closed s
  have hadmits : (machine settings ()).Admits { processor, crew } acts :=
    ⟨trivial, trivial, nofun, Nat.zero_lt_one, trivial⟩
  have hresult : (closed.processor.start settings () 0 closed.crew).result = .ok () := rfl
  refine ⟨rfl, hadmits, rfl, rfl, hresult, rfl, rfl, ?_, ?_⟩
  . exact ⟨_, rfl, ⟨_, List.mem_cons_self .., rfl, rfl⟩, rfl⟩
  . intro hproper
    exact ((hproper [.close] (.start 0) _ rfl).start 0 rfl rfl).1 hresult

end Run

end Lifetime

end Transport

end Zeroconf
