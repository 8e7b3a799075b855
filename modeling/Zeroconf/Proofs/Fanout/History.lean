import Mathlib.Data.List.Induction
import Mathlib.Data.List.Nodup
import Zeroconf.Fanout

/-!
This module contains the history of a list of listeners: all changes that were made to it, in their
order. The history tells who is on the list, and in which order.
-/

namespace Zeroconf.Fanout

variable {α : Type} {fanout : Fanout α} {changes : List (Change α)} {change : Change α}
  {listener other : α} {time : Nat}

/--
Whether somebody was registered after he was last taken off.
-/
def Stays (changes : List (Change α)) (listener : α) : Prop :=
  ∃ time : Nat, changes[time]? = some (Change.register listener) ∧
    ∀ later > time, changes[later]? ≠ some (Change.unregister listener)

/--
Whether the change at a time is a registration that takes effect: the list has not been closed, and
whenever the listener was registered before, he was taken off since.
-/
structure Registers (changes : List (Change α)) (listener : α) (time : Nat) : Prop where
  change : changes[time]? = some (Change.register listener)
  opened : ∀ earlier < time, changes[earlier]? ≠ some Change.close
  absent : ∀ earlier < time, changes[earlier]? = some (Change.register listener) →
    ∃ between, earlier < between ∧ between < time ∧
      changes[between]? = some (Change.unregister listener)

structure Latest (changes : List (Change α)) (listener : α) (time : Nat) : Prop where
  registers : Registers changes listener time
  latest : ∀ other, Registers changes listener other → other ≤ time

theorem getElem?_concat_iff {β : Type} {entries : List β} {entry made : β} :
    (entries ++ [entry])[time]? = some made
      ↔
    entries[time]? = some made ∨ time = entries.length ∧ entry = made := by
  rcases Nat.lt_trichotomy time entries.length with hlt | rfl | hlt
  . rw [List.getElem?_append_left hlt]
    simp [Nat.ne_of_lt hlt]
  . simp
  . rw [List.getElem?_eq_none_iff.mpr, List.getElem?_eq_none_iff.mpr (Nat.le_of_lt hlt)]
    . simp [Nat.ne_of_gt hlt]
    . simpa using Nat.succ_le_of_lt hlt

theorem lt_length_of_getElem? {made : Change α} (h : changes[time]? = some made) :
    time < changes.length :=
  (List.getElem?_eq_some_iff.mp h).1

theorem stays_concat_iff :
    Stays (changes ++ [change]) listener
      ↔
    change = .register listener ∨ Stays changes listener ∧ change ≠ .unregister listener := by
  simp only [Stays, ne_eq, getElem?_concat_iff, not_or, not_and]
  constructor
  . rintro ⟨time, hthere | ⟨rfl, hchange⟩, hlater⟩
    . refine .inr ⟨⟨time, hthere, fun later hlt => (hlater later hlt).1⟩, ?_⟩
      exact (hlater changes.length (lt_length_of_getElem? hthere)).2 rfl
    . exact .inl hchange
  . rintro (hchange | ⟨⟨time, hthere, hlater⟩, hne⟩)
    . refine ⟨changes.length, .inr ⟨rfl, hchange⟩, ?_⟩
      intro later hlt
      exact ⟨fun hgone => Nat.lt_asymm hlt (lt_length_of_getElem? hgone),
        fun heq => absurd heq (Nat.ne_of_gt hlt)⟩
    . exact ⟨time, .inl hthere, fun later hlt => ⟨hlater later hlt, fun _ => hne⟩⟩

theorem Latest.lt_length (h : Latest changes listener time) : time < changes.length :=
  lt_length_of_getElem? h.registers.change

theorem Registers.concat (h : Registers changes listener time) (change : Change α) :
    Registers (changes ++ [change]) listener time := by
  have hlt := lt_length_of_getElem? h.change
  have hsame : ∀ earlier < time, (changes ++ [change])[earlier]? = changes[earlier]? :=
    fun earlier hearlier => List.getElem?_append_left (Nat.lt_trans hearlier hlt)
  constructor
  . exact getElem?_concat_iff.mpr (.inl h.change)
  . intro earlier hearlier
    rw [hsame earlier hearlier]
    exact h.opened earlier hearlier
  . intro earlier hearlier
    rw [hsame earlier hearlier]
    intro hbefore
    rcases h.absent earlier hearlier hbefore with ⟨between, hfirst, hlast, hgone⟩
    exact ⟨between, hfirst, hlast, (hsame between hlast).trans hgone⟩

structure InOrder (changes : List (Change α)) (members : List α) : Prop where
  latest : ∀ listener ∈ members, ∃ time, Latest changes listener time
  order : members.Pairwise fun first second =>
    ∀ earlier later, Latest changes first earlier → Latest changes second later → earlier < later

namespace InOrder

variable {members others : List α}

theorem sublist (h : InOrder changes members) (hsublist : others.Sublist members) :
    InOrder changes others :=
  ⟨fun listener hmem => h.latest listener (hsublist.subset hmem), h.order.sublist hsublist⟩

theorem concat_change (h : InOrder changes members)
    (hsame : ∀ listener ∈ members, ∀ time,
      Latest (changes ++ [change]) listener time ↔ Latest changes listener time) :
    InOrder (changes ++ [change]) members where
  latest listener hmem := by
    rcases h.latest listener hmem with ⟨time, hlatest⟩
    exact ⟨time, (hsame listener hmem time).mpr hlatest⟩
  order := by
    refine h.order.imp_of_mem ?_
    intro first second hfirst hsecond hlt earlier later hearlier hlater
    rw [hsame first hfirst] at hearlier
    rw [hsame second hsecond] at hlater
    exact hlt earlier later hearlier hlater

theorem concat_member (h : InOrder changes members)
    (hself : ∀ later, Latest changes listener later ↔ later = time)
    (hothers : ∀ other ∈ members, ∀ earlier, Latest changes other earlier → earlier < time) :
    InOrder changes (members ++ [listener]) where
  latest other hmem := by
    rcases List.mem_append.mp hmem with hmem | hmem
    . exact h.latest other hmem
    . rw [List.mem_singleton.mp hmem]
      exact ⟨time, (hself time).mpr rfl⟩
  order := by
    rw [List.pairwise_append]
    refine ⟨h.order, List.pairwise_singleton .., ?_⟩
    intro other hother last hlast earlier later hearlier hlater
    rw [List.mem_singleton.mp hlast, hself] at hlater
    rw [hlater]
    exact hothers other hother earlier hearlier

end InOrder

variable [DecidableEq α]

def after (changes : List (Change α)) : Fanout α := changes.foldl apply {}

theorem find?_beq (members : List α) (listener : α) :
    members.find? (· == listener) = if listener ∈ members then some listener else none := by
  induction members with
  | nil => rfl
  | cons first others ih =>
    rw [List.find?_cons, ih]
    by_cases hfirst : first = listener
    . simp [hfirst]
    . simp [beq_false_of_ne hfirst, Ne.symm hfirst]

theorem register_of_closed (h : fanout.closed = true) (listener : α) :
    fanout.register listener = .error (.closed "listener registry") := by
  simp [register, h]

theorem register_of_mem (h : fanout.closed = false) (hmem : listener ∈ fanout.members) :
    fanout.register listener = .ok (listener, fanout) := by
  simp [register, h, find?_beq, hmem]

theorem register_of_not_mem (h : fanout.closed = false) (hmem : listener ∉ fanout.members) :
    fanout.register listener
      =
    .ok (listener, { fanout with members := fanout.members ++ [listener] }) := by
  simp [register, h, find?_beq, hmem]

theorem unregister_of_mem (hnodup : fanout.members.Nodup) (hmem : listener ∈ fanout.members) :
    fanout.unregister listener
      =
    (some listener, { fanout with members := fanout.members.filter (· != listener) }) := by
  simp [unregister, find?_beq, hmem, hnodup.erase_eq_filter]

theorem unregister_of_not_mem (hmem : listener ∉ fanout.members) :
    fanout.unregister listener = (none, fanout) := by
  simp [unregister, find?_beq, hmem, List.erase_of_not_mem]

theorem after_concat (changes : List (Change α)) (change : Change α) :
    after (changes ++ [change]) = (after changes).apply change := by
  rw [after, List.foldl_concat, ← after]

theorem apply_register_of_closed (h : fanout.closed = true) (listener : α) :
    fanout.apply (.register listener) = fanout := by
  rw [apply, register_of_closed h]

theorem apply_register_of_mem (h : fanout.closed = false) (hmem : listener ∈ fanout.members) :
    fanout.apply (.register listener) = fanout := by
  rw [apply, register_of_mem h hmem]

theorem apply_register_of_not_mem (h : fanout.closed = false) (hmem : listener ∉ fanout.members) :
    fanout.apply (.register listener)
      =
    { fanout with members := fanout.members ++ [listener] } := by
  rw [apply, register_of_not_mem h hmem]

structure Valid (fanout : Fanout α) : Prop where
  nodup : fanout.members.Nodup
  empty : fanout.closed = true → fanout.members = []

theorem valid_apply (h : fanout.Valid) (change : Change α) : (fanout.apply change).Valid := by
  cases change with
  | register listener =>
    cases hclosed : fanout.closed with
    | true =>
      rw [apply_register_of_closed hclosed]
      exact h
    | false =>
      by_cases hmem : listener ∈ fanout.members
      . rw [apply_register_of_mem hclosed hmem]
        exact h
      . rw [apply_register_of_not_mem hclosed hmem]
        refine ⟨?_, by simp [hclosed]⟩
        rw [← List.concat_eq_append]
        exact h.nodup.concat hmem
  | unregister listener =>
    refine ⟨h.nodup.erase listener, ?_⟩
    intro hclosed
    rw [apply, unregister, h.empty hclosed]
    rfl
  | close => exact ⟨List.nodup_nil, fun _ => rfl⟩

theorem valid_after (changes : List (Change α)) : (after changes).Valid := by
  induction changes using List.reverseRecOn with
  | nil => exact ⟨List.nodup_nil, fun _ => rfl⟩
  | append_singleton changes change ih =>
    rw [after_concat]
    exact valid_apply ih change

theorem closed_apply_iff : (fanout.apply change).closed = true ↔
    fanout.closed = true ∨ change = .close := by
  cases change with
  | register listener =>
    cases hclosed : fanout.closed with
    | true => simp [apply_register_of_closed hclosed, hclosed]
    | false =>
      by_cases hmem : listener ∈ fanout.members
      . simp [apply_register_of_mem hclosed hmem, hclosed]
      . simp [apply_register_of_not_mem hclosed hmem, hclosed]
  | unregister listener => simp [apply, unregister]
  | close => simp [apply, close]

theorem closed_after_iff : (after changes).closed = true ↔ .close ∈ changes := by
  induction changes using List.reverseRecOn with
  | nil => simp [after]
  | append_singleton changes change ih =>
    rw [after_concat, closed_apply_iff, ih, List.mem_append, List.mem_singleton]
    simp [eq_comm]

theorem closed_after_eq_false (h : .close ∉ changes) : (after changes).closed = false := by
  rw [← Bool.not_eq_true, closed_after_iff]
  exact h

theorem mem_after_iff :
    listener ∈ (after changes).members ↔ .close ∉ changes ∧ Stays changes listener := by
  induction changes using List.reverseRecOn generalizing listener with
  | nil => simp [after, Stays]
  | append_singleton changes change ih =>
    rw [after_concat, stays_concat_iff, List.mem_append, List.mem_singleton]
    by_cases hclose : .close ∈ changes
    . have hclosed : ((after changes).apply change).closed = true :=
        closed_apply_iff.mpr (.inl (closed_after_iff.mpr hclose))
      rw [(valid_apply (valid_after changes) change).empty hclosed]
      simp [hclose]
    . have hclosed := closed_after_eq_false hclose
      cases change with
      | register other =>
        by_cases hmem : other ∈ (after changes).members
        . rw [apply_register_of_mem hclosed hmem, ih]
          have hthere := (ih.mp hmem).2
          constructor
          . rintro ⟨-, hstays⟩
            simp [hclose, hstays]
          . rintro ⟨-, heq | ⟨hstays, -⟩⟩
            . injection heq with heq
              exact ⟨hclose, heq ▸ hthere⟩
            . exact ⟨hclose, hstays⟩
        . rw [apply_register_of_not_mem hclosed hmem, List.mem_append, ih]
          simp [hclose, or_comm, eq_comm]
      | unregister other =>
        rw [apply, unregister, (valid_after changes).nodup.mem_erase_iff, ih]
        simp [hclose, and_comm, eq_comm]
      | close => simp [apply, close]

theorem registers_concat_register (hclose : .close ∉ changes)
    (hmem : listener ∉ (after changes).members) :
    Registers (changes ++ [.register listener]) listener changes.length := by
  constructor
  . exact getElem?_concat_iff.mpr (.inr ⟨rfl, rfl⟩)
  . intro earlier hearlier
    rw [List.getElem?_append_left hearlier]
    exact fun h => hclose (List.mem_of_getElem? h)
  . intro earlier hearlier
    rw [List.getElem?_append_left hearlier]
    intro hbefore
    -- Otherwise the listener would still be on the list.
    by_contra hstays
    push Not at hstays
    refine hmem (mem_after_iff.mpr ⟨hclose, earlier, hbefore, ?_⟩)
    intro later hlater hgone
    exact hstays later hlater (lt_length_of_getElem? hgone)
      (getElem?_concat_iff.mpr (.inl hgone))

theorem registers_concat_iff :
    Registers (changes ++ [change]) listener time
      ↔
    Registers changes listener time ∨
      time = changes.length ∧ change = .register listener ∧ .close ∉ changes ∧
        listener ∉ (after changes).members := by
  constructor
  . rintro ⟨hchange, hopened, habsent⟩
    simp only [getElem?_concat_iff, ne_eq, not_or] at hchange hopened habsent
    rcases hchange with hthere | ⟨rfl, hchange⟩
    . have hlt := lt_length_of_getElem? hthere
      refine .inl ⟨hthere, fun earlier h => (hopened earlier h).1, ?_⟩
      intro earlier hearlier hbefore
      rcases habsent earlier hearlier (.inl hbefore) with ⟨between, hfirst, hlast, hgone⟩
      refine ⟨between, hfirst, hlast, hgone.resolve_right ?_⟩
      rintro ⟨rfl, -⟩
      exact Nat.lt_asymm hlt hlast
    . refine .inr ⟨rfl, hchange, ?_, ?_⟩
      . intro hclose
        rcases List.mem_iff_getElem?.mp hclose with ⟨earlier, hearlier⟩
        exact (hopened earlier (lt_length_of_getElem? hearlier)).1 hearlier
      . intro hmem
        rcases (mem_after_iff.mp hmem).2 with ⟨earlier, hearlier, hlater⟩
        rcases habsent earlier (lt_length_of_getElem? hearlier) (.inl hearlier) with
          ⟨between, hfirst, hlast, hgone | ⟨rfl, -⟩⟩
        . exact hlater between hfirst hgone
        . exact Nat.lt_irrefl _ hlast
  . rintro (h | ⟨rfl, rfl, hclose, hmem⟩)
    . exact h.concat change
    . exact registers_concat_register hclose hmem

theorem latest_concat_iff
    (h : ¬ (change = .register listener ∧ .close ∉ changes ∧ listener ∉ (after changes).members)) :
    Latest (changes ++ [change]) listener time ↔ Latest changes listener time := by
  have hsame : ∀ place, Registers (changes ++ [change]) listener place
      ↔ Registers changes listener place := by
    intro place
    rw [registers_concat_iff, or_iff_left]
    exact fun hnew => h hnew.2
  constructor
  . rintro ⟨hregisters, hlatest⟩
    exact ⟨(hsame time).mp hregisters, fun place hplace => hlatest place ((hsame place).mpr hplace)⟩
  . rintro ⟨hregisters, hlatest⟩
    exact ⟨(hsame time).mpr hregisters, fun place hplace => hlatest place ((hsame place).mp hplace)⟩

theorem latest_concat_register_iff (hclose : .close ∉ changes)
    (hmem : listener ∉ (after changes).members) :
    Latest (changes ++ [.register listener]) listener time ↔ time = changes.length := by
  have hnew := registers_concat_register hclose hmem
  have hlast : ∀ place, Registers (changes ++ [.register listener]) listener place →
      place ≤ changes.length := by
    intro place h
    have := lt_length_of_getElem? h.change
    simpa [Nat.lt_succ_iff] using this
  constructor
  . rintro ⟨hregisters, hlatest⟩
    exact Nat.le_antisymm (hlast time hregisters) (hlatest _ hnew)
  . rintro rfl
    exact ⟨hnew, hlast⟩

theorem members_apply_sublist (fanout : Fanout α)
    (h : ∀ listener, change = .register listener → fanout.closed = false →
      listener ∈ fanout.members) :
    (fanout.apply change).members.Sublist fanout.members := by
  cases change with
  | register listener =>
    cases hclosed : fanout.closed with
    | true => rw [apply_register_of_closed hclosed]
    | false => rw [apply_register_of_mem hclosed (h listener rfl hclosed)]
  | unregister listener => exact List.erase_sublist
  | close => exact List.nil_sublist _

theorem inOrder_after (changes : List (Change α)) : InOrder changes (after changes).members := by
  induction changes using List.reverseRecOn with
  | nil => exact ⟨by simp [after], List.Pairwise.nil⟩
  | append_singleton changes change ih =>
    rw [after_concat]
    by_cases hnew : ∃ listener, change = .register listener ∧ .close ∉ changes ∧
        listener ∉ (after changes).members
    . rcases hnew with ⟨listener, rfl, hclose, hmem⟩
      have hothers : ∀ other ∈ (after changes).members, ∀ time,
          Latest (changes ++ [.register listener]) other time ↔ Latest changes other time := by
        intro other hother time
        apply latest_concat_iff
        rintro ⟨heq, -⟩
        injection heq with heq
        exact hmem (heq ▸ hother)
      rw [apply_register_of_not_mem (closed_after_eq_false hclose) hmem]
      apply (ih.concat_change hothers).concat_member
      . exact fun _ => latest_concat_register_iff hclose hmem
      . intro other hother earlier hearlier
        exact ((hothers other hother earlier).mp hearlier).lt_length
    . -- Any other change leaves everybody at his place or takes him off.
      have hsublist : ((after changes).apply change).members.Sublist (after changes).members := by
        apply members_apply_sublist
        intro listener hchange hopen
        by_contra hmem
        refine hnew ⟨listener, hchange, ?_, hmem⟩
        rw [← closed_after_iff, hopen]
        exact Bool.false_ne_true
      apply (ih.concat_change ?_).sublist hsublist
      intro other _ time
      exact latest_concat_iff fun h => hnew ⟨other, h⟩

example :
    (after [.register 1, .register 2, .unregister 1, .register 2, .register 1]).members
      =
    [2, 1] := by
  rfl

end Zeroconf.Fanout
