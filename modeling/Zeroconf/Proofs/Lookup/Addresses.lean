import Mathlib.Data.List.Destutter
import Zeroconf.Lookup.Scripted
import Zeroconf.Proofs.Lookup.Found
import Zeroconf.Proofs.Name.Wire

/-!
This module contains what a lookup lists for a host: the addresses in the replies to its two
questions, without those that repeat the address in front of them. An address is listed more than
once exactly if it comes back behind another one.
-/

namespace Zeroconf.Lookup

section Repeats

variable {α : Type}

/--
Whether equal items stand next to each other, so that nothing else is between two of them.
-/
def Grouped (items : List α) : Prop :=
  ∀ item between, item :: between ++ [item] <:+: items → ∀ other ∈ between, other = item

theorem grouped_singleton (item : α) : Grouped [item] := by
  intro other between hinfix
  have := hinfix.length_le
  simp at this

theorem grouped_cons_self {item : α} {items : List α} :
    Grouped (item :: item :: items) ↔ Grouped (item :: items) := by
  constructor
  . intro h other between hinfix
    exact h other between (List.infix_cons hinfix)
  . intro h other between hinfix
    rcases List.infix_cons_iff.mp hinfix with hfront | hinfix
    . rw [List.cons_append, List.cons_prefix_cons] at hfront
      rcases hfront with ⟨rfl, hfront⟩
      -- The item next to the first one is equal to it, and begins a shorter stretch.
      cases between with
      | nil => simp
      | cons next between =>
        rw [List.cons_append, List.cons_prefix_cons] at hfront
        rcases hfront with ⟨rfl, hfront⟩
        rw [List.forall_mem_cons]
        refine ⟨rfl, h _ between (List.IsPrefix.isInfix ?_)⟩
        rw [List.cons_append, List.cons_prefix_cons]
        exact ⟨rfl, hfront⟩
    . exact h other between hinfix

theorem grouped_cons_of_ne {item next : α} (hne : item ≠ next) {items : List α} :
    Grouped (item :: next :: items) ↔ item ∉ next :: items ∧ Grouped (next :: items) := by
  constructor
  . intro h
    constructor
    . intro hmem
      rcases List.append_of_mem (List.mem_of_ne_of_mem hne hmem) with ⟨front, behind, rfl⟩
      have hinfix :
          item :: (next :: front) ++ [item] <:+: item :: next :: (front ++ item :: behind) :=
        ⟨[], behind, by simp⟩
      exact hne (h item (next :: front) hinfix next List.mem_cons_self).symm
    . intro other between hinfix
      exact h other between (List.infix_cons hinfix)
  . rintro ⟨hnot, h⟩ other between hinfix
    rcases List.infix_cons_iff.mp hinfix with hfront | hinfix
    . rw [List.cons_append, List.cons_prefix_cons] at hfront
      rcases hfront with ⟨rfl, hfront⟩
      exact absurd (hfront.subset (List.mem_append_right _ List.mem_cons_self)) hnot
    . exact h other between hinfix

variable [DecidableEq α]

theorem dropRepeats_eq (items : List α) : dropRepeats items = items.destutter (· ≠ ·) := by
  have hgo : ∀ last (rest : List α),
      last :: dropRepeats.go last rest = rest.destutter' (· ≠ ·) last := by
    intro last rest
    induction rest generalizing last with
    | nil => rfl
    | cons item rest ih =>
      rw [dropRepeats.go, List.destutter'_cons, ← ih, ← ih]
      by_cases h : item = last
      . simp [h]
      . simp [h, Ne.symm h]
  cases items with
  | nil => rfl
  | cons item items => exact hgo item items

theorem destutter_cons_self (item : α) (items : List α) :
    (item :: item :: items).destutter (· ≠ ·) = (item :: items).destutter (· ≠ ·) := by
  rw [List.destutter_cons_cons, if_neg (by simp)]
  rfl

theorem destutter_cons_of_ne {item next : α} (h : item ≠ next) (items : List α) :
    (item :: next :: items).destutter (· ≠ ·)
      =
    item :: (next :: items).destutter (· ≠ ·) := by
  rw [List.destutter_cons_cons, if_pos h]
  rfl

theorem mem_destutter_iff {items : List α} {item : α} :
    item ∈ items.destutter (· ≠ ·) ↔ item ∈ items := by
  match items with
  | [] => simp
  | [_] => simp
  | first :: next :: items =>
    by_cases h : first = next
    . subst h
      rw [destutter_cons_self, mem_destutter_iff]
      simp
    . rw [destutter_cons_of_ne h, List.mem_cons, mem_destutter_iff, ← List.mem_cons]

theorem nodup_destutter_iff {items : List α} :
    (items.destutter (· ≠ ·)).Nodup ↔ Grouped items := by
  match items with
  | [] => simp [Grouped]
  | [item] => simp [grouped_singleton]
  | first :: next :: items =>
    by_cases h : first = next
    . subst h
      rw [destutter_cons_self, grouped_cons_self, nodup_destutter_iff]
    . rw [destutter_cons_of_ne h, grouped_cons_of_ne h, List.nodup_cons, mem_destutter_iff,
        nodup_destutter_iff]

theorem Grouped.destutter_eq {items : List α} (h : Grouped items) :
    items.destutter (· ≠ ·) = items.eraseDups := by
  match items with
  | [] => rfl
  | [_] => rfl
  | first :: next :: items =>
    by_cases hne : first = next
    . subst hne
      rw [destutter_cons_self, Grouped.destutter_eq (grouped_cons_self.mp h)]
      simp [List.eraseDups_cons]
    . rcases (grouped_cons_of_ne hne).mp h with ⟨hnot, hrest⟩
      have hothers : (next :: items).filter (fun other => !other == first) = next :: items := by
        rw [List.filter_eq_self]
        intro other hmem
        simp [ne_of_mem_of_not_mem hmem hnot]
      rw [destutter_cons_of_ne hne, Grouped.destutter_eq hrest, List.eraseDups_cons (a := first),
        hothers]

end Repeats

section Replies

variable {σ : Type} (lookup : Lookup σ)

def ask (name : Name) (type : RecordType) (s : QueryIds × σ) :
    Except Error Message × QueryIds × σ :=
  let (query, ids) := query name type s.1
  let (result, world) := lookup.send query s.2
  (result, ids, world)

theorem records_eq (name : Name) (type : RecordType) (s : QueryIds × σ) :
    lookup.records name type s
      =
    ((lookup.ask name type s).1.map (matching · name type), (lookup.ask name type s).2) := by
  rfl

theorem mem_matching_iff {response : Message} {name : Name} {type : RecordType} {record : Record} :
    record ∈ matching response name type
      ↔
    response.code ≠ .nxDomain ∧ record ∈ response.answers ∧ wants name type record = true := by
  unfold matching
  split
  . next h => simp [beq_iff_eq.mp h]
  . next h =>
    rw [List.mem_filter]
    exact (and_iff_right (by simpa using h)).symm

structure Replied (name : Name) (s : QueryIds × σ) (first second : Message) : Prop where
  v4 : (lookup.ask name .a s).1 = .ok first
  v6 : (lookup.ask name .aaaa (lookup.ask name .a s).2).1 = .ok second

/--
The addresses in the records of a reply that were asked for.
-/
def told (reply : Message) (name : Name) (type : RecordType) : List IpAddress :=
  (matching reply name type).filterMap fun record => addressOf record.data

theorem fst_hostAddresses (host : String) (s : QueryIds × σ) :
    (lookup.hostAddresses host s).1
      =
    (do
      let name ← nameOfText host
      let first ← (lookup.ask name .a s).1
      let second ← (lookup.ask name .aaaa (lookup.ask name .a s).2).1
      .ok ((told first name .a ++ told second name .aaaa).destutter (· ≠ ·))) := by
  unfold hostAddresses
  cases nameOfText host with
  | error error => rfl
  | ok name =>
    simp only [records_eq, bind, Except.bind]
    rcases lookup.ask name .a s with ⟨first | first, between⟩
    . rfl
    . simp only [Except.map]
      rcases lookup.ask name .aaaa between with ⟨second | second, last⟩
      . rfl
      . simp only [dropRepeats_eq, told, List.filterMap_append]

theorem hostAddresses_eq_ok_iff {host : String} {s : QueryIds × σ} {addresses : List IpAddress} :
    (lookup.hostAddresses host s).1 = .ok addresses
      ↔
    ∃ name first second, nameOfText host = .ok name ∧ lookup.Replied name s first second ∧
      addresses = (told first name .a ++ told second name .aaaa).destutter (· ≠ ·) := by
  rw [fst_hostAddresses]
  simp only [bind_eq_ok_iff, Except.ok.injEq]
  constructor
  . rintro ⟨name, hname, first, hfirst, second, hsecond, rfl⟩
    exact ⟨name, first, second, hname, ⟨hfirst, hsecond⟩, rfl⟩
  . rintro ⟨name, first, second, hname, ⟨hfirst, hsecond⟩, rfl⟩
    exact ⟨name, hname, first, hfirst, second, hsecond, rfl⟩

theorem mem_told_iff {reply : Message} {name : Name} {type : RecordType} {ip : IpAddress} :
    ip ∈ told reply name type
      ↔
    reply.code ≠ .nxDomain ∧
      ∃ record ∈ reply.answers,
        wants name type record = true ∧ addressOf record.data = some ip := by
  simp only [told, List.mem_filterMap, mem_matching_iff]
  constructor
  . rintro ⟨record, ⟨hcode, hmem, hwants⟩, hip⟩
    exact ⟨hcode, record, hmem, hwants, hip⟩
  . rintro ⟨hcode, record, hmem, hwants, hip⟩
    exact ⟨record, ⟨hcode, hmem, hwants⟩, hip⟩

end Replies

/--
The addresses of a host are those of the records of the name and of either type in the answer
sections of the two replies, a reply that the name does not exist having none: first those of the
one type and then those of the other one, where an address that repeats the one in front of it is
left out. They are distinct exactly if equal ones stand next to each other in the replies, and then
each address is at its first place.
-/
theorem distinct_addresses_iff_grouped {σ : Type} (lookup : Lookup σ) (host : String)
    (s : QueryIds × σ) (addresses : List IpAddress)
    (h : (lookup.hostAddresses host s).1 = .ok addresses) :
    ∃ name first second, nameOfText host = .ok name ∧ lookup.Replied name s first second ∧
      let all := told first name .a ++ told second name .aaaa
      (∀ ip, ip ∈ addresses
        ↔
      (first.code ≠ .nxDomain ∧ ∃ record ∈ first.answers,
        wants name .a record = true ∧ addressOf record.data = some ip) ∨
      (second.code ≠ .nxDomain ∧ ∃ record ∈ second.answers,
        wants name .aaaa record = true ∧ addressOf record.data = some ip)) ∧
      addresses = all.destutter (· ≠ ·) ∧
      (addresses.Nodup ↔ Grouped all) ∧
      (Grouped all → addresses = all.eraseDups) := by
  rcases (lookup.hostAddresses_eq_ok_iff).mp h with ⟨name, first, second, hname, hreplied, rfl⟩
  refine ⟨name, first, second, hname, hreplied, ?_, rfl, nodup_destutter_iff, (·.destutter_eq)⟩
  intro ip
  rw [mem_destutter_iff, List.mem_append, mem_told_iff, mem_told_iff]

def addressRecord (last : UInt8) (cls : UInt16) : Record :=
  { name := Inquiry.localName 0x68, type := .a, cls, ttl := 120, data := .a ⟨10, 0, 0, last⟩ }

/--
The first address comes in two classes, one behind the other, and is listed once. There are no
addresses of the other family as the name is said not to exist.
-/
theorem distinct_addresses_iff_grouped_classes :
    let first : Message :=
      { isResponse := true,
        answers := [addressRecord 1 1, addressRecord 1 0x8001, addressRecord 2 1] }
    let second : Message := { isResponse := true, code := 3, answers := first.answers }
    let lines : List Line := [⟨none, some .a, .message first⟩, ⟨none, none, .message second⟩]
    let one : IpAddress := .v4 ⟨10, 0, 0, 1⟩
    let other : IpAddress := .v4 ⟨10, 0, 0, 2⟩
    ((scripted lines).hostAddresses "h.local." (⟨1, 0⟩, [])).1 = .ok [one, other] ∧
    Grouped [one, one, other] := by
  intro first second lines one other
  have h : ((scripted lines).hostAddresses "h.local." (⟨1, 0⟩, [])).1 = .ok [one, other] := by
    decide +kernel
  rcases distinct_addresses_iff_grouped _ _ _ _ h with
    ⟨name, v4, v6, hname, hreplied, -, -, hdistinct, -⟩
  have hread : nameOfText "h.local." = .ok (Inquiry.localName 0x68) := by decide +kernel
  rw [hread, Except.ok.injEq] at hname
  subst hname
  have hfirst := Except.ok.inj hreplied.v4
  have hsecond := Except.ok.inj hreplied.v6
  subst hfirst hsecond
  exact ⟨h, hdistinct.mp (by decide)⟩

/--
The first address comes back in another class behind the second one, and is listed twice, also by
the lookup that asks through a querier.
-/
theorem address_listed_twice :
    let response : Message :=
      { isResponse := true,
        answers := [addressRecord 1 1, addressRecord 2 1, addressRecord 1 0x8001] }
    let lines : List Line := [⟨none, some .a, .message response⟩, ⟨none, none, .message {}⟩]
    let querier : Querier Scripted Scripted :=
      { multicast :=
          [⟨"responder", { immediate := [⟨none, .message response⟩] }, [], [], [], 0, false, none⟩]
        nameservers := [], responseWait := 100, timeout := 1000 }
    let addresses : List IpAddress :=
      [.v4 ⟨10, 0, 0, 1⟩, .v4 ⟨10, 0, 0, 2⟩, .v4 ⟨10, 0, 0, 1⟩]
    ((scripted lines).hostAddresses "h.local." (⟨1, 0⟩, [])).1 = .ok addresses ∧
    ((through Scripted Scripted).hostAddresses "h.local." (⟨1, 0⟩, querier)).1 = .ok addresses ∧
    ¬ ∀ (σ : Type) (lookup : Lookup σ) (host : String) (s : QueryIds × σ)
        (addresses : List IpAddress),
      (lookup.hostAddresses host s).1 = .ok addresses → addresses.Nodup := by
  intro response lines querier addresses
  have hscripted : ((scripted lines).hostAddresses "h.local." (⟨1, 0⟩, [])).1 = .ok addresses := by
    decide +kernel
  refine ⟨hscripted, by decide +kernel, ?_⟩
  intro hall
  exact absurd (hall _ _ _ _ _ hscripted) (by decide)

end Zeroconf.Lookup
