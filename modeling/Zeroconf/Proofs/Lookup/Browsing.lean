import Mathlib.Data.List.Induction
import Zeroconf.Lookup.Scripted
import Zeroconf.Proofs.Lookup.Addresses
import Zeroconf.Proofs.Service

/-!
This module contains what is listed when a service type is browsed: the services to which the
pointers in the reply lead, each one at its first place. Services are told apart by the bytes of
their labels, so that one and the same domain name is listed once for every spelling of it.
-/

namespace Zeroconf

namespace Service

def name (service : Service) : Name := ⟨service.labels, true⟩

theorem labels_of_ofName {name : Name} {service : Service} (h : ofName name = .ok service) :
    service.labels = name.labels := by
  exact labels_of_ofLabels (ofName_eq_ok_iff.mp h)

end Service

namespace Lookup

section FirstPlaces

variable {α : Type} [DecidableEq α]

theorem eraseDups_concat (items : List α) (item : α) :
    (items ++ [item]).eraseDups
      =
    items.eraseDups ++ if item ∈ items then [] else [item] := by
  rw [List.eraseDups_append]
  congr 1
  by_cases h : item ∈ items
  . simp [List.removeAll, h]
  . simp [List.removeAll, h, List.eraseDups_cons]

theorem pairwise_idxOf_eraseDups (items : List α) :
    items.eraseDups.Pairwise fun a b => items.idxOf a < items.idxOf b := by
  induction items using List.reverseRecOn with
  | nil => simp
  | append_singleton items item ih =>
    have hkept : ∀ other ∈ items.eraseDups, (items ++ [item]).idxOf other = items.idxOf other := by
      intro other hmem
      exact List.idxOf_append_of_mem (List.mem_eraseDups.mp hmem)
    have hpairwise : items.eraseDups.Pairwise fun a b =>
        (items ++ [item]).idxOf a < (items ++ [item]).idxOf b := by
      refine ih.imp_of_mem ?_
      intro a b ha hb hlt
      rwa [hkept a ha, hkept b hb]
    rw [eraseDups_concat]
    split
    . simpa using hpairwise
    . next hnew =>
      rw [List.pairwise_append]
      refine ⟨hpairwise, by simp, ?_⟩
      intro other hmem last hlast
      rw [List.mem_singleton.mp hlast, hkept other hmem, List.idxOf_append_of_notMem hnew]
      have := List.idxOf_lt_length_of_mem (List.mem_eraseDups.mp hmem)
      omega

end FirstPlaces

section Services

variable {σ : Type} (lookup : Lookup σ)

def serviceOf (record : Record) : Option Service :=
  (pointerOf record.data).bind fun target => (Service.ofName target).toOption

/--
The services to which the records of a reply point, in the order of the records.
-/
def pointed (reply : Message) (name : Name) : List Service :=
  (matching reply name .ptr).filterMap serviceOf

theorem serviceOf_eq_some_iff {record : Record} {service : Service} :
    serviceOf record = some service
      ↔
    ∃ target, record.data = .ptr target ∧ Service.ofName target = .ok service := by
  unfold serviceOf
  cases hdata : record.data with
  | ptr target => cases h : Service.ofName target <;> simp [pointerOf, h, Except.toOption]
  | _ => simp [pointerOf]

theorem mem_pointed_iff {reply : Message} {name : Name} {service : Service} :
    service ∈ pointed reply name
      ↔
    reply.code ≠ .nxDomain ∧ ∃ record ∈ reply.answers, wants name .ptr record = true ∧
      ∃ target, record.data = .ptr target ∧ Service.ofName target = .ok service := by
  simp only [pointed, List.mem_filterMap, mem_matching_iff, serviceOf_eq_some_iff]
  constructor
  . rintro ⟨record, ⟨hcode, hmem, hwants⟩, hservice⟩
    exact ⟨hcode, record, hmem, hwants, hservice⟩
  . rintro ⟨hcode, record, hmem, hwants, hservice⟩
    exact ⟨record, ⟨hcode, hmem, hwants⟩, hservice⟩

theorem pointed_eq_of_serviceOf_eq_none {reply : Message} {front behind : List Record}
    {record : Record} (hanswers : reply.answers = front ++ record :: behind)
    (h : serviceOf record = none) (name : Name) :
    pointed { reply with answers := front ++ behind } name = pointed reply name := by
  unfold pointed matching
  rw [hanswers]
  split
  . rfl
  . simp only [List.filter_append, List.filterMap_append, List.filter_cons]
    split
    . rw [List.filterMap_cons_none h]
    . rfl

theorem eq_of_mem_pointed {reply : Message} {name : Name} {a b : Service}
    (ha : a ∈ pointed reply name) (hb : b ∈ pointed reply name) (h : a.labels = b.labels) :
    a = b := by
  rcases mem_pointed_iff.mp ha with ⟨-, -, -, -, target, -, hservice⟩
  rcases mem_pointed_iff.mp hb with ⟨-, -, -, -, other, -, hother⟩
  have hcut := Service.ofName_eq_ok_iff.mp hservice
  have hsame := Service.ofName_eq_ok_iff.mp hother
  rw [← Service.labels_of_ofName hservice, h, Service.labels_of_ofName hother, hsame] at hcut
  exact (Except.ok.inj hcut).symm

theorem fst_browse (type : String) (s : QueryIds × σ) :
    (lookup.browse type s).1
      =
    (do
      let name ← nameOfText type
      let reply ← (lookup.ask name .ptr s).1
      .ok (pointed reply name).eraseDups) := by
  unfold browse
  cases nameOfText type with
  | error error => rfl
  | ok name =>
    simp only [records_eq, bind, Except.bind]
    rcases lookup.ask name .ptr s with ⟨reply | reply, last⟩
    . rfl
    . rfl

theorem browse_eq_ok_iff {type : String} {s : QueryIds × σ} {services : List Service} :
    (lookup.browse type s).1 = .ok services
      ↔
    ∃ name reply, nameOfText type = .ok name ∧ (lookup.ask name .ptr s).1 = .ok reply ∧
      services = (pointed reply name).eraseDups := by
  rw [fst_browse]
  simp only [bind_eq_ok_iff, Except.ok.injEq]
  constructor
  . rintro ⟨name, hname, reply, hreply, rfl⟩
    exact ⟨name, reply, hname, hreply, rfl⟩
  . rintro ⟨name, reply, hname, hreply, rfl⟩
    exact ⟨name, hname, reply, hreply, rfl⟩

instance : Std.Symm fun a b : Service => a.name.same b.name = false where
  symm a b h := by rwa [Name.same_comm]

theorem pairwise_different_iff {reply : Message} {name : Name} :
    ((pointed reply name).eraseDups.Pairwise fun a b => a.name.same b.name = false)
      ↔
    ∀ a ∈ pointed reply name, ∀ b ∈ pointed reply name,
      a.name.same b.name = true → a.labels = b.labels := by
  constructor
  . intro hdifferent a ha b hb hsame
    by_contra hlabels
    have hne : a ≠ b := fun heq => hlabels (congrArg Service.labels heq)
    rw [← List.mem_eraseDups] at ha hb
    have := hdifferent.forall ha hb hne
    rw [hsame] at this
    contradiction
  . intro halike
    refine (pairwise_idxOf_eraseDups _).imp_of_mem ?_
    intro a b ha hb hlt
    rw [List.mem_eraseDups] at ha hb
    apply Bool.eq_false_iff.mpr
    intro hsame
    rw [eq_of_mem_pointed ha hb (halike a ha b hb hsame)] at hlt
    exact Nat.lt_irrefl _ hlt

end Services

/--
The services of a type are those to which the pointers of the type in the answer section of the
reply lead, in the order of their first places; there are none if the name does not exist, and a
pointer to something else has no influence. They have different domain names exactly if the
pointers write each of these names in one way only.
-/
theorem different_services_iff_spelled_alike {σ : Type} (lookup : Lookup σ) (type : String)
    (s : QueryIds × σ) (services : List Service) (h : (lookup.browse type s).1 = .ok services) :
    ∃ name reply, nameOfText type = .ok name ∧ (lookup.ask name .ptr s).1 = .ok reply ∧
      let all := pointed reply name
      (∀ service, service ∈ services
        ↔
      reply.code ≠ .nxDomain ∧ ∃ record ∈ reply.answers, wants name .ptr record = true ∧
        ∃ target, record.data = .ptr target ∧ Service.ofName target = .ok service) ∧
      (∀ target service, Service.ofName target = .ok service → service.labels = target.labels) ∧
      (services.Pairwise fun a b => all.idxOf a < all.idxOf b) ∧
      (∀ front record behind, reply.answers = front ++ record :: behind →
        serviceOf record = none →
        pointed { reply with answers := front ++ behind } name = all) ∧
      ((services.Pairwise fun a b => a.name.same b.name = false)
        ↔
      ∀ a ∈ all, ∀ b ∈ all, a.name.same b.name = true → a.labels = b.labels) := by
  rcases (lookup.browse_eq_ok_iff).mp h with ⟨name, reply, hname, hreply, rfl⟩
  refine ⟨name, reply, hname, hreply, ?_, fun _ _ => Service.labels_of_ofName,
    pairwise_idxOf_eraseDups _, ?_, pairwise_different_iff⟩
  . intro service
    rw [List.mem_eraseDups, mem_pointed_iff]
  . intro front record behind hanswers hnone
    exact pointed_eq_of_serviceOf_eq_none hanswers hnone name

def webPointer (target : List Label) (cls : UInt16) : Record :=
  let labels := [Service.spelled "_http", Service.spelled "_tcp", Service.spelled "local"]
  { name := ⟨labels, true⟩, type := .ptr, cls, ttl := 120, data := .ptr ⟨target ++ labels, true⟩ }

def webServer (label : String) : Service :=
  ⟨[Service.spelled label], [Service.spelled "_http", Service.spelled "_tcp"],
    [Service.spelled "local"]⟩

/--
The printer comes twice, and between its places a pointer to something that has too many markers.
-/
theorem different_services_iff_spelled_alike_printer :
    let reply : Message :=
      { isResponse := true,
        answers :=
          [webPointer [Service.spelled "Printer"] 1,
            webPointer [Service.spelled "_sub"] 1,
            webPointer [Service.spelled "Printer"] 0x8001,
            webPointer [Service.spelled "Office"] 1] }
    let services := [webServer "Printer", webServer "Office"]
    ((scripted [⟨none, none, .message reply⟩]).browse "_http._tcp.local." (⟨1, 0⟩, [])).1
      = .ok services ∧
    services.Pairwise fun a b => a.name.same b.name = false := by
  intro reply services
  have h : ((scripted [⟨none, none, .message reply⟩]).browse "_http._tcp.local." (⟨1, 0⟩, [])).1
      = .ok services := by
    decide +kernel
  rcases different_services_iff_spelled_alike _ _ _ _ h with
    ⟨name, found, hname, hfound, -, -, -, -, hdifferent⟩
  have hread : nameOfText "_http._tcp.local." = .ok (webPointer [] 1).name := by decide +kernel
  rw [hread, Except.ok.injEq] at hname
  subst hname
  have := Except.ok.inj hfound
  subst this
  exact ⟨h, hdifferent.mpr (by decide +kernel)⟩

/--
The pointers write one name in two ways, in records of two classes, and the service is listed twice,
also by the lookup that asks through a querier.
-/
theorem service_listed_twice :
    let reply : Message :=
      { isResponse := true,
        answers :=
          [webPointer [Service.spelled "Office"] 1, webPointer [Service.spelled "office"] 0x8001] }
    let querier : Querier Scripted Scripted :=
      { multicast :=
          [⟨"responder", { immediate := [⟨none, .message reply⟩] }, [], [], [], 0, false, none⟩]
        nameservers := [], responseWait := 100, timeout := 1000 }
    let services := [webServer "Office", webServer "office"]
    ((scripted [⟨none, none, .message reply⟩]).browse "_http._tcp.local." (⟨1, 0⟩, [])).1
      = .ok services ∧
    ((through Scripted Scripted).browse "_http._tcp.local." (⟨1, 0⟩, querier)).1 = .ok services ∧
    ¬ ∀ (σ : Type) (lookup : Lookup σ) (type : String) (s : QueryIds × σ)
        (services : List Service),
      (lookup.browse type s).1 = .ok services →
      services.Pairwise fun a b => a.name.same b.name = false := by
  intro reply querier services
  have hscripted :
      ((scripted [⟨none, none, .message reply⟩]).browse "_http._tcp.local." (⟨1, 0⟩, [])).1
        = .ok services := by
    decide +kernel
  refine ⟨hscripted, by decide +kernel, ?_⟩
  intro hall
  exact absurd (hall _ _ _ _ _ hscripted) (by decide)

end Lookup

end Zeroconf
