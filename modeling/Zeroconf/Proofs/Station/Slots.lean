import Zeroconf.Proofs.Name.Wire
import Zeroconf.Proofs.Settings
import Zeroconf.Station

/-!
This module contains the links that a station opens. There is one for each family of addresses, and
its group is of the family of its interface, whichever that is. No link can be opened if packets to
a group are to take more hops than the host lets them.
-/

namespace Zeroconf

open Transport (Fault Host Processor checkFamilies maxHops)

namespace Transport.Processor

theorem guarded_bind_eq_ok_iff {α : Type} {error : String → Error} {fault : Option Fault}
    {operation : Unit → Except Error α} {a : α} :
    (guarded error fault >>= operation) = .ok a
      ↔
    fault = none ∧ operation () = .ok a := by
  cases fault <;> simp [guarded, bind, Except.bind]

end Transport.Processor

namespace Settings

def asksFor (settings : Settings) (isV6 : Bool) : Bool :=
  if isV6 then settings.querier.ipv6 else settings.querier.ipv4

def interface (settings : Settings) (isV6 : Bool) : IpAddress :=
  (settings.interface? isV6).getD (if isV6 then .v6 .unspecified else .v4 .unspecified)

theorem isV6_interface_iff {settings : Settings} {isV6 : Bool} :
    (settings.interface isV6).isV6 = isV6
      ↔
    ∀ ip, settings.interface? isV6 = some ip → ip.isV6 = isV6 := by
  unfold interface
  cases settings.interface? isV6 with
  | none => cases isV6 <;> simp [IpAddress.isV6]
  | some ip => simp

end Settings

namespace Link

variable {host : Host} {interface : IpAddress} {querier : QuerierSettings}
  {network : NetworkSettings} {now : Nat} {link : Link}

@[simp]
theorem isV6_groupOf (interface : IpAddress) : (groupOf interface).isV6 = interface.isV6 := by
  cases interface <;> rfl

@[simp]
theorem isMulticast_groupOf (interface : IpAddress) : (groupOf interface).isMulticast = true := by
  cases interface <;> rfl

def bindingOf (interface : IpAddress) (port : UInt16) : SocketAddress :=
  .of (if interface.isV6 then .v6 .unspecified else .v4 .unspecified) port

theorem checkFamilies_groupOf (interface : IpAddress) :
    checkFamilies interface (groupOf interface) = .ok interface.isV6 := by
  simp [checkFamilies]

theorem openGroup_eq_ok_iff {port : UInt16} {processor : Processor} :
    Processor.openGroup host interface (groupOf interface) port network now = .ok processor
      ↔
    host.bind (bindingOf interface port) = none ∧
      host.join interface (groupOf interface) = none ∧
      host.hops network.multicastTtl = none ∧
      { channel := .multicast
        address := bindingOf interface port
        opened := now } = processor := by
  unfold Processor.openGroup
  rw [checkFamilies_groupOf, isMulticast_groupOf]
  change (Processor.guarded _ (host.bind (bindingOf interface port)) >>= fun _ =>
    Processor.guarded _ (host.join interface (groupOf interface)) >>= fun _ =>
    Processor.guarded _ (host.hops network.multicastTtl) >>= fun _ => Except.ok _) = _ ↔ _
  rw [Processor.guarded_bind_eq_ok_iff, Processor.guarded_bind_eq_ok_iff,
    Processor.guarded_bind_eq_ok_iff, Except.ok.injEq]
  rfl

theorem create_eq_ok_iff :
    create host interface querier network now = .ok link
      ↔
    host.bind (bindingOf interface querier.multicastPort) = none ∧
      host.join interface (groupOf interface) = none ∧
      host.hops network.multicastTtl = none ∧
      { interface, group := .of (groupOf interface) querier.multicastPort
        timeout := querier.timeout, host } = link := by
  unfold create
  constructor
  . intro h
    rcases bind_eq_ok_iff.mp h with ⟨_, hdiscard, h⟩
    rcases map_eq_ok_iff.mp hdiscard with ⟨processor, hopen, -⟩
    rcases openGroup_eq_ok_iff.mp hopen with ⟨hbind, hjoin, hhops, -⟩
    exact ⟨hbind, hjoin, hhops, Except.ok.inj h⟩
  . rintro ⟨hbind, hjoin, hhops, rfl⟩
    dsimp only
    rw [openGroup_eq_ok_iff.mpr ⟨hbind, hjoin, hhops, rfl⟩]
    rfl

end Link

namespace Station

variable {host : Host} {settings : Settings} {isV6 : Bool} {now : Nat} {link : Link}

/--
The link of a family that a station opens, if it is asked for and can be had.
-/
def slot (host : Host) (settings : Settings) (isV6 : Bool) (now : Nat) : Option Link :=
  if settings.asksFor isV6 then
    (Link.create host (settings.interface isV6) settings.querier settings.network now).toOption
  else
    none

theorem links_eq (host : Host) (settings : Settings) (now : Nat) :
    links host settings now
      =
    (slot host settings false now).toList ++ (slot host settings true now).toList :=
  rfl

theorem slot_eq_some_iff :
    slot host settings isV6 now = some link
      ↔
    settings.asksFor isV6 = true ∧
      Link.create host (settings.interface isV6) settings.querier settings.network now
        = .ok link := by
  unfold slot
  cases settings.asksFor isV6 with
  | false => simp
  | true =>
    cases Link.create host (settings.interface isV6) settings.querier settings.network now <;>
      simp [Except.toOption]

theorem isV6_group (h : slot host settings isV6 now = some link) :
    link.group.ip.isV6 = (settings.interface isV6).isV6 := by
  rcases Link.create_eq_ok_iff.mp (slot_eq_some_iff.mp h).2 with ⟨-, -, -, rfl⟩
  cases settings.interface isV6 <;> rfl

theorem hops_eq_none (h : slot host settings isV6 now = some link) :
    host.hops settings.network.multicastTtl = none :=
  (Link.create_eq_ok_iff.mp (slot_eq_some_iff.mp h).2).2.2.1

theorem exists_slot {hops : UInt32 → Option Fault} (hasks : settings.asksFor isV6 = true)
    (hhops : hops settings.network.multicastTtl = none) :
    ∃ link, slot { hops } settings isV6 now = some link :=
  ⟨_, slot_eq_some_iff.mpr ⟨hasks, Link.create_eq_ok_iff.mpr ⟨rfl, rfl, hhops, rfl⟩⟩⟩

theorem slot_isSome_iff {hops : UInt32 → Option Fault} :
    (∃ host now link, host.hops = hops ∧ slot host settings isV6 now = some link)
      ↔
    settings.asksFor isV6 = true ∧ hops settings.network.multicastTtl = none := by
  constructor
  . rintro ⟨host, now, link, rfl, h⟩
    exact ⟨(slot_eq_some_iff.mp h).1, hops_eq_none h⟩
  . rintro ⟨hasks, hhops⟩
    rcases exists_slot hasks hhops with ⟨link, h⟩
    exact ⟨{ hops }, 0, link, rfl, h⟩

/--
Whether each link that is opened in the slot of a family goes to a group of that family, on the
hosts that let packets take the same hops.
-/
def Apart (hops : UInt32 → Option Fault) (settings : Settings) (isV6 : Bool) : Prop :=
  ∀ host now link, host.hops = hops → slot host settings isV6 now = some link →
    link.group.ip.isV6 = isV6

theorem apart_iff {hops : UInt32 → Option Fault} :
    Apart hops settings isV6
      ↔
    (settings.asksFor isV6 = true → hops settings.network.multicastTtl = none →
      ∀ ip, settings.interface? isV6 = some ip → ip.isV6 = isV6) := by
  rw [← Settings.isV6_interface_iff]
  constructor
  . intro h hasks hhops
    rcases exists_slot hasks hhops with ⟨link, hslot⟩
    rw [← isV6_group hslot]
    exact h { hops } 0 link rfl hslot
  . rintro h host now link rfl hslot
    rw [isV6_group hslot]
    exact h (slot_eq_some_iff.mp hslot).1 (hops_eq_none hslot)

/--
Settings are accepted exactly if what is checked of them holds, and they are workable exactly if
moreover they are content with the hops that most hosts let packets take and the interfaces are of
their families. What a host says to the hops and the families of the interfaces decide which slots
can be filled, and whether they are filled with links of their families.
-/
theorem accepted_workable_iff (settings : Settings) :
    (settings.validate = .ok () ↔ settings.Checked) ∧
    (settings.Workable
      ↔
    settings.validate = .ok () ∧ settings.network.multicastTtl ≤ maxHops ∧
      ∀ isV6 ip, settings.interface? isV6 = some ip → ip.isV6 = isV6) ∧
    (∀ hops, ({} : Host).hops hops = none ↔ hops ≤ maxHops) ∧
    (∀ host now, links host settings now
      = (slot host settings false now).toList ++ (slot host settings true now).toList) ∧
    ∀ hops isV6,
      ((∃ host now link, host.hops = hops ∧ slot host settings isV6 now = some link)
        ↔
      settings.asksFor isV6 = true ∧ hops settings.network.multicastTtl = none) ∧
      (Apart hops settings isV6
        ↔
      (settings.asksFor isV6 = true → hops settings.network.multicastTtl = none →
        ∀ ip, settings.interface? isV6 = some ip → ip.isV6 = isV6)) := by
  refine ⟨Settings.validate_eq_ok_iff, ?_, ?_, fun host now => links_eq host settings now,
    fun hops isV6 => ⟨slot_isSome_iff, apart_iff⟩⟩
  . rw [Settings.validate_eq_ok_iff]
    constructor
    . intro h
      exact ⟨h.toChecked, h.maxHops, h.interface⟩
    . rintro ⟨hchecked, hhops, hinterface⟩
      exact { hchecked with maxHops := hhops, interface := hinterface }
  . intro hops
    simp

theorem accepted_workable_iff_default :
    Settings.Workable {} ∧ ∀ hops isV6, Apart hops {} isV6 := by
  have h := accepted_workable_iff {}
  refine ⟨h.2.1.mpr ⟨rfl, by decide, ?_⟩, fun hops isV6 => (h.2.2.2.2 hops isV6).2.mpr ?_⟩
  . intro isV6 ip
    cases isV6 <;> simp [Settings.interface?]
  . intro hasks hhops
    cases isV6 <;> simp [Settings.interface?]

/--
More hops than most hosts let packets take are accepted, and then such a host has no link. An
interface of the other family is accepted as well, and then both slots may hold links to the group
of IPv6.
-/
theorem accepted_unworkable :
    let far : Settings := { network := { multicastTtl := 256 } }
    let family : Settings := { network := { interfaceV4 := some (.v6 .unspecified) } }
    far.validate = .ok () ∧ ¬ far.Workable ∧ ({} : Host).hops 256 ≠ none ∧
      (∀ host now, host.hops 256 ≠ none → links host far now = []) ∧
      family.validate = .ok () ∧ ¬ family.Workable ∧ ¬ Apart ({} : Host).hops family false ∧
      (links {} family 0).map Link.group
        = [.v6 Link.groupV6 5353 0, .v6 Link.groupV6 5353 0] := by
  intro far family
  refine ⟨rfl, ?_, by decide, ?_, rfl, ?_, ?_, rfl⟩
  . intro h
    exact absurd h.maxHops (by decide)
  . intro host now hrefused
    have hslot : ∀ isV6, slot host far isV6 now = none := by
      intro isV6
      cases hslot : slot host far isV6 now with
      | none => rfl
      | some link => exact absurd (hops_eq_none hslot) hrefused
    rw [links_eq, hslot, hslot]
    rfl
  . intro h
    exact absurd (h.interface false (.v6 .unspecified) rfl) (by decide)
  . rw [apart_iff]
    intro h
    exact absurd (h rfl (by decide) (.v6 .unspecified) rfl) (by decide)

end Station

end Zeroconf
