import Zeroconf.Lookup.Scripted
import Zeroconf.Proofs.Name.HostText
import Zeroconf.Proofs.Service.Wire

/-!
This module contains the proof that a lookup takes the text printed for a service for the name of
this service exactly if all its labels are those of a host. The text shows other bytes behind a
backslash by three decimal digits, which the lookups take for octal ones.
-/

namespace Zeroconf.Lookup

def recorded {σ : Type} (lookup : Lookup σ) : Lookup (σ × List Question) where
  send query s :=
    let (result, world) := lookup.send query s.1
    (result, world, s.2 ++ query.questions)

def AllAbout (name : Name) (questions : List Question) : Prop :=
  questions ≠ [] ∧ ∀ question ∈ questions, question.name.same name = true

variable {σ : Type} (lookup : Lookup σ) (ids : QueryIds) (world : σ)

theorem asked_records (name : Name) (type : RecordType) (asked : List Question) :
    (lookup.recorded.records name type (ids, world, asked)).2.2.2
      =
    asked ++ [⟨name, type, internetClass⟩] := by
  rfl

theorem allAbout_browse_iff {text : String} {name : Name} :
    AllAbout name (lookup.recorded.browse text (ids, world, [])).2.2.2
      ↔
    ∃ read, Name.ofHostText text = .ok read ∧ read.same name = true := by
  unfold browse nameOfText
  cases Name.ofHostText text with
  | error fault => simp [AllAbout]
  | ok read =>
    rw [mapError_ok]
    dsimp only
    rw [asked_records]
    simp [AllAbout]

theorem asked_hostAddresses {text : String} {read : Name} (h : Name.ofHostText text = .ok read) :
    let asked := (lookup.recorded.hostAddresses text (ids, world, [])).2.2.2
    let first : Question := ⟨read, .a, internetClass⟩
    asked = [first] ∨ asked = [first, ⟨read, .aaaa, internetClass⟩] := by
  unfold hostAddresses nameOfText
  rw [h, mapError_ok]
  dsimp only
  have hv4 := asked_records lookup ids world read .a []
  generalize lookup.recorded.records read .a (ids, world, []) = replied at hv4 ⊢
  rcases replied with ⟨v4, ids, world, asked⟩
  rw [List.nil_append] at hv4
  -- Only if the first question has a reply, the second one is asked.
  cases v4 with
  | error error => exact .inl hv4
  | ok v4 =>
    have hv6 := asked_records lookup ids world read .aaaa asked
    dsimp only at hv4 ⊢
    rw [hv4] at hv6 ⊢
    generalize lookup.recorded.records read .aaaa _ = replied at hv6 ⊢
    rcases replied with ⟨v6, ids, world, asked⟩
    cases v6 with
    | error error => exact .inr hv6
    | ok v6 => exact .inr hv6

theorem allAbout_hostAddresses_iff {text : String} {name : Name} :
    AllAbout name (lookup.recorded.hostAddresses text (ids, world, [])).2.2.2
      ↔
    ∃ read, Name.ofHostText text = .ok read ∧ read.same name = true := by
  cases h : Name.ofHostText text with
  | error fault =>
    unfold hostAddresses nameOfText
    rw [h]
    simp [AllAbout]
  | ok read => rcases asked_hostAddresses lookup ids world h with h | h <;> simp [AllAbout, h]

end Zeroconf.Lookup

namespace Zeroconf.Service

theorem Obtained.exists_ofHostText_text_iff {service : Service} (h : service.Obtained) {name : Name}
    (hname : service.toName = .ok name) :
    (∃ read, Name.ofHostText service.text = .ok read ∧ read.same name = true)
      ↔
    ∀ label ∈ service.labels, label.isHost = true := by
  rcases toName_eq_ok_iff.mp hname with ⟨rfl, hfits⟩
  rw [h.text_eq]
  exact Name.exists_ofHostText_text_iff hfits

/--
What is printed for a service is read as the name of this service exactly if all its labels are
those of a host, be it by the command or by the lookups, which ask about this name in that case
only.
-/
theorem printed_read_iff_host (service : Service) (h : service.Obtained) (name : Name)
    (hname : service.toName = .ok name) :
    let isHost := ∀ label ∈ service.labels, label.isHost = true
    ((∃ read, Name.ofHostText service.text = .ok read ∧ read.same name = true) ↔ isHost) ∧
    ∀ (σ : Type) (lookup : Lookup σ) (ids : QueryIds) (world : σ),
      (Lookup.AllAbout name (lookup.recorded.browse service.text (ids, world, [])).2.2.2
        ↔
      isHost) ∧
      (Lookup.AllAbout name (lookup.recorded.hostAddresses service.text (ids, world, [])).2.2.2
        ↔
      isHost) := by
  intro isHost
  have hread := h.exists_ofHostText_text_iff hname
  refine ⟨hread, ?_⟩
  intro σ lookup ids world
  rw [Lookup.allAbout_browse_iff, Lookup.allAbout_hostAddresses_iff]
  exact ⟨hread, hread⟩

/--
The service of an office is browsed with its own name, in which a dot is escaped and letters are
folded.
-/
theorem printed_read_iff_host_escaped :
    let service : Service :=
      ⟨[spelled "Office.2"], [spelled "_http", spelled "_tcp"], [spelled "local"]⟩
    service.text = "Office\\.2._http._tcp.local." ∧
    Lookup.AllAbout ⟨service.labels, true⟩
      ((Lookup.scripted []).recorded.browse service.text (⟨1, 0⟩, [], [])).2.2.2 := by
  intro service
  have hservice : service.Obtained := by
    rw [obtained_iff]
    exact ⟨by decide, rfl⟩
  have hname : service.toName = .ok ⟨service.labels, true⟩ := by
    rw [toName_eq_ok_iff]
    exact ⟨rfl, by decide, by decide⟩
  refine ⟨rfl, ?_⟩
  rcases printed_read_iff_host service hservice _ hname with ⟨-, hlookup⟩
  exact (hlookup _ (Lookup.scripted []) ⟨1, 0⟩ []).1.mpr (by decide)

/--
The blank in a service type makes the text unreadable for the lookups, so that nothing is asked.
Where the last byte of ASCII is printed they read the letter W, and ask about another name.
-/
theorem printed_not_asked :
    let speakers : Service := ⟨[], [spelled "_my speaker", spelled "_tcp"], [spelled "local"]⟩
    let cafe : Service :=
      ⟨[spelled "caf\x7f"], [spelled "_http", spelled "_tcp"], [spelled "local"]⟩
    let other : Name :=
      ⟨[spelled "cafw", spelled "_http", spelled "_tcp", spelled "local"], true⟩
    let asked := fun (text : String) => ((Lookup.scripted []).browse text (⟨1, 0⟩, [])).2.2
    (speakers.Obtained ∧ speakers.toName = .ok ⟨speakers.labels, true⟩ ∧
      speakers.typeName = speakers.text ∧ speakers.text = "_my\\032speaker._tcp.local." ∧
      asked speakers.text = []) ∧
    (cafe.Obtained ∧ cafe.toName = .ok ⟨cafe.labels, true⟩ ∧
      cafe.text = "caf\\127._http._tcp.local." ∧
      asked cafe.text = [⟨other, .ptr, internetClass⟩] ∧
      other.same ⟨cafe.labels, true⟩ = false) := by
  intro speakers cafe other asked
  have hspeakers : speakers.Obtained := by
    rw [obtained_iff]
    exact ⟨by decide, rfl⟩
  have hcafe : cafe.Obtained := by
    rw [obtained_iff]
    exact ⟨by decide, rfl⟩
  refine ⟨⟨hspeakers, ?_, rfl, rfl, ?_⟩, hcafe, ?_, rfl, ?_, ?_⟩
  . rw [toName_eq_ok_iff]
    exact ⟨rfl, by decide, by decide⟩
  . decide +kernel
  . rw [toName_eq_ok_iff]
    exact ⟨rfl, by decide, by decide⟩
  . decide +kernel
  . decide

end Zeroconf.Service
