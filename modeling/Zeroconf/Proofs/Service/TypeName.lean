import Mathlib.Data.List.DropRight
import Zeroconf.Proofs.Label.Grammar
import Zeroconf.Proofs.Service.Markers
import Zeroconf.Proofs.Service.Text

/-!
This module contains the question when the type of a service is a name that can be browsed, and what
is found if it is read.
-/

namespace Zeroconf.Service

/--
The service without its instance: what it has in common with all others of its type in its domain.
-/
def kind (service : Service) : Service := { service with instanceLabels := [] }

theorem unmarked_takeWhile (labels : List Label) :
    Unmarked (labels.takeWhile fun label => !label.isMarker) := by
  intro label hlabel
  simpa using List.mem_takeWhile_imp hlabel

theorem kind_cut (labels : List Label) :
    (cut labels).kind = cut (labels.dropWhile fun label => !label.isMarker) := by
  generalize hp : (fun label : Label => !label.isMarker) = p
  have hsame : (labels.dropWhile p).dropWhile p = labels.dropWhile p :=
    List.dropWhile_idempotent (p := p) labels
  have hnone : (labels.dropWhile p).takeWhile p = [] := by
    have := List.takeWhile_append_dropWhile (p := p) (l := labels.dropWhile p)
    rw [hsame] at this
    simpa using this
  unfold kind cut
  rw [hp, hsame, hnone]

theorem countP_dropWhile (labels : List Label) :
    (labels.dropWhile fun label => !label.isMarker).countP Label.isMarker
      =
    labels.countP Label.isMarker := by
  have hnone : (labels.takeWhile fun label => !label.isMarker).countP Label.isMarker = 0 := by
    rw [List.countP_eq_length_filter, (unmarked_takeWhile labels).filter, List.length_nil]
  have hsplit := List.takeWhile_append_dropWhile (p := fun label => !label.isMarker) (l := labels)
  conv_rhs => rw [← hsplit, List.countP_append, hnone, Nat.zero_add]

variable {service : Service}

theorem Obtained.eq_cut (h : service.Obtained) : service = cut service.labels := by
  exact (ofLabels_eq_ok_iff.mp h.ofLabels_labels).2

theorem Obtained.labels_kind (h : service.Obtained) :
    service.kind.labels = service.labels.dropWhile fun label => !label.isMarker := by
  conv_lhs => rw [h.eq_cut, kind_cut, labels_cut]

theorem Obtained.kind (h : service.Obtained) : service.kind.Obtained := by
  have hcut : service.kind = cut service.kind.labels := by
    conv_lhs => rw [h.eq_cut, kind_cut, ← h.labels_kind]
  rw [obtained_iff, ofLabels_eq_ok_iff]
  refine ⟨?_, ?_, hcut⟩
  . intro label hlabel
    rw [h.labels_kind] at hlabel
    exact h.fits label ((List.dropWhile_sublist _).mem hlabel)
  . rw [h.labels_kind, countP_dropWhile]
    exact (ofLabels_eq_ok_iff.mp h.ofLabels_labels).1

theorem Obtained.typeLabels_ne_nil (h : service.Obtained) : service.typeLabels ≠ [] := by
  intro hnil
  -- Without a type, all markers would stand in the domain, in which there are none.
  have hlabels : service.kind.labels = service.domainLabels := by
    simp [Service.labels, Service.kind, hnil]
  have hdomain : Unmarked service.domainLabels := by
    rw [h.eq_cut]
    exact (unmarked_takeWhile _).reverse
  have hcount := (ofLabels_eq_ok_iff.mp h.kind.ofLabels_labels).1
  rw [hlabels, List.countP_eq_length_filter, hdomain.filter, List.length_nil] at hcount
  omega

theorem Obtained.fits_type (h : service.Obtained) : ∀ label ∈ service.typeLabels, label.Fits := by
  intro label hlabel
  exact h.fits label (by simp [Service.labels, hlabel])

theorem Obtained.domain_eq_iff (h : service.Obtained) :
    service.domain = "." ↔ service.domainLabels = [] := by
  have hdomain : service.domain = (Name.mk service.domainLabels true).text := by
    apply Name.text_joined_append_dot
  have hfits : ∀ label ∈ service.domainLabels, label.Fits := by
    intro label hlabel
    exact h.fits label (by simp [Service.labels, hlabel])
  rw [hdomain]
  constructor
  . intro htext
    exact Name.labels_eq_of_text_eq (b := Name.root) hfits (by simp [Name.root]) htext
  . intro hnil
    rw [hnil]
    rfl

theorem typeName_eq (h : service.typeLabels ≠ []) :
    service.typeName
      =
    Ascii.text (Name.dotted service.typeLabels ++ Name.joined service.domainLabels ++
      [Ascii.byte '.']) := by
  have hdot : Ascii.text [Ascii.byte '.'] = "." := by rfl
  unfold typeName fullType domain
  rw [Name.dotted_eq_joined _ h, Ascii.text_append, Ascii.text_append, Ascii.text_append, hdot]
  simp [String.append_assoc]

theorem Obtained.typeName_eq_text (h : service.Obtained) (hdomain : service.domainLabels ≠ []) :
    service.typeName = service.kind.text := by
  rw [typeName_eq h.typeLabels_ne_nil, List.append_assoc, ← Name.dotted_eq_joined _ hdomain]
  simp [text, Service.labels, Service.kind, Name.dotted]

theorem Obtained.parseAll_typeName_root (h : service.Obtained)
    (hdomain : service.domainLabels = []) :
    Label.parseAll (Ascii.bytes service.typeName) = .error .emptyLabel := by
  have hjoined : Name.joined [] = [] := by rfl
  rw [typeName_eq h.typeLabels_ne_nil, hdomain, hjoined, List.append_nil, Ascii.bytes_text]
  . rw [Label.parseAll_eq_error_iff]
    constructor
    . intro hlone
      have : Name.dotted service.typeLabels = [] := by simpa using hlone
      rw [Name.dotted_eq_joined _ h.typeLabels_ne_nil] at this
      simp at this
    . unfold Label.readLabels
      rw [Name.go_dotted h.fits_type, Label.go_nil_dot]
      rfl
  . intro c hc
    rcases List.mem_append.mp hc with hc | hc
    . exact Name.lt_of_mem_dotted hc
    . rw [List.mem_singleton] at hc
      rw [hc]
      decide

/--
Unless the domain is the root, the type name is read as the labels from the leftmost marker to the
end, and as a service that is the same but for its instance. Behind a type in the root there are two
dots, so that its name cannot be read.
-/
theorem typeName_read_of_domain (h : service.Obtained) :
    let read := Label.parseAll (Ascii.bytes service.typeName)
    (service.domain ≠ "." →
      read = .ok (service.labels.dropWhile fun label => !label.isMarker) ∧
      ∃ kind, Service.parse service.typeName = .ok kind ∧
        kind.fullType = service.fullType ∧ kind.serviceType = service.serviceType ∧
        kind.subType = service.subType ∧ kind.fullSubType = service.fullSubType ∧
        kind.domain = service.domain ∧ kind.instanceText = none ∧ kind.instanceBytes = none ∧
        kind.typeName = service.typeName ∧ kind.text = service.typeName) ∧
    (service.domain = "." →
      read = .error .emptyLabel ∧
      Service.parse service.typeName
        =
      .error (.parse (Label.Fault.emptyLabel.message service.typeName))) := by
  intro read
  rw [ne_eq, h.domain_eq_iff]
  constructor
  . intro hdomain
    have htext := h.typeName_eq_text hdomain
    constructor
    . dsimp only [read]
      rw [htext, h.kind.text_eq, ← h.labels_kind]
      exact Name.parseAll_text _ h.kind.fits
    . refine ⟨service.kind, ?_, rfl, rfl, rfl, rfl, rfl, rfl, rfl, rfl, htext.symm⟩
      rw [htext]
      exact h.kind.parse_text
  . intro hdomain
    have hread := h.parseAll_typeName_root hdomain
    refine ⟨hread, ?_⟩
    unfold Service.parse
    rw [hread]
    rfl

/--
A subtype with a dot in it, behind an instance; and a type in the root, whose text ends in two dots.
-/
theorem typeName_read_of_domain_escapes :
    let service : Service :=
      ⟨[spelled "My Web"], ["_a.b", "_sub", "_http", "_tcp"].map spelled,
        ["dns sd", "org"].map spelled⟩
    let top : Service := ⟨[], ["_http", "_tcp"].map spelled, []⟩
    service.Obtained ∧ top.Obtained ∧
    Label.parseAll (Ascii.bytes "_a\\.b._sub._http._tcp.dns\\032sd.org.")
      =
    .ok (["_a.b", "_sub", "_http", "_tcp", "dns sd", "org"].map spelled) ∧
    (∃ kind, Service.parse "_a\\.b._sub._http._tcp.dns\\032sd.org." = .ok kind ∧
      kind.subType = some "_a\\.b" ∧ kind.domain = "dns\\032sd.org." ∧ kind.instanceText = none) ∧
    Service.parse "_http._tcp.." = .error (.parse "empty label in '_http._tcp..'") := by
  intro service top
  have hservice : service.Obtained := by
    apply Obtained.ofName ⟨service.labels, true⟩
    . exact ⟨by decide, by decide⟩
    . rfl
  have htop : top.Obtained := by
    apply Obtained.ofName ⟨top.labels, true⟩
    . exact ⟨by decide, by decide⟩
    . rfl
  rcases (typeName_read_of_domain hservice).1 (by decide) with
    ⟨hread, kind, hparse, -, -, hsubType, -, hdomain, hinstance, -⟩
  refine ⟨hservice, htop, hread, ⟨kind, hparse, hsubType, hdomain, hinstance⟩, ?_⟩
  exact ((typeName_read_of_domain htop).2 (by decide)).2

/--
A service in the root that was read from its text: neither as labels nor as a service can its type
name be read again.
-/
theorem typeName_not_read :
    ∃ service, Service.parse "_http._tcp." = .ok service ∧ service.domain = "." ∧
      service.typeName = "_http._tcp.." ∧
      (∀ labels, Label.parseAll (Ascii.bytes service.typeName) ≠ .ok labels) ∧
      ∀ kind, Service.parse service.typeName ≠ .ok kind := by
  let top : Service := ⟨[], ["_http", "_tcp"].map spelled, []⟩
  have htop : top.Obtained := by
    apply Obtained.ofName ⟨top.labels, true⟩
    . exact ⟨by decide, by decide⟩
    . rfl
  have hread := htop.parseAll_typeName_root rfl
  refine ⟨top, htop.parse_text, by decide, by decide, ?_, ?_⟩
  . intro labels
    rw [hread]
    simp
  . intro kind hkind
    rcases parse_eq_ok_iff.mp hkind with ⟨labels, hlabels, -⟩
    rw [hread] at hlabels
    contradiction

end Zeroconf.Service
