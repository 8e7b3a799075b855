import Zeroconf.Proofs.Service

/-!
This module contains the proof that presentation text and labels are inverse to each other: what is
printed is read back, and different labels or services are never printed alike.
-/

namespace Zeroconf.Service

theorem Obtained.parse_text {service : Service} (h : service.Obtained) :
    Service.parse service.text = .ok service := by
  rw [parse_eq_ok_iff]
  refine ⟨service.labels, ?_, h.ofLabels_labels⟩
  rw [h.text_eq]
  exact Name.parseAll_text _ h.fits

theorem Obtained.eq_iff_text_eq {a b : Service} (ha : a.Obtained) (hb : b.Obtained) :
    a = b ↔ a.text = b.text := by
  constructor
  . intro h
    rw [h]
  . intro h
    rw [ha.eq_iff hb]
    rw [ha.text_eq, hb.text_eq] at h
    exact Name.labels_eq_of_text_eq ha.fits hb.fits h

/--
Labels are read back from their text, with or without a dot at its end, so that different labels
have different texts. A text that can be read has the same labels as the text of its labels, which
is printed again as it stands. A service is read back from its text, and its text determines it.
-/
theorem parse_text_inverse :
    (∀ (labels : List Label) (dotAtEnd : Bool), (∀ label ∈ labels, label.Fits) →
      Label.parseAll (Ascii.bytes (Name.text ⟨labels, dotAtEnd⟩)) = .ok labels) ∧
    (∀ a b : Name, (∀ label ∈ a.labels, label.Fits) → (∀ label ∈ b.labels, label.Fits) →
      a.labels ≠ b.labels → a.text ≠ b.text) ∧
    (∀ (text : String) (labels : List Label) (dotAtEnd : Bool),
      Label.parseAll (Ascii.bytes text) = .ok labels →
      let printed := Name.text ⟨labels, dotAtEnd⟩
      Label.parseAll (Ascii.bytes printed) = .ok labels ∧
        (Label.parseAll (Ascii.bytes printed)).map (fun read => Name.text ⟨read, dotAtEnd⟩)
          =
        .ok printed) ∧
    (∀ service : Service, service.Obtained → Service.parse service.text = .ok service) ∧
    (∀ a b : Service, a.Obtained → b.Obtained → (a = b ↔ a.text = b.text)) := by
  refine ⟨?_, ?_, ?_, ?_, ?_⟩
  . intro labels dotAtEnd hlabels
    exact Name.parseAll_text ⟨labels, dotAtEnd⟩ hlabels
  . intro a b ha hb hne htext
    exact hne (Name.labels_eq_of_text_eq ha hb htext)
  . intro text labels dotAtEnd hread printed
    have hprinted : Label.parseAll (Ascii.bytes printed) = .ok labels :=
      Name.parseAll_text ⟨labels, dotAtEnd⟩ (Label.parseAll_fits hread)
    refine ⟨hprinted, ?_⟩
    rw [hprinted]
    rfl
  . intro service hservice
    exact hservice.parse_text
  . intro a b ha hb
    exact ha.eq_iff_text_eq hb

/--
A backslash in front of digits, a dot and bytes that are no text of their own are read back, and so
is a service with them in its instance.
-/
theorem parse_text_inverse_escapes :
    let labels : List Label := [[0x5C, 0x30, 0x34, 0x36], [0x2E, 0x39], [0xFF, 0x2E, 0x00]]
    let service : Service := ⟨labels, [spelled "_http", spelled "_tcp"], [spelled "local"]⟩
    Label.parseAll (Ascii.bytes "\\\\046.\\.9.\\255\\.\\000.") = .ok labels ∧
    Label.parseAll (Ascii.bytes "\\\\046.\\.9.\\255\\.\\000") = .ok labels ∧
    Service.parse "\\\\046.\\.9.\\255\\.\\000._http._tcp.local." = .ok service ∧
    service.text ≠ Service.text { service with instanceLabels := [labels.flatten] } := by
  intro labels service
  have hlabels : ∀ label ∈ labels, label.Fits := by decide
  have hservice : service.Obtained := by
    apply Obtained.ofName ⟨service.labels, true⟩
    . exact ⟨by decide, by decide⟩
    . rfl
  have hjoined : Service.Obtained { service with instanceLabels := [labels.flatten] } := by
    apply Obtained.ofName
      ⟨[labels.flatten, spelled "_http", spelled "_tcp", spelled "local"], true⟩
    . exact ⟨by decide, by decide⟩
    . rfl
  rcases parse_text_inverse with ⟨hread, -, hagain, hparse, heq⟩
  have hdotted := hread labels true hlabels
  refine ⟨hdotted, (hagain _ labels false hdotted).1, hparse service hservice, ?_⟩
  intro htext
  exact absurd ((heq _ _ hservice hjoined).mpr htext) (by decide)

end Zeroconf.Service
