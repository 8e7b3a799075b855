import Zeroconf.Proofs.Service

/-!
This module contains the proof that a service and its domain name determine each other, as far as
the service fits into a message.
-/

namespace Zeroconf.Service

theorem toName_eq_ok_iff {service : Service} {name : Name} :
    service.toName = .ok name ↔ name = ⟨service.labels, true⟩ ∧ name.Fits := by
  unfold toName
  rw [mapError_eq_ok_iff, Name.ofLabels_eq_ok_iff]

theorem Obtained.exists_toName_eq_ok_iff {service : Service} (h : service.Obtained) :
    (∃ name, service.toName = .ok name) ↔ Name.wireLength service.labels ≤ Name.maxWireLength := by
  constructor
  . rintro ⟨name, hname⟩
    rcases toName_eq_ok_iff.mp hname with ⟨rfl, hfits⟩
    exact hfits.2
  . intro hlength
    refine ⟨⟨service.labels, true⟩, ?_⟩
    rw [toName_eq_ok_iff]
    exact ⟨rfl, h.fits, hlength⟩

theorem Obtained.exists_toName_eq_error {service : Service} (h : service.Obtained)
    (hlength : Name.maxWireLength < Name.wireLength service.labels) :
    ∃ reason, service.toName = .error (.parse reason) := by
  rcases Name.ofLabels_of_lt h.fits hlength with ⟨length, -, herror⟩
  refine ⟨(Name.Fault.tooLong length).message, ?_⟩
  rw [toName, herror]
  rfl

theorem Obtained.ofName_toName {service : Service} (h : service.Obtained) {name : Name}
    (hname : service.toName = .ok name) : Service.ofName name = .ok service := by
  rcases toName_eq_ok_iff.mp hname with ⟨rfl, -⟩
  rw [ofName_eq_ok_iff]
  exact h.ofLabels_labels

/--
A service has a domain name exactly if its labels with their length bytes take at most 255 bytes
together with the root; otherwise it has none, and its labels are at fault. The name ends at the
root, has the labels of the service and names the service. The other way round, a service that was
read from a name has the labels of this name in its own.
-/
theorem toName_roundTrip :
    (∀ service : Service, service.Obtained →
      let size := (service.labels.map fun label => label.length + 1).sum + 1
      ((∃ name, service.toName = .ok name) ↔ size ≤ 255) ∧
      (255 < size → ∃ reason, service.toName = .error (.parse reason)) ∧
      ∀ name, service.toName = .ok name →
        name.fullyQualified = true ∧ name.labels = service.labels ∧ ofName name = .ok service) ∧
    (∀ (name : Name) (service : Service), name.Fits → ofName name = .ok service →
      ∃ wire, service.toName = .ok wire ∧ wire.labels = name.labels) := by
  constructor
  . intro service h size
    have hsize : size = Name.wireLength service.labels := by rw [Name.wireLength_eq_sum]
    rw [hsize]
    refine ⟨h.exists_toName_eq_ok_iff, h.exists_toName_eq_error, ?_⟩
    intro name hname
    have hround := h.ofName_toName hname
    rcases toName_eq_ok_iff.mp hname with ⟨rfl, -⟩
    exact ⟨rfl, rfl, hround⟩
  . intro name service hname h
    have hlabels := labels_of_ofLabels (ofName_eq_ok_iff.mp h)
    refine ⟨⟨name.labels, true⟩, ?_, rfl⟩
    rw [toName_eq_ok_iff, hlabels]
    exact ⟨rfl, hname⟩

/--
A service whose labels take `205 + rest` bytes in a name.
-/
def wideService (rest : Nat) : Service :=
  ⟨List.replicate 3 (List.replicate 63 0xE9), [spelled "_http", spelled "_tcp"],
    [List.replicate rest 0x61]⟩

/--
With a domain of 50 letters the labels just fit into a name, and with one of 51 letters they do not,
although both services can be read from their texts.
-/
theorem toName_roundTrip_edge :
    (∃ name, (wideService 50).toName = .ok name ∧ name.labels = (wideService 50).labels ∧
      ofName name = .ok (wideService 50)) ∧
    (∃ reason, (wideService 51).toName = .error (.parse reason)) ∧
    ∃ wire, (wideService 50).toName = .ok wire ∧ wire.labels = (wideService 50).labels := by
  have hobtained : ∀ rest ∈ [50, 51], (wideService rest).Obtained := by
    intro rest hrest
    rw [obtained_iff, ofLabels_eq_ok_iff]
    simp only [List.mem_cons, List.not_mem_nil, or_false] at hrest
    rcases hrest with rfl | rfl
    . exact ⟨by decide, .inl (by decide), by decide⟩
    . exact ⟨by decide, .inl (by decide), by decide⟩
  rcases toName_roundTrip with ⟨hservice, hname⟩
  rcases hservice _ (hobtained 50 (by simp)) with ⟨hfits, -, hround⟩
  rcases hservice _ (hobtained 51 (by simp)) with ⟨-, herror, -⟩
  rcases hfits.mpr (by decide +kernel) with ⟨name, hok⟩
  rcases hround name hok with ⟨-, hlabels, hsame⟩
  have hwire : Name.Fits ⟨(wideService 50).labels, false⟩ := ⟨by decide, by decide +kernel⟩
  refine ⟨⟨name, hok, hlabels, hsame⟩, herror (by decide +kernel), hname _ _ hwire ?_⟩
  rw [ofName_eq_ok_iff]
  exact (hobtained 50 (by simp)).ofLabels_labels

end Zeroconf.Service
