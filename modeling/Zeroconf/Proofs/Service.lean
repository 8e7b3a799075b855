import Zeroconf.Proofs.Name.Text
import Zeroconf.Proofs.Name.Wire
import Zeroconf.Service

/-!
This module contains what all services have in common that were read from a text or from a domain
name: they are what their own labels are cut into, and these labels may stand in a message.
-/

namespace Zeroconf.Service

/--
A service that was read from a text or from a domain name.
-/
inductive Obtained (service : Service) : Prop where
  | parse (text : String) (h : Service.parse text = .ok service)
  | ofName (name : Name) (hname : name.Fits) (h : Service.ofName name = .ok service)

def spelled (text : String) : Label := text.toList.map Ascii.byte

theorem take_append_reverse_takeWhile {α : Type} (p : α → Bool) (items : List α) :
    let behind := (items.reverse.takeWhile p).reverse
    items.take (items.length - behind.length) ++ behind = items := by
  intro behind
  have hsplit : items = (items.reverse.dropWhile p).reverse ++ behind := by
    rw [← List.reverse_append, List.takeWhile_append_dropWhile, List.reverse_reverse]
  generalize (items.reverse.dropWhile p).reverse = front at hsplit
  generalize behind = back at hsplit
  subst hsplit
  simp

@[simp]
theorem labels_cut (labels : List Label) : (cut labels).labels = labels := by
  unfold cut Service.labels
  dsimp only
  rw [List.append_assoc, take_append_reverse_takeWhile, List.takeWhile_append_dropWhile]

theorem ofLabels_eq_ok_iff {labels : List Label} {service : Service} :
    ofLabels labels = .ok service
      ↔
    (labels.countP Label.isMarker = 2 ∨ labels.countP Label.isMarker = 4) ∧
      service = cut labels := by
  unfold ofLabels
  dsimp only
  generalize labels.countP Label.isMarker = count
  split
  . next hcount =>
    simp
    omega
  . split
    . next hcount =>
      have : count = 2 ∨ count = 4 := by simpa using hcount
      simp [this, eq_comm]
    . next hcount =>
      have : ¬ (count = 2 ∨ count = 4) := by simpa using hcount
      simp [this]

theorem labels_of_ofLabels {labels : List Label} {service : Service}
    (h : ofLabels labels = .ok service) : service.labels = labels := by
  rw [(ofLabels_eq_ok_iff.mp h).2, labels_cut]

theorem ofName_eq_ok_iff {name : Name} {service : Service} :
    ofName name = .ok service ↔ ofLabels name.labels = .ok service := by
  apply mapError_eq_ok_iff

theorem parse_of_parseAll {text : String} {labels : List Label}
    (h : Label.parseAll (Ascii.bytes text) = .ok labels) :
    parse text = (ofLabels labels).mapError (faultError labels) := by
  unfold parse
  rw [h]
  rfl

theorem parse_eq_ok_iff {text : String} {service : Service} :
    parse text = .ok service
      ↔
    ∃ labels, Label.parseAll (Ascii.bytes text) = .ok labels ∧
      ofLabels labels = .ok service := by
  cases h : Label.parseAll (Ascii.bytes text) with
  | error fault =>
    unfold parse
    rw [h]
    simp [bind, Except.bind]
  | ok labels =>
    rw [parse_of_parseAll h, mapError_eq_ok_iff]
    simp

theorem obtained_iff {service : Service} :
    service.Obtained
      ↔
    (∀ label ∈ service.labels, label.Fits) ∧ ofLabels service.labels = .ok service := by
  constructor
  . intro h
    cases h with
    | parse text h =>
      rcases parse_eq_ok_iff.mp h with ⟨labels, hread, hservice⟩
      rw [labels_of_ofLabels hservice]
      exact ⟨Label.parseAll_fits hread, hservice⟩
    | ofName name hname h =>
      have hservice := ofName_eq_ok_iff.mp h
      rw [labels_of_ofLabels hservice]
      exact ⟨hname.1, hservice⟩
  . rintro ⟨hlabels, hservice⟩
    apply Obtained.parse (Name.mk service.labels true).text
    rw [parse_eq_ok_iff]
    exact ⟨service.labels, Name.parseAll_text _ hlabels, hservice⟩

theorem Obtained.fits {service : Service} (h : service.Obtained) :
    ∀ label ∈ service.labels, label.Fits := by
  exact (obtained_iff.mp h).1

theorem Obtained.ofLabels_labels {service : Service} (h : service.Obtained) :
    ofLabels service.labels = .ok service := by
  exact (obtained_iff.mp h).2

theorem Obtained.labels_ne_nil {service : Service} (h : service.Obtained) :
    service.labels ≠ [] := by
  intro hnil
  have hcount := (ofLabels_eq_ok_iff.mp h.ofLabels_labels).1
  rw [hnil, List.countP_nil] at hcount
  omega

theorem Obtained.eq_iff {a b : Service} (ha : a.Obtained) (hb : b.Obtained) :
    a = b ↔ a.labels = b.labels := by
  constructor
  . intro h
    rw [h]
  . intro h
    have hsame := ha.ofLabels_labels
    rw [h, hb.ofLabels_labels, Except.ok.injEq] at hsame
    exact hsame.symm

theorem Obtained.text_eq {service : Service} (h : service.Obtained) :
    service.text = (Name.mk service.labels true).text := by
  simp [text, Name.text, h.labels_ne_nil]

end Zeroconf.Service
