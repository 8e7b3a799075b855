import Mathlib.Data.List.Basic
import Zeroconf.Proofs.Service

/-!
This module contains the question which labels make up a service, and what the service tells of
them: the leftmost and the rightmost marker divide the labels into instance, type and domain.
-/

namespace Zeroconf.Service

def Unmarked (labels : List Label) : Prop := ∀ label ∈ labels, label.isMarker = false

theorem Unmarked.filter {labels : List Label} (h : Unmarked labels) :
    labels.filter Label.isMarker = [] := by
  rw [List.filter_eq_nil_iff]
  intro label hlabel
  simp [h label hlabel]

theorem Unmarked.takeWhile {labels : List Label} (h : Unmarked labels) {marker : Label}
    (hmarker : marker.isMarker = true) (behind : List Label) :
    (labels ++ marker :: behind).takeWhile (fun label => !label.isMarker) = labels := by
  rw [List.takeWhile_append_of_pos]
  . simp [hmarker]
  . intro label hlabel
    simp [h label hlabel]

theorem Unmarked.dropWhile {labels : List Label} (h : Unmarked labels) {marker : Label}
    (hmarker : marker.isMarker = true) (behind : List Label) :
    (labels ++ marker :: behind).dropWhile (fun label => !label.isMarker) = marker :: behind := by
  rw [List.dropWhile_append_of_pos]
  . simp [hmarker]
  . intro label hlabel
    simp [h label hlabel]

theorem Unmarked.reverse {labels : List Label} (h : Unmarked labels) : Unmarked labels.reverse := by
  intro label hlabel
  exact h label (List.mem_reverse.mp hlabel)

theorem exists_append_of_findIdxs {labels : List Label} {start place : Nat} {places : List Nat}
    (h : labels.findIdxs Label.isMarker start = place :: places) :
    ∃ front marker behind, labels = front ++ marker :: behind ∧ Unmarked front ∧
      marker.isMarker = true ∧ place = start + front.length ∧
      behind.findIdxs Label.isMarker (place + 1) = places := by
  induction labels generalizing start with
  | nil => simp at h
  | cons label labels ih =>
    rw [List.findIdxs_cons] at h
    split at h
    . next hmarker =>
      rw [List.cons.injEq] at h
      refine ⟨[], label, labels, rfl, ?_, hmarker, h.1.symm, ?_⟩
      . simp [Unmarked]
      . rw [← h.1]
        exact h.2
    . next hmarker =>
      rcases ih h with ⟨front, marker, behind, hlabels, hfront, hmark, hplace, hplaces⟩
      refine ⟨label :: front, marker, behind, ?_, ?_, hmark, ?_, hplaces⟩
      . rw [hlabels, List.cons_append]
      . intro other hother
        rcases List.mem_cons.mp hother with heq | hmem
        . rw [heq]
          simpa using hmarker
        . exact hfront other hmem
      . rw [hplace, List.length_cons]
        omega

theorem cut_of_two {front between back : List Label} {a b : Label} (hfront : Unmarked front)
    (ha : a.isMarker = true) (hb : b.isMarker = true) (hback : Unmarked back) :
    cut (front ++ a :: (between ++ b :: back)) = ⟨front, a :: (between ++ [b]), back⟩ := by
  have hdomain : ((a :: (between ++ b :: back)).reverse.takeWhile fun label => !label.isMarker)
      =
    back.reverse := by
    have := hback.reverse.takeWhile hb (a :: between).reverse
    simpa using this
  unfold cut
  dsimp only
  rw [hfront.takeWhile ha, hfront.dropWhile ha, hdomain, List.reverse_reverse]
  congr 1
  have hsplit : a :: (between ++ b :: back) = a :: (between ++ [b]) ++ back := by simp
  rw [hsplit, List.length_append, Nat.add_sub_cancel, List.take_left]

def escaped (label : Label) : String := Ascii.text label.escape

/--
What a service tells of `labels`, whose leftmost and rightmost markers stand at the places `first`
and `last`, and the one in front of the rightmost at `application`.
-/
structure Covers (labels : List Label) (service : Service) (first application last : Nat) :
    Prop where
  instanceBytes :
    service.instanceBytes = if first = 0 then none else some (labels.take first).flatten
  fullType :
    Label.parseAll (Ascii.bytes service.fullType) = .ok ((labels.take (last + 1)).drop first)
  domain : Label.parseAll (Ascii.bytes service.domain) = .ok (labels.drop (last + 1))
  protocol : labels[last]?.map escaped = some service.protocol
  application : labels[application]?.map escaped = some service.application
  serviceType : service.serviceType = service.application ++ "." ++ service.protocol
  once :
    labels.take first ++ (labels.take (last + 1)).drop first ++ labels.drop (last + 1) = labels

theorem markers_of_two {front between back : List Label} {a b : Label} (hfront : Unmarked front)
    (ha : a.isMarker = true) (hb : b.isMarker = true) (hback : Unmarked back) :
    (cut (front ++ a :: (between ++ b :: back))).markers
      =
    a :: (between.filter Label.isMarker ++ [b]) := by
  rw [cut_of_two hfront ha hb hback]
  simp [markers, ha, hb]

theorem getElem?_of_length_eq {α : Type} {front behind : List α} {item : α} {place : Nat}
    (h : front.length = place) : (front ++ item :: behind)[place]? = some item := by
  rw [← h, List.getElem?_append_right (Nat.le_refl _), Nat.sub_self]
  rfl

theorem covers_of_two {front between back : List Label} {a b : Label} {application : Nat}
    (hfront : Unmarked front) (ha : a.isMarker = true) (hb : b.isMarker = true)
    (hback : Unmarked back) :
    let labels := front ++ a :: (between ++ b :: back)
    (∀ label ∈ labels, label.Fits) →
    labels[application]? = some ((cut labels).marker 1) →
    Covers labels (cut labels) front.length application (front.length + between.length + 1) := by
  intro labels hlabels happlication
  have hlast : labels.take (front.length + between.length + 1 + 1)
      =
    front ++ a :: (between ++ [b]) := by
    have hsplit : labels = front ++ a :: (between ++ [b]) ++ back := by simp [labels]
    rw [hsplit]
    apply List.take_left'
    simp
    omega
  have hbehind : labels.drop (front.length + between.length + 1 + 1) = back := by
    have hsplit : labels = front ++ a :: (between ++ [b]) ++ back := by simp [labels]
    rw [hsplit]
    apply List.drop_left'
    simp
    omega
  have hmarker : (cut labels).marker 0 = b := by
    unfold marker
    rw [markers_of_two hfront ha hb hback]
    simp
  have hcut : cut labels = ⟨front, a :: (between ++ [b]), back⟩ := cut_of_two hfront ha hb hback
  constructor
  case instanceBytes =>
    rw [hcut, List.take_left' rfl]
    unfold Service.instanceBytes
    cases front <;> simp
  case fullType =>
    rw [hlast, List.drop_left' rfl, hcut]
    apply Name.parseAll_text ⟨a :: (between ++ [b]), false⟩
    intro label hlabel
    apply hlabels
    simp only [labels, List.mem_append, List.mem_cons] at hlabel ⊢
    grind
  case domain =>
    rw [hbehind, hcut, Service.domain, Name.text_joined_append_dot]
    apply Name.parseAll_text ⟨back, true⟩
    intro label hlabel
    apply hlabels
    simp [labels, hlabel]
  case protocol =>
    have hplace : labels[front.length + between.length + 1]? = some b := by
      have hsplit : labels = front ++ a :: between ++ b :: back := by simp [labels]
      rw [hsplit]
      apply getElem?_of_length_eq
      simp
      omega
    rw [hplace, Service.protocol, hmarker]
    rfl
  case application =>
    rw [happlication]
    rfl
  case serviceType => rfl
  case once =>
    rw [List.take_left' rfl, hlast, hbehind, List.drop_left' rfl]
    simp [labels]

theorem describes_two {labels : List Label} (hlabels : ∀ label ∈ labels, label.Fits)
    {first last : Nat} (h : labels.findIdxs Label.isMarker = [first, last]) :
    Covers labels (cut labels) first first last ∧
      (cut labels).subType = none ∧ (cut labels).fullSubType = none := by
  rcases exists_append_of_findIdxs h with ⟨front, a, rest, rfl, hfront, ha, rfl, hrest⟩
  rcases exists_append_of_findIdxs hrest with ⟨between, b, back, rfl, hbetween, hb, rfl, hback⟩
  have hback : Unmarked back := List.findIdxs_eq_nil_iff.mp hback
  have hmarkers : (cut (front ++ a :: (between ++ b :: back))).markers = [a, b] := by
    rw [markers_of_two hfront ha hb hback, hbetween.filter, List.nil_append]
  have hsub : (cut (front ++ a :: (between ++ b :: back))).subTypeLabels = none := by
    unfold subTypeLabels
    rw [hmarkers, cut_of_two hfront ha hb hback]
    simp
  refine ⟨?_, ?_, ?_⟩
  . have hplace : 0 + front.length + 1 + between.length = front.length + between.length + 1 := by
      omega
    rw [hplace, Nat.zero_add]
    apply covers_of_two hfront ha hb hback hlabels
    simp [marker, hmarkers]
  . rw [subType, hsub]
    rfl
  . rw [fullSubType, hsub]
    rfl

theorem subTypeLabels_of_four {front x behind back : List Label} {a sub b : Label}
    (hfront : Unmarked front) (ha : a.isMarker = true) (hx : Unmarked x)
    (hsub : sub.isMarker = true) (hbehind : behind.countP Label.isMarker = 1)
    (hb : b.isMarker = true) (hback : Unmarked back) :
    (cut (front ++ a :: (x ++ sub :: behind ++ b :: back))).subTypeLabels
      =
    some (a :: (x ++ [sub])) := by
  have hcount : (cut (front ++ a :: (x ++ sub :: behind ++ b :: back))).markers.length = 4 := by
    rw [markers_of_two hfront ha hb hback, List.filter_append, hx.filter]
    rw [List.countP_eq_length_filter] at hbehind
    simp [hsub, hbehind]
  have htake : (x ++ sub :: behind ++ [b]).takeWhile (fun label => !label.isMarker) = x := by
    rw [List.append_assoc]
    exact hx.takeWhile hsub (behind ++ [b])
  have hsplit : x ++ sub :: behind ++ [b] = x ++ [sub] ++ (behind ++ [b]) := by simp
  unfold subTypeLabels
  rw [hcount, cut_of_two hfront ha hb hback]
  dsimp only
  rw [htake, hsplit, List.take_left' (by simp)]
  rfl

theorem describes_four {labels : List Label} (hlabels : ∀ label ∈ labels, label.Fits)
    {first second application last : Nat}
    (h : labels.findIdxs Label.isMarker = [first, second, application, last]) :
    Covers labels (cut labels) first application last ∧
      (cut labels).subType = labels[first]?.map escaped ∧
      ∃ text, (cut labels).fullSubType = some text ∧
        Label.parseAll (Ascii.bytes text) = .ok ((labels.take (second + 1)).drop first) := by
  rcases exists_append_of_findIdxs h with ⟨front, a, rest, rfl, hfront, ha, rfl, hrest⟩
  rcases exists_append_of_findIdxs hrest with ⟨x, sub, rest, rfl, hx, hsub, rfl, hrest⟩
  rcases exists_append_of_findIdxs hrest with ⟨y, app, rest, rfl, hy, happ, rfl, hrest⟩
  rcases exists_append_of_findIdxs hrest with ⟨z, b, back, rfl, hz, hb, rfl, hback⟩
  have hback : Unmarked back := List.findIdxs_eq_nil_iff.mp hback
  have hbehind : (y ++ app :: z).countP Label.isMarker = 1 := by
    rw [List.countP_eq_length_filter, List.filter_append, hy.filter]
    simp [happ, hz.filter]
  -- The outer markers enclose the two in the middle.
  have houter : x ++ sub :: (y ++ app :: (z ++ b :: back))
      =
    x ++ sub :: (y ++ app :: z) ++ b :: back := by
    simp
  rw [houter] at hlabels ⊢
  have hsubType := subTypeLabels_of_four hfront ha hx hsub hbehind hb hback
  refine ⟨?_, ?_, ?_⟩
  . have hlast : 0 + front.length + 1 + x.length + 1 + y.length + 1 + z.length
        =
      front.length + (x ++ sub :: (y ++ app :: z)).length + 1 := by
      simp
      omega
    have hmarker : (cut (front ++ a :: (x ++ sub :: (y ++ app :: z) ++ b :: back))).marker 1
        =
      app := by
      have hbetween : (x ++ sub :: (y ++ app :: z)).filter Label.isMarker = [sub, app] := by
        simp [hx.filter, hy.filter, hz.filter, hsub, happ]
      rw [marker, markers_of_two hfront ha hb hback, hbetween]
      rfl
    have hsplit : front ++ a :: (x ++ sub :: (y ++ app :: z) ++ b :: back)
        =
      front ++ a :: (x ++ sub :: y) ++ app :: (z ++ b :: back) := by
      simp
    rw [hlast, Nat.zero_add]
    apply covers_of_two hfront ha hb hback hlabels
    rw [hmarker, hsplit]
    apply getElem?_of_length_eq
    simp
    omega
  . rw [subType, hsubType]
    simp [escaped]
  . have hsplit : front ++ a :: (x ++ sub :: (y ++ app :: z) ++ b :: back)
        =
      front ++ a :: (x ++ [sub]) ++ (y ++ app :: (z ++ b :: back)) := by
      simp
    refine ⟨(Name.mk (a :: (x ++ [sub])) false).text, ?_, ?_⟩
    . rw [fullSubType, hsubType]
      rfl
    . rw [hsplit] at hlabels ⊢
      rw [List.take_left' (by simp; omega), List.drop_left' (by simp)]
      apply Name.parseAll_text ⟨a :: (x ++ [sub]), false⟩
      intro label hlabel
      apply hlabels
      rw [List.mem_append, List.mem_append]
      exact .inl (.inr hlabel)

/--
Labels are a service exactly if two or four of them are markers, wherever these stand, and whether
they come from a text or from a name. The leftmost and the rightmost marker divide the labels into
instance, type and domain; the first two of four markers delimit the subtype.
-/
theorem built_iff_markers (labels : List Label) (hlabels : ∀ label ∈ labels, label.Fits) :
    let places := labels.findIdxs Label.isMarker
    let built := (ofLabels labels).mapError (faultError labels)
    (∀ text, Label.parseAll (Ascii.bytes text) = .ok labels → parse text = built) ∧
    (∀ name : Name, name.labels = labels → ofName name = built) ∧
    ((∃ service, built = .ok service) ↔ places.length = 2 ∨ places.length = 4) ∧
    (¬ (places.length = 2 ∨ places.length = 4) → ∃ reason, built = .error (.parse reason)) ∧
    (∀ service first last, built = .ok service → places = [first, last] →
      Covers labels service first first last ∧
        service.subType = none ∧ service.fullSubType = none) ∧
    (∀ service first second application last, built = .ok service →
      places = [first, second, application, last] →
      Covers labels service first application last ∧
        service.subType = labels[first]?.map escaped ∧
        ∃ text, service.fullSubType = some text ∧
          Label.parseAll (Ascii.bytes text) = .ok ((labels.take (second + 1)).drop first)) := by
  intro places built
  have hlength : places.length = labels.countP Label.isMarker := List.length_findIdxs
  have hbuilt : ∀ service, built = .ok service ↔
      (places.length = 2 ∨ places.length = 4) ∧ service = cut labels := by
    intro service
    rw [hlength, ← ofLabels_eq_ok_iff]
    apply mapError_eq_ok_iff
  refine ⟨?_, ?_, ?_, ?_, ?_, ?_⟩
  . intro text htext
    exact parse_of_parseAll htext
  . intro name hname
    rw [ofName, hname]
  . simp only [hbuilt]
    simp
  . intro hplaces
    cases hresult : ofLabels labels with
    | error fault =>
      simp only [built, hresult, mapError_error]
      exact ⟨_, rfl⟩
    | ok service =>
      have := ofLabels_eq_ok_iff.mp hresult
      rw [← hlength] at this
      exact absurd this.1 hplaces
  . intro service first last hservice hplaces
    rw [((hbuilt service).mp hservice).2]
    exact describes_two hlabels hplaces
  . intro service first second application last hservice hplaces
    rw [((hbuilt service).mp hservice).2]
    exact describes_four hlabels hplaces

/--
Four markers that do not stand side by side, behind an instance in two labels and without a domain.
-/
theorem built_iff_markers_scattered :
    let labels := ["a", "b", "_p", "x", "_sub", "_http", "y", "_tcp"].map spelled
    ∃ service, ofName ⟨labels, true⟩ = .ok service ∧
      service.instanceBytes = some (spelled "ab") ∧
      Label.parseAll (Ascii.bytes service.fullType) = .ok (labels.drop 2) ∧
      Label.parseAll (Ascii.bytes service.domain) = .ok [] ∧
      service.serviceType = "_http._tcp" ∧ service.subType = some "_p" ∧
      ∃ text, service.fullSubType = some text ∧
        Label.parseAll (Ascii.bytes text) = .ok (["_p", "x", "_sub"].map spelled) := by
  intro labels
  rcases built_iff_markers labels (by decide) with ⟨-, hname, hsome, -, -, hfour⟩
  rcases hsome.mpr (.inr (by decide)) with ⟨service, hservice⟩
  rcases hfour service 2 4 5 7 hservice (by decide) with ⟨hcovers, hsubType, text, htext, hread⟩
  have hprotocol := hcovers.protocol
  have happlication := hcovers.application
  refine ⟨service, ?_, ?_, ?_, ?_, ?_, ?_, text, htext, ?_⟩
  . rw [hname ⟨labels, true⟩ rfl, hservice]
  . rw [hcovers.instanceBytes]
    decide
  . rw [hcovers.fullType]
    decide
  . rw [hcovers.domain]
    decide
  . rw [hcovers.serviceType, ← Option.some.inj hprotocol, ← Option.some.inj happlication]
    decide
  . rw [hsubType]
    decide
  . rw [hread]
    decide

end Zeroconf.Service
