import Mathlib.Data.List.Basic
import Zeroconf.Reception

/-!
This module contains what the delivery of a reply does to the inquiries, and the proof that somebody
who waits for an inquiry goes away with what there is to be seen at that moment.
-/

namespace Zeroconf

variable {α σ : Type}

theorem Fanout.callAll_keeps (kept : σ → Prop) {call : α → σ → Outcome × σ}
    (hcall : ∀ listener s, kept s → kept (call listener s).2) (listeners : List α) {s : σ}
    (h : kept s) : kept (callAll call listeners s).2 := by
  induction listeners generalizing s with
  | nil => exact h
  | cons listener others ih =>
    have := hcall listener s h
    unfold callAll
    split
    . next heq => exact ih (by simpa [heq] using this)
    . next heq => simpa [heq] using this
    . next heq => simpa [heq] using this

theorem Audience.hearAll_one (call : α → σ → Outcome × σ) (listeners : List α) (s : σ) :
    hearAll call (listeners.map .one) s = Fanout.callAll call listeners s := by
  rw [hearAll_eq_callAll]
  induction listeners generalizing s with
  | nil => rfl
  | cons listener others ih =>
    simp only [List.map_cons, Fanout.callAll, hear, ih]

theorem Fanout.hear_audience (fanout : Fanout α) (call : α → σ → Outcome × σ) (s : σ) :
    fanout.audience.hear call s
      =
    (.ofResult (fanout.dispatch call s).1, (fanout.dispatch call s).2) := by
  simp only [audience, Audience.hear, Audience.hearAll_one, dispatch]

namespace Reception

def Entry.heard? : Entry → Option (String × Report)
  | .heard listener report => some (listener, report)
  | _ => none

def heard (reception : Reception) : List (String × Report) :=
  reception.journal.filterMap Entry.heard?

def Entry.asked? : Entry → Option (String × Message)
  | .asked peer query => some (peer, query)
  | _ => none

def asked (reception : Reception) : List (String × Message) :=
  reception.journal.filterMap Entry.asked?

theorem heard_note (reception : Reception) (entry : Entry) :
    (reception.note entry).heard = reception.heard ++ entry.heard?.toList := by
  simp only [heard, note, List.filterMap_append]
  cases h : entry.heard? with
  | none => simp [h]
  | some call => simp [h]

theorem asked_note (reception : Reception) (entry : Entry) :
    (reception.note entry).asked = reception.asked ++ entry.asked?.toList := by
  simp only [asked, note, List.filterMap_append]
  cases h : entry.asked? with
  | none => simp [h]
  | some question => simp [h]

theorem asked_note_of_eq_none {entry : Entry} (h : entry.asked? = none) (reception : Reception) :
    (reception.note entry).asked = reception.asked := by
  rw [asked_note, h]
  exact List.append_nil _

theorem asked_deliver_inquiry (number : Nat) (report : Report) (reception : Reception) :
    (reception.deliver (.inquiry number) report).2.asked = reception.asked := by
  simp only [deliver, deliverToInquiry]
  split
  . rfl
  . split
    . split
      . exact asked_note_of_eq_none rfl _
      . rfl
    . rfl

theorem asked_receive_inquiry (peer : String) (number : Nat) (reaction : Reaction)
    (reception : Reception) :
    (reception.receive peer (.inquiry number) reaction).asked = reception.asked := by
  have hlater (later : List (Nat × Report)) (reception : Reception) :
      (later.foldl (schedule (.inquiry number)) reception).asked = reception.asked := by
    induction later generalizing reception with
    | nil => rfl
    | cons first later ih => exact ih _
  have hreports (reports : List Report) (reception : Reception) :
      (reports.foldl
        (fun reception report =>
          (reception.deliver (.inquiry number) report).2.note
            (.delivered peer (reception.deliver (.inquiry number) report).1))
        reception).asked = reception.asked := by
    induction reports generalizing reception with
    | nil => rfl
    | cons report reports ih =>
      rw [List.foldl_cons, ih, asked_note_of_eq_none rfl, asked_deliver_inquiry]
  unfold receive
  rw [hlater]
  exact hreports reaction.reports reception

@[simp]
theorem heard_hear (report : Report) (listener : Observer) (reception : Reception) :
    (reception.hear report listener).2.heard = reception.heard ++ [(listener.name, report)] := by
  apply heard_note

@[simp]
theorem heard_step (reception : Reception) (number : Nat) (event : Inquiry.Event) :
    (reception.step number event).heard = reception.heard := by
  rfl

@[simp]
theorem cases_hear (report : Report) (listener : Observer) (reception : Reception) :
    (reception.hear report listener).2.cases = reception.cases := by
  rfl

@[simp]
theorem length_cases_step (reception : Reception) (number : Nat) (event : Inquiry.Event) :
    (reception.step number event).cases.length = reception.cases.length := by
  simp [step]

theorem getElem?_cases_step {reception : Reception} {number : Nat} {case : Case}
    (h : reception.cases[number]? = some case) (event : Inquiry.Event) :
    (reception.step number event).cases[number]?
      =
    some { case with inquiry := case.inquiry.step event } := by
  simp [step, h]

theorem cases_step_of_eq {reception : Reception} {number : Nat} {event : Inquiry.Event}
    (h : ∀ case, reception.cases[number]? = some case → case.inquiry.step event = case.inquiry) :
    (reception.step number event).cases = reception.cases := by
  apply List.ext_getElem?
  intro place
  by_cases hplace : number = place
  . subst hplace
    cases hcase : reception.cases[number]? with
    | none => simp [step, hcase]
    | some case => rw [getElem?_cases_step hcase, h case hcase]
  . simp [step, hplace]

theorem cases_deliver_observers (report : Report) (reception : Reception) :
    (reception.deliver .observers report).2.cases = reception.cases := by
  simp only [deliver, Fanout.hear_audience]
  apply Fanout.callAll_keeps (fun s : Reception => s.cases = reception.cases)
  . intro listener s h
    rw [cases_hear, h]
  . rfl

theorem cases_deliver_inquiry (number : Nat) (report : Report) (reception : Reception) :
    (reception.deliver (.inquiry number) report).2.cases
      =
    (reception.step number (.reported report)).cases := by
  simp only [deliver, deliverToInquiry]
  split
  . next h =>
    rw [cases_step_of_eq]
    simp [h]
  . next case h =>
    split
    . split <;> simp
    . next hkeeps =>
      -- The step does not keep the reply either.
      rw [cases_step_of_eq]
      intro other hother
      rw [h, Option.some.injEq] at hother
      subst hother
      simp [Inquiry.step, hkeeps]

theorem length_cases_deliver (sink : Sink) (report : Report) (reception : Reception) :
    (reception.deliver sink report).2.cases.length = reception.cases.length := by
  cases sink with
  | observer listener => rfl
  | inquiry number => rw [cases_deliver_inquiry, length_cases_step]
  | waiter number => rfl
  | observers => rw [cases_deliver_observers]

theorem length_cases_receiveDue (due : Due) (reception : Reception) :
    (reception.receiveDue due).cases.length = reception.cases.length := by
  simp only [receiveDue, length_cases_deliver]

theorem length_cases_advance_go (limit : Nat) (done : Reception → Bool) (upcoming : List Due)
    (reception : Reception) :
    (advance.go limit done upcoming reception).cases.length = reception.cases.length := by
  induction upcoming generalizing reception with
  | nil => unfold advance.go; split <;> rfl
  | cons due others ih =>
    unfold advance.go
    split
    . rfl
    . dsimp only
      split
      . rw [ih, length_cases_receiveDue]
      . rfl

theorem done_or_le_now_advance_go (limit : Nat) (done : Reception → Bool)
    (hdone : ∀ reception upcoming, done { reception with upcoming } = done reception)
    (upcoming : List Due) (reception : Reception) :
    done (advance.go limit done upcoming reception) = true ∨
      limit ≤ (advance.go limit done upcoming reception).now := by
  induction upcoming generalizing reception with
  | nil =>
    unfold advance.go
    split
    . next h => exact .inl (by rw [hdone, h])
    . exact .inr (Nat.le_max_right ..)
  | cons due others ih =>
    unfold advance.go
    split
    . next h => exact .inl (by rw [hdone, h])
    . dsimp only
      split
      . apply ih
      . exact .inr (Nat.le_max_right ..)

theorem isSome_look_of_le_now {reception : Reception} {number deadline : Nat}
    (hnumber : number < reception.cases.length) (hnow : deadline ≤ reception.now) :
    (reception.look number deadline).isSome = true := by
  simp only [look, Inquiry.look, List.getElem?_eq_getElem hnumber, Option.bind_some, hnow]
  split <;> rfl

theorem look_wait {reception : Reception} {number : Nat} {case : Case}
    (h : reception.cases[number]? = some case) :
    (reception.wait number).2.look number case.inquiry.deadline
      =
    some (reception.wait number).1 := by
  have hseen : (look number case.inquiry.deadline (reception.wait number).2).isSome = true := by
    simp only [wait, h, advance]
    cases done_or_le_now_advance_go case.inquiry.deadline
      (fun s => (look number case.inquiry.deadline s).isSome) (fun _ _ => rfl)
      reception.upcoming reception with
    | inl hdone => exact hdone
    | inr hnow =>
      apply isSome_look_of_le_now _ hnow
      rw [length_cases_advance_go]
      exact (List.getElem?_eq_some_iff.mp h).1
  rcases Option.isSome_iff_exists.mp hseen with ⟨seen, hseen⟩
  rw [hseen]
  simp only [wait, h] at hseen ⊢
  rw [hseen]
  rfl

end Reception

end Zeroconf
