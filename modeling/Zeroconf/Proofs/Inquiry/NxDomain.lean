import Zeroconf.Proofs.Inquiry.Arrival

/-!
This module contains the question in which cases an answer says that the name does not exist. It
does so exactly if no reply adds a record to those that the query holds already.
-/

namespace Zeroconf.Inquiry

def Adds (query response : Message) : Prop :=
  (∃ record ∈ response.answers, record.identity ∉ query.answers.map Record.identity) ∨
  (∃ record ∈ response.authorities, record.identity ∉ query.authorities.map Record.identity) ∨
  (∃ record ∈ response.additionals, record.identity ∉ query.additionals.map Record.identity)

def added (query : Message) (replies : List Reply) : List Record :=
  firsts query.answers ((faultless replies).flatMap (·.answers)) ++
    firsts query.authorities ((faultless replies).flatMap (·.authorities)) ++
    firsts query.additionals ((faultless replies).flatMap (·.additionals))

theorem firsts_flatMap_faultless_ne_nil_iff {known : List Record} {replies : List Reply}
    {records : Message → List Record} :
    firsts known ((faultless replies).flatMap records) ≠ []
      ↔
    ∃ response, .message response ∈ replies ∧ response.code = .noError ∧
      ∃ record ∈ records response, record.identity ∉ known.map Record.identity := by
  rw [ne_eq, firsts_eq_nil_iff]
  simp only [List.mem_flatMap, mem_faultless]
  grind

theorem added_ne_nil_iff {query : Message} {replies : List Reply} :
    added query replies ≠ []
      ↔
    ∃ response, .message response ∈ replies ∧ response.code = .noError ∧ Adds query response := by
  have hsections : added query replies ≠ [] ↔
      firsts query.answers ((faultless replies).flatMap (·.answers)) ≠ [] ∨
        firsts query.authorities ((faultless replies).flatMap (·.authorities)) ≠ [] ∨
        firsts query.additionals ((faultless replies).flatMap (·.additionals)) ≠ [] := by
    simp only [added, ne_eq, List.append_eq_nil_iff]
    grind
  rw [hsections]
  simp only [firsts_flatMap_faultless_ne_nil_iff, Adds, and_or_left, exists_or]

theorem code_gathered (query : Message) (replies : List Reply) :
    (gathered query replies).code
      =
    if added query replies = [] then .nxDomain else query.code := by
  rfl

theorem code_gathered_eq_nxDomain_iff {query : Message} (hcode : query.code = .noError)
    (replies : List Reply) :
    (gathered query replies).code = .nxDomain ↔ added query replies = [] := by
  have hne : ResponseCode.noError ≠ .nxDomain := by decide
  rw [code_gathered]
  split
  . next h => simp [h]
  . next h => simp [h, hcode, hne]

theorem sections_gathered_eq_iff {query : Message} {replies : List Reply} :
    (gathered query replies).answers = query.answers ∧
      (gathered query replies).authorities = query.authorities ∧
      (gathered query replies).additionals = query.additionals
      ↔
    added query replies = [] := by
  simp only [gathered, added, List.append_eq_nil_iff, List.append_right_eq_self, and_assoc]

theorem recordCount_gathered (query : Message) (replies : List Reply) :
    recordCount (gathered query replies) = recordCount query + (added query replies).length := by
  simp only [recordCount, gathered, added, List.length_append]
  omega

/--
An answer says that the name does not exist exactly if its sections are those of the query, that is
if no faultless reply has a record that its section of the query lacks. That the answer has no
records means the same if the query has none, and otherwise as long as something is added.
-/
theorem code_merge_eq_nxDomain_iff {query answer : Message} {replies : List Reply} {sent : Nat}
    (hcode : query.code = .noError) (h : merge query replies sent = .ok answer) :
    (answer.code = .nxDomain ↔
      answer.answers = query.answers ∧ answer.authorities = query.authorities ∧
        answer.additionals = query.additionals) ∧
    (answer.code ≠ .nxDomain ↔
      ∃ response, .message response ∈ replies ∧ response.code = .noError ∧ Adds query response) ∧
    ((answer.code = .nxDomain ↔ recordCount answer = 0) ↔
      recordCount query = 0 ∨ answer.code ≠ .nxDomain) := by
  have hanswer : answer = gathered query replies := by
    rw [merge_eq] at h
    split at h
    . contradiction
    . injection h with h
      exact h.symm
  have hnx := code_gathered_eq_nxDomain_iff hcode replies
  rw [hanswer]
  refine ⟨?_, ?_, ?_⟩
  . rw [hnx, sections_gathered_eq_iff]
  . rw [ne_eq, hnx, ← added_ne_nil_iff]
  . rw [ne_eq, hnx, recordCount_gathered, ← List.length_eq_zero_iff]
    omega

/--
One responder confirms a record that the query knows, and another one adds a record to it.
-/
theorem code_merge_eq_nxDomain_iff_confirmed :
    let known := letterRecord 0x68 1 10
    let query : Message := { id := 42, answers := [known] }
    let first : Message := { isResponse := true, answers := [letterRecord 0x48 1 120] }
    let second : Message := { isResponse := true, additionals := [letterRecord 0x68 2 120] }
    (∃ answer, merge query [.message first] 1 = .ok answer ∧
      answer.code = .nxDomain ∧ answer.answers = [known]) ∧
    (∃ answer, merge query [.message first, .message second] 2 = .ok answer ∧
      answer.code ≠ .nxDomain) := by
  intro known query first second
  have hconfirmed : merge query [.message first] 1 = .ok _ := rfl
  have hadded : merge query [.message first, .message second] 2 = .ok _ := rfl
  constructor
  . rcases code_merge_eq_nxDomain_iff rfl hconfirmed with ⟨hsections, -, -⟩
    exact ⟨_, hconfirmed, hsections.mpr (by decide), by decide⟩
  . rcases code_merge_eq_nxDomain_iff rfl hadded with ⟨-, hadds, -⟩
    refine ⟨_, hadded, hadds.mpr ⟨second, by simp, rfl, .inr (.inr ?_)⟩⟩
    exact ⟨letterRecord 0x68 2 120, by decide, by decide⟩

/--
A name with a known record, confirmed by a responder, is said not to exist.
-/
theorem nxDomain_with_known_record :
    ¬ ∀ (query answer : Message) (replies : List Reply) (sent : Nat), query.code = .noError →
      merge query replies sent = .ok answer →
      (answer.code = .nxDomain ↔
        answer.answers = [] ∧ answer.authorities = [] ∧ answer.additionals = []) := by
  intro hall
  let query : Message := { id := 42, answers := [letterRecord 0x68 1 10] }
  let response : Message := { isResponse := true, answers := [letterRecord 0x68 1 120] }
  have hmerge : merge query [.message response] 1 = .ok _ := rfl
  have hempty := (hall query _ _ 1 rfl hmerge).mp (by decide)
  exact absurd hempty.1 (by decide)

end Zeroconf.Inquiry
