import Mathlib.Data.List.Perm.Basic
import Zeroconf.Proofs.Inquiry.Merge

/-!
This module contains the proof that the answer put together from several replies does not depend on
the order in which they arrive, nor on how often a message arrives. Which of several records of one
identity is kept does depend on it, but not which identities there are.
-/

namespace Zeroconf.Inquiry

theorem any_same_eq_true_iff {known : List Record} {record : Record} :
    known.any (·.same record) = true ↔ record.identity ∈ known.map Record.identity := by
  rw [List.any_eq_true, List.mem_map]
  simp only [Record.same_iff]

theorem mem_identity_firsts {known records : List Record} {identity : Record.Identity} :
    identity ∈ (firsts known records).map Record.identity
      ↔
    identity ∈ records.map Record.identity ∧ identity ∉ known.map Record.identity := by
  induction records generalizing known with
  | nil => simp
  | cons record records ih =>
    rw [firsts_cons, List.map_append, List.mem_append, ih, List.map_append, List.mem_append]
    by_cases hknown : record.identity ∈ known.map Record.identity
    . rw [if_pos (any_same_eq_true_iff.mpr hknown)]
      simp only [List.map_nil, List.map_cons, List.not_mem_nil, List.mem_cons, or_false]
      grind
    . rw [if_neg (mt any_same_eq_true_iff.mp hknown)]
      simp only [List.map_nil, List.map_cons, List.not_mem_nil, List.mem_cons, or_false]
      grind

theorem nodup_identity_firsts (known records : List Record) :
    ((firsts known records).map Record.identity).Nodup := by
  induction records generalizing known with
  | nil => simp
  | cons record records ih =>
    rw [firsts_cons, List.map_append, List.nodup_append]
    refine ⟨by split <;> simp, ih _, ?_⟩
    intro identity hhere other hbehind heq
    rw [mem_identity_firsts] at hbehind
    split at hhere <;> simp_all

/--
Two lists of records with the same identities, each as often in one as in the other.
-/
def SameRecords (records others : List Record) : Prop :=
  (records.map Record.identity).Perm (others.map Record.identity)

theorem sameRecords_append_firsts (known : List Record) {records others : List Record}
    (h : ∀ record, record ∈ records ↔ record ∈ others) :
    SameRecords (known ++ firsts known records) (known ++ firsts known others) := by
  unfold SameRecords
  rw [List.map_append, List.map_append]
  apply List.Perm.append_left
  -- No identity is added twice, so that membership is all there is to compare.
  rw [List.perm_ext_iff_of_nodup (nodup_identity_firsts ..) (nodup_identity_firsts ..)]
  intro identity
  rw [mem_identity_firsts, mem_identity_firsts]
  simp only [List.mem_map, h]

theorem firsts_eq_nil_iff {known records : List Record} :
    firsts known records = []
      ↔
    ∀ record ∈ records, record.identity ∈ known.map Record.identity := by
  rw [← List.map_eq_nil_iff (f := Record.identity), List.eq_nil_iff_forall_not_mem]
  simp only [mem_identity_firsts]
  grind

theorem firsts_eq_nil_congr (known : List Record) {records others : List Record}
    (h : ∀ record, record ∈ records ↔ record ∈ others) :
    firsts known records = [] ↔ firsts known others = [] := by
  simp only [firsts_eq_nil_iff, h]

/--
Two answers that say the same: the identities of their records agree section by section, and so do
their flags and codes.
-/
structure SameAnswer (a b : Message) : Prop where
  answers : SameRecords a.answers b.answers
  authorities : SameRecords a.authorities b.authorities
  additionals : SameRecords a.additionals b.additionals
  authoritative : a.authoritative = b.authoritative
  authenticData : a.authenticData = b.authenticData
  code : a.code = b.code

/--
Two results that are answers that say the same, or failures both.
-/
def SameResult : Except Error Message → Except Error Message → Prop
  | .ok a, .ok b => SameAnswer a b
  | .error _, .error _ => True
  | _, _ => False

theorem mem_faultless {replies : List Reply} {response : Message} :
    response ∈ faultless replies ↔ .message response ∈ replies ∧ response.code = .noError := by
  unfold faultless
  rw [List.mem_filter, List.mem_filterMap, beq_iff_eq]
  constructor
  . rintro ⟨⟨reply, hmem, hmessage⟩, hcode⟩
    cases reply with
    | message other => simp_all [Reply.message?]
    | failure error => simp [Reply.message?] at hmessage
  . rintro ⟨hmem, hcode⟩
    exact ⟨⟨_, hmem, rfl⟩, hcode⟩

theorem filterMap_message_eq_nil_iff {replies : List Reply} :
    replies.filterMap Reply.message? = [] ↔ ∀ response, .message response ∉ replies := by
  rw [List.filterMap_eq_nil_iff]
  constructor
  . intro h response hmem
    simpa [Reply.message?] using h _ hmem
  . intro h reply hmem
    cases reply with
    | message response => exact absurd hmem (h response)
    | failure error => rfl

section SameMessages

variable {replies others : List Reply}
  (hmessages : ∀ response, Reply.message response ∈ replies ↔ .message response ∈ others)

include hmessages

theorem mem_flatMap_faultless_congr (records : Message → List Record) (record : Record) :
    record ∈ (faultless replies).flatMap records ↔ record ∈ (faultless others).flatMap records := by
  simp only [List.mem_flatMap, mem_faultless, hmessages]

theorem any_faultless_congr (flag : Message → Bool) :
    (faultless replies).any flag = (faultless others).any flag := by
  rw [Bool.eq_iff_iff]
  simp only [List.any_eq_true, mem_faultless, hmessages]

theorem sameAnswer_gathered (query : Message) :
    SameAnswer (gathered query replies) (gathered query others) where
  answers := sameRecords_append_firsts _ (mem_flatMap_faultless_congr hmessages _)
  authorities := sameRecords_append_firsts _ (mem_flatMap_faultless_congr hmessages _)
  additionals := sameRecords_append_firsts _ (mem_flatMap_faultless_congr hmessages _)
  authoritative := by simp only [gathered, any_faultless_congr hmessages]
  authenticData := by simp only [gathered, any_faultless_congr hmessages]
  code := by
    simp only [gathered, List.append_eq_nil_iff,
      firsts_eq_nil_congr _ (mem_flatMap_faultless_congr hmessages _)]

theorem sameResult_merge (query : Message) (sent : Nat)
    (hfailures :
      (replies.filterMap Reply.failure?).length = (others.filterMap Reply.failure?).length) :
    SameResult (merge query replies sent) (merge query others sent) := by
  have hsilent : replies.filterMap Reply.message? = [] ↔ others.filterMap Reply.message? = [] := by
    simp only [filterMap_message_eq_nil_iff, hmessages]
  have hfailed : (totalFailure? replies sent).isSome = (totalFailure? others sent).isSome := by
    rw [Bool.eq_iff_iff, isSome_totalFailure?_iff, isSome_totalFailure?_iff, hsilent, hfailures]
  rw [merge_eq, merge_eq]
  cases hreplies : totalFailure? replies sent with
  | none =>
    cases hothers : totalFailure? others sent with
    | none => exact sameAnswer_gathered hmessages query
    | some other => simp [hreplies, hothers] at hfailed
  | some first =>
    cases hothers : totalFailure? others sent with
    | none => simp [hreplies, hothers] at hfailed
    | some other => trivial

end SameMessages

/--
What the answer says depends neither on the order in which replies arrive nor on further copies of a
message.
-/
theorem merge_sameResult (query : Message) (replies : List Reply) (sent : Nat) :
    (∀ others, replies.Perm others →
      SameResult (merge query replies sent) (merge query others sent)) ∧
    (∀ front behind response, replies = front ++ behind → .message response ∈ replies →
      SameResult (merge query replies sent)
        (merge query (front ++ .message response :: behind) sent)) := by
  constructor
  . intro others hperm
    apply sameResult_merge
    . intro response
      exact hperm.mem_iff
    . exact (hperm.filterMap _).length_eq
  . intro front behind response hsplit hmem
    rw [hsplit] at hmem ⊢
    apply sameResult_merge
    . intro other
      rw [List.mem_append] at hmem
      simp only [List.mem_append, List.mem_cons, Reply.message.injEq]
      constructor
      . rintro (h | h) <;> simp [h]
      . rintro (h | rfl | h)
        . exact .inl h
        . exact hmem
        . exact .inr h
    . simp [Reply.failure?, List.filterMap_cons]

/--
Two responders with the same record in different cases of letters, and a packet that comes twice.
-/
theorem merge_sameResult_racing :
    let query : Message := { id := 42 }
    let first : Message := { isResponse := true, answers := [letterRecord 0x68 1 120] }
    let second : Message :=
      { isResponse := true, authoritative := true,
        answers := [letterRecord 0x48 1 9, letterRecord 0x68 2 9] }
    merge query [.message first, .message second] 2 ≠
      merge query [.message second, .message first] 2 ∧
    SameResult (merge query [.message first, .message second] 2)
      (merge query [.message second, .message first] 2) ∧
    SameResult (merge query [.message first, .message second] 2)
      (merge query [.message first, .message second, .message second] 2) := by
  intro query first second
  rcases merge_sameResult query [.message first, .message second] 2 with ⟨horder, hcopy⟩
  refine ⟨by decide, horder _ (.swap ..), ?_⟩
  exact hcopy [.message first] [.message second] second rfl (by simp)

end Zeroconf.Inquiry
