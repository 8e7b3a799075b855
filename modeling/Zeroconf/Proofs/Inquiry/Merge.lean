import Mathlib.Data.List.Basic
import Zeroconf.Inquiry.Merge

/-!
This module contains the closed form of the answer that is put together from several replies: the
sections of the query, each followed by those records of the same section of the replies that are
the first of their kind.
-/

namespace Zeroconf.Inquiry

/--
Whether the record at a place of `records` is the same as no record of `known` and as none in front
of it.
-/
def isFirst (known records : List Record) (entry : Record × Nat) : Bool :=
  !(known ++ records.take entry.2).any (·.same entry.1)

/--
The records of `records` that are the first of their identity, and whose identity `known` lacks.
-/
def firsts (known records : List Record) : List Record :=
  (records.zipIdx.filter (isFirst known records)).map Prod.fst

theorem isFirst_congr {known others : List Record} (records : List Record)
    (h : ∀ record : Record, known.any (·.same record) = others.any (·.same record)) :
    isFirst known records = isFirst others records := by
  funext entry
  simp only [isFirst, List.any_append, h]

theorem isFirst_cons (known records : List Record) (record : Record) (entry : Record × Nat) :
    isFirst known (record :: records) (entry.1, entry.2 + 1)
      =
    isFirst (known ++ [record]) records entry := by
  simp [isFirst]

@[simp]
theorem firsts_nil (known : List Record) : firsts known [] = [] := by
  simp [firsts]

theorem firsts_cons (known records : List Record) (record : Record) :
    firsts known (record :: records)
      =
    (if known.any (·.same record) then [] else [record]) ++ firsts (known ++ [record]) records := by
  have hbehind : (records.zipIdx 1).filter (isFirst known (record :: records))
      =
    (records.zipIdx.filter (isFirst (known ++ [record]) records)).map (Prod.map id (· + 1)) := by
    rw [List.zipIdx_succ, List.filter_map]
    congr 2
    funext entry
    exact isFirst_cons known records record entry
  have hhere : isFirst known (record :: records) (record, 0) = !known.any (·.same record) := by
    simp [isFirst]
  unfold firsts
  rw [List.zipIdx_cons, List.filter_cons, Nat.zero_add, hbehind, hhere]
  cases known.any (·.same record) with
  | true => simp [Function.comp_def]
  | false => simp [Function.comp_def]

theorem firsts_congr {known others records : List Record}
    (h : ∀ record ∈ records, known.any (·.same record) = others.any (·.same record)) :
    firsts known records = firsts others records := by
  induction records generalizing known others with
  | nil => simp
  | cons record records ih =>
    rw [List.forall_mem_cons] at h
    rw [firsts_cons, firsts_cons, h.1]
    congr 1
    apply ih
    intro other hmem
    rw [List.any_append, List.any_append, h.2 other hmem]

theorem filter_firsts {p : Record → Bool} (hp : ∀ a b : Record, a.same b = true → p a = p b)
    (known records : List Record) :
    (firsts known records).filter p = firsts known (records.filter p) := by
  induction records generalizing known with
  | nil => simp
  | cons record records ih =>
    rw [firsts_cons, List.filter_append, ih, List.filter_cons]
    cases hrecord : p record with
    | true =>
      rw [if_pos rfl, firsts_cons]
      congr 1
      split <;> simp [hrecord]
    | false =>
      have hhead : (if known.any (·.same record) then [] else [record]).filter p = [] := by
        split <;> simp [hrecord]
      rw [hhead, List.nil_append, if_neg (by simp)]
      -- A record that is left out is the same as none that is kept.
      apply firsts_congr
      intro other hmem
      have hother : record.same other = false := by
        apply Bool.eq_false_iff.mpr
        intro hsame
        have heq := hp record other hsame
        rw [hrecord, (List.mem_filter.mp hmem).2] at heq
        contradiction
      simp [hother]

theorem any_same_of_any_same {known : List Record} {a b : Record}
    (hknown : known.any (·.same a) = true) (hab : a.same b = true) :
    known.any (·.same b) = true := by
  rw [List.any_eq_true] at *
  rcases hknown with ⟨record, hmem, hsame⟩
  refine ⟨record, hmem, ?_⟩
  rw [Record.same_iff] at *
  exact hsame.trans hab

theorem addNew_eq (known records : List Record) :
    addNew known records = known ++ firsts known records := by
  -- The section grows with every record that is new, and so does what counts as known.
  induction records generalizing known with
  | nil => simp [addNew]
  | cons record records ih =>
    have hstep : addNew known (record :: records)
        =
      addNew (if known.any (·.same record) then known else known ++ [record]) records := by
      simp only [addNew, List.foldl_cons]
    rw [hstep, firsts_cons]
    cases hknown : known.any (·.same record) with
    | true =>
      -- The record is left out, but what is the same as it is the same as some record of `known`.
      have : isFirst (known ++ [record]) records = isFirst known records := by
        apply isFirst_congr
        intro other
        have := @any_same_of_any_same known record other hknown
        cases hother : record.same other <;> simp_all
      simp [ih, firsts, this]
    | false => simp [ih]

theorem addNew_append (known records others : List Record) :
    addNew known (records ++ others) = addNew (addNew known records) others := by
  apply List.foldl_append

def faultless (replies : List Reply) : List Message :=
  (replies.filterMap Reply.message?).filter (·.code == .noError)

theorem foldl_absorb (responses : List Message) (answer : Message) :
    responses.foldl absorb answer
      =
    { answer with
      authoritative := answer.authoritative || responses.any (·.authoritative)
      authenticData := answer.authenticData || responses.any (·.authenticData)
      answers := addNew answer.answers (responses.flatMap (·.answers))
      authorities := addNew answer.authorities (responses.flatMap (·.authorities))
      additionals := addNew answer.additionals (responses.flatMap (·.additionals)) } := by
  induction responses generalizing answer with
  | nil => simp [addNew]
  | cons response responses ih =>
    rw [List.foldl_cons, ih]
    simp only [absorb, List.any_cons, List.flatMap_cons, addNew_append, Bool.or_assoc]

theorem foldl_add (replies : List Reply) (draft : Draft) :
    replies.foldl Draft.add draft
      =
    { answer := (faultless replies).foldl absorb draft.answer
      messages := draft.messages + (replies.filterMap Reply.message?).length
      failures := draft.failures + (replies.filterMap Reply.failure?).length
      firstFailure := draft.firstFailure <|> (replies.filterMap Reply.failure?).head? } := by
  induction replies generalizing draft with
  | nil => simp [faultless]
  | cons reply replies ih =>
    rw [List.foldl_cons, ih]
    cases reply with
    | failure error =>
      simp only [Draft.add, faultless, List.filterMap_cons, Reply.message?, Reply.failure?,
        List.length_cons, List.head?_cons]
      cases draft.firstFailure <;> simp <;> omega
    | message response =>
      simp only [Draft.add, faultless, List.filterMap_cons, Reply.message?, Reply.failure?,
        List.length_cons, List.filter_cons]
      split <;> simp <;> omega

/--
The query with the flags of all faultless replies, and with those of their records that are new in
their section. If there are none, the name is said not to exist.
-/
def gathered (query : Message) (replies : List Reply) : Message :=
  let responses := faultless replies
  let answers := firsts query.answers (responses.flatMap (·.answers))
  let authorities := firsts query.authorities (responses.flatMap (·.authorities))
  let additionals := firsts query.additionals (responses.flatMap (·.additionals))
  { query with
    isResponse := true
    authoritative := query.authoritative || responses.any (·.authoritative)
    authenticData := query.authenticData || responses.any (·.authenticData)
    answers := query.answers ++ answers
    authorities := query.authorities ++ authorities
    additionals := query.additionals ++ additionals
    code := if answers ++ authorities ++ additionals = [] then .nxDomain else query.code }

theorem settled_eq_gathered (query : Message) (replies : List Reply) :
    let answer := (faultless replies).foldl absorb { query with isResponse := true }
    (if recordCount answer == recordCount query then { answer with code := .nxDomain } else answer)
      =
    gathered query replies := by
  intro answer
  have hanswer : answer = { gathered query replies with code := query.code } := by
    simp only [answer, foldl_absorb, addNew_eq, gathered]
  have hcount : recordCount answer == recordCount query ↔
      firsts query.answers ((faultless replies).flatMap (·.answers)) ++
        firsts query.authorities ((faultless replies).flatMap (·.authorities)) ++
        firsts query.additionals ((faultless replies).flatMap (·.additionals)) = [] := by
    rw [hanswer]
    simp only [recordCount, gathered, beq_iff_eq, ← List.length_eq_zero_iff, List.length_append]
    omega
  split
  . next h =>
    rw [hanswer]
    simp only [gathered, if_pos (hcount.mp h)]
  . next h =>
    rw [hanswer]
    simp only [gathered, if_neg (mt hcount.mpr h)]

/--
The error that ends an inquiry: the first one, if nothing else came and it came from everybody.
-/
def totalFailure? (replies : List Reply) (sent : Nat) : Option Error :=
  if replies.filterMap Reply.message? = [] ∧ sent ≤ (replies.filterMap Reply.failure?).length then
    (replies.filterMap Reply.failure?).head?
  else
    none

theorem isSome_totalFailure?_iff {replies : List Reply} {sent : Nat} :
    (totalFailure? replies sent).isSome = true
      ↔
    replies.filterMap Reply.message? = [] ∧
      0 < (replies.filterMap Reply.failure?).length ∧
      sent ≤ (replies.filterMap Reply.failure?).length := by
  unfold totalFailure?
  generalize replies.filterMap Reply.failure? = failures
  cases failures with
  | nil => simp
  | cons first failures => split <;> simp_all

theorem merge_eq (query : Message) (replies : List Reply) (sent : Nat) :
    merge query replies sent
      =
    match totalFailure? replies sent with
    | some first => .error first
    | none => .ok (gathered query replies) := by
  unfold merge
  simp only [foldl_add, settled_eq_gathered, totalFailure?, Nat.zero_add]
  generalize replies.filterMap Reply.message? = messages
  generalize replies.filterMap Reply.failure? = failures
  cases failures with
  | nil => simp
  | cons first failures =>
    cases messages with
    | nil =>
      by_cases hsent : sent ≤ failures.length + 1
      . simp [hsent]
      . simp [hsent]
    | cons message messages => simp

/--
The answer is the query with message type, flags and records of the faultless replies: each section
is that of the query and then, in the order of arrival, the first record of each further identity.
-/
theorem merge_ok_eq {query answer : Message} {replies : List Reply} {sent : Nat}
    (h : merge query replies sent = .ok answer) :
    let responses := faultless replies
    let answers := firsts query.answers (responses.flatMap (·.answers))
    let authorities := firsts query.authorities (responses.flatMap (·.authorities))
    let additionals := firsts query.additionals (responses.flatMap (·.additionals))
    answer =
      { query with
        isResponse := true
        authoritative := query.authoritative || responses.any (·.authoritative)
        authenticData := query.authenticData || responses.any (·.authenticData)
        answers := query.answers ++ answers
        authorities := query.authorities ++ authorities
        additionals := query.additionals ++ additionals
        code := if answers ++ authorities ++ additionals = [] then .nxDomain else query.code } := by
  rw [merge_eq] at h
  split at h
  . contradiction
  . injection h with h
    exact h.symm

def letterRecord (letter last : UInt8) (ttl : UInt32) : Record :=
  { name := ⟨[[letter]], true⟩, type := .a, ttl, data := .a ⟨10, 0, 0, last⟩ }

/--
Of two responders that answer alike the first one gives the record. What the query knows, what comes
with an error and what differs in the case of letters only is left out.
-/
theorem merge_ok_eq_racing :
    let known := letterRecord 0x68 1 10
    let query : Message := { id := 42, answers := [known] }
    let first : Message :=
      { isResponse := true, authoritative := true,
        answers := [letterRecord 0x48 1 120, letterRecord 0x68 2 120] }
    let refusal : Message := { first with code := 5, answers := [letterRecord 0x68 3 120] }
    let second : Message :=
      { isResponse := true, answers := [letterRecord 0x48 2 9, letterRecord 0x68 4 9],
        additionals := [letterRecord 0x68 2 9] }
    let replies := [.failure .timeout, .message first, .message refusal, .message second]
    ∃ answer, merge query replies 4 = .ok answer ∧ answer =
      { id := 42, isResponse := true, authoritative := true,
        answers := [known, letterRecord 0x68 2 120, letterRecord 0x68 4 9],
        additionals := [letterRecord 0x68 2 9] } := by
  intro known query first refusal second replies
  have h : merge query replies 4 = .ok _ := rfl
  refine ⟨_, h, ?_⟩
  rw [merge_ok_eq h]
  decide

/--
Names within the data of a mail exchange are in different cases of letters.
-/
example :
    let exchange := fun letter : UInt8 =>
      ({ letterRecord 0x68 1 9 with
          type := ⟨15⟩, data := .raw ⟨[([0, 10], ⟨[[letter]], true⟩)], []⟩ } : Record)
    let reply := fun letter : UInt8 =>
      Reply.message { isResponse := true, answers := [exchange letter] }
    (merge {} [reply 0x4D, reply 0x6D] 2).map (·.answers) = .ok [exchange 0x4D] := by
  decide

end Zeroconf.Inquiry
