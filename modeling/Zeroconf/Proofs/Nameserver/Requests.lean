import Mathlib.Data.List.Perm.Basic
import Zeroconf.Proofs.Nameserver.Exchange
import Zeroconf.Proofs.Machine

/-!
This module contains requests that wait for workers: calls that ask a nameserver, a pool that takes
or refuses what they leave to it, and workers that carry out what was taken and report it to the
listeners, all in steps between which the others go on. Only what was taken is carried out, and a
listener hears once of everything that is.
-/

namespace Zeroconf.Nameserver

open Transport

structure Call (α : Type) where
  request : Request α
  /-- What the caller is told, as soon as this is settled. -/
  verdict : Option (Except Error UInt16) := none

inductive Phase where
  | begun
  /-- The nameserver was open when the worker looked. -/
  | opened
  /-- The worker has found out all that it needs to know about the nameserver. -/
  | equipped (seen : Nameserver)
  | ended

namespace Phase

def isEnded : Phase → Bool
  | .ended => true
  | _ => false

def left : Phase → Nat
  | .begun => 3
  | .opened => 2
  | .equipped _ => 1
  | .ended => 0

end Phase

/--
A task of the pool that was started: a request, with the number of the call from which it comes.
-/
structure Errand (α : Type) where
  call : Nat
  request : Request α
  phase : Phase := .begun

structure Callback (α : Type) where
  /-- The number of the call on whose behalf it happens. -/
  call : Nat
  listener : α
  report : Report

/--
A nameserver with all calls that ask it, all tasks that were started and all that was reported.
-/
structure Bureau (α : Type) where
  nameserver : Nameserver
  calls : List (Call α) := []
  errands : List (Errand α) := []
  callbacks : List (Callback α) := []

namespace Bureau

inductive Act (α : Type) where
  /-- A new call looks whether the nameserver is open. -/
  | call (request : Request α)
  /-- The pool takes or refuses what a call leaves to it, for whatever reason it has. -/
  | submit (call : Nat) (verdict : Except Error Unit)
  /-- A worker begins with what was taken. -/
  | start (call : Nat)
  /-- A worker looks whether the nameserver is open. -/
  | look (place : Nat)
  /-- A worker finds out how long it has to wait. -/
  | equip (place : Nat)
  /-- A worker has asked the nameserver on this host, and tells the listener what has come of it. -/
  | report (place : Nat) (host : Host)
  | setTimeout (timeout : Nat)
  | close

variable {α : Type}

def Enabled (bureau : Bureau α) : Act α → Prop
  | .call _ => True
  | .submit call _ => ∃ request, bureau.calls[call]? = some ⟨request, none⟩
  | .start call => ∃ request id, bureau.calls[call]? = some ⟨request, some (.ok id)⟩
  | .look place => ∃ call request, bureau.errands[place]? = some ⟨call, request, .begun⟩
  | .equip place => ∃ call request, bureau.errands[place]? = some ⟨call, request, .opened⟩
  | .report place _ =>
    ∃ call request seen, bureau.errands[place]? = some ⟨call, request, .equipped seen⟩
  | .setTimeout _ => True
  | .close => True

def answerAtOnce? (nameserver : Nameserver) : Option (Except Error UInt16) :=
  if nameserver.closed then some (.error (.closed "unicast resolver")) else none

def looked (nameserver : Nameserver) : Phase :=
  if nameserver.closed then .equipped nameserver else .opened

def advance (bureau : Bureau α) (place : Nat) (errand : Errand α) (phase : Phase) : Bureau α :=
  { bureau with errands := bureau.errands.set place { errand with phase } }

def next (bureau : Bureau α) : Act α → Bureau α
  | .call request =>
    { bureau with calls := bureau.calls ++ [⟨request, answerAtOnce? bureau.nameserver⟩] }
  | .submit call verdict =>
    match bureau.calls[call]? with
    | some { request, .. } =>
      let verdict := some (verdict.map fun _ => request.query.id)
      { bureau with calls := bureau.calls.set call { request, verdict } }
    | none => bureau
  | .start call =>
    match bureau.calls[call]? with
    | some { request, .. } => { bureau with errands := bureau.errands ++ [{ call, request }] }
    | none => bureau
  | .look place =>
    match bureau.errands[place]? with
    | some errand => bureau.advance place errand (looked bureau.nameserver)
    | none => bureau
  | .equip place =>
    match bureau.errands[place]? with
    | some errand =>
      bureau.advance place errand (.equipped { bureau.nameserver with closed := false })
    | none => bureau
  | .report place host =>
    match bureau.errands[place]? with
    | some { call, request, phase := .equipped seen } =>
      let report := ((seen.withHost host).carryOut request).1
      let bureau := bureau.advance place { call, request } .ended
      { bureau with
        callbacks := bureau.callbacks ++ [{ call, listener := request.listener, report }] }
    | _ => bureau
  | .setTimeout timeout => { bureau with nameserver := Peer.setTimeout bureau.nameserver timeout }
  | .close => { bureau with nameserver := Peer.close bureau.nameserver }

def machine (α : Type) : Machine (Bureau α) (Act α) := ⟨Enabled, next⟩

def after (nameserver : Nameserver) (acts : List (Act α)) : Bureau α :=
  (machine α).follow { nameserver } acts

def errandsOf (bureau : Bureau α) (number : Nat) : List (Errand α) :=
  bureau.errands.filter (·.call == number)

def callbacksOf (bureau : Bureau α) (number : Nat) : List (Callback α) :=
  bureau.callbacks.filter (·.call == number)

section Next

variable {bureau : Bureau α} {request : Request α} {call place : Nat}

theorem next_submit {before : Option (Except Error UInt16)}
    (h : bureau.calls[call]? = some ⟨request, before⟩) (verdict : Except Error Unit) :
    bureau.next (.submit call verdict)
      =
    { bureau with
      calls := bureau.calls.set call ⟨request, some (verdict.map fun _ => request.query.id)⟩ } := by
  simp only [next, h]

theorem next_start {verdict : Option (Except Error UInt16)}
    (h : bureau.calls[call]? = some ⟨request, verdict⟩) :
    bureau.next (.start call)
      =
    { bureau with errands := bureau.errands ++ [{ call, request }] } := by
  simp only [next, h]

theorem next_look {errand : Errand α} (h : bureau.errands[place]? = some errand) :
    bureau.next (.look place) = bureau.advance place errand (looked bureau.nameserver) := by
  simp only [next, h]

theorem next_equip {errand : Errand α} (h : bureau.errands[place]? = some errand) :
    bureau.next (.equip place)
      =
    bureau.advance place errand (.equipped { bureau.nameserver with closed := false }) := by
  simp only [next, h]

theorem next_report {seen : Nameserver}
    (h : bureau.errands[place]? = some ⟨call, request, .equipped seen⟩) (host : Host) :
    bureau.next (.report place host)
      =
    { bureau.advance place ⟨call, request, .equipped seen⟩ .ended with
      callbacks := bureau.callbacks ++
        [⟨call, request.listener, ((seen.withHost host).carryOut request).1⟩] } := by
  simp only [next, h]
  rfl

end Next

section Errands

variable {bureau : Bureau α} {place : Nat} {errand : Errand α}

theorem exists_perm_of_set (h : bureau.errands[place]? = some errand) :
    ∃ others, bureau.errands.Perm (errand :: others) ∧
      ∀ new, (bureau.errands.set place new).Perm (new :: others) := by
  rcases List.getElem?_eq_some_iff.mp h with ⟨hplace, rfl⟩
  refine ⟨bureau.errands.eraseIdx place, ?_, ?_⟩
  . exact (List.getElem_cons_eraseIdx_perm hplace).symm
  . exact List.set_perm_cons_eraseIdx hplace

end Errands

def Took (bureau : Bureau α) (number : Nat) (request : Request α) : Prop :=
  bureau.calls[number]? = some ⟨request, some (.ok request.query.id)⟩

/--
Whether everything that has been done for a nameserver at this address is in order: only what was
taken is carried out, and each listener has heard as often as its request was.
-/
structure Orderly (server : SocketAddress) (bureau : Bureau α) : Prop where
  address : bureau.nameserver.address = server
  verdict : ∀ request id, ⟨request, some (.ok id)⟩ ∈ bureau.calls → id = request.query.id
  errand : ∀ errand ∈ bureau.errands, bureau.Took errand.call errand.request ∧
    ∀ seen, errand.phase = .equipped seen → seen.address = server
  callback : ∀ callback ∈ bureau.callbacks, ∃ request, bureau.Took callback.call request ∧
    callback.listener = request.listener ∧
    ∃ seen : Nameserver, seen.address = server ∧ callback.report = (seen.carryOut request).1
  count : ∀ number, bureau.callbacks.countP (·.call == number)
    = bureau.errands.countP fun errand => errand.call == number && errand.phase.isEnded

variable {server : SocketAddress} {bureau : Bureau α} {number : Nat} {request : Request α}

theorem took_next (h : bureau.Took number request) {act : Act α} (henabled : bureau.Enabled act) :
    (bureau.next act).Took number request := by
  unfold Took at *
  cases act with
  | call other =>
    simp only [next]
    rw [List.getElem?_append_left (List.getElem?_eq_some_iff.mp h).1, h]
  | submit call verdict =>
    rcases henabled with ⟨other, hcall⟩
    have hne : call ≠ number := by
      rintro rfl
      simp [hcall] at h
    rw [next_submit hcall, List.getElem?_set_ne hne, h]
  | start call =>
    rcases henabled with ⟨other, id, hcall⟩
    rw [next_start hcall]
    exact h
  | look place =>
    rcases henabled with ⟨call, other, herrand⟩
    rw [next_look herrand]
    exact h
  | equip place =>
    rcases henabled with ⟨call, other, herrand⟩
    rw [next_equip herrand]
    exact h
  | report place host =>
    rcases henabled with ⟨call, other, seen, herrand⟩
    rw [next_report herrand]
    exact h
  | setTimeout timeout => exact h
  | close => exact h

theorem orderly_initial (nameserver : Nameserver) :
    ({ nameserver } : Bureau α).Orderly nameserver.address where
  address := rfl
  verdict := by simp
  errand := by simp
  callback := by simp
  count := by simp

namespace Orderly

theorem took (h : bureau.Orderly server) {id : UInt16}
    (hcall : bureau.calls[number]? = some ⟨request, some (.ok id)⟩) :
    id = request.query.id ∧ bureau.Took number request := by
  have hid := h.verdict request id (List.mem_of_getElem? hcall)
  subst hid
  exact ⟨rfl, hcall⟩

theorem of_errands_eq (h : bureau.Orderly server) {later : Bureau α}
    (hserver : later.nameserver.address = server)
    (hverdict : ∀ request id, ⟨request, some (.ok id)⟩ ∈ later.calls → id = request.query.id)
    (htook : ∀ {number request}, bureau.Took number request → later.Took number request)
    (herrands : later.errands = bureau.errands) (hcallbacks : later.callbacks = bureau.callbacks) :
    later.Orderly server where
  address := hserver
  verdict := hverdict
  errand errand hmem := by
    rw [herrands] at hmem
    exact ⟨htook (h.errand errand hmem).1, (h.errand errand hmem).2⟩
  callback callback hmem := by
    rw [hcallbacks] at hmem
    rcases h.callback callback hmem with ⟨request, hrequest, hreport⟩
    exact ⟨request, htook hrequest, hreport⟩
  count := by
    rw [herrands, hcallbacks]
    exact h.count

theorem call (h : bureau.Orderly server) (request : Request α) :
    (bureau.next (.call request)).Orderly server := by
  refine h.of_errands_eq h.address ?_ (took_next · trivial) rfl rfl
  intro other id hmem
  rcases List.mem_append.mp hmem with hmem | hmem
  . exact h.verdict other id hmem
  . simp only [List.mem_singleton, Call.mk.injEq, answerAtOnce?] at hmem
    split at hmem <;> simp at hmem

theorem submit (h : bureau.Orderly server) {call : Nat} {verdict : Except Error Unit}
    (henabled : bureau.Enabled (.submit call verdict)) :
    (bureau.next (.submit call verdict)).Orderly server := by
  have htook := fun {number : Nat} {request : Request α} (h : bureau.Took number request) =>
    took_next h henabled
  rcases henabled with ⟨request, hcall⟩
  rw [next_submit hcall] at *
  refine h.of_errands_eq h.address ?_ htook rfl rfl
  intro other id hmem
  rcases List.mem_or_eq_of_mem_set hmem with hmem | heq
  . exact h.verdict other id hmem
  . simp only [Call.mk.injEq, Option.some.injEq] at heq
    rcases heq with ⟨rfl, heq⟩
    cases verdict with
    | error error => simp [Except.map] at heq
    | ok => simpa [Except.map] using heq

theorem start (h : bureau.Orderly server) {call : Nat} (henabled : bureau.Enabled (.start call)) :
    (bureau.next (.start call)).Orderly server := by
  rcases henabled with ⟨request, id, hcall⟩
  rw [next_start hcall]
  refine ⟨h.address, h.verdict, ?_, h.callback, ?_⟩
  . intro errand hmem
    rcases List.mem_append.mp hmem with hmem | hmem
    . exact h.errand errand hmem
    . rw [List.mem_singleton.mp hmem]
      exact ⟨(h.took hcall).2, by simp⟩
  . intro number
    simp [h.count number, Phase.isEnded]

theorem advance (h : bureau.Orderly server) {place : Nat} {errand : Errand α}
    (herrand : bureau.errands[place]? = some errand) {phase : Phase}
    (hseen : ∀ seen, phase = .equipped seen → seen.address = server)
    (hbefore : errand.phase.isEnded = false) (hphase : phase.isEnded = false) :
    (bureau.advance place errand phase).Orderly server where
  address := h.address
  verdict := h.verdict
  errand other hmem := by
    rcases List.mem_or_eq_of_mem_set hmem with hmem | rfl
    . exact h.errand other hmem
    . exact ⟨(h.errand errand (List.mem_of_getElem? herrand)).1, hseen⟩
  callback := h.callback
  count number := by
    rcases exists_perm_of_set herrand with ⟨others, hperm, hset⟩
    have hcount := h.count number
    rw [hperm.countP_eq] at hcount
    simp only [Bureau.advance]
    rw [hcount, (hset _).countP_eq]
    simp [hbefore, hphase]

theorem report (h : bureau.Orderly server) {place : Nat} {host : Host}
    (henabled : bureau.Enabled (.report place host)) :
    (bureau.next (.report place host)).Orderly server := by
  rcases henabled with ⟨call, request, seen, herrand⟩
  rcases h.errand _ (List.mem_of_getElem? herrand) with ⟨htook, hseen⟩
  rw [next_report herrand]
  refine ⟨h.address, h.verdict, ?_, ?_, ?_⟩
  . intro other hmem
    rcases List.mem_or_eq_of_mem_set hmem with hmem | rfl
    . exact h.errand other hmem
    . exact ⟨htook, by simp⟩
  . intro callback hmem
    rcases List.mem_append.mp hmem with hmem | hmem
    . exact h.callback callback hmem
    . rw [List.mem_singleton.mp hmem]
      exact ⟨request, htook, rfl, seen.withHost host, hseen seen rfl, rfl⟩
  . intro number
    rcases exists_perm_of_set herrand with ⟨others, hperm, hset⟩
    have hcount := h.count number
    rw [hperm.countP_eq] at hcount
    simp only [Bureau.advance]
    rw [List.countP_append, hcount, (hset _).countP_eq]
    simp [List.countP_cons, Phase.isEnded]

theorem next (h : bureau.Orderly server) {act : Act α} (henabled : bureau.Enabled act) :
    (bureau.next act).Orderly server := by
  cases act with
  | call request => exact h.call request
  | submit call verdict => exact h.submit henabled
  | start call => exact h.start henabled
  | look place =>
    rcases henabled with ⟨call, request, herrand⟩
    rw [next_look herrand]
    refine h.advance herrand ?_ rfl ?_
    . intro seen hseen
      unfold looked at hseen
      split at hseen
      . cases hseen
        exact h.address
      . contradiction
    . unfold looked
      split <;> rfl
  | equip place =>
    rcases henabled with ⟨call, request, herrand⟩
    rw [next_equip herrand]
    refine h.advance herrand ?_ rfl rfl
    rintro seen ⟨⟩
    exact h.address
  | report place host => exact h.report henabled
  | setTimeout timeout => exact h.of_errands_eq h.address h.verdict id rfl rfl
  | close => exact h.of_errands_eq h.address h.verdict id rfl rfl

end Orderly

theorem orderly_after (nameserver : Nameserver) {acts : List (Act α)}
    (hadmits : (machine α).Admits { nameserver } acts) :
    (after nameserver acts).Orderly nameserver.address :=
  Machine.keeps (fun _ _ h henabled => h.next henabled) (orderly_initial nameserver) hadmits

end Bureau

end Zeroconf.Nameserver
