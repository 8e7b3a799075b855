import Zeroconf.Proofs.Reception.Delivery

/-!
This module contains what becomes of those who wait at a link, and of its observers, when it is
asked, makes an announcement or receives a packet.
-/

namespace Zeroconf

def Message.withKnown (message : Message) (known : Bool) : Message :=
  if known then message else { message with answers := [] }

namespace Link

theorem ensureOpen_encode_eq_ok_iff {link : Link} {message : Message} {bytes : List UInt8} :
    link.ensureOpen *> encode message = .ok bytes
      ↔
    link.closed = false ∧ message.encode = .ok bytes := by
  unfold ensureOpen encode
  cases link.closed with
  | true =>
    apply iff_of_false
    . exact nofun
    . simp
  | false =>
    cases message.encode with
    | error fault =>
      apply iff_of_false
      . exact nofun
      . simp
    | ok sent =>
      rw [and_iff_right rfl]
      exact ⟨fun h => congrArg Except.ok (Except.ok.inj h),
        fun h => congrArg Except.ok (Except.ok.inj h)⟩

/--
Whether a link is as before, apart from those who wait and from whether it sends.
-/
structure Kept (link later : Link) : Prop where
  timeout : later.timeout = link.timeout
  closed : later.closed = link.closed
  observers : later.inbox.observers = link.inbox.observers

theorem Kept.refl (link : Link) : Kept link link := ⟨rfl, rfl, rfl⟩

theorem transmit_kept (link : Link) (bytes : List UInt8) :
    Kept link (link.transmit bytes).2.1 ∧ (link.transmit bytes).2.1.inbox = link.inbox := by
  unfold transmit
  split
  . exact ⟨Kept.refl link, rfl⟩
  . split
    . exact ⟨Kept.refl link, rfl⟩
    . dsimp only
      split
      . exact ⟨⟨rfl, rfl, rfl⟩, rfl⟩
      . exact ⟨Kept.refl link, rfl⟩

/--
What follows from asking a link: who asks waits from then on if the query was taken, and waits no
more if it was not.
-/
structure Asked (link asked : Link) (sink : Sink) (expires : Nat) (reaction : Reaction) :
    Prop where
  kept : Kept link asked
  reports : reaction.reports = []
  later : reaction.later = []
  taken : reaction.verdict.isOk = true →
    ∃ id, asked.inbox.pending = link.inbox.pending ++ [⟨id, sink, expires⟩]
  refused : reaction.verdict.isOk = false →
    asked.inbox.pending = link.inbox.pending ∨
      asked.inbox.pending = link.inbox.pending.filter (·.listener != sink)

theorem ask_asked (link : Link) (now : Nat) (query : Message) (sink : Sink) :
    Asked link (link.ask now query sink).1 sink (now + link.timeout)
      (link.ask now query sink).2 := by
  unfold ask
  split
  . next error _ =>
    exact {
      kept := Kept.refl link
      reports := rfl
      later := rfl
      taken := by simp [Except.isOk, Except.toBool]
      refused := fun _ => .inl rfl }
  . next bytes _ =>
    dsimp only
    let waiting : Link :=
      { link with inbox := link.inbox.addPending query.id sink now link.timeout }
    have hkept := waiting.transmit_kept bytes
    split
    . next sent samples htransmit =>
      rw [htransmit] at hkept
      exact {
        kept := ⟨hkept.1.timeout, hkept.1.closed, hkept.1.observers⟩
        reports := rfl
        later := rfl
        taken := fun _ => ⟨query.id, congrArg Inbox.pending hkept.2⟩
        refused := by simp [Except.isOk, Except.toBool] }
    . next error unsent samples htransmit =>
      rw [htransmit] at hkept
      have hinbox : unsent.inbox = waiting.inbox := hkept.2
      -- The new entry goes with all others of the same sink.
      have hremoved : (unsent.inbox.removePending sink).pending
          = link.inbox.pending.filter (·.listener != sink) := by
        simp [hinbox, waiting, Inbox.removePending, Inbox.addPending]
      exact {
        kept := ⟨hkept.1.timeout, hkept.1.closed, hkept.1.observers⟩
        reports := rfl
        later := rfl
        taken := by simp [Except.isOk, Except.toBool]
        refused := fun _ => .inr hremoved }

theorem announce_kept (link : Link) (message : Message) (known : Bool) :
    Kept link (link.announce message known).1 ∧
      (link.announce message known).1.inbox = link.inbox := by
  unfold announce
  dsimp only
  split
  . exact ⟨Kept.refl link, rfl⟩
  . next bytes _ => exact transmit_kept link bytes

theorem receive_eq (link : Link) (payload : List UInt8) (reception : Reception) :
    (link.receive payload reception).2
      =
    ({ link with inbox := (link.inbox.deliver payload reception).2.1 },
      (link.inbox.deliver payload reception).2.2) := by
  rfl

theorem receive_kept {link : Link} (hobservers : link.inbox.observers.members = [.observers])
    (payload : List UInt8) (reception : Reception) :
    Kept link (link.receive payload reception).2.1 ∧
    (link.receive payload reception).2.1.inbox.pending ⊆ link.inbox.pending ∧
    Reception.Alike reception (link.receive payload reception).2.2 := by
  rcases Inbox.deliver_alike hobservers payload reception with ⟨hkept, hpending, halike⟩
  exact ⟨⟨rfl, rfl, hkept⟩, hpending, halike⟩

end Link

end Zeroconf
