import Zeroconf.Proofs.Link.Course

/-!
This module contains what the verdict on a call of a link says about what was sent, whatever else is
going on. A call that succeeds has handed its message to the socket, unless the link has stopped
sending; a call that fails leaves nobody waiting.
-/

namespace Zeroconf.Link

def Request.Encodes (request : Request) (bytes : List UInt8) : Prop :=
  ∃ message, request.message? = some message ∧ message.encode = .ok bytes

namespace Course

def handedBy (s : Course) (number : Nat) : List Handing := s.handed.filter (·.call = number)

def Waits (s : Course) (number : Nat) : Prop := ∃ entry ∈ s.waiting, entry.1 = number

/--
Whether something has happened that stops the sending: there was no way to the group, or somebody is
about to close or stop the link.
-/
def Disturbed (s : Course) : Prop :=
  (∃ handing ∈ s.handed, ∃ fault ∈ handing.fault, fault.isUnreachable = true) ∨
    ∃ request stage, ⟨request, stage⟩ ∈ s.calls ∧ request.message? = none ∧ stage ≠ .called

/--
Whether a call that was about to send these bytes sees that the link sends no more.
-/
def FindsSilence (s : Course) (number : Nat) (bytes : List UInt8) : Prop :=
  s.link.sending = false ∧ s.Disturbed ∧
    ∃ request, s.calls[number]? = some ⟨request, .waits bytes⟩ ∨
      s.calls[number]? = some ⟨request, .sends bytes⟩ ∧ s.socket = false

def Found (link : Link) (acts : List Act) (number : Nat) (bytes : List UInt8) : Prop :=
  Machine.Occurs acts (.step number) fun front =>
    (machine.follow (initial link) front).FindsSilence number bytes

end Course

/--
What holds of a call in each stage. `handed` is what it has handed over, `waits` says whether
somebody waits for it, `silent` whether the link has stopped sending, and `found` whether the call
has seen that.
-/
def Call.Sound (number : Nat) (handed : List Handing) (waits silent : Prop)
    (found : List UInt8 → Prop) : Call → Prop
  | ⟨_, .called⟩ => handed = [] ∧ ¬ waits
  | ⟨request, .marked⟩ | ⟨request, .stopped⟩ => request.message? = none ∧ handed = [] ∧ ¬ waits
  | ⟨request, .stops⟩ => request.message? = none ∧ (handed = [] ∧ ¬ waits) ∧ silent
  | ⟨request, .ready bytes⟩ => request.Encodes bytes ∧ handed = [] ∧ ¬ waits
  | ⟨request, .waits bytes⟩ | ⟨request, .sends bytes⟩ => request.Encodes bytes ∧ handed = []
  | ⟨request, .lost _⟩ => ∃ bytes fault, request.Encodes bytes ∧
      handed = [⟨number, bytes, some fault⟩] ∧ fault.isUnreachable = true
  | ⟨request, .leaves _⟩ =>
    (∃ bytes fault, request.Encodes bytes ∧ handed = [⟨number, bytes, some fault⟩]) ∧ silent
  | ⟨request, .refused _⟩ =>
    ∃ bytes fault, request.Encodes bytes ∧ handed = [⟨number, bytes, some fault⟩]
  | ⟨request, .ended (.ok ())⟩ => ∀ message, request.message? = some message →
      ∃ bytes, message.encode = .ok bytes ∧
        (handed = [⟨number, bytes, none⟩] ∨ handed = [] ∧ found bytes)
  | ⟨request, .ended (.error _)⟩ => ¬ waits ∧
      (handed = [] ∨
        ∃ bytes fault, request.Encodes bytes ∧ handed = [⟨number, bytes, some fault⟩])

theorem Call.Sound.mono {number : Nat} {handed : List Handing} {waits waits' silent silent' : Prop}
    {found found' : List UInt8 → Prop} {call : Call}
    (h : call.Sound number handed waits silent found) (hwaits : waits' → waits)
    (hsilent : silent → silent') (hfound : ∀ bytes, found bytes → found' bytes) :
    call.Sound number handed waits' silent' found' := by
  rcases call with ⟨request, stage⟩
  cases stage with
  | called => exact ⟨h.1, mt hwaits h.2⟩
  | marked => exact ⟨h.1, h.2.1, mt hwaits h.2.2⟩
  | stopped => exact ⟨h.1, h.2.1, mt hwaits h.2.2⟩
  | stops => exact ⟨h.1, ⟨h.2.1.1, mt hwaits h.2.1.2⟩, hsilent h.2.2⟩
  | ready bytes => exact ⟨h.1, h.2.1, mt hwaits h.2.2⟩
  | leaves error => exact ⟨h.1, hsilent h.2⟩
  | ended result =>
    cases result with
    | ok =>
      intro message hmessage
      rcases h message hmessage with ⟨bytes, hencode, hhanded⟩
      exact ⟨bytes, hencode, hhanded.imp_right fun hnone => ⟨hnone.1, hfound bytes hnone.2⟩⟩
    | error error => exact ⟨mt hwaits h.1, h.2⟩
  | _ => exact h

namespace Course

structure Valid (link : Link) (acts : List Act) (s : Course) : Prop where
  sound : ∀ (number : Nat) (call : Call), s.calls[number]? = some call →
    call.Sound number (s.handedBy number) (s.Waits number) (s.link.sending = false)
      (Found link acts number)
  handed : ∀ handing ∈ s.handed, handing.call < s.calls.length
  waiting : ∀ entry ∈ s.waiting, ∃ call, s.calls[entry.1]? = some call ∧
    call.request.sink? = some entry.2.listener
  pending : s.waiting.map (·.2) = s.link.inbox.pending
  socket : s.socket = false → s.link.sending = false
  disturbed : s.link.sending = false → s.Disturbed

variable {link : Link} {acts : List Act} {s later : Course} {number : Nat} {request : Request}
  {stage : Stage}

theorem valid_initial (hsending : link.sending = true) (hpending : link.inbox.pending = []) :
    Valid link [] (initial link) where
  sound := by simp [initial]
  handed := by simp [initial]
  waiting := by simp [initial]
  pending := hpending.symm
  socket := by simp [initial]
  disturbed := by simp [initial, hsending]

theorem Valid.goTo (h : Valid link acts s) (hcall : s.calls[number]? = some ⟨request, stage⟩)
    {next : Stage} (hcalls : later.calls = s.calls)
    (hothers : ∀ other, other ≠ number → later.handedBy other = s.handedBy other ∧
      (later.Waits other → s.Waits other))
    (hsilent : s.link.sending = false → later.link.sending = false)
    (hsound : (⟨request, next⟩ : Call).Sound number (later.handedBy number) (later.Waits number)
      (later.link.sending = false) (Found link (acts ++ [.step number]) number))
    (hhanded : ∀ handing ∈ later.handed, handing.call < s.calls.length)
    (hwaiting : ∀ entry ∈ later.waiting, ∃ call, s.calls[entry.1]? = some call ∧
      call.request.sink? = some entry.2.listener)
    (hpending : later.waiting.map (·.2) = later.link.inbox.pending)
    (hsocket : later.socket = false → later.link.sending = false)
    (hdisturbed : later.link.sending = false → (later.goTo number next).Disturbed) :
    Valid link (acts ++ [.step number]) (later.goTo number next) where
  sound other call hother := by
    by_cases hne : other = number
    . subst hne
      rw [getElem?_goTo_self (hcalls ▸ hcall)] at hother
      cases hother
      exact hsound
    . rw [getElem?_goTo_of_ne hne, hcalls] at hother
      have hsame := h.sound other call hother
      rw [← (hothers other hne).1] at hsame
      exact hsame.mono (hothers other hne).2 hsilent fun _ hfound => hfound.concat _
  handed handing hmem := by
    simpa [Course.goTo, hcalls] using hhanded handing hmem
  waiting entry hmem := by
    rcases hwaiting entry hmem with ⟨call, hother, hsink⟩
    rcases exists_getElem?_goTo (hcalls ▸ hother) number next with ⟨moved, hmoved, hrequest⟩
    exact ⟨moved, hmoved, hrequest ▸ hsink⟩
  pending := hpending
  socket := hsocket
  disturbed := hdisturbed

theorem Disturbed.goTo (h : s.Disturbed) (number : Nat) {next : Stage} (hnext : next ≠ .called) :
    (s.goTo number next).Disturbed := by
  rcases h with hhanded | ⟨request, stage, hmem, hmessage, hstage⟩
  . exact .inl hhanded
  . right
    rcases List.mem_iff_getElem?.mp hmem with ⟨other, hother⟩
    by_cases hne : other = number
    . subst hne
      exact ⟨request, next, List.mem_of_getElem? (getElem?_goTo_self hother next), hmessage, hnext⟩
    . refine ⟨request, stage, ?_, hmessage, hstage⟩
      exact List.mem_of_getElem? ((getElem?_goTo_of_ne hne s next).trans hother)

theorem disturbed_goTo (hcall : s.calls[number]? = some ⟨request, stage⟩)
    (hmessage : request.message? = none) {next : Stage} (hnext : next ≠ .called) :
    (s.goTo number next).Disturbed :=
  .inr ⟨request, next, List.mem_of_getElem? (getElem?_goTo_self hcall next), hmessage, hnext⟩

theorem Valid.goTo_same (h : Valid link acts s)
    (hcall : s.calls[number]? = some ⟨request, stage⟩) {next : Stage} (hnext : next ≠ .called)
    (hsound : (⟨request, next⟩ : Call).Sound number (s.handedBy number) (s.Waits number)
      (s.link.sending = false) (Found link (acts ++ [.step number]) number)) :
    Valid link (acts ++ [.step number]) (s.goTo number next) :=
  h.goTo hcall rfl (fun _ _ => ⟨rfl, id⟩) id hsound h.handed h.waiting h.pending h.socket
    fun hsilent => (h.disturbed hsilent).goTo number hnext

theorem Valid.silence (h : Valid link acts s) (hcall : s.calls[number]? = some ⟨request, stage⟩)
    {first later : Stage} (hlater : later ≠ .called)
    (hfirst : (⟨request, first⟩ : Call).Sound number (s.handedBy number) (s.Waits number) True
      (Found link (acts ++ [.step number]) number))
    (hsound : (⟨request, later⟩ : Call).Sound number (s.handedBy number) (s.Waits number)
      (s.link.sending = false) (Found link (acts ++ [.step number]) number))
    (hdisturbed : (s.goTo number first).Disturbed) :
    Valid link (acts ++ [.step number]) (s.silence number first later) := by
  unfold Course.silence
  split
  . refine h.goTo hcall rfl (fun _ _ => ⟨rfl, id⟩) (fun _ => rfl) ?_ h.handed h.waiting h.pending
      (fun _ => rfl) fun _ => hdisturbed
    exact hfirst.mono id (fun _ => rfl) fun _ => id
  . exact h.goTo_same hcall hlater hsound

theorem Valid.takeSocket (h : Valid link acts s)
    (hcall : s.calls[number]? = some ⟨request, stage⟩) (hsilent : s.link.sending = false)
    {next : Stage} (hnext : next ≠ .called)
    (hsound : (⟨request, next⟩ : Call).Sound number (s.handedBy number) (s.Waits number)
      (s.link.sending = false) (Found link (acts ++ [.step number]) number)) :
    Valid link (acts ++ [.step number]) (s.takeSocket.goTo number next) :=
  h.goTo hcall rfl (fun _ _ => ⟨rfl, id⟩) id hsound h.handed h.waiting h.pending
    (fun _ => hsilent) fun _ => (h.disturbed hsilent).goTo number hnext

theorem sound_ended_of_message? {handed : List Handing} {waits silent : Prop}
    {found : List UInt8 → Prop} (hmessage : request.message? = none) :
    (⟨request, .ended (.ok ())⟩ : Call).Sound number handed waits silent found := by
  intro message hsome
  rw [hmessage] at hsome
  contradiction

theorem Valid.begin (h : Valid link acts s) (hcall : s.calls[number]? = some ⟨request, .called⟩) :
    Valid link (acts ++ [.step number]) (s.begin number request) := by
  have hsound := h.sound number _ hcall
  cases hmessage : request.message? with
  | some message =>
    rw [begin_eq_prepare hmessage]
    unfold prepare
    split
    . next bytes hready =>
      have hencode := (ensureOpen_encode_eq_ok_iff.mp hready).2
      exact h.goTo_same hcall (by simp) ⟨⟨message, hmessage, hencode⟩, hsound⟩
    . exact h.goTo_same hcall (by simp) ⟨hsound.2, .inl hsound.1⟩
  | none =>
    cases request with
    | ask query sink => contradiction
    | announce message known => contradiction
    | close =>
      simp only [Course.begin]
      split
      . exact h.goTo_same hcall (by simp) (sound_ended_of_message? hmessage)
      . exact h.goTo hcall rfl (fun _ _ => ⟨rfl, id⟩) id ⟨hmessage, hsound⟩ h.handed h.waiting
          h.pending h.socket fun hsilent => (h.disturbed hsilent).goTo number (by simp)
    | halt =>
      exact h.silence hcall (by simp) ⟨hmessage, hsound, trivial⟩
        (sound_ended_of_message? hmessage) (disturbed_goTo hcall hmessage (by simp))

theorem Valid.join (h : Valid link acts s) {bytes : List UInt8}
    (hcall : s.calls[number]? = some ⟨request, .ready bytes⟩) :
    Valid link (acts ++ [.step number]) ((s.join number request).goTo number (.waits bytes)) := by
  have hsound := h.sound number _ hcall
  cases request with
  | ask query sink =>
    refine h.goTo hcall rfl ?_ id ⟨hsound.1, hsound.2.1⟩ h.handed ?_ ?_ h.socket
      fun hsilent => Disturbed.goTo (h.disturbed hsilent) number nofun
    . intro other hne
      refine ⟨rfl, ?_⟩
      rintro ⟨entry, hmem, rfl⟩
      rcases List.mem_append.mp hmem with hbefore | hnew
      . exact ⟨entry, hbefore, rfl⟩
      . rw [List.mem_singleton.mp hnew] at hne
        exact absurd rfl hne
    . intro entry hmem
      rcases List.mem_append.mp hmem with hbefore | hnew
      . exact h.waiting entry hbefore
      . rw [List.mem_singleton.mp hnew]
        exact ⟨_, hcall, rfl⟩
    . simp [Course.join, Request.join, Inbox.addPending, h.pending]
  | announce message known => exact h.goTo_same hcall nofun ⟨hsound.1, hsound.2.1⟩
  | close => exact h.goTo_same hcall nofun ⟨hsound.1, hsound.2.1⟩
  | halt => exact h.goTo_same hcall nofun ⟨hsound.1, hsound.2.1⟩

theorem Valid.not_waits (h : Valid link acts s) (hcall : s.calls[number]? = some ⟨request, stage⟩)
    (hsink : request.sink? = none) : ¬ s.Waits number := by
  rintro ⟨entry, hmem, rfl⟩
  rcases h.waiting entry hmem with ⟨call, hother, hsome⟩
  rw [hcall, Option.some.injEq] at hother
  subst hother
  rw [hsink] at hsome
  contradiction

theorem Valid.leave (h : Valid link acts s) {error : Error}
    (hcall : s.calls[number]? = some ⟨request, .refused error⟩) :
    Valid link (acts ++ [.step number])
      ((s.leave request).goTo number (.ended (.error error))) := by
  have hsound := h.sound number _ hcall
  cases request with
  | ask query sink =>
    have hsub : ∀ entry ∈ (s.leave (.ask query sink)).waiting, entry ∈ s.waiting :=
      fun _ hmem => List.mem_of_mem_filter hmem
    refine h.goTo hcall rfl ?_ id ⟨?_, .inr hsound⟩ h.handed ?_ ?_ h.socket
      fun hsilent => Disturbed.goTo (h.disturbed hsilent) number nofun
    . intro other hne
      exact ⟨rfl, fun ⟨entry, hmem, heq⟩ => ⟨entry, hsub entry hmem, heq⟩⟩
    . rintro ⟨entry, hmem, rfl⟩
      rcases h.waiting entry (hsub entry hmem) with ⟨call, hother, hsink⟩
      rw [hcall, Option.some.injEq] at hother
      subst hother
      have hne := (List.mem_filter.mp hmem).2
      simp only [Request.sink?, Option.some.injEq] at hsink
      simp [hsink] at hne
    . exact fun entry hmem => h.waiting entry (hsub entry hmem)
    . simp only [Course.leave, Request.leave, Inbox.removePending, ← h.pending, List.filter_map]
      rfl
  | announce message known =>
    exact h.goTo_same hcall nofun ⟨h.not_waits hcall rfl, .inr hsound⟩
  | close => exact h.goTo_same hcall nofun ⟨h.not_waits hcall rfl, .inr hsound⟩
  | halt => exact h.goTo_same hcall nofun ⟨h.not_waits hcall rfl, .inr hsound⟩

theorem handedBy_concat (s : Course) (handing : Handing) (other : Nat) :
    ({ s with handed := s.handed ++ [handing] } : Course).handedBy other
      =
    s.handedBy other ++ if handing.call = other then [handing] else [] := by
  by_cases hsame : handing.call = other <;> simp [handedBy, hsame]

theorem Valid.hand (h : Valid link acts s) {bytes : List UInt8}
    (hcall : s.calls[number]? = some ⟨request, .sends bytes⟩) :
    Valid link (acts ++ [.step number]) (s.hand number bytes) := by
  rcases h.sound number _ hcall with ⟨hencodes, hnone⟩
  have hnumber : number < s.calls.length := (List.getElem?_eq_some_iff.mp hcall).1
  -- Whatever comes of it, the socket was handed the datagram.
  have hgoTo : ∀ fault next, next ≠ Stage.called →
      (⟨request, next⟩ : Call).Sound number [⟨number, bytes, fault⟩] (s.Waits number)
        (s.link.sending = false) (Found link (acts ++ [.step number]) number) →
      Valid link (acts ++ [.step number])
        (({ s with handed := s.handed ++ [⟨number, bytes, fault⟩] } : Course).goTo number
          next) := by
    intro fault next hnext hsound
    refine h.goTo hcall rfl ?_ id ?_ ?_ h.waiting h.pending h.socket ?_
    . intro other hne
      refine ⟨?_, id⟩
      rw [handedBy_concat, if_neg hne.symm, List.append_nil]
    . rw [handedBy_concat, if_pos rfl, hnone]
      exact hsound
    . rw [List.forall_mem_append, List.forall_mem_singleton]
      exact ⟨h.handed, hnumber⟩
    . intro hsilent
      apply Disturbed.goTo _ number hnext
      exact (h.disturbed hsilent).imp_left fun ⟨handing, hmem, hlost⟩ =>
        ⟨handing, List.mem_append_left _ hmem, hlost⟩
  unfold Course.hand
  dsimp only
  split
  . next hfault =>
    rw [hfault]
    refine hgoTo none _ nofun ?_
    rcases hencodes with ⟨message, hmessage, hencode⟩
    intro other hother
    rw [hmessage, Option.some.injEq] at hother
    subst hother
    exact ⟨bytes, hencode, .inl rfl⟩
  . next fault hfault =>
    rw [hfault]
    split
    . next hlost => exact hgoTo (some fault) _ nofun ⟨bytes, fault, hencodes, rfl, hlost⟩
    . exact hgoTo (some fault) _ nofun ⟨bytes, fault, hencodes, rfl⟩

theorem found_concat (hs : machine.follow (initial link) acts = s) {bytes : List UInt8}
    (h : s.FindsSilence number bytes) : Found link (acts ++ [.step number]) number bytes := by
  subst hs
  exact ⟨acts, [], rfl, h⟩

theorem Valid.aside (h : Valid link acts s) (act : Act) {later : Course}
    (hcalls : later.calls = s.calls) (hhanded : later.handed = s.handed)
    (hsub : later.waiting ⊆ s.waiting)
    (hpending : later.waiting.map (·.2) = later.link.inbox.pending)
    (hsocket : later.socket = s.socket) (hsending : later.link.sending = s.link.sending) :
    Valid link (acts ++ [act]) later where
  sound number call hcall := by
    have hsame : later.handedBy number = s.handedBy number := by rw [handedBy, hhanded, handedBy]
    rw [hsame, hsending]
    exact (h.sound number call (hcalls ▸ hcall)).mono
      (fun ⟨entry, hmem, heq⟩ => ⟨entry, hsub hmem, heq⟩) id fun _ hfound => hfound.concat _
  handed handing hmem := by
    rw [hcalls]
    exact h.handed handing (hhanded ▸ hmem)
  waiting entry hmem := by
    rw [hcalls]
    exact h.waiting entry (hsub hmem)
  pending := hpending
  socket := by
    rw [hsocket, hsending]
    exact h.socket
  disturbed := by
    rw [hsending]
    unfold Disturbed
    rw [hhanded, hcalls]
    exact h.disturbed

theorem Valid.step (h : Valid link acts s) (hs : machine.follow (initial link) acts = s)
    (number : Nat) : Valid link (acts ++ [.step number]) (s.step number) := by
  unfold Course.step
  cases hcall : s.calls[number]? with
  | none => exact h.aside _ rfl rfl (List.Subset.refl _) h.pending rfl rfl
  | some call =>
    rcases call with ⟨request, stage⟩
    have hsound := h.sound number _ hcall
    -- A call that finds the link silent ends well, and remembers it.
    have hsilence : ∀ bytes, request.Encodes bytes → s.handedBy number = [] →
        s.FindsSilence number bytes →
        Valid link (acts ++ [.step number]) (s.goTo number (.ended (.ok ()))) := by
      rintro bytes ⟨message, hmessage, hencode⟩ hnone hfinds
      refine h.goTo_same hcall nofun ?_
      intro other hother
      rw [hmessage, Option.some.injEq] at hother
      subst hother
      exact ⟨bytes, hencode, .inr ⟨hnone, found_concat hs hfinds⟩⟩
    cases stage with
    | called => exact h.begin hcall
    | ready bytes => exact h.join hcall
    | waits bytes =>
      dsimp only
      split
      . exact h.goTo_same hcall nofun hsound
      . next hsending =>
        have hsilent : s.link.sending = false := by simpa using hsending
        exact hsilence bytes hsound.1 hsound.2
          ⟨hsilent, h.disturbed hsilent, request, .inl hcall⟩
    | sends bytes =>
      dsimp only
      split
      . exact h.hand hcall
      . next hsocket =>
        have hgone : s.socket = false := by simpa using hsocket
        have hsilent := h.socket hgone
        exact hsilence bytes hsound.1 hsound.2
          ⟨hsilent, h.disturbed hsilent, request, .inr ⟨hcall, hgone⟩⟩
    | lost error =>
      rcases hsound with ⟨bytes, fault, hencodes, hhanded, hlost⟩
      refine h.silence hcall nofun ⟨⟨bytes, fault, hencodes, hhanded⟩, trivial⟩
        ⟨bytes, fault, hencodes, hhanded⟩ (.inl ?_)
      have hmem : ⟨number, bytes, some fault⟩ ∈ s.handedBy number := by simp [hhanded]
      exact ⟨_, List.mem_of_mem_filter hmem, fault, rfl, hlost⟩
    | leaves error => exact h.takeSocket hcall hsound.2 nofun hsound.1
    | refused error => exact h.leave hcall
    | marked =>
      exact h.silence hcall nofun ⟨hsound.1, hsound.2, trivial⟩ hsound
        (disturbed_goTo hcall hsound.1 nofun)
    | stops =>
      dsimp only
      split
      . exact h.takeSocket hcall hsound.2.2 nofun ⟨hsound.1, hsound.2.1⟩
      . exact h.takeSocket hcall hsound.2.2 nofun (sound_ended_of_message? hsound.1)
    | stopped =>
      refine h.goTo hcall rfl (fun _ _ => ⟨rfl, ?_⟩) id (sound_ended_of_message? hsound.1) h.handed
        (by simp [clear]) rfl h.socket fun hsilent => (h.disturbed hsilent).goTo number nofun
      simp [clear, Waits]
    | ended result => exact h.aside _ rfl rfl (List.Subset.refl _) h.pending rfl rfl

theorem Valid.call (h : Valid link acts s) (request : Request) :
    Valid link (acts ++ [.call request]) { s with calls := s.calls ++ [⟨request, .called⟩] } where
  sound number call hcall := by
    rcases Nat.lt_trichotomy number s.calls.length with hlt | rfl | hgt
    . rw [List.getElem?_append_left hlt] at hcall
      exact (h.sound number call hcall).mono id id fun _ hfound => hfound.concat _
    . rw [List.getElem?_concat_length, Option.some.injEq] at hcall
      subst hcall
      refine ⟨List.filter_eq_nil_iff.mpr ?_, ?_⟩
      . intro handing hmem
        simpa using Nat.ne_of_lt (h.handed handing hmem)
      . rintro ⟨entry, hmem, heq⟩
        rcases h.waiting entry hmem with ⟨call, hcall, _⟩
        rw [heq, List.getElem?_eq_none (Nat.le_refl _)] at hcall
        contradiction
    . rw [List.getElem?_eq_none (by simpa using Nat.succ_le_of_lt hgt)] at hcall
      contradiction
  handed handing hmem := by
    rw [List.length_append]
    exact Nat.lt_succ_of_lt (h.handed handing hmem)
  waiting entry hmem := by
    rcases h.waiting entry hmem with ⟨call, hcall, hsink⟩
    exact ⟨call, getElem?_concat_of_eq_some hcall _, hsink⟩
  pending := h.pending
  socket := h.socket
  disturbed hsilent := (h.disturbed hsilent).imp_right
    fun ⟨request, stage, hmem, hrest⟩ => ⟨request, stage, List.mem_append_left _ hmem, hrest⟩

theorem Valid.next (h : Valid link acts s) (hs : machine.follow (initial link) acts = s)
    (act : Act) : Valid link (acts ++ [act]) (s.next act) := by
  cases act with
  | call request => exact h.call request
  | step number => exact h.step hs number
  | pass time => exact h.aside _ rfl rfl (List.Subset.refl _) h.pending rfl rfl
  | change host => exact h.aside _ rfl rfl (List.Subset.refl _) h.pending rfl rfl
  | setTimeout timeout => exact h.aside _ rfl rfl (List.Subset.refl _) h.pending rfl rfl
  | expire =>
    refine h.aside _ rfl rfl (fun _ hmem => List.mem_of_mem_filter hmem) ?_ rfl rfl
    simp only [Course.next, Inbox.expire, ← h.pending, List.filter_map]
    rfl

theorem valid_follow (hsending : link.sending = true) (hpending : link.inbox.pending = [])
    (acts : List Act) : Valid link acts (machine.follow (initial link) acts) := by
  apply Machine.run_induction (valid_initial hsending hpending)
  . intro acts act _ h _
    exact h.next rfl act
  . exact Machine.admits_of_forall (fun _ _ _ => trivial) _

theorem FindsSilence.step {bytes : List UInt8} (h : s.FindsSilence number bytes) :
    ∃ request, (s.step number).calls[number]? = some ⟨request, .ended (.ok ())⟩ := by
  rcases h with ⟨hsilent, _, request, hwaits | ⟨hsends, hsocket⟩⟩
  . refine ⟨request, ?_⟩
    simp [Course.step, hwaits, hsilent, goTo]
  . refine ⟨request, ?_⟩
    simp [Course.step, hsends, hsocket, goTo]

end Course

/--
Whatever happens at a link, a call that sends a message comes to an end. It succeeds if its message
was handed to the socket once and without a fault, or if it found that the link had stopped sending;
otherwise it fails, nothing of it was handed over without a fault, and nobody waits for it.
-/
theorem taken_iff_handed (link : Link) (hsending : link.sending = true)
    (hpending : link.inbox.pending = []) (acts : List Act) {number : Nat} {request : Request}
    {stage : Stage} {message : Message} (hmessage : request.message? = some message)
    (hcall : (machine.follow (.initial link) acts).calls[number]? = some ⟨request, stage⟩) :
    let s := machine.follow (.initial link) acts
    (∀ result, stage = .ended result →
      (result = .ok ()
        ↔
      ∃ bytes, message.encode = .ok bytes ∧
        (s.handedBy number = [⟨number, bytes, none⟩] ∨
          s.handedBy number = [] ∧ Course.Found link acts number bytes)) ∧
      (result.isOk = false →
        (∀ handing ∈ s.handedBy number, handing.fault ≠ none) ∧ ¬ s.Waits number)) ∧
    s.waiting.map (·.2) = s.link.inbox.pending ∧
    ∀ behind, 7 ≤ behind.countP (Act.steps number) →
      ∃ result, (machine.follow s behind).calls[number]? = some ⟨request, .ended result⟩ := by
  have hvalid := Course.valid_follow hsending hpending acts
  dsimp only
  refine ⟨?_, hvalid.pending, fun behind hcount =>
    Course.exists_ended hcall behind (Nat.le_trans stage.rest_le hcount)⟩
  rintro result rfl
  have hsound := hvalid.sound number _ hcall
  cases result with
  | ok => exact ⟨iff_of_true rfl (hsound message hmessage), nofun⟩
  | error error =>
    rcases hsound with ⟨hwaits, hhanded⟩
    refine ⟨iff_of_false nofun ?_, fun _ => ⟨?_, hwaits⟩⟩
    . rintro ⟨bytes, _, hsent | ⟨_, front, behind, rfl, hfinds⟩⟩
      . rcases hhanded with hnone | ⟨_, fault, _, hfault⟩
        . simp [hnone] at hsent
        . simp [hfault] at hsent
      . -- Then the call has ended well, and has not ended otherwise since.
        rcases hfinds.step with ⟨other, hended⟩
        have hlater := Course.getElem?_follow_of_ended hended behind
        rw [Machine.follow_append] at hcall
        have hsame := hlater.symm.trans hcall
        simp at hsame
    . intro handing hmem
      rcases hhanded with hnone | ⟨bytes, fault, _, hfault⟩
      . simp [hnone] at hmem
      . rw [hfault, List.mem_singleton] at hmem
        simp [hmem]

theorem taken_iff_handed_ask :
    let link : Link :=
      { interface := .v4 ⟨10, 0, 0, 2⟩, group := .v4 groupV4 5353, timeout := 6000, host := {} }
    let query := Message.query 7 ⟨[[0x68]], true⟩ .a
    let acts := .call (.ask query (.inquiry 0)) :: List.replicate 7 (.step 0)
    let s := machine.follow (.initial link) acts
    s.calls[0]? = some ⟨.ask query (.inquiry 0), .ended (.ok ())⟩ ∧
    ∃ bytes, query.encode = .ok bytes ∧
      (s.handedBy 0 = [⟨0, bytes, none⟩] ∨
        s.handedBy 0 = [] ∧ Course.Found link acts 0 bytes) := by
  intro link query acts s
  let bytes : List UInt8 := [0, 7, 1, 0, 0, 1, 0, 0, 0, 0, 0, 0, 1, 0x68, 0, 0, 1, 0, 1]
  have hencode : query.encode = .ok bytes := by decide +kernel
  have hready : link.ensureOpen *> encode query = .ok bytes :=
    ensureOpen_encode_eq_ok_iff.mpr ⟨rfl, hencode⟩
  have hverdict : (perform link 0 (.ask query (.inquiry 0))).1 = .ok () := by
    have hfault : link.host.transmit link.group bytes = none := rfl
    have hsending : link.sending = true := rfl
    simp [perform, ask, hready, transmit, hfault, hsending, Except.map]
  have halone := Course.follow_alone (.initial link) (fun _ => rfl) (.ask query (.inquiry 0))
  have hcall : s.calls[0]? = some ⟨.ask query (.inquiry 0), .ended (.ok ())⟩ := by
    have hcalls := halone.2.1
    rw [Course.initial, hverdict] at hcalls
    exact congrArg (·[0]?) hcalls
  exact ⟨hcall, ((taken_iff_handed link rfl rfl acts rfl hcall).1 _ rfl).1.mp rfl⟩

/--
A message from a host that has no way to the group is taken when the one before it was refused.
-/
theorem taken_not_sent :
    let host : Transport.Host := { send := fun _ _ => some .networkUnreachable }
    let link : Link :=
      { interface := .v4 ⟨10, 0, 0, 2⟩, group := .v4 groupV4 5353, timeout := 6000, host }
    let query := Message.query 7 ⟨[[0x68]], true⟩ .a
    let first : Request := .ask query (.inquiry 0)
    let second : Request := .ask query (.inquiry 1)
    let s := machine.follow (.initial link)
      (.call first :: List.replicate 7 (.step 0) ++ .call second :: List.replicate 7 (.step 1))
    s.calls[1]? = some ⟨second, .ended (.ok ())⟩ ∧
    (∀ handing ∈ s.handed, handing.call = 0 ∧ handing.fault ≠ none) ∧ s.Waits 1 := by
  intro host link query first second s
  let bytes : List UInt8 := [0, 7, 1, 0, 0, 1, 0, 0, 0, 0, 0, 0, 1, 0x68, 0, 0, 1, 0, 1]
  have hencode : query.encode = .ok bytes := by decide +kernel
  have hready : link.ensureOpen *> encode query = .ok bytes :=
    ensureOpen_encode_eq_ok_iff.mpr ⟨rfl, hencode⟩
  let refused : Course :=
    { link := { link with sending := false }
      socket := false
      calls := [⟨first, .ended (.error (.send link.group Transport.Fault.networkUnreachable.text))⟩]
      handed := [⟨0, bytes, some .networkUnreachable⟩] }
  have hrefused : machine.follow (.initial link) (.call first :: List.replicate 7 (.step 0))
      = refused := by
    refine (Course.follow_ready (.initial link) rfl hready).trans ?_
    have hsending : link.sending = true := rfl
    have hinbox : link.inbox = {} := rfl
    have hfault : link.host.transmit link.group bytes = some .networkUnreachable := rfl
    have hlost : Transport.Fault.networkUnreachable.isUnreachable = true := rfl
    simp [refused, Course.initial, List.replicate, Course.next, Course.step, Course.goTo,
      Course.join, Request.join, Course.hand, Course.silence, Course.takeSocket, Course.leave,
      Request.leave, Inbox.addPending, Inbox.removePending, first, hsending, hinbox, hfault, hlost]
  have hs : s = (List.replicate 6 (Act.step 1)).foldl Course.next
      { refused with calls := refused.calls ++ [⟨second, .ready bytes⟩] } := by
    refine (Machine.follow_append machine _ _ _).trans ?_
    rw [hrefused]
    exact Course.follow_ready refused rfl hready
  rw [hs]
  simp [refused, List.replicate, Course.next, Course.step, Course.goTo, Course.join, Request.join,
    Course.Waits, second, query]

end Zeroconf.Link
