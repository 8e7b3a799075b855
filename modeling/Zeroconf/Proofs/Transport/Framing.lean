import Zeroconf.Nameserver.Exchange
import Zeroconf.Proofs.Transport.Frame

/-!
This module contains the proof that nothing is lost or made up when messages travel over a stream in
frames. Frames are taken out of a buffer by moving an offset, which never leaves it; what arrives in
pieces gives the same messages as the whole; and a query is written so that it is read back.
-/

namespace Zeroconf.Transport.Frame

/--
The bytes from one place of a buffer up to another, if both lie within it.
-/
def slice? (buffer : List UInt8) (first last : Nat) : Option (List UInt8) :=
  if first ≤ last ∧ last ≤ buffer.length then some ((buffer.take last).drop first) else none

/--
The contents of the complete frames from `offset` on, and the place where they end. The result is
`none` if anything is looked for outside the buffer.
-/
def scan (buffer : List UInt8) (offset : Nat) : Option (List (List UInt8) × Nat) :=
  if buffer.length < offset then
    none
  else if 2 ≤ buffer.length - offset then
    match buffer[offset]?, buffer[offset + 1]? with
    | some high, some low =>
      let first := offset + 2
      let last := first + length high low
      if buffer.length - offset - 2 < length high low then
        some ([], offset)
      else
        match slice? buffer first last with
        | none => none
        | some payload => (scan buffer last).map fun (frames, stop) => (payload :: frames, stop)
    | _, _ => none
  else
    some ([], offset)
  termination_by buffer.length - offset

theorem drain_of_le {high low : UInt8} {rest : List UInt8} (h : length high low ≤ rest.length) :
    drain (high :: low :: rest)
      =
    (rest.take (length high low) :: (drain (rest.drop (length high low))).1,
      (drain (rest.drop (length high low))).2) := by
  have htake : (rest.take (length high low)).length = length high low := List.length_take_of_le h
  rw [drain]
  dsimp only
  rw [if_pos htake]

theorem drain_of_lt {high low : UInt8} {rest : List UInt8} (h : rest.length < length high low) :
    drain (high :: low :: rest) = ([], high :: low :: rest) := by
  have htake : (rest.take (length high low)).length ≠ length high low := by
    rw [List.length_take]
    omega
  rw [drain]
  dsimp only
  rw [if_neg htake]

theorem drain_of_length_lt {bytes : List UInt8} (h : bytes.length < 2) :
    drain bytes = ([], bytes) := by
  match bytes with
  | [] => simp [drain]
  | [b] => simp [drain]
  | _ :: _ :: rest =>
    rw [List.length_cons, List.length_cons] at h
    omega

/--
The offset never leaves the buffer, and what lies behind it in the end is left.
-/
theorem scan_eq {buffer : List UInt8} {offset : Nat} (h : offset ≤ buffer.length) :
    ∃ stop, scan buffer offset = some ((drain (buffer.drop offset)).1, stop) ∧
      stop ≤ buffer.length ∧ buffer.drop stop = (drain (buffer.drop offset)).2 := by
  unfold scan
  rw [if_neg (by omega)]
  split
  . next htwo =>
    have hhigh : offset < buffer.length := by omega
    have hlow : offset + 1 < buffer.length := by omega
    have hdrop : buffer.drop offset
        = buffer[offset] :: buffer[offset + 1] :: buffer.drop (offset + 2) := by
      rw [List.drop_eq_getElem_cons hhigh, List.drop_eq_getElem_cons hlow]
    rw [List.getElem?_eq_getElem hhigh, List.getElem?_eq_getElem hlow, hdrop]
    dsimp only
    generalize hcount : length buffer[offset] buffer[offset + 1] = count
    have hrest : (buffer.drop (offset + 2)).length = buffer.length - offset - 2 := by
      rw [List.length_drop]
      omega
    split
    . next hlt =>
      rw [drain_of_lt (by rw [hcount, hrest]; exact hlt), ← hdrop]
      exact ⟨offset, rfl, h, rfl⟩
    . next hle =>
      have hslice : slice? buffer (offset + 2) (offset + 2 + count)
          = some ((buffer.drop (offset + 2)).take count) := by
        unfold slice?
        rw [if_pos (by omega), List.drop_take, Nat.add_sub_cancel_left]
      have hnext : offset + 2 + count ≤ buffer.length := by omega
      rcases scan_eq hnext with ⟨stop, hscan, hstop, hleft⟩
      refine ⟨stop, ?_, hstop, ?_⟩
      . rw [hslice, hscan, drain_of_le (by rw [hcount, hrest]; omega), hcount, List.drop_drop]
        rfl
      . rw [hleft, drain_of_le (by rw [hcount, hrest]; omega), hcount, List.drop_drop]
  . next hshort =>
    rw [drain_of_length_lt (by rw [List.length_drop]; omega)]
    exact ⟨offset, rfl, h, rfl⟩
termination_by buffer.length - offset

/--
What whoever reads a stream takes out of it while it arrives in chunks, and what is left in his
buffer, which held these bytes at first.
-/
def feed (buffer : List UInt8) : List (List UInt8) → List (List UInt8) × List UInt8
  | [] => ([], buffer)
  | chunk :: chunks =>
    let (frames, left) := drain (buffer ++ chunk)
    let (others, rest) := feed left chunks
    (frames ++ others, rest)

theorem feed_append_drain (bytes : List UInt8) (chunks : List (List UInt8)) :
    ((drain bytes).1 ++ (feed (drain bytes).2 chunks).1, (feed (drain bytes).2 chunks).2)
      =
    drain (bytes ++ chunks.flatten) := by
  induction chunks generalizing bytes with
  | nil => simp [feed]
  | cons chunk chunks ih =>
    have hfirst := drain_append_bytes bytes chunk
    have hothers := ih (bytes ++ chunk)
    rw [List.flatten_cons, ← List.append_assoc, ← hothers, hfirst]
    simp [feed]

theorem feed_nil_eq_drain (chunks : List (List UInt8)) : feed [] chunks = drain chunks.flatten := by
  have hempty : drain [] = ([], []) := drain_of_length_lt (by simp)
  have hall := feed_append_drain [] chunks
  rw [hempty] at hall
  simpa using hall

theorem exists_mapM_encode_eq {payloads : List (List UInt8)}
    (h : ∀ payload ∈ payloads, payload.length ≤ maxLength) :
    ∃ frames, payloads.mapM encode? = some frames := by
  induction payloads with
  | nil => exact ⟨[], rfl⟩
  | cons payload payloads ih =>
    rw [List.forall_mem_cons] at h
    rcases exists_encode_eq h.1 with ⟨frame, hframe⟩
    rcases ih h.2 with ⟨frames, hframes⟩
    exact ⟨frame :: frames, by simp [hframe, hframes]⟩

theorem splits_iff_mapM {bytes rest : List UInt8} {payloads : List (List UInt8)} :
    Splits bytes payloads rest
      ↔
    (∃ frames, payloads.mapM encode? = some frames ∧ frames.flatten ++ rest = bytes) ∧
      ∀ payload frame, encode? payload = some frame → ¬ frame <+: rest := by
  constructor
  . intro h
    induction h with
    | rest h => exact ⟨⟨[], rfl, rfl⟩, h⟩
    | @frame payload frame _ _ _ hencode _ ih =>
      rcases ih with ⟨⟨frames, hframes, rfl⟩, hrest⟩
      exact ⟨⟨frame :: frames, by simp [hencode, hframes], by simp⟩, hrest⟩
  . rintro ⟨⟨frames, hframes, rfl⟩, hrest⟩
    induction payloads generalizing frames with
    | nil =>
      cases hframes
      exact .rest hrest
    | cons payload payloads ih =>
      simp only [List.mapM_cons, Option.bind_eq_bind, Option.bind_eq_some_iff, Option.pure_def,
        Option.some.injEq] at hframes
      rcases hframes with ⟨frame, hframe, others, hothers, rfl⟩
      rw [List.flatten_cons, List.append_assoc]
      exact .frame hframe (ih others hothers)

theorem not_prefix_of_prefix {payload frame rest : List UInt8} (h : encode? payload = some frame)
    (hrest : rest <+: frame) (hne : rest ≠ frame) :
    ∀ other inner, encode? other = some inner → ¬ inner <+: rest := by
  intro other inner hinner hprefix
  rcases hprefix.trans hrest with ⟨more, rfl⟩
  -- Both frames stand at the same place, so that they hold the same message.
  have hframe := drain_append h []
  rw [List.append_nil, drain_append hinner, Prod.mk.injEq, List.cons.injEq] at hframe
  rw [hframe.1.1, h, Option.some.injEq] at hinner
  rw [← hinner] at hprefix
  exact hne (hrest.eq_of_length_le hprefix.length_le)

/--
The loop that takes frames out of a buffer never leaves it, and the messages in their frames with
what is left behind them are the buffer again, whatever was in it. What is left holds no frame. So
all messages in a row are found, and what comes behind them is left until its frame is complete,
into whatever chunks the stream is cut. A query is asked over a stream in a frame in which it is
found alone; one that is too long for that fails, whatever would come of writing anything.
-/
theorem framing_lossless :
    (∀ buffer, ∃ stop, scan buffer 0 = some ((drain buffer).1, stop) ∧
      stop ≤ buffer.length ∧ buffer.drop stop = (drain buffer).2) ∧
    (∀ buffer, (∃ frames, (drain buffer).1.mapM encode? = some frames ∧
        frames.flatten ++ (drain buffer).2 = buffer) ∧
      ∀ payload frame, encode? payload = some frame → ¬ frame <+: (drain buffer).2) ∧
    (∀ payloads further frame rest, (∀ payload ∈ payloads, payload.length ≤ maxLength) →
      encode? further = some frame → rest <+: frame → rest ≠ frame →
      ∃ frames, payloads.mapM encode? = some frames ∧
        drain (frames.flatten ++ rest) = (payloads, rest)) ∧
    (∀ chunks, feed [] chunks = drain chunks.flatten) ∧
    ∀ server query conversation,
      (query.length ≤ maxLength → ∃ frame, drain frame = ([query], []) ∧
        Nameserver.askByStream server query conversation
          = Nameserver.conclude server (conversation frame)) ∧
      (maxLength < query.length →
        Nameserver.askByStream server query conversation
          = (.error (.config s!"query of {query.length} bytes exceeds tcp framing"), [])) := by
  refine ⟨?_, ?_, ?_, feed_nil_eq_drain, ?_⟩
  . intro buffer
    exact scan_eq (Nat.zero_le buffer.length)
  . intro buffer
    exact splits_iff_mapM.mp (splits_drain buffer)
  . intro payloads further frame rest hpayloads hfurther hrest hne
    rcases exists_mapM_encode_eq hpayloads with ⟨frames, hframes⟩
    refine ⟨frames, hframes, ?_⟩
    rw [← splits_iff, splits_iff_mapM]
    exact ⟨⟨frames, hframes, rfl⟩, not_prefix_of_prefix hfurther hrest hne⟩
  . intro server query conversation
    constructor
    . intro hquery
      rcases exists_encode_eq hquery with ⟨frame, hframe⟩
      refine ⟨frame, ?_, by rw [Nameserver.askByStream, hframe]⟩
      have hdrain := drain_append hframe []
      have hempty : drain [] = ([], []) := drain_of_length_lt (by simp)
      rwa [List.append_nil, hempty] at hdrain
    . intro hlong
      rw [Nameserver.askByStream, encode?, if_neg (Nat.not_le.mpr hlong)]

/--
An empty message, a message of two bytes and a part of a third one; a short query and one that is
too long by a byte.
-/
theorem framing_lossless_unfinished :
    let server : SocketAddress := .v4 ⟨10, 0, 0, 1⟩ 53
    let long := List.replicate 0x10000 (0 : UInt8)
    let conversation : List UInt8 → Conversation := fun frame => .reply frame .unexpectedEnd
    drain [0, 0, 0, 2, 7, 8, 0, 3, 5] = ([[], [7, 8]], [0, 3, 5]) ∧
    (∃ frame, drain frame = ([[1, 2]], []) ∧
      Nameserver.askByStream server [1, 2] conversation
        = Nameserver.conclude server (conversation frame)) ∧
    Nameserver.askByStream server long conversation
      = (.error (.config s!"query of {long.length} bytes exceeds tcp framing"), []) := by
  intro server long conversation
  rcases framing_lossless with ⟨-, -, hframes, -, hquery⟩
  rcases hframes [[], [7, 8]] [5, 6, 7] [0, 3, 5, 6, 7] [0, 3, 5] (by decide) (by decide)
    (by decide) (by decide) with ⟨frames, hencode, hdrain⟩
  have hflatten : frames = [[0, 0], [0, 2, 7, 8]] := by
    have hcomputed : [[], [7, 8]].mapM encode? = some [[0, 0], [0, 2, 7, 8]] := by decide
    rw [hcomputed, Option.some.injEq] at hencode
    exact hencode.symm
  rw [hflatten] at hdrain
  refine ⟨hdrain, (hquery server [1, 2] conversation).1 (by decide), ?_⟩
  apply (hquery server long conversation).2
  rw [List.length_replicate]
  decide

end Zeroconf.Transport.Frame
