/-!
This module contains the frames in which messages travel over a stream: two bytes for the length of
the message, the higher one first, and the message.
-/

namespace Zeroconf.Transport.Frame

def maxLength : Nat := 0xFFFF

def encode? (payload : List UInt8) : Option (List UInt8) :=
  if payload.length ≤ maxLength then
    some ((payload.length / 0x100).toUInt8 :: payload.length.toUInt8 :: payload)
  else
    none

def length (high low : UInt8) : Nat := high.toNat * 0x100 + low.toNat

/--
Split all complete frames off the front of a stream. What is left does not start with a complete
frame.
-/
def drain (stream : List UInt8) : List (List UInt8) × List UInt8 :=
  match stream with
  | high :: low :: rest =>
    let payload := rest.take (length high low)
    if payload.length = length high low then
      let (frames, left) := drain (rest.drop (length high low))
      (payload :: frames, left)
    else
      ([], stream)
  | _ => ([], stream)
  termination_by stream.length
  decreasing_by
    simp only [List.length_drop, List.length_cons]
    omega

end Zeroconf.Transport.Frame
