import MessageBroker.Wire.Decoder

/-!
# Reading one message from a blocking input

A blocking input either gives as many bytes as were asked for or ends, and then what it still held
is gone. Bytes come one at a time until the length of the frame is known, and then the rest of it at
once. Each read has a buffer of its own: what it still holds when the message is found is gone too.
Model of `read_message`; an input that fails otherwise than by ending is out of scope.
-/

namespace MessageBroker.Wire

/-- How a read ended: its result, the decoder then, and what the input still holds. -/
structure ReadOutcome where
  result : Except DecodeError Message
  decoder : Decoder
  input : Bytes

namespace Decoder

/-- How many bytes are asked for next: all that are missing of the frame, or one while its length
is not known. -/
def wanting (d : Decoder) (bs : Bytes) : Nat :=
  match d.awaiting with
  | .header => 1
  | .frame _ payload => max 1 (headerLength + payload - bs.length)

theorem wanting_pos (d : Decoder) (bs : Bytes) : 0 < d.wanting bs := by
  unfold wanting
  split <;> omega

/-- Reads on behind the bytes that are there already. -/
def readBehind (d : Decoder) (bs input : Bytes) : ReadOutcome :=
  match d.decode bs with
  | ⟨.error e, d', _⟩ => ⟨.error e, d', input⟩
  | ⟨.ok (some m), d', _⟩ => ⟨.ok m, d', input⟩
  | ⟨.ok none, d', bs'⟩ =>
    match h : cut? (d'.wanting bs') input with
    | none => ⟨.error .endOfInput, d', []⟩
    | some (front, rest) =>
      have : rest.length < input.length := by
        obtain ⟨hi, hf⟩ := cut?_eq_some_iff.mp h
        have := d'.wanting_pos bs'
        rw [hi, List.length_append]
        omega
      d'.readBehind (bs' ++ front) rest
termination_by input.length

/-- Reads one message. The decoder keeps what it awaits also when the read fails. -/
def readMessage (d : Decoder) (input : Bytes) : ReadOutcome := d.readBehind [] input

end Decoder

end MessageBroker.Wire
