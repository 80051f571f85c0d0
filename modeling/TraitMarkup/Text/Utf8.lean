/-
  Text from bytes.

  Bytes are decoded as UTF-8, and the first sequence that is no
  character is reported with its place and what is wrong with
  it. A byte that starts a character says how many bytes follow
  and which of them may come next.

  Key definitions include:
    * `Utf8.Reason`
    * `Utf8.Fault`
    * `Utf8.Pending`
    * `Utf8.decode`
-/

namespace TraitMarkup

namespace Utf8

------------------------------------------------------------
-- Faults
------------------------------------------------------------

/- What is wrong with a sequence of bytes. -/
inductive Reason where
  | invalidStart
  | invalidContinuation
  | unexpectedEnd
deriving DecidableEq, Repr

namespace Reason

/- The wording of a reason. -/
def text : Reason → String
  | invalidStart => "invalid start byte"
  | invalidContinuation => "invalid continuation byte"
  | unexpectedEnd => "unexpected end of data"

end Reason

/- A sequence of bytes that is no character. -/
structure Fault where
  position : Nat
  first : UInt8
  size : Nat
  reason : Reason
deriving DecidableEq, Repr

/- The two hexadecimal digits of a byte. -/
def hexByte
    (byte : UInt8) :
    String :=
  String.ofList
    [Nat.digitChar (byte.toNat / 16),
      Nat.digitChar (byte.toNat % 16)]

namespace Fault

/- The place of a fault: one byte, or a range of them. -/
def place
    (fault : Fault) :
    String :=
  if fault.size = 1 then
    "byte 0x" ++ hexByte fault.first ++ " in position "
      ++ toString fault.position
  else
    "bytes in position " ++ toString fault.position ++ "-"
      ++ toString (fault.position + fault.size - 1)

/- The wording of a fault. -/
def message
    (fault : Fault) :
    String :=
  "'utf-8' codec can't decode " ++ fault.place ++ ": "
    ++ fault.reason.text

end Fault

------------------------------------------------------------
-- Decoding
------------------------------------------------------------

/- A character of which some bytes are still owed. -/
structure Pending where
  /- The first byte of the character. -/
  first : UInt8
  /- The bytes that were read. -/
  size : Nat
  /- The bytes that are owed after the next one. -/
  owed : Nat
  /- The least and the greatest byte that may come next. -/
  low : Nat
  high : Nat
  /- The bits that were read. -/
  value : Nat
deriving DecidableEq, Repr

/- What a first byte beyond ASCII promises. -/
def Pending.ofFirst
    (first : UInt8) :
    Option Pending :=
  let n := first.toNat
  if n < 0xC2 then none
  else if n < 0xE0 then
    some ⟨first, 1, 0, 0x80, 0xBF, n - 0xC0⟩
  else if n = 0xE0 then
    some ⟨first, 1, 1, 0xA0, 0xBF, n - 0xE0⟩
  else if n = 0xED then
    some ⟨first, 1, 1, 0x80, 0x9F, n - 0xE0⟩
  else if n < 0xF0 then
    some ⟨first, 1, 1, 0x80, 0xBF, n - 0xE0⟩
  else if n = 0xF0 then
    some ⟨first, 1, 2, 0x90, 0xBF, n - 0xF0⟩
  else if n < 0xF4 then
    some ⟨first, 1, 2, 0x80, 0xBF, n - 0xF0⟩
  else if n = 0xF4 then
    some ⟨first, 1, 2, 0x80, 0x8F, n - 0xF0⟩
  else none

/- The fault of a character that cannot be completed. -/
def Pending.fault
    (pending : Pending)
    (position : Nat)
    (reason : Reason) :
    Fault where
  position := position - pending.size
  first := pending.first
  size := pending.size
  reason := reason

/-
  Decode the bytes from a position on, with the character that
  was begun before it, if any.
-/
def decodeFrom
    (position : Nat) :
    Option Pending → List UInt8 → Except Fault (List Char)
  | none, [] => .ok []
  | some pending, [] =>
      .error (pending.fault position .unexpectedEnd)
  | none, byte :: rest =>
      if byte.toNat < 0x80 then
        (decodeFrom (position + 1) none rest).map
          (Char.ofNat byte.toNat :: ·)
      else
        match Pending.ofFirst byte with
        | none => .error ⟨position, byte, 1, .invalidStart⟩
        | some pending =>
            decodeFrom (position + 1) (some pending) rest
  | some pending, byte :: rest =>
      let n := byte.toNat
      if pending.low ≤ n ∧ n ≤ pending.high then
        let value := pending.value * 64 + (n - 0x80)
        match pending.owed with
        | 0 =>
            (decodeFrom (position + 1) none rest).map
              (Char.ofNat value :: ·)
        | owed + 1 =>
            decodeFrom (position + 1)
              (some
                ⟨pending.first, pending.size + 1, owed,
                  0x80, 0xBF, value⟩)
              rest
      else
        .error (pending.fault position .invalidContinuation)

/- The text that bytes stand for. -/
def decode
    (bytes : List UInt8) :
    Except Fault String :=
  (decodeFrom 0 none bytes).map String.ofList

end Utf8

end TraitMarkup
