/-!
# UTF-8 text

Source text reaches the language as bytes. `decode` turns bytes into characters
or says exactly where they stop being UTF-8 and how long the bad sequence is.

A sequence is bad from its first byte up to, but not including, the first byte
that cannot continue it. A sequence cut short by the end of the input has no
length of its own, because more input could still complete it.
-/

namespace Lox.Utf8

/-- Where a byte sequence stops being UTF-8. -/
structure Defect where
  /-- The number of bytes before the defect, all of them valid text. -/
  index : Nat
  /-- The number of bytes in the bad sequence. It is absent when the input ends
  inside a character. -/
  length : Option Nat
  deriving DecidableEq, Repr, Inhabited

/-- The wording of a defect. -/
def Defect.message (defect : Defect) : String :=
  match defect.length with
  | some length =>
      "invalid utf-8 sequence of " ++ toString length ++ " bytes from index " ++
        toString defect.index
  | none => "incomplete utf-8 byte sequence from index " ++ toString defect.index

/-- Whether a byte lies between two bounds, both included. -/
def within (low high byte : UInt8) : Bool :=
  low ≤ byte && byte ≤ high

/-- Whether a byte may stand after the second byte of a character. -/
def continues (byte : UInt8) : Bool :=
  within 0x80 0xBF byte

/-- Whether a byte may stand second. The first byte narrows the choice, which
rules out overlong forms, surrogates and code points past the last one. -/
def follows (lead byte : UInt8) : Bool :=
  if lead = 0xE0 then within 0xA0 0xBF byte
  else if lead = 0xED then within 0x80 0x9F byte
  else if lead = 0xF0 then within 0x90 0xBF byte
  else if lead = 0xF4 then within 0x80 0x8F byte
  else continues byte

/-- The number of bytes in a character that starts with the given byte, or
`none` where no character starts with it. -/
def width? (lead : UInt8) : Option Nat :=
  if lead ≤ 0x7F then some 1
  else if within 0xC2 0xDF lead then some 2
  else if within 0xE0 0xEF lead then some 3
  else if within 0xF0 0xF4 lead then some 4
  else none

/-- The six payload bits of a byte after the first. -/
def payload (byte : UInt8) : Nat :=
  byte.toNat % 64

/-- The first character of a non-empty byte sequence with its width, or the
length of the bad sequence found there. -/
def first (lead : UInt8) (rest : List UInt8) : Except (Option Nat) (Char × Nat) :=
  match width? lead, rest with
  | none, _ => .error (some 1)
  | some 1, _ => .ok (Char.ofNat lead.toNat, 1)
  | some _, [] => .error none
  | some width, second :: rest =>
      if !follows lead second then .error (some 1)
      else if width = 2 then
        .ok (Char.ofNat ((lead.toNat - 0xC0) * 64 + payload second), 2)
      else
        match rest with
        | [] => .error none
        | third :: rest =>
            if !continues third then .error (some 2)
            else if width = 3 then
              .ok (Char.ofNat (((lead.toNat - 0xE0) * 64 + payload second) * 64 +
                payload third), 3)
            else
              match rest with
              | [] => .error none
              | fourth :: _ =>
                  if !continues fourth then .error (some 3)
                  else
                    .ok (Char.ofNat ((((lead.toNat - 0xF0) * 64 + payload second) * 64 +
                      payload third) * 64 + payload fourth), 4)

/-- Decode the bytes from a given index on, after skipping those that belong to
a character already read. -/
def decodeFrom : Nat → Nat → List UInt8 → Except Defect (List Char)
  | _, _, [] => .ok []
  | index, skip + 1, _ :: rest => decodeFrom (index + 1) skip rest
  | index, 0, lead :: rest =>
      match first lead rest with
      | .error length => .error ⟨index, length⟩
      | .ok (character, width) =>
          match decodeFrom (index + 1) (width - 1) rest with
          | .error defect => .error defect
          | .ok characters => .ok (character :: characters)

/-- The text that a byte sequence stands for, or its first defect. -/
def decode (bytes : List UInt8) : Except Defect String :=
  (decodeFrom 0 0 bytes).map String.ofList

@[simp] theorem decode_nil : decode [] = .ok "" := rfl

end Lox.Utf8
