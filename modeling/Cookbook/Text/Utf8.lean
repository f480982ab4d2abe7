import Cookbook.Text.Quoted

/-!
# Reading UTF-8

The strict reader: overlong forms, surrogates and code points beyond U+10FFFF
are refused.  A refusal names the first octet that cannot continue a character
and how many octets before it were already consumed by that character.
-/

namespace Cookbook.Text.Utf8

/-- Why octets are not the UTF-8 form of a text. -/
inductive Reason
  | invalidStart
  | invalidContinuation
  | unexpectedEnd
  deriving DecidableEq

def Reason.message : Reason → String
  | .invalidStart => "invalid start byte"
  | .invalidContinuation => "invalid continuation byte"
  | .unexpectedEnd => "unexpected end of data"

/-- The place and kind of the first malformed character. -/
structure Malformed where
  position : Nat
  first : UInt8
  length : Nat
  reason : Reason
  deriving DecidableEq

/-- The wording of a refusal: one octet is shown, several are given by position. -/
def Malformed.message (malformed : Malformed) : String :=
  let place :=
    if malformed.length == 1 then
      "byte 0x" ++ String.ofList (hexadecimal 2 malformed.first.toNat) ++
        " in position " ++ toString malformed.position
    else
      "bytes in position " ++ toString malformed.position ++ "-" ++
        toString (malformed.position + malformed.length - 1)
  "'utf-8' codec can't decode " ++ place ++ ": " ++ malformed.reason.message

/-- Octets that may follow the first octet of a character. -/
def isContinuation (octet : UInt8) : Bool :=
  0x80 ≤ octet && octet ≤ 0xBF

/-- Second octets of three: no overlong form and no surrogate. -/
def isSecondOfThree (first second : UInt8) : Bool :=
  isContinuation second &&
    !(first == 0xE0 && second < 0xA0) && !(first == 0xED && 0xA0 ≤ second)

/-- Second octets of four: no overlong form and nothing beyond U+10FFFF. -/
def isSecondOfFour (first second : UInt8) : Bool :=
  isContinuation second &&
    !(first == 0xF0 && second < 0x90) && !(first == 0xF4 && 0x90 ≤ second)

def payload (octet : UInt8) : Nat :=
  octet.toNat - 0x80

/-- The characters of octets that start at a position of the whole input. -/
def decodeFrom (position : Nat) : List UInt8 → Except Malformed (List Char)
  | [] => .ok []
  | first :: rest =>
    if first < 0x80 then
      (Char.ofNat first.toNat :: ·) <$> decodeFrom (position + 1) rest
    else if first < 0xC2 then
      .error ⟨position, first, 1, .invalidStart⟩
    else if first < 0xE0 then
      match rest with
      | [] => .error ⟨position, first, 1, .unexpectedEnd⟩
      | second :: rest =>
        if isContinuation second then
          (Char.ofNat ((first.toNat - 0xC0) * 0x40 + payload second) :: ·) <$>
            decodeFrom (position + 2) rest
        else
          .error ⟨position, first, 1, .invalidContinuation⟩
    else if first < 0xF0 then
      match rest with
      | [] => .error ⟨position, first, 1, .unexpectedEnd⟩
      | second :: rest =>
        if isSecondOfThree first second then
          match rest with
          | [] => .error ⟨position, first, 2, .unexpectedEnd⟩
          | third :: rest =>
            if isContinuation third then
              (Char.ofNat (((first.toNat - 0xE0) * 0x40 + payload second) * 0x40 +
                payload third) :: ·) <$> decodeFrom (position + 3) rest
            else
              .error ⟨position, first, 2, .invalidContinuation⟩
        else
          .error ⟨position, first, 1, .invalidContinuation⟩
    else if first < 0xF5 then
      match rest with
      | [] => .error ⟨position, first, 1, .unexpectedEnd⟩
      | second :: rest =>
        if isSecondOfFour first second then
          match rest with
          | [] => .error ⟨position, first, 2, .unexpectedEnd⟩
          | third :: rest =>
            if isContinuation third then
              match rest with
              | [] => .error ⟨position, first, 3, .unexpectedEnd⟩
              | fourth :: rest =>
                if isContinuation fourth then
                  (Char.ofNat ((((first.toNat - 0xF0) * 0x40 + payload second) * 0x40 +
                    payload third) * 0x40 + payload fourth) :: ·) <$>
                      decodeFrom (position + 4) rest
                else
                  .error ⟨position, first, 3, .invalidContinuation⟩
            else
              .error ⟨position, first, 2, .invalidContinuation⟩
        else
          .error ⟨position, first, 1, .invalidContinuation⟩
    else
      .error ⟨position, first, 1, .invalidStart⟩

/-- The text whose UTF-8 form the octets are. -/
def decode (octets : List UInt8) : Except Malformed (List Char) :=
  decodeFrom 0 octets

@[simp]
theorem decode_nil :
    decode [] = .ok [] :=
  rfl

end Cookbook.Text.Utf8
