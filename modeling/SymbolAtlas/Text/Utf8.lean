/-
  Reading octets as UTF-8 without ever failing.

  `Utf8.decode` gives each well-formed sequence its character
  and each longest part of an ill-formed sequence one
  replacement character.

  Key definitions:
    * `Utf8.Pending`, the sequence begun but not finished
    * `Utf8.decode`, `Utf8.decodeWith`
-/

namespace SymbolAtlas

namespace Utf8

/-
  A sequence of several octets that has begun: the bits read
  so far, how many octets are owed, and the range that the
  next octet has to lie in.
-/
structure Pending where
  bits : Nat
  owed : Nat
  low : Nat
  high : Nat
deriving DecidableEq, Repr

/- What a first octet can mean. -/
inductive Lead where
  | single (c : Char)
  | begins (p : Pending)
  | invalid
deriving DecidableEq, Repr

/- The meaning of an octet between two characters. -/
def lead (octet : UInt8) : Lead :=
  let b := octet.toNat
  if b < 0x80 then .single (Char.ofNat b)
  else if 0xC2 ≤ b ∧ b ≤ 0xDF then
    .begins ⟨b % 0x20, 1, 0x80, 0xBF⟩
  else if b = 0xE0 then .begins ⟨0, 2, 0xA0, 0xBF⟩
  else if b = 0xED then .begins ⟨0xD, 2, 0x80, 0x9F⟩
  else if 0xE1 ≤ b ∧ b ≤ 0xEF then
    .begins ⟨b % 0x10, 2, 0x80, 0xBF⟩
  else if b = 0xF0 then .begins ⟨0, 3, 0x90, 0xBF⟩
  else if b = 0xF4 then .begins ⟨4, 3, 0x80, 0x8F⟩
  else if 0xF1 ≤ b ∧ b ≤ 0xF3 then
    .begins ⟨b % 8, 3, 0x80, 0xBF⟩
  else .invalid

/- Stands for octets that are no character. -/
def replacement : Char := '\ufffd'

/- The pending sequence with one more octet of it. -/
def Pending.push (p : Pending) (octet : UInt8) : Pending :=
  ⟨p.bits * 0x40 + octet.toNat % 0x40, p.owed - 1, 0x80, 0xBF⟩

/-
  Decode octets, given what stands for an ill-formed part and
  the sequence that is under way.
-/
def decodeFrom (mark : Char) :
    Option Pending → List UInt8 → List Char
| none, [] => []
| some _, [] => [mark]
| none, b :: rest =>
    match lead b with
    | .single c => c :: decodeFrom mark none rest
    | .begins p => decodeFrom mark (some p) rest
    | .invalid => mark :: decodeFrom mark none rest
| some p, b :: rest =>
    if p.low ≤ b.toNat ∧ b.toNat ≤ p.high then
      let q := p.push b
      if q.owed = 0 then
        Char.ofNat q.bits :: decodeFrom mark none rest
      else decodeFrom mark (some q) rest
    else
      mark ::
        match lead b with
        | .single c => c :: decodeFrom mark none rest
        | .begins q => decodeFrom mark (some q) rest
        | .invalid => mark :: decodeFrom mark none rest

/- The characters of octets, with a mark for ill-formed parts. -/
def decodeWith (mark : Char) (octets : ByteArray) : List Char :=
  decodeFrom mark none octets.data.toList

/- The characters of an octet sequence. -/
def decode (octets : ByteArray) : List Char :=
  decodeWith replacement octets

/- The text of an octet sequence. -/
def text (octets : ByteArray) : String :=
  String.ofList (decode octets)

end Utf8

end SymbolAtlas
