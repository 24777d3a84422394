/-
  Digests of octets in the MD5 form.

  The octets are padded to blocks of sixteen words. Each block
  stirs a state of four words in sixty-four steps.

  Key definitions:
    * `Md5.padded`, `Md5.stir`
    * `Md5.digest`, `Md5.hex`
-/

------------------------------------------------------------
-- Blocks
------------------------------------------------------------

namespace SymbolAtlas

namespace Md5

/- A number as octets, the least significant first. -/
def octetsOf : (count : Nat) → Nat → List UInt8
| 0, _ => []
| count + 1, n => UInt8.ofNat (n % 256) :: octetsOf count (n / 256)

/-
  The octets, a single bit, zeros up to eight octets before the
  end of a block, and the number of bits.
-/
def padded (octets : List UInt8) : List UInt8 :=
  let zeros := (119 - octets.length % 64) % 64
  octets ++ 0x80 :: List.replicate zeros 0 ++
    octetsOf 8 (8 * octets.length)

/- Words of four octets, the least significant first. -/
def words : List UInt8 → List UInt32
| a :: b :: c :: d :: rest =>
    (a.toUInt32 ||| b.toUInt32 <<< 8 ||| c.toUInt32 <<< 16 |||
      d.toUInt32 <<< 24) :: words rest
| _ => []

/- The blocks of a list of words. -/
def blocks : (count : Nat) → List UInt32 → List (List UInt32)
| 0, _ => []
| count + 1, ws => ws.take 16 :: blocks count (ws.drop 16)

end Md5

end SymbolAtlas

------------------------------------------------------------
-- Stirring
------------------------------------------------------------

namespace SymbolAtlas

namespace Md5

/- The state between two steps. -/
structure State where
  a : UInt32 := 0x67452301
  b : UInt32 := 0xEFCDAB89
  c : UInt32 := 0x98BADCFE
  d : UInt32 := 0x10325476
deriving DecidableEq, Repr

/- The whole parts of `2 ^ 32 * |sin i|` for `i` from 1. -/
def sines : List UInt32 :=
  [
    0xD76AA478, 0xE8C7B756, 0x242070DB, 0xC1BDCEEE,
    0xF57C0FAF, 0x4787C62A, 0xA8304613, 0xFD469501,
    0x698098D8, 0x8B44F7AF, 0xFFFF5BB1, 0x895CD7BE,
    0x6B901122, 0xFD987193, 0xA679438E, 0x49B40821,
    0xF61E2562, 0xC040B340, 0x265E5A51, 0xE9B6C7AA,
    0xD62F105D, 0x02441453, 0xD8A1E681, 0xE7D3FBC8,
    0x21E1CDE6, 0xC33707D6, 0xF4D50D87, 0x455A14ED,
    0xA9E3E905, 0xFCEFA3F8, 0x676F02D9, 0x8D2A4C8A,
    0xFFFA3942, 0x8771F681, 0x6D9D6122, 0xFDE5380C,
    0xA4BEEA44, 0x4BDECFA9, 0xF6BB4B60, 0xBEBFBC70,
    0x289B7EC6, 0xEAA127FA, 0xD4EF3085, 0x04881D05,
    0xD9D4D039, 0xE6DB99E5, 0x1FA27CF8, 0xC4AC5665,
    0xF4292244, 0x432AFF97, 0xAB9423A7, 0xFC93A039,
    0x655B59C3, 0x8F0CCC92, 0xFFEFF47D, 0x85845DD1,
    0x6FA87E4F, 0xFE2CE6E0, 0xA3014314, 0x4E0811A1,
    0xF7537E82, 0xBD3AF235, 0x2AD7D2BB, 0xEB86D391]

/- How far the four kinds of steps turn their words. -/
def turns : List (List UInt32) :=
  [[7, 12, 17, 22], [5, 9, 14, 20], [4, 11, 16, 23],
    [6, 10, 15, 21]]

/- Turn a word to the left. -/
def turn (w n : UInt32) : UInt32 :=
  w <<< n ||| w >>> (32 - n)

/- The mix of three words in a round. -/
def mix (round : Nat) (s : State) : UInt32 :=
  match round with
  | 0 => (s.b &&& s.c) ||| (~~~s.b &&& s.d)
  | 1 => (s.d &&& s.b) ||| (~~~s.d &&& s.c)
  | 2 => s.b ^^^ s.c ^^^ s.d
  | _ => s.c ^^^ (s.b ||| ~~~s.d)

/- The word of a block that a step uses. -/
def wordIndex (step : Nat) : Nat :=
  match step / 16 with
  | 0 => step
  | 1 => (5 * step + 1) % 16
  | 2 => (3 * step + 5) % 16
  | _ => 7 * step % 16

/- One step on a block. -/
def stir (block : List UInt32) (s : State) (step : Nat) : State :=
  let round := step / 16
  let sum := mix round s + s.a + sines.getD step 0 +
    block.getD (wordIndex step) 0
  let amount := (turns.getD round []).getD (step % 4) 0
  ⟨s.d, s.b + turn sum amount, s.b, s.c⟩

/- A whole block. -/
def absorb (s : State) (block : List UInt32) : State :=
  let last := (List.range 64).foldl (stir block) s
  ⟨s.a + last.a, s.b + last.b, s.c + last.c, s.d + last.d⟩

end Md5

end SymbolAtlas

------------------------------------------------------------
-- Digests
------------------------------------------------------------

namespace SymbolAtlas

namespace Md5

/- The sixteen octets of a digest. -/
def digest (octets : List UInt8) : List UInt8 :=
  let all := words (padded octets)
  let last := (blocks (all.length / 16) all).foldl absorb {}
  [last.a, last.b, last.c, last.d].flatMap
    fun w => octetsOf 4 w.toNat

/- Two hexadecimal digits. -/
def hexOctet (octet : UInt8) : List Char :=
  let digit (n : Nat) : Char :=
    if n < 10 then Char.ofNat (48 + n) else Char.ofNat (87 + n)
  [digit (octet.toNat / 16), digit (octet.toNat % 16)]

/- A digest in hexadecimal digits. -/
def hex (text : String) : String :=
  String.ofList
    ((digest text.toUTF8.data.toList).flatMap hexOctet)

end Md5

end SymbolAtlas
