import Futils.Core.Basic
import Futils.Lib.Loop
import Mathlib.Data.List.Forall2

/-!
# UTF conversions

Conversions between UTF-8, UTF-16 and UTF-32 take one code point from the input and append it to the
output, round by round.  A code point is decoded after its units have been found valid.
-/

namespace Futils.Unicode

open Lib.Loop

inductive UTFError
  | none
  | utf8InputSeq | utf8InputLen | utf8OutputLimit
  | utf16InputSeq | utf16InputLen | utf16OutputLimit
  | utf32InputRange | utf32InputLen | utf32OutputLimit
deriving DecidableEq

def invalidCode : Nat := 0xFFFFFFFF

def replacementCharacter : Nat := 0xFFFD

/-- `is_valid_range`; the comparison with `surrogate_3` leaves out U+E000. -/
def isValidRange (c : Nat) : Bool :=
  decide (c < 0xD800) || (decide (0xE000 < c) && decide (c ≤ 0x10FFFF))

section Family

variable {α β : Type}

/-- `to_utf32` of an encoding, without replacement or with it. -/
def toUtf32 (isValidOne : List α → Nat) (decodeOne : List α → Nat → Nat) (seq len : UTFError)
    (input : List α) (replace : Bool) : Nat × Nat × UTFError :=
  let valid := isValidOne input
  if valid = 0 then
    if replace then (replacementCharacter, 1, .none) else (invalidCode, valid, seq)
  else if input.length < valid then (invalidCode, valid, len)
  else (decodeOne input valid, valid, .none)

/-- The units that are output, or that there are none because of the length. -/
def output (units : Option (List β)) (count : Nat) (limit : UTFError) : List β × Nat × UTFError :=
  match units with
  | some units => (units, count, .none)
  | Option.none => ([], count, limit)

/-- `from_utf32` of an encoding, as the conversion of one unit of UTF-32. -/
def fromUtf32 (encodeOne : Nat → Nat → Option (List β)) (expectLen : Nat → Nat)
    (replacementLen : Nat) (limit : UTFError) (input : List Nat) (replace : Bool) :
    List β × Nat × UTFError :=
  match input with
  | [] => ([], 0, .utf32InputLen)
  | code :: _ =>
    if !isValidRange code then
      if replace then output (encodeOne replacementCharacter replacementLen) 1 limit
      else ([], 0, .utf32InputRange)
    else
      let len := expectLen code
      output (encodeOne code len) (if len = 0 then 0 else 1) limit

/-- The conversion of one code point from an encoding. -/
def convertOne (decode : List α → Bool → Nat × Nat × UTFError) (encode : Nat → Option (List β))
    (limit : UTFError) (input : List α) (replace : Bool) : List β × Nat × UTFError :=
  let (code, len, error) := decode input replace
  if error ≠ .none then ([], len, error) else output (encode code) len limit

/-- One round of `do_convert`: the position in the input and the output so far. -/
def convertRound (one : List α → Bool → List β × Nat × UTFError) (replace : Bool) (input : List α)
    (state : Nat × List β) : Nat × List β ⊕ List β × Nat × Nat × UTFError :=
  if state.1 < input.length then
    let (units, count, error) := one (input.drop state.1) replace
    if error ≠ .none then .inr (state.2 ++ units, state.1, count, error)
    else .inl (state.1 + count, state.2 ++ units)
  else .inr (state.2, state.1, 0, .none)

/-- `do_convert`: the output, the position, the units of the unfinished code point and the error. -/
def doConvert (one : List α → Bool → List β × Nat × UTFError) (replace : Bool) (input : List α) :
    Option (List β × Nat × Nat × UTFError) :=
  iterate (convertRound one replace input) (input.length + 1) (0, [])

end Family

namespace Utf8

def expectLen (c : Nat) : Nat :=
  if c < 0x80 then 1 else if c < 0x800 then 2 else if c < 0x10000 then 3
  else if c < 0x110000 then 4 else 0

def isSecondLaterByte (b : UInt8) : Bool := 0x80 ≤ b && b ≤ 0xBF

def validRange (len : Nat) (one two : UInt8) : Bool :=
  match len with
  | 1 => one ≤ 0x7F
  | 2 => 0xC2 ≤ one && one ≤ 0xDF && isSecondLaterByte two
  | 3 =>
    if one = 0xE0 then 0xA0 ≤ two && two ≤ 0xBF
    else if one = 0xED then 0x80 ≤ two && two ≤ 0x9F
    else 0xE0 ≤ one && one ≤ 0xEF && isSecondLaterByte two
  | 4 =>
    if one = 0xF0 then 0x90 ≤ two && two ≤ 0xBF
    else if one = 0xF4 then 0x80 ≤ two && two ≤ 0x8F
    else 0xF0 ≤ one && one ≤ 0xF4 && isSecondLaterByte two
  | _ => false

def decodeOneUnchecked : Bytes → Nat → Nat
  | a :: _, 1 => a.toNat &&& 0x7F
  | a :: b :: _, 2 => (a.toNat &&& 0x1F) <<< 6 ||| (b.toNat &&& 0x3F)
  | a :: b :: c :: _, 3 =>
    (a.toNat &&& 0x0F) <<< 12 ||| (b.toNat &&& 0x3F) <<< 6 ||| (c.toNat &&& 0x3F)
  | a :: b :: c :: d :: _, 4 =>
    (a.toNat &&& 0x07) <<< 18 ||| (b.toNat &&& 0x3F) <<< 12 ||| (c.toNat &&& 0x3F) <<< 6 |||
      (d.toNat &&& 0x3F)
  | _, _ => invalidCode

/-- A byte of `encode_one_unchecked`: some bits of the code under a mark. -/
def encodeByte (code shift mask : Nat) (mark : UInt8) : UInt8 :=
  UInt8.ofNat (code >>> shift &&& mask) ||| mark

def encodeOneUnchecked (code : Nat) : Nat → Option Bytes
  | 1 => some [UInt8.ofNat code]
  | 2 => some [encodeByte code 6 0x1F 0xC0, encodeByte code 0 0x3F 0x80]
  | 3 => some [encodeByte code 12 0x0F 0xE0, encodeByte code 6 0x3F 0x80,
      encodeByte code 0 0x3F 0x80]
  | 4 => some [encodeByte code 18 0x07 0xF0, encodeByte code 12 0x3F 0x80,
      encodeByte code 6 0x3F 0x80, encodeByte code 0 0x3F 0x80]
  | _ => none

/-- `is_valid_one`, which looks no further than the input goes. -/
def isValidOne : Bytes → Nat
  | [] => 0
  | [a] => if a ≤ 0x7F then 1 else 0
  | [a, b] => if a ≤ 0x7F then 1 else if validRange 2 a b then 2 else 0
  | [a, b, c] =>
    if a ≤ 0x7F then 1 else if validRange 2 a b then 2
    else if validRange 3 a b && isSecondLaterByte c then 3 else 0
  | a :: b :: c :: d :: _ =>
    if a ≤ 0x7F then 1 else if validRange 2 a b then 2
    else if validRange 3 a b && isSecondLaterByte c then 3
    else if validRange 4 a b && isSecondLaterByte c && isSecondLaterByte d then 4 else 0

end Utf8

namespace Utf16

def expectLen (code : Nat) : Nat := if code ≤ 0xFFFF then 1 else if code ≤ 0x10FFFF then 2 else 0

def isHighSurrogate (c : UInt16) : Bool := 0xD800 ≤ c && c < 0xDC00

def isLowSurrogate (c : UInt16) : Bool := 0xDC00 ≤ c && c < 0xE000

def makeSurrogateChar (first second : UInt16) : Nat :=
  0x10000 + (first.toNat - 0xD800) <<< 10 + (second.toNat - 0xDC00)

def splitSurrogateChar (code : Nat) : UInt16 × UInt16 :=
  let r := code - 0x10000
  (UInt16.ofNat ((r >>> 10 &&& 0x3FF) + 0xD800), UInt16.ofNat ((r &&& 0x3FF) + 0xDC00))

def decodeOneUnchecked : List UInt16 → Nat → Nat
  | a :: _, 1 => a.toNat
  | a :: b :: _, 2 => makeSurrogateChar a b
  | _, _ => invalidCode

def encodeOneUnchecked (code : Nat) : Nat → Option (List UInt16)
  | 1 => some [UInt16.ofNat code]
  | 2 => some [(splitSurrogateChar code).1, (splitSurrogateChar code).2]
  | _ => none

def isValidOne : List UInt16 → Nat
  | [] => 0
  | [a] => if isHighSurrogate a || isLowSurrogate a then 0 else 1
  | a :: b :: _ =>
    if isHighSurrogate a then if isLowSurrogate b then 2 else 0
    else if isLowSurrogate a then 0 else 1

end Utf16

def utf8ToCode : Bytes → Bool → Nat × Nat × UTFError :=
  toUtf32 Utf8.isValidOne Utf8.decodeOneUnchecked .utf8InputSeq .utf8InputLen

def utf16ToCode : List UInt16 → Bool → Nat × Nat × UTFError :=
  toUtf32 Utf16.isValidOne Utf16.decodeOneUnchecked .utf16InputSeq .utf16InputLen

def utf8OfCode (code : Nat) : Option Bytes := Utf8.encodeOneUnchecked code (Utf8.expectLen code)

def utf16OfCode (code : Nat) : Option (List UInt16) :=
  Utf16.encodeOneUnchecked code (Utf16.expectLen code)

def utf8ToUtf32One : Bytes → Bool → List Nat × Nat × UTFError :=
  convertOne utf8ToCode (fun code => some [code]) .utf32OutputLimit

def utf16ToUtf32One : List UInt16 → Bool → List Nat × Nat × UTFError :=
  convertOne utf16ToCode (fun code => some [code]) .utf32OutputLimit

def utf8ToUtf16One : Bytes → Bool → List UInt16 × Nat × UTFError :=
  convertOne utf8ToCode utf16OfCode .utf16OutputLimit

def utf16ToUtf8One : List UInt16 → Bool → Bytes × Nat × UTFError :=
  convertOne utf16ToCode utf8OfCode .utf8OutputLimit

def utf32ToUtf8One : List Nat → Bool → Bytes × Nat × UTFError :=
  fromUtf32 Utf8.encodeOneUnchecked Utf8.expectLen 3 .utf8OutputLimit

def utf32ToUtf16One : List Nat → Bool → List UInt16 × Nat × UTFError :=
  fromUtf32 Utf16.encodeOneUnchecked Utf16.expectLen 1 .utf16OutputLimit

end Futils.Unicode
