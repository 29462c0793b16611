import Futils.Core.Sequencer

/-!
# Parsing integers

`number::parse_integer` reads an optional sign and digits from a sequencer and pushes them one by one
into a `PushBackParserInt`, which accumulates them in the target type.
-/

namespace Futils.Number

open Sequencer

variable (radix : Nat) (c : UInt8)

/-- `number_transform`: the value of a digit or letter, nothing for `nt`. -/
def numberTransform : Option Nat :=
  if 48 ≤ c ∧ c ≤ 57 then some (c.toNat - 48)
  else if 65 ≤ c ∧ c ≤ 90 then some (c.toNat - 55)
  else if 97 ≤ c ∧ c ≤ 122 then some (c.toNat - 87)
  else none

def isRadixChar : Bool := (numberTransform c).any (decide <| · < radix)

def isDigit : Bool := isRadixChar 10 c

def isHex : Bool := isRadixChar 16 c

def isAlnum : Bool := isRadixChar 37 c

def isNonSpaceAscii : Bool := decide (0x21 ≤ c ∧ c ≤ 0x7e)

/-- The type an integer is parsed into: its largest value and its signedness. -/
structure IntType where
  max : Nat
  signed : Bool
deriving DecidableEq

namespace IntType

def min (type : IntType) : Int := if type.signed then -(type.max + 1) else 0

def wrap (type : IntType) (value : Int) : Int :=
  (value - type.min) % (type.max + 1 - type.min) + type.min

/-- A sum leaves the range of a signed type that is not promoted to `int`. -/
def undefinedAt (type : IntType) (sum : Int) : Bool :=
  type.signed && 2 ^ 31 - 1 ≤ type.max && type.max < sum

/-- `std::intN_t` and `std::uintN_t`. -/
def ofBits (bits : Nat) (signed : Bool) : IntType where
  max := if signed then 2 ^ (bits - 1) - 1 else 2 ^ bits - 1
  signed := signed

end IntType

def IntType.uint64 : IntType := { max := 2 ^ 64 - 1, signed := false }

def IntType.uint16 : IntType := { max := 2 ^ 16 - 1, signed := false }

def IntType.int64 : IntType := { max := 2 ^ 63 - 1, signed := true }

inductive NumError
  | none | notMatch | invalid | overflow | notEof
deriving DecidableEq

/-- `PushBackParserInt`.  `undefined` records that a signed addition left the range of the type. -/
structure PushBackParserInt where
  result : Int := 0
  overflow : Bool := false
  minus : Bool := false
  undefined : Bool := false
deriving DecidableEq

namespace PushBackParserInt

/-- `push_back`.  Only the multiplication is checked: adding the digit wraps around, or is undefined
from `int` on. -/
def pushBack (type : IntType) (radix : Nat) (parser : PushBackParserInt) (c : UInt8) :
    PushBackParserInt :=
  if parser.overflow then parser
  else if parser.result ≠ 0 ∧ ((type.max / radix : Nat) : Int) < parser.result then
    { parser with overflow := true }
  else
    let shifted := type.wrap (parser.result * radix)
    match numberTransform c with
    | Option.none => { parser with result := shifted, overflow := true }
    | some digit =>
      if radix ≤ digit then { parser with result := shifted, overflow := true }
      else
        { parser with
          result := type.wrap (shifted + digit)
          undefined := parser.undefined || type.undefinedAt (shifted + digit) }

def construct (type : IntType) (parser : PushBackParserInt) : Int :=
  if parser.overflow then 0 else if parser.minus then type.wrap (-parser.result) else parser.result

end PushBackParserInt

def acceptableRadix : Bool := 2 ≤ radix && radix ≤ 36

/-- `parse_integer`: the error, the number when there is none, and the position after the digits. -/
def parseInteger (type : IntType) (radix : Nat) (buf : Bytes) (rptr : Nat) :
    NumError × PushBackParserInt × Nat :=
  let plus := buf[rptr]? = some 43
  let minus := !plus && type.signed && buf[rptr]? == some 45
  let start := if plus || minus then rptr + 1 else rptr
  if !acceptableRadix radix then (.invalid, { minus }, start)
  else
    let digits := (buf.drop start).takeWhile (isRadixChar radix)
    let parser := digits.foldl (PushBackParserInt.pushBack type radix) { minus }
    (if digits = [] then .notMatch else if parser.overflow then .overflow else .none,
      parser, start + digits.length)

end Futils.Number
