import Mathlib.Algebra.BigOperators.Group.List.Basic
import Mathlib.Algebra.Order.Ring.Nat
import Mathlib.Data.List.Basic

/-! Lines, words and numbers of a text, as the standard library of the source reads them. -/
namespace PlainText

abbrev Text := List Char

/-- The length in bytes. -/
def byteLength (t : Text) : ℕ := (t.map fun c => c.utf8Size).sum

/-- Lines end with a line feed, which one carriage return may precede. -/
def lines : Text → List Text
  | [] => []
  | '\n' :: cs => [] :: lines cs
  | '\r' :: '\n' :: cs => [] :: lines cs
  | c :: cs =>
    match lines cs with
    | [] => [[c]]
    | l :: ls => (c :: l) :: ls

def isWhitespace (c : Char) : Bool :=
  let n := c.toNat
  (0x09 ≤ n ∧ n ≤ 0x0d) ∨ n = 0x20 ∨ n = 0x85 ∨ n = 0xa0 ∨ n = 0x1680 ∨ (0x2000 ≤ n ∧ n ≤ 0x200a) ∨
    n = 0x2028 ∨ n = 0x2029 ∨ n = 0x202f ∨ n = 0x205f ∨ n = 0x3000

def splitWhitespace (t : Text) : List Text := (t.splitOnP isWhitespace).filter (· ≠ [])

def trim (t : Text) : Text := ((t.dropWhile isWhitespace).reverse.dropWhile isWhitespace).reverse

def isAsciiDigit (c : Char) : Bool := '0' ≤ c ∧ c ≤ '9'

def isAsciiLowercase (c : Char) : Bool := 'a' ≤ c ∧ c ≤ 'z'

def digits (t : Text) : Bool := t.all isAsciiDigit

def toDigit (radix : ℕ) (c : Char) : Option ℕ :=
  let value :=
    if isAsciiDigit c then c.toNat - '0'.toNat
    else if isAsciiLowercase c then c.toNat - 'a'.toNat + 10
    else if 'A' ≤ c ∧ c ≤ 'Z' then c.toNat - 'A'.toNat + 10
    else radix
  if value < radix then some value else none

/-- An unsigned number, which a plus sign may precede, up to a largest one. -/
def parseUnsigned (radix largest : ℕ) (t : Text) : Option ℕ :=
  let digits := if t.head? = some '+' then t.tail else t
  if digits = [] then none
  else
    let value := (digits.mapM (toDigit radix)).map (·.foldl (fun n d => n * radix + d) 0)
    value.filter (· ≤ largest)

def parseU8 (t : Text) : Option ℕ := parseUnsigned 10 (2 ^ 8 - 1) t

def parseU16 (t : Text) : Option ℕ := parseUnsigned 10 (2 ^ 16 - 1) t

def parseU32 (t : Text) : Option ℕ := parseUnsigned 10 (2 ^ 32 - 1) t

def parseHexU32 (t : Text) : Option ℕ := parseUnsigned 16 (2 ^ 32 - 1) t

/-- What stands behind a key. -/
def stripPrefix (key : String) (t : Text) : Option Text :=
  if key.toList <+: t then some (t.drop key.toList.length) else none

/-- What stands before and after the first separator. -/
def splitOnce (separator : Char) (t : Text) : Option (Text × Text) :=
  if separator ∈ t then some (t.takeWhile (· ≠ separator), (t.dropWhile (· ≠ separator)).tail)
  else none

/-- A reading in two parts succeeds when both do. -/
theorem bind_ok {ε α β : Type} {r : Except ε α} {f : α → Except ε β} {b : β} :
    (r >>= f) = .ok b ↔ ∃ a, r = .ok a ∧ f a = .ok b := by
  cases r with
  | error e =>
    constructor
    · intro h
      cases h
    · rintro ⟨a, ha, _⟩
      cases ha
  | ok a =>
    constructor
    · intro h
      exact ⟨a, rfl, h⟩
    · rintro ⟨_, ⟨⟩, h⟩
      exact h

end PlainText
