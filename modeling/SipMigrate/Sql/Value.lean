import SipMigrate.Sql.Numeral
import SipMigrate.Text.Basic

/-! Values, their order, and the conversions that a column does to the values
that are stored in it. -/

namespace SipMigrate.Sql

open Text

inductive Value
  | null
  | integer (n : Int)
  | real (x : Double)
  | text (s : String)
deriving DecidableEq, Repr

namespace Value

def isNull (v : Value) : Bool := v = null

/-- Numbers come before texts. -/
def order : Value → Value → Ordering
  | null, null => .eq
  | null, _ => .lt
  | _, null => .gt
  | text a, text b => compare a b
  | text _, _ => .gt
  | _, text _ => .lt
  | integer a, integer b => compare a b
  | integer a, real b => Double.orderInt a b
  | real a, integer b => (Double.orderInt b a).swap
  | real a, real b => a.order b

/-- Null is equal to nothing. -/
def equals (a b : Value) : Bool := !a.isNull && !b.isNull && (order a b == .eq)

/-- The value of a numeral in a statement or a text. -/
def ofNumeral (n : Numeral) : Value :=
  match n.integer? with
  | some i => integer i
  | none => real n.value

/-- A text that spells a number counts as that number. -/
def toNumber : Value → Value
  | text s => (Numeral.ofText? s).elim (text s) ofNumeral
  | v => v

/-- A number counts as the text that spells it. -/
def toText : Value → Value
  | integer n => text (toString n)
  | real x => text x.text
  | v => v

/-- A real that is an integer counts as that integer. -/
def settle : Value → Value
  | real x => x.toInt64?.elim (real x) integer
  | v => v

/-- An integer counts as a real. -/
def toReal : Value → Value
  | integer n => real (.ofInt n)
  | v => v

end Value

/-! ### Affinities -/

/-- What a column prefers to store. -/
inductive Affinity
  | text
  | integer
  | real
  | numeric
  /-- Values as they are. -/
  | blob
deriving DecidableEq, Repr

def lowerAscii (s : String) : String := String.ofList (s.toList.map Char.toLower)

/-- Names are the same when they differ in the case of ASCII letters alone. -/
def sameName (a b : String) : Bool := lowerAscii a = lowerAscii b

namespace Affinity

/-- Whether the type contains one of the words, in any case. -/
def mentions (type : String) (words : List String) : Bool :=
  words.any fun w => occursIn w.toList (lowerAscii type).toList

/-- The affinity that the declared type of a column gives. -/
def ofType (type : String) : Affinity :=
  if mentions type ["int"] then .integer
  else if mentions type ["char", "clob", "text"] then .text
  else if type = "" || mentions type ["blob"] then .blob
  else if mentions type ["real", "floa", "doub"] then .real
  else .numeric

/-- What is stored in place of a value. Texts that spell no number stay texts. -/
def store (v : Value) : Affinity → Value
  | text => v.toText
  | integer => v.toNumber.settle
  | numeric => v.toNumber.settle
  | real => v.toNumber.toReal
  | blob => v

def isNumeric : Affinity → Bool
  | integer => true
  | numeric => true
  | real => true
  | _ => false

/-- What a value is compared as beside a column. -/
def compared (v : Value) (a : Affinity) : Value :=
  if a.isNumeric then v.toNumber
  else if a = text then v.toText
  else v

end Affinity

end SipMigrate.Sql
