import SipMigrate.Sql.Table
import SipMigrate.Text.Decimal

/-! The order in which a query meets the rows of a table. An index holds the
values of its column in their order, and the number of the row beside each. A
query that needs nothing else reads the index in place of the table, if the
index is estimated to be smaller. -/

namespace SipMigrate.Sql

open Text

/-! ### Estimates of sizes -/

/-- Ten times the logarithm to the base two, from the first three digits after the leading one. -/
def logarithm (n : Nat) : Nat :=
  10 * n.log2 + [0, 2, 3, 5, 6, 7, 8, 9].getD (((8 * n) >>> n.log2) % 8) 0

/-- What follows the last occurrence of a word. -/
def behind? (word : List Char) : List Char → Option (List Char)
  | [] => none
  | c :: rest =>
    (behind? word rest).or
      (if word.isPrefixOf (c :: rest) then some ((c :: rest).drop word.length) else none)

/-- The first number in a text, if it has 31 bits. -/
def firstNumber (l : List Char) : Nat :=
  let n := digitsValue ((l.dropWhile fun c => !c.isDigit).takeWhile Char.isDigit)
  if n < 2147483648 then n else 0

/-- The number of bytes that a type gives its values, if it tells. -/
def declaredLength? (type : List Char) : Affinity → Option Nat
  | .text => (behind? "char".toList type).map firstNumber
  | .blob => ((behind? "blob".toList type).filter (·.head? = some '(')).map firstNumber
  | _ => none

/-- The size of the values of a column, in units of four bytes. -/
def Column.width (c : Column) : Nat :=
  match c.affinity with
  | .text => lengthWidth (declaredLength? (lowerAscii c.type).toList .text)
  | .blob =>
    if c.type = "" then 1 else lengthWidth (declaredLength? (lowerAscii c.type).toList .blob)
  | _ => 1
where
  lengthWidth (length? : Option Nat) : Nat :=
    let w := (length?.getD 16) / 4 + 1
    if w < 255 then w else 255

namespace Table

/-- The size of a row. A row whose number is no column has it beside its values. -/
def width (t : Table) : Nat :=
  t.columns.foldl (fun n c => n + c.width) (if t.rowNumber?.isSome then 0 else 1)

/-- The size of an entry of an index. -/
def indexWidth (t : Table) (k : Nat) : Nat := (t.columns[k]?.elim 0 Column.width) + 1

/-- Whether an index is smaller than its table. -/
def hasSmallIndex (t : Table) (k : Nat) : Bool :=
  logarithm (4 * t.indexWidth k) < logarithm (4 * t.width)

/-- What it takes to read an index in place of the table. -/
def indexCost (t : Table) (k : Nat) : Nat :=
  15 * logarithm (4 * t.indexWidth k) / logarithm (4 * t.width)

/-- The index that is read for some columns in place of the table: the best one,
and of equal ones the last. -/
def coveringIndex? (t : Table) (used : List Nat) : Option Nat :=
  let fits (k : Nat) : Bool := used.all fun u => u = k || some u = t.rowNumber?
  ((t.indexed.reverse.filter fun k => fits k && t.hasSmallIndex k).mergeSort
    fun j k => decide (t.indexCost j ≤ t.indexCost k)).head?

/-- The rows in the order in which a query that uses some columns meets them. -/
def scan (t : Table) (used : List Nat) : List Row :=
  match t.coveringIndex? used with
  | some k => t.rows.mergeSort fun a b => ((a.get k).order (b.get k)).isLE
  | none => t.rows

end Table

end SipMigrate.Sql
