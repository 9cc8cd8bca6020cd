import SipMigrate.Sql.Connection

/-! Databases as texts: the statements that build one from the empty database.
The first line marks such a text. -/

namespace SipMigrate.Sql

namespace Dump

def doubled (quote : Char) (s : String) : List Char :=
  s.toList.flatMap fun c => if c = quote then [c, c] else [c]

/-- A text between quotes, in which the quote is written twice. -/
def between (quote : Char) (s : String) : String :=
  String.ofList (quote :: doubled quote s ++ [quote])

def name (s : String) : String := between '"' s

/-- Some eighteen digits and an exponent, which are read back as the same number. -/
def real : Double → String
  | .infinite negative => if negative then "-1e999" else "1e999"
  | .finite q =>
    let places := 17 - (if q.num = 0 then 0 else (Numeral.normalized (mkRat q.num.natAbs q.den)).2)
    let digits :=
      if 0 ≤ places then BinaryFormat.nearest (q * .ofInt (Nat.pow 10 places.toNat))
      else BinaryFormat.nearest (q * mkRat 1 (Nat.pow 10 (-places).toNat))
    toString digits ++ "e" ++ toString (-places)

def value : Value → String
  | .null => "NULL"
  | .integer n => toString n
  | .real x => real x
  | .text s => between '\x27' s

def creation (t : Table) : String := "CREATE TABLE " ++ t.text ++ ";\n"

def insertion (t : Table) (r : Row) : String :=
  "INSERT INTO " ++ name t.name ++ " VALUES (" ++ ", ".intercalate (r.map value) ++ ");\n"

def table (t : Table) : String :=
  creation t ++ String.join (t.rows.map (insertion t))

def heading : String := "-- sipmigrate database\n"

end Dump

def Database.dump (d : Database) : String := Dump.heading ++ String.join (d.tables.map Dump.table)

/-- The database that a marked text builds. -/
def Database.ofDump? (text : String) : Option Database :=
  if Dump.heading.toList.isPrefixOf text.toList then
    match (Connection.start .empty).execute text with
    | (.ok (), c) => some c.committed
    | (.error _, _) => none
  else none

end SipMigrate.Sql
