/-
CSV texts: the parser the import route reads uploads with, and the writer of
the export route.

Fields may be quoted; within quotes `""` is one quote and CRLF is read as LF.
Outside, CRLF, LF and a lone CR end a record.  The writer quotes what the
parser would take apart.
-/
import Mathlib.Data.List.Basic

namespace CErp

open String

namespace Csv

/-- What the parser has read so far: the finished records, the fields of the
current one, and the characters of the current field. -/
structure Reading where
  rows : List (List String) := []
  row : List String := []
  field : List Char := []

namespace Reading

def push (st : Reading) (c : Char) : Reading := { st with field := st.field ++ [c] }

def endField (st : Reading) : Reading :=
  { st with row := st.row ++ [ofList st.field], field := [] }

def endRecord (st : Reading) : Reading :=
  { rows := st.rows ++ [st.row ++ [ofList st.field]], row := [], field := [] }

/-- The last record of a text without a newline at its end. -/
def flush (st : Reading) : List (List String) :=
  if st.field.isEmpty && st.row.isEmpty then st.rows else st.endRecord.rows

end Reading

/-- The parser's loop, within quotes or outside of them. -/
def parseFrom : Bool → Reading → List Char → Reading
  | true, st, '"' :: '"' :: cs => parseFrom true (st.push '"') cs
  | true, st, '"' :: cs => parseFrom false st cs
  | true, st, '\r' :: '\n' :: cs => parseFrom true (st.push '\n') cs
  | true, st, c :: cs => parseFrom true (st.push c) cs
  | false, st, '"' :: cs => parseFrom true st cs
  | false, st, ',' :: cs => parseFrom false st.endField cs
  | false, st, '\n' :: cs => parseFrom false st.endRecord cs
  | false, st, '\r' :: '\n' :: cs => parseFrom false st.endRecord cs
  | false, st, '\r' :: cs => parseFrom false st.endRecord cs
  | false, st, c :: cs => parseFrom false (st.push c) cs
  | _, st, [] => st

end Csv

/-- The records of a CSV text. -/
def parseCsv (text : String) : List (List String) := (Csv.parseFrom false {} text.toList).flush

namespace Csv

def needsQuote (field : String) : Bool :=
  field.toList.any fun c => c == ',' || c == '"' || c == '\r' || c == '\n'

def escapeField (field : String) : List Char :=
  field.toList.flatMap fun c => if c = '"' then ['"', '"'] else [c]

/-- A field as it is written. -/
def fieldText (field : String) : String :=
  if needsQuote field then "\"" ++ ofList (escapeField field) ++ "\"" else field

end Csv

/-- The CSV text of a table, its records ended with CRLF. -/
def buildCsv (rows : List (List String)) : String :=
  join (rows.map fun row => ",".intercalate (row.map Csv.fieldText) ++ "\r\n")

example : parseCsv (buildCsv [["name", "note"], ["Bolt, M4", "say \"hi\""]]) =
    [["name", "note"], ["Bolt, M4", "say \"hi\""]] := by
  decide

end CErp
