import Psych.Http.Connection
import Psych.Text.Tokens

/-!
# The data table of a response

The second half of `OnHttpResponse`: a machine with four states over the lines of the
body. The first line holds the engine version and the open and close times, the second
the column names, every further line a row up to the first one that starts with `#`.
-/

namespace Psych

/-- The output parameters of `OnHttpResponse`. -/
structure Table where
  engineVersion : Text := []
  openTime : PTime := none
  closeTime : PTime := none
  columns : List Text := []
  rows : List (Text × List Value) := []
deriving DecidableEq

/-! ## Timestamp line -/

/-- The shortest timestamp line. -/
def timestampLine : Text :=
  "# MarketPsych Engine Version 0 | 2012-05-02 21:19:00 UTC - 2012-05-03 21:19:00 UTC".toList

def prefixLen : Nat := "# MarketPsych Engine Version ".length

def dateLen : Nat := "2012-05-02 21:19:00".length

/-- `try { *t = time_from_string (text); } catch (const std::exception& e) {}`. -/
def parseTime (platform : Platform) (text : Text) (t : PTime) : PTime :=
  (platform.timeFromString text).getD t

/-- The timestamp line: the engine version, the open and the close time are stored as
they are found, also where a later check rejects the line. -/
def readTimestamp (platform : Platform) (token : Text) (table : Table) :
    Except Fault Bool × Table :=
  if token.length < timestampLine.length then (.ok false, table)
  else
    match find token " ".toList prefixLen with
    | none => (.ok false, table)
    | some spaceAfterVersion =>
      match substr token prefixLen (spaceAfterVersion - prefixLen) with
      | none => (.error .exception, table)
      | some version =>
        let table := { table with engineVersion := version }
        match find token "| ".toList spaceAfterVersion with
        | none => (.ok false, table)
        | some pipeDelimiter =>
          match substr token (pipeDelimiter + "| ".length) dateLen with
          | none => (.error .exception, table)
          | some openText =>
            let table := { table with openTime := parseTime platform openText table.openTime }
            match find token "- ".toList pipeDelimiter with
            | none => (.ok false, table)
            | some hyphenDelimiter =>
              match substr token (hyphenDelimiter + "- ".length) dateLen with
              | none => (.error .exception, table)
              | some closeText =>
                let table :=
                  { table with closeTime := parseTime platform closeText table.closeTime }
                (.ok (table.openTime.isSome && table.closeTime.isSome), table)

/-! ## Rows -/

/-- The values of a row of cells, from column `i`: each is extracted into a fresh
variable. -/
def readValues (platform : Platform) (row : Nat) : Nat → List Text → List Value
  | _, [] => []
  | i, text :: cells =>
    platform.extract text (platform.uninitialised row i) :: readValues platform row (i + 1) cells

/-- A line of the table in `STATE_ROW`: skipped where it has not one cell for each
column. -/
def readRow (platform : Platform) (token : Text) (table : Table) : Table :=
  let rowText := splitString token '\t'
  if rowText.length ≠ table.columns.length then table
  else
    match rowText with
    | [] => table
    | name :: cells =>
      { table with rows := table.rows ++ [(name, readValues platform table.rows.length 1 cells)] }

/-! ## The line machine -/

inductive ScanState where
  | timestamp
  | header
  | row
  | fin
deriving DecidableEq

/-- `while (t.GetNext())`: whether the table is accepted, and the output parameters. -/
def scanTable (platform : Platform) : ScanState → List Text → Table → Except Fault Bool × Table
  | _, [], table => (.ok true, table)
  | .timestamp, token :: tokens, table =>
    match readTimestamp platform token table with
    | (.error e, table) => (.error e, table)
    | (.ok false, table) => (.ok false, table)
    | (.ok true, table) => scanTable platform .header tokens table
  | .header, token :: tokens, table =>
    let table := { table with columns := table.columns ++ splitString token '\t' }
    if table.columns.isEmpty then (.ok false, table)
    else if table.columns.length < 2 then (.ok false, table)
    else scanTable platform .row tokens table
  | .row, token :: tokens, table =>
    if token.head? = some '#' then scanTable platform .fin tokens table
    else scanTable platform .row tokens (readRow platform token table)
  | .fin, _ :: _, table => (.ok true, table)

end Psych
