import ClusterJobs.Text.Blank

/-!
# Lines

A line ends with a line feed, perhaps behind a carriage return. The last line of a text may be
unfinished.
-/

namespace ClusterJobs.Text

/-- A finished line without the carriage return at its end. -/
def withoutReturn (line : List Char) : List Char :=
  if line.getLast? == some '\r' then line.dropLast else line

/-- The lines of a text. An empty text has none. -/
def lines (text : String) : List String :=
  let pieces := splitOnChar (· == '\n') text.toList
  let finished := pieces.dropLast.map withoutReturn
  let last := pieces.getLast?.getD []
  (if last.isEmpty then finished else finished ++ [last]).map String.ofList

end ClusterJobs.Text
