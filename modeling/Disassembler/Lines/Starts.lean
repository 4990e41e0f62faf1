import Disassembler.Code.Basic
import Disassembler.Lines.Locations
import Std.Data.ExtTreeMap

/-!
# Line starts

**Results.** `startsOfRanges` notes a start where a range has another line than the last start, or
for every range with a line if starts may repeat a line. `starts` gives the starts of a code object
in any of the encodings, and `startMap` the line that starts at each offset, where the first start
at an offset counts.
-/

namespace Disassembler
namespace Lines

open Std (ExtTreeMap)

/-- The starts of ranges after a start on the given line. -/
def startsAfter (dupLines : Bool) (last : Option Nat) : List LineRange → List (Nat × Nat)
  | [] => []
  | r :: rest =>
    match r.line with
    | none => startsAfter dupLines last rest
    | some line =>
      if dupLines || last != some line then
        (r.start, line) :: startsAfter dupLines (some line) rest
      else startsAfter dupLines last rest

/-- The starts of ranges. -/
def startsOfRanges (dupLines : Bool) (ranges : List LineRange) : List (Nat × Nat) :=
  startsAfter dupLines none ranges

/-- The starts that a line table records. -/
def startsOfTable (format : LineFormat) (dupLines : Bool) (firstLine : Nat) (bytes : List UInt8) :
    Except Error (List (Nat × Nat)) :=
  match format with
  | .lnotab => lnotabStarts false dupLines firstLine bytes
  | .lnotabSigned => lnotabStarts true dupLines firstLine bytes
  | .linetable => startsOfRanges dupLines <$> linetableRanges firstLine bytes
  | .locations => startsOfRanges dupLines <$> locationRanges firstLine bytes

/-- The starts of lines in a code object. -/
def starts (code : CodeObject) (format : LineFormat) (dupLines : Bool) :
    Except Error (List (Nat × Nat)) :=
  startsOfTable format dupLines code.firstLine code.lineTable

/-- The line that starts at each offset. -/
abbrev StartMap := ExtTreeMap Nat Nat

/-- The map of a list of starts, where the first one at an offset counts. -/
def StartMap.ofStarts (starts : List (Nat × Nat)) : StartMap :=
  starts.foldl (fun m s => m.insertIfNew s.1 s.2) ∅

/-- The line that starts at each offset of a code object. -/
def startMap (code : CodeObject) (format : LineFormat) (dupLines : Bool) :
    Except Error StartMap :=
  StartMap.ofStarts <$> starts code format dupLines

end Lines
end Disassembler
