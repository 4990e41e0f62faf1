/-!
# Names made of words

Names of alternatives are written in two ways: in lower case with underscores between words in data,
and with capitals in messages. `capitals` turns the first into the second.
-/

namespace Disassembler
namespace Text

/-- The name with each word capitalized and no underscores. -/
def capitals (name : String) : String :=
  String.join ((name.toList.splitOn '_').map fun word => (String.ofList word).capitalize)

/-- The alternative whose name is given, out of a list of all of them. -/
def named? {α : Type} (all : List α) (name : α → String) (s : String) : Option α :=
  all.find? fun a => name a == s

end Text
end Disassembler
