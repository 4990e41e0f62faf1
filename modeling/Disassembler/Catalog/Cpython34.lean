import Disassembler.Table.Registry

/-!
# CPython 3.4

The opcodes of version 3.4, as changes to those of cpython 3.3.
-/

namespace Disassembler
namespace Catalog

/-- The table definition of cpython 3.4. -/
def cpython34 : Source where
  label := "cpython-3.4.def"
  version := ⟨3, 4⟩
  implementation := "cpython"
  parent := some (⟨3, 3⟩, "cpython")
  directives := [
    ⟨5, "RM", ["STORE_LOCALS", "69"]⟩,
    ⟨6, "DEF", ["LOAD_CLASSDEREF", "148", "0", "1", "free", "nullary_load"]⟩]

end Catalog
end Disassembler
