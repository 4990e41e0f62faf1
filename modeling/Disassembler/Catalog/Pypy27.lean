import Disassembler.Table.Registry

/-!
# PyPy 2.7

The opcodes of version 2.7, as changes to those of cpython 2.7.
-/

namespace Disassembler
namespace Catalog

/-- The table definition of pypy 2.7. -/
def pypy27 : Source where
  label := "pypy-2.7.def"
  version := ⟨2, 7⟩
  implementation := "pypy"
  parent := some (⟨2, 7⟩, "cpython")
  directives := [
    ⟨6, "DEF", ["LOOKUP_METHOD", "201", "1", "2", "name"]⟩,
    ⟨7, "DEF", ["CALL_METHOD", "202", "-3", "1", "nargs"]⟩,
    ⟨8, "DEF", ["BUILD_LIST_FROM_ARG", "203", "1", "2", "op"]⟩,
    ⟨9, "DEF", ["JUMP_IF_NOT_DEBUG", "204", "0", "0", "jrel", "cond"]⟩,
    ⟨11, "FMT", ["CALL_METHOD", "call_pos_named"]⟩,
    ⟨12, "XFMT", ["LOOKUP_METHOD", "attr"]⟩]

end Catalog
end Disassembler
