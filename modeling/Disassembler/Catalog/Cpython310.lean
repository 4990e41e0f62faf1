import Disassembler.Table.Registry

/-!
# CPython 3.10

The opcodes of version 3.10, as changes to those of cpython 3.9.
-/

namespace Disassembler
namespace Catalog

/-- The table definition of cpython 3.10. -/
def cpython310 : Source where
  label := "cpython-3.10.def"
  version := ⟨3, 10⟩
  implementation := "cpython"
  parent := some (⟨3, 9⟩, "cpython")
  directives := [
    ⟨6, "SET", ["jump_unit", "2"]⟩,
    ⟨7, "SET", ["line_table", "linetable"]⟩,
    ⟨9, "RM", ["RERAISE", "48"]⟩,
    ⟨11, "DEF", ["GET_LEN", "30", "0", "1", "op"]⟩,
    ⟨12, "DEF", ["MATCH_MAPPING", "31", "0", "1", "op"]⟩,
    ⟨13, "DEF", ["MATCH_SEQUENCE", "32", "0", "1", "op"]⟩,
    ⟨14, "DEF", ["MATCH_KEYS", "33", "0", "2", "op"]⟩,
    ⟨15, "DEF", ["COPY_DICT_WITHOUT_KEYS", "34", "2", "2", "op"]⟩,
    ⟨16, "DEF", ["ROT_N", "99", "0", "0", "op"]⟩,
    ⟨17, "DEF", ["RERAISE", "119", "3", "0", "op", "nofollow"]⟩,
    ⟨18, "DEF", ["GEN_START", "129", "1", "0", "op"]⟩,
    ⟨19, "DEF", ["MATCH_CLASS", "152", "2", "1", "op"]⟩]

end Catalog
end Disassembler
