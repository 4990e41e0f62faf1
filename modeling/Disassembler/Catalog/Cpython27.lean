import Disassembler.Table.Registry

/-!
# CPython 2.7

The opcodes of version 2.7, as changes to those of cpython 2.6.
-/

namespace Disassembler
namespace Catalog

/-- The table definition of cpython 2.7. -/
def cpython27 : Source where
  label := "cpython-2.7.def"
  version := ⟨2, 7⟩
  implementation := "cpython"
  parent := some (⟨2, 6⟩, "cpython")
  directives := [
    ⟨5, "RM", ["LIST_APPEND", "18"]⟩,
    ⟨6, "RM", ["BUILD_MAP", "104"]⟩,
    ⟨7, "RM", ["LOAD_ATTR", "105"]⟩,
    ⟨8, "RM", ["COMPARE_OP", "106"]⟩,
    ⟨9, "RM", ["IMPORT_NAME", "107"]⟩,
    ⟨10, "RM", ["IMPORT_FROM", "108"]⟩,
    ⟨11, "RM", ["JUMP_IF_FALSE", "111"]⟩,
    ⟨12, "RM", ["JUMP_IF_TRUE", "112"]⟩,
    ⟨13, "RM", ["EXTENDED_ARG", "143"]⟩,
    ⟨15, "DEF", ["END_FINALLY", "88", "3", "0", "op"]⟩,
    ⟨16, "DEF", ["LIST_APPEND", "94", "2", "1", "op"]⟩,
    ⟨17, "DEF", ["BUILD_SET", "104", "-1", "1", "varargs"]⟩,
    ⟨18, "DEF", ["BUILD_MAP", "105", "0", "1", "varargs"]⟩,
    ⟨19, "DEF", ["LOAD_ATTR", "106", "1", "1", "name"]⟩,
    ⟨20, "DEF", ["COMPARE_OP", "107", "2", "1", "compare"]⟩,
    ⟨21, "DEF", ["IMPORT_NAME", "108", "2", "1", "name", "nullary_load"]⟩,
    ⟨22, "DEF", ["IMPORT_FROM", "109", "0", "1", "name"]⟩,
    ⟨23, "DEF", ["JUMP_IF_FALSE_OR_POP", "111", "0", "0", "jabs", "cond"]⟩,
    ⟨24, "DEF", ["JUMP_IF_TRUE_OR_POP", "112", "0", "0", "jabs", "cond"]⟩,
    ⟨25, "DEF", ["POP_JUMP_IF_FALSE", "114", "1", "0", "jabs", "cond"]⟩,
    ⟨26, "DEF", ["POP_JUMP_IF_TRUE", "115", "1", "0", "jabs", "cond"]⟩,
    ⟨27, "DEF", ["SETUP_WITH", "143", "0", "4", "jrel"]⟩,
    ⟨28, "DEF", ["EXTENDED_ARG", "145", "0", "0", "op"]⟩,
    ⟨29, "DEF", ["SET_ADD", "146", "1", "0", "op"]⟩,
    ⟨30, "DEF", ["MAP_ADD", "147", "3", "1", "op"]⟩,
    ⟨32, "FMT", ["EXTENDED_ARG", "extended_arg"]⟩,
    ⟨33, "XFMT", ["LOAD_ATTR", "attr"]⟩,
    ⟨34, "XFMT", ["BUILD_SET", "build_set"]⟩,
    ⟨35, "XFMT", ["BUILD_MAP", "build_map_hint"]⟩,
    ⟨36, "XFMT", ["COMPARE_OP", "compare"]⟩,
    ⟨37, "XFMT", ["IMPORT_NAME", "import_name"]⟩,
    ⟨38, "XFMT", ["IMPORT_FROM", "import_from"]⟩]

end Catalog
end Disassembler
