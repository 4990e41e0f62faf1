import Disassembler.Table.Registry

/-!
# CPython 3.9

The opcodes of version 3.9, as changes to those of cpython 3.8.
-/

namespace Disassembler
namespace Catalog

/-- The table definition of cpython 3.9. -/
def cpython39 : Source where
  label := "cpython-3.9.def"
  version := ⟨3, 9⟩
  implementation := "cpython"
  parent := some (⟨3, 8⟩, "cpython")
  directives := [
    ⟨5, "RM", ["BEGIN_FINALLY", "53"]⟩,
    ⟨6, "RM", ["WITH_CLEANUP_START", "81"]⟩,
    ⟨7, "RM", ["WITH_CLEANUP_FINISH", "82"]⟩,
    ⟨8, "RM", ["END_FINALLY", "88"]⟩,
    ⟨9, "RM", ["BUILD_LIST_UNPACK", "149"]⟩,
    ⟨10, "RM", ["BUILD_MAP_UNPACK", "150"]⟩,
    ⟨11, "RM", ["BUILD_MAP_UNPACK_WITH_CALL", "151"]⟩,
    ⟨12, "RM", ["BUILD_TUPLE_UNPACK", "152"]⟩,
    ⟨13, "RM", ["BUILD_SET_UNPACK", "153"]⟩,
    ⟨14, "RM", ["BUILD_TUPLE_UNPACK_WITH_CALL", "158"]⟩,
    ⟨15, "RM", ["CALL_FINALLY", "162"]⟩,
    ⟨16, "RM", ["POP_FINALLY", "163"]⟩,
    ⟨18, "DEF", ["RERAISE", "48", "3", "0", "op", "nofollow"]⟩,
    ⟨19, "DEF", ["WITH_EXCEPT_START", "49", "0", "1", "op"]⟩,
    ⟨20, "DEF", ["LOAD_ASSERTION_ERROR", "74", "0", "1", "op"]⟩,
    ⟨21, "DEF", ["LIST_TO_TUPLE", "82", "1", "1", "op"]⟩,
    ⟨22, "DEF", ["IS_OP", "117", "2", "1", "binary"]⟩,
    ⟨23, "DEF", ["CONTAINS_OP", "118", "2", "1", "binary"]⟩,
    ⟨24, "DEF", ["JUMP_IF_NOT_EXC_MATCH", "121", "2", "0", "jabs", "cond"]⟩,
    ⟨25, "DEF", ["LIST_EXTEND", "162", "2", "1", "op"]⟩,
    ⟨26, "DEF", ["SET_UPDATE", "163", "2", "1", "op"]⟩,
    ⟨27, "DEF", ["DICT_MERGE", "164", "2", "1", "op"]⟩,
    ⟨28, "DEF", ["DICT_UPDATE", "165", "2", "1", "op"]⟩,
    ⟨30, "FMT", ["IS_OP", "is_op"]⟩,
    ⟨31, "FMT", ["CONTAINS_OP", "contains_op"]⟩,
    ⟨33, "XFMT", ["IS_OP", "is_op"]⟩,
    ⟨34, "XFMT", ["CONTAINS_OP", "contains_op"]⟩]

end Catalog
end Disassembler
