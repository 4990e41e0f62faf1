import Disassembler.Table.Registry

/-!
# PyPy 3.6

The opcodes of version 3.6, as changes to those of cpython 3.6.
-/

namespace Disassembler
namespace Catalog

/-- The table definition of pypy 3.6. -/
def pypy36 : Source where
  label := "pypy-3.6.def"
  version := ⟨3, 6⟩
  implementation := "pypy"
  parent := some (⟨3, 6⟩, "cpython")
  directives := [
    ⟨6, "RM", ["CALL_FUNCTION_EX", "142"]⟩,
    ⟨7, "RM", ["BUILD_TUPLE_UNPACK_WITH_CALL", "158"]⟩,
    ⟨8, "RM", ["CALL_FUNCTION", "131"]⟩,
    ⟨9, "RM", ["CALL_FUNCTION_KW", "141"]⟩,
    ⟨11, "DEF", ["CALL_FUNCTION", "131", "-1", "1", "call"]⟩,
    ⟨12, "DEF", ["MAKE_CLOSURE", "134", "-3", "1", "nargs"]⟩,
    ⟨13, "DEF", ["CALL_FUNCTION_VAR", "140", "-1", "1", "call"]⟩,
    ⟨14, "DEF", ["CALL_FUNCTION_KW", "141", "-1", "1", "call"]⟩,
    ⟨15, "DEF", ["CALL_FUNCTION_VAR_KW", "142", "-1", "1", "call"]⟩,
    ⟨16, "DEF", ["LOOKUP_METHOD", "201", "1", "2", "name"]⟩,
    ⟨17, "DEF", ["CALL_METHOD", "202", "-3", "1", "call"]⟩,
    ⟨18, "DEF", ["BUILD_LIST_FROM_ARG", "203", "1", "2", "op"]⟩,
    ⟨19, "DEF", ["JUMP_IF_NOT_DEBUG", "204", "0", "0", "jrel", "cond"]⟩,
    ⟨21, "STACK", ["CALL_FUNCTION", "call_packed"]⟩,
    ⟨22, "STACK", ["CALL_FUNCTION_VAR", "call_packed_var"]⟩,
    ⟨23, "STACK", ["CALL_FUNCTION_KW", "call_packed_var"]⟩,
    ⟨24, "STACK", ["CALL_FUNCTION_VAR_KW", "call_packed_var_kw"]⟩,
    ⟨26, "FMT", ["CALL_FUNCTION", "call_pos_named"]⟩,
    ⟨27, "FMT", ["CALL_FUNCTION_VAR", "call_pos_named"]⟩,
    ⟨28, "FMT", ["CALL_FUNCTION_KW", "call_pos_named"]⟩,
    ⟨29, "FMT", ["CALL_FUNCTION_VAR_KW", "call_pos_named"]⟩,
    ⟨30, "FMT", ["CALL_METHOD", "call_positional"]⟩,
    ⟨32, "XFMT", ["CALL_FUNCTION", "call_function_packed"]⟩,
    ⟨33, "XFMT", ["LOOKUP_METHOD", "attr"]⟩]

end Catalog
end Disassembler
