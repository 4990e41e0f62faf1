import Disassembler.Table.Registry

/-!
# CPython 3.6

The opcodes of version 3.6, as changes to those of cpython 3.5.
-/

namespace Disassembler
namespace Catalog

/-- The table definition of cpython 3.6. -/
def cpython36 : Source where
  label := "cpython-3.6.def"
  version := ⟨3, 6⟩
  implementation := "cpython"
  parent := some (⟨3, 5⟩, "cpython")
  directives := [
    ⟨6, "SET", ["wordcode", "true"]⟩,
    ⟨7, "SET", ["extended_arg_shift", "8"]⟩,
    ⟨8, "SET", ["line_table", "lnotab_signed"]⟩,
    ⟨10, "RM", ["MAKE_CLOSURE", "134"]⟩,
    ⟨11, "RM", ["CALL_FUNCTION_VAR", "140"]⟩,
    ⟨12, "RM", ["CALL_FUNCTION_VAR_KW", "142"]⟩,
    ⟨13, "RM", ["MAKE_FUNCTION", "132"]⟩,
    ⟨14, "RM", ["CALL_FUNCTION", "131"]⟩,
    ⟨15, "RM", ["CALL_FUNCTION_KW", "141"]⟩,
    ⟨17, "DEF", ["SETUP_ANNOTATIONS", "85", "0", "0", "op"]⟩,
    ⟨18, "DEF", ["STORE_ANNOTATION", "127", "1", "0", "store_name"]⟩,
    ⟨19, "DEF", ["CALL_FUNCTION", "131", "-2", "1", "call"]⟩,
    ⟨20, "DEF", ["MAKE_FUNCTION", "132", "-2", "1", "nargs"]⟩,
    ⟨21, "DEF", ["CALL_FUNCTION_KW", "141", "-3", "1", "call"]⟩,
    ⟨22, "DEF", ["CALL_FUNCTION_EX", "142", "-2", "1", "call"]⟩,
    ⟨23, "DEF", ["FORMAT_VALUE", "155", "1", "1", "unary", "encoded_arg"]⟩,
    ⟨24, "DEF", ["BUILD_CONST_KEY_MAP", "156", "-2", "1", "varargs"]⟩,
    ⟨25, "DEF", ["BUILD_STRING", "157", "-1", "1", "varargs"]⟩,
    ⟨26, "DEF", ["BUILD_TUPLE_UNPACK_WITH_CALL", "158", "-1", "1", "varargs"]⟩,
    ⟨28, "STACK", ["MAKE_FUNCTION", "make_function36"]⟩,
    ⟨29, "STACK", ["CALL_FUNCTION_EX", "call_ex"]⟩,
    ⟨30, "STACK", ["FORMAT_VALUE", "format_value"]⟩,
    ⟨31, "STACK", ["BUILD_MAP_UNPACK_WITH_CALL", "-"]⟩,
    ⟨33, "FMT", ["CALL_FUNCTION", "call_positional"]⟩,
    ⟨34, "FMT", ["CALL_FUNCTION_KW", "call_kw"]⟩,
    ⟨35, "FMT", ["CALL_FUNCTION_EX", "call_ex"]⟩,
    ⟨36, "FMT", ["MAKE_FUNCTION", "make_function_flags"]⟩,
    ⟨37, "FMT", ["FORMAT_VALUE", "format_value"]⟩,
    ⟨38, "FMT", ["BUILD_MAP_UNPACK_WITH_CALL", "build_map_unpack_with_call36"]⟩,
    ⟨40, "XFMT", ["CALL_FUNCTION", "call_function"]⟩,
    ⟨41, "XFMT", ["CALL_FUNCTION_KW", "call_function_kw"]⟩,
    ⟨42, "XFMT", ["MAKE_FUNCTION", "make_function"]⟩,
    ⟨43, "XFMT", ["FORMAT_VALUE", "format_value"]⟩,
    ⟨44, "XFMT", ["BUILD_STRING", "build_string"]⟩,
    ⟨45, "XFMT", ["BUILD_CONST_KEY_MAP", "build_const_key_map"]⟩]

end Catalog
end Disassembler
