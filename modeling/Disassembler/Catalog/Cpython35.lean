import Disassembler.Table.Registry

/-!
# CPython 3.5

The opcodes of version 3.5, as changes to those of cpython 3.4.
-/

namespace Disassembler
namespace Catalog

/-- The table definition of cpython 3.5. -/
def cpython35 : Source where
  label := "cpython-3.5.def"
  version := ⟨3, 5⟩
  implementation := "cpython"
  parent := some (⟨3, 4⟩, "cpython")
  directives := [
    ⟨5, "RM", ["STORE_MAP", "54"]⟩,
    ⟨6, "RM", ["WITH_CLEANUP", "81"]⟩,
    ⟨7, "RM", ["BUILD_MAP", "105"]⟩,
    ⟨9, "DEF", ["BINARY_MATRIX_MULTIPLY", "16", "2", "1", "binary"]⟩,
    ⟨10, "DEF", ["INPLACE_MATRIX_MULTIPLY", "17", "2", "1", "binary"]⟩,
    ⟨11, "DEF", ["GET_AITER", "50", "1", "1", "op"]⟩,
    ⟨12, "DEF", ["GET_ANEXT", "51", "0", "1", "op"]⟩,
    ⟨13, "DEF", ["BEFORE_ASYNC_WITH", "52", "0", "1", "op"]⟩,
    ⟨14, "DEF", ["GET_YIELD_FROM_ITER", "69", "1", "1", "op"]⟩,
    ⟨15, "DEF", ["GET_AWAITABLE", "73", "1", "1", "op"]⟩,
    ⟨16, "DEF", ["WITH_CLEANUP_START", "81", "0", "1", "op"]⟩,
    ⟨17, "DEF", ["WITH_CLEANUP_FINISH", "82", "1", "0", "op"]⟩,
    ⟨18, "DEF", ["BUILD_MAP", "105", "-1", "-1", "varargs"]⟩,
    ⟨19, "DEF", ["BUILD_LIST_UNPACK", "149", "-1", "1", "varargs"]⟩,
    ⟨20, "DEF", ["BUILD_MAP_UNPACK", "150", "-1", "1", "varargs"]⟩,
    ⟨21, "DEF", ["BUILD_MAP_UNPACK_WITH_CALL", "151", "-1", "1", "varargs"]⟩,
    ⟨22, "DEF", ["BUILD_TUPLE_UNPACK", "152", "-1", "1", "varargs"]⟩,
    ⟨23, "DEF", ["BUILD_SET_UNPACK", "153", "-1", "1", "varargs"]⟩,
    ⟨24, "DEF", ["SETUP_ASYNC_WITH", "154", "0", "6", "jrel"]⟩,
    ⟨26, "STACK", ["BUILD_MAP", "map_pairs"]⟩,
    ⟨27, "STACK", ["BUILD_MAP_UNPACK_WITH_CALL", "map_unpack_with_call"]⟩,
    ⟨29, "FMT", ["BUILD_MAP_UNPACK_WITH_CALL", "build_map_unpack_with_call35"]⟩,
    ⟨31, "XFMT", ["BINARY_MATRIX_MULTIPLY", "matmul"]⟩,
    ⟨32, "XFMT", ["INPLACE_MATRIX_MULTIPLY", "infix", "@="]⟩,
    ⟨33, "XFMT", ["BUILD_MAP", "build_map"]⟩]

end Catalog
end Disassembler
