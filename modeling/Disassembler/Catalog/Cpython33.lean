import Disassembler.Table.Registry

/-!
# CPython 3.3

All opcodes of version 3.3.
-/

namespace Disassembler
namespace Catalog

/-- The table definition of cpython 3.3. -/
def cpython33 : Source where
  label := "cpython-3.3.def"
  version := ⟨3, 3⟩
  implementation := "cpython"
  parent := none
  directives := [
    ⟨5, "SET", ["wordcode", "false"]⟩,
    ⟨6, "SET", ["have_argument", "90"]⟩,
    ⟨7, "SET", ["extended_arg_shift", "16"]⟩,
    ⟨8, "SET", ["jump_unit", "1"]⟩,
    ⟨9, "SET", ["line_table", "lnotab"]⟩,
    ⟨11, "DEF", ["POP_TOP", "1", "1", "0", "op"]⟩,
    ⟨12, "DEF", ["ROT_TWO", "2", "2", "2", "op"]⟩,
    ⟨13, "DEF", ["ROT_THREE", "3", "3", "3", "op"]⟩,
    ⟨14, "DEF", ["DUP_TOP", "4", "1", "2", "op"]⟩,
    ⟨15, "DEF", ["DUP_TOP_TWO", "5", "2", "4", "op"]⟩,
    ⟨16, "DEF", ["NOP", "9", "0", "0", "op"]⟩,
    ⟨18, "DEF", ["UNARY_POSITIVE", "10", "1", "1", "unary"]⟩,
    ⟨19, "DEF", ["UNARY_NEGATIVE", "11", "1", "1", "unary"]⟩,
    ⟨20, "DEF", ["UNARY_NOT", "12", "1", "1", "unary"]⟩,
    ⟨21, "DEF", ["UNARY_INVERT", "15", "1", "1", "unary"]⟩,
    ⟨23, "DEF", ["BINARY_POWER", "19", "2", "1", "binary"]⟩,
    ⟨24, "DEF", ["BINARY_MULTIPLY", "20", "2", "1", "binary"]⟩,
    ⟨25, "DEF", ["BINARY_MODULO", "22", "2", "1", "binary"]⟩,
    ⟨26, "DEF", ["BINARY_ADD", "23", "2", "1", "binary"]⟩,
    ⟨27, "DEF", ["BINARY_SUBTRACT", "24", "2", "1", "binary"]⟩,
    ⟨28, "DEF", ["BINARY_SUBSCR", "25", "2", "1", "binary"]⟩,
    ⟨29, "DEF", ["BINARY_FLOOR_DIVIDE", "26", "2", "1", "binary"]⟩,
    ⟨30, "DEF", ["BINARY_TRUE_DIVIDE", "27", "2", "1", "binary"]⟩,
    ⟨31, "DEF", ["INPLACE_FLOOR_DIVIDE", "28", "2", "1", "binary"]⟩,
    ⟨32, "DEF", ["INPLACE_TRUE_DIVIDE", "29", "2", "1", "binary"]⟩,
    ⟨34, "DEF", ["STORE_MAP", "54", "3", "1", "store"]⟩,
    ⟨35, "DEF", ["INPLACE_ADD", "55", "2", "1", "binary"]⟩,
    ⟨36, "DEF", ["INPLACE_SUBTRACT", "56", "2", "1", "binary"]⟩,
    ⟨37, "DEF", ["INPLACE_MULTIPLY", "57", "2", "1", "binary"]⟩,
    ⟨38, "DEF", ["INPLACE_MODULO", "59", "2", "1", "binary"]⟩,
    ⟨39, "DEF", ["STORE_SUBSCR", "60", "3", "0", "store"]⟩,
    ⟨40, "DEF", ["DELETE_SUBSCR", "61", "2", "0", "op"]⟩,
    ⟨41, "DEF", ["BINARY_LSHIFT", "62", "2", "1", "binary"]⟩,
    ⟨42, "DEF", ["BINARY_RSHIFT", "63", "2", "1", "binary"]⟩,
    ⟨43, "DEF", ["BINARY_AND", "64", "2", "1", "binary"]⟩,
    ⟨44, "DEF", ["BINARY_XOR", "65", "2", "1", "binary"]⟩,
    ⟨45, "DEF", ["BINARY_OR", "66", "2", "1", "binary"]⟩,
    ⟨46, "DEF", ["INPLACE_POWER", "67", "2", "1", "binary"]⟩,
    ⟨47, "DEF", ["GET_ITER", "68", "1", "1", "op"]⟩,
    ⟨48, "DEF", ["STORE_LOCALS", "69", "1", "0", "store"]⟩,
    ⟨49, "DEF", ["PRINT_EXPR", "70", "1", "0", "op"]⟩,
    ⟨50, "DEF", ["LOAD_BUILD_CLASS", "71", "0", "1", "op"]⟩,
    ⟨51, "DEF", ["YIELD_FROM", "72", "1", "0", "op"]⟩,
    ⟨52, "DEF", ["INPLACE_LSHIFT", "75", "2", "1", "binary"]⟩,
    ⟨53, "DEF", ["INPLACE_RSHIFT", "76", "2", "1", "binary"]⟩,
    ⟨54, "DEF", ["INPLACE_AND", "77", "2", "1", "binary"]⟩,
    ⟨55, "DEF", ["INPLACE_XOR", "78", "2", "1", "binary"]⟩,
    ⟨56, "DEF", ["INPLACE_OR", "79", "2", "1", "binary"]⟩,
    ⟨57, "DEF", ["BREAK_LOOP", "80", "0", "0", "op", "nofollow"]⟩,
    ⟨58, "DEF", ["WITH_CLEANUP", "81", "1", "0", "op"]⟩,
    ⟨59, "DEF", ["RETURN_VALUE", "83", "1", "0", "op", "nofollow"]⟩,
    ⟨60, "DEF", ["IMPORT_STAR", "84", "1", "0", "op"]⟩,
    ⟨61, "DEF", ["YIELD_VALUE", "86", "1", "1", "op"]⟩,
    ⟨62, "DEF", ["POP_BLOCK", "87", "0", "0", "op"]⟩,
    ⟨63, "DEF", ["END_FINALLY", "88", "1", "0", "op"]⟩,
    ⟨64, "DEF", ["POP_EXCEPT", "89", "0", "0", "op"]⟩,
    ⟨67, "DEF", ["STORE_NAME", "90", "1", "0", "store_name"]⟩,
    ⟨68, "DEF", ["DELETE_NAME", "91", "0", "0", "name"]⟩,
    ⟨69, "DEF", ["UNPACK_SEQUENCE", "92", "1", "-1", "varargs"]⟩,
    ⟨70, "DEF", ["FOR_ITER", "93", "0", "1", "jrel"]⟩,
    ⟨71, "DEF", ["UNPACK_EX", "94", "1", "-1", "varargs"]⟩,
    ⟨72, "DEF", ["STORE_ATTR", "95", "2", "0", "store_name"]⟩,
    ⟨73, "DEF", ["DELETE_ATTR", "96", "1", "0", "name"]⟩,
    ⟨74, "DEF", ["STORE_GLOBAL", "97", "1", "0", "store_name"]⟩,
    ⟨75, "DEF", ["DELETE_GLOBAL", "98", "0", "0", "name"]⟩,
    ⟨76, "DEF", ["LOAD_CONST", "100", "0", "1", "const", "nullary_load"]⟩,
    ⟨77, "DEF", ["LOAD_NAME", "101", "0", "1", "name", "nullary_load"]⟩,
    ⟨78, "DEF", ["BUILD_TUPLE", "102", "-1", "1", "varargs"]⟩,
    ⟨79, "DEF", ["BUILD_LIST", "103", "-1", "1", "varargs"]⟩,
    ⟨80, "DEF", ["BUILD_SET", "104", "-1", "1", "varargs"]⟩,
    ⟨81, "DEF", ["BUILD_MAP", "105", "0", "1", "varargs"]⟩,
    ⟨82, "DEF", ["LOAD_ATTR", "106", "1", "1", "name"]⟩,
    ⟨83, "DEF", ["COMPARE_OP", "107", "2", "1", "compare"]⟩,
    ⟨84, "DEF", ["IMPORT_NAME", "108", "2", "1", "name", "nullary_load"]⟩,
    ⟨85, "DEF", ["IMPORT_FROM", "109", "0", "1", "name"]⟩,
    ⟨87, "DEF", ["JUMP_FORWARD", "110", "0", "0", "jrel", "nofollow"]⟩,
    ⟨88, "DEF", ["JUMP_IF_FALSE_OR_POP", "111", "0", "0", "jabs", "cond"]⟩,
    ⟨89, "DEF", ["JUMP_IF_TRUE_OR_POP", "112", "0", "0", "jabs", "cond"]⟩,
    ⟨90, "DEF", ["JUMP_ABSOLUTE", "113", "0", "0", "jabs", "nofollow"]⟩,
    ⟨91, "DEF", ["POP_JUMP_IF_FALSE", "114", "1", "0", "jabs", "cond"]⟩,
    ⟨92, "DEF", ["POP_JUMP_IF_TRUE", "115", "1", "0", "jabs", "cond"]⟩,
    ⟨93, "DEF", ["LOAD_GLOBAL", "116", "0", "1", "name", "nullary_load"]⟩,
    ⟨95, "DEF", ["CONTINUE_LOOP", "119", "0", "0", "jabs", "nofollow"]⟩,
    ⟨96, "DEF", ["SETUP_LOOP", "120", "0", "0", "jrel", "cond"]⟩,
    ⟨97, "DEF", ["SETUP_EXCEPT", "121", "0", "6", "jrel", "cond"]⟩,
    ⟨98, "DEF", ["SETUP_FINALLY", "122", "0", "6", "jrel", "cond"]⟩,
    ⟨100, "DEF", ["LOAD_FAST", "124", "0", "1", "local", "nullary_load"]⟩,
    ⟨101, "DEF", ["STORE_FAST", "125", "1", "0", "store_local"]⟩,
    ⟨102, "DEF", ["DELETE_FAST", "126", "0", "0", "local"]⟩,
    ⟨104, "DEF", ["RAISE_VARARGS", "130", "-1", "0", "nargs", "nofollow"]⟩,
    ⟨105, "DEF", ["CALL_FUNCTION", "131", "-1", "1", "call"]⟩,
    ⟨106, "DEF", ["MAKE_FUNCTION", "132", "-2", "1", "nargs"]⟩,
    ⟨107, "DEF", ["BUILD_SLICE", "133", "-1", "1", "varargs"]⟩,
    ⟨108, "DEF", ["MAKE_CLOSURE", "134", "-3", "1", "nargs"]⟩,
    ⟨109, "DEF", ["LOAD_CLOSURE", "135", "0", "1", "free", "nullary_load"]⟩,
    ⟨110, "DEF", ["LOAD_DEREF", "136", "0", "1", "free", "nullary_load"]⟩,
    ⟨111, "DEF", ["STORE_DEREF", "137", "1", "0", "store_free"]⟩,
    ⟨112, "DEF", ["DELETE_DEREF", "138", "0", "0", "free"]⟩,
    ⟨114, "DEF", ["CALL_FUNCTION_VAR", "140", "-1", "1", "call"]⟩,
    ⟨115, "DEF", ["CALL_FUNCTION_KW", "141", "-1", "1", "call"]⟩,
    ⟨116, "DEF", ["CALL_FUNCTION_VAR_KW", "142", "-1", "1", "call"]⟩,
    ⟨117, "DEF", ["SETUP_WITH", "143", "0", "7", "jrel"]⟩,
    ⟨118, "DEF", ["EXTENDED_ARG", "144", "0", "0", "op"]⟩,
    ⟨119, "DEF", ["LIST_APPEND", "145", "2", "1", "op"]⟩,
    ⟨120, "DEF", ["SET_ADD", "146", "1", "0", "op"]⟩,
    ⟨121, "DEF", ["MAP_ADD", "147", "3", "1", "op"]⟩,
    ⟨123, "STACK", ["UNPACK_EX", "unpack_ex"]⟩,
    ⟨124, "STACK", ["MAKE_FUNCTION", "make_function33"]⟩,
    ⟨125, "STACK", ["MAKE_CLOSURE", "make_closure33"]⟩,
    ⟨126, "STACK", ["CALL_FUNCTION", "call_packed"]⟩,
    ⟨127, "STACK", ["CALL_FUNCTION_VAR", "call_packed_var"]⟩,
    ⟨128, "STACK", ["CALL_FUNCTION_KW", "call_packed_var"]⟩,
    ⟨129, "STACK", ["CALL_FUNCTION_VAR_KW", "call_packed_var_kw"]⟩,
    ⟨131, "FMT", ["EXTENDED_ARG", "extended_arg"]⟩,
    ⟨132, "FMT", ["CALL_FUNCTION", "call_pos_named"]⟩,
    ⟨133, "FMT", ["CALL_FUNCTION_VAR", "call_pos_named"]⟩,
    ⟨134, "FMT", ["CALL_FUNCTION_KW", "call_pos_named"]⟩,
    ⟨135, "FMT", ["CALL_FUNCTION_VAR_KW", "call_pos_named"]⟩,
    ⟨136, "FMT", ["MAKE_FUNCTION", "make_function_counts"]⟩,
    ⟨137, "FMT", ["MAKE_CLOSURE", "make_function_counts"]⟩,
    ⟨138, "FMT", ["RAISE_VARARGS", "raise_varargs_older"]⟩,
    ⟨139, "FMT", ["ROT_TWO", "rot_two"]⟩,
    ⟨140, "FMT", ["ROT_THREE", "rot_three"]⟩,
    ⟨142, "XFMT", ["BINARY_POWER", "infix", "**"]⟩,
    ⟨143, "XFMT", ["BINARY_MULTIPLY", "infix", "*"]⟩,
    ⟨144, "XFMT", ["BINARY_MODULO", "infix", "%"]⟩,
    ⟨145, "XFMT", ["BINARY_ADD", "infix", "+"]⟩,
    ⟨146, "XFMT", ["BINARY_SUBTRACT", "infix", "-"]⟩,
    ⟨147, "XFMT", ["BINARY_SUBSCR", "subscript"]⟩,
    ⟨148, "XFMT", ["BINARY_FLOOR_DIVIDE", "infix", "//"]⟩,
    ⟨149, "XFMT", ["BINARY_TRUE_DIVIDE", "infix", "/"]⟩,
    ⟨150, "XFMT", ["BINARY_LSHIFT", "infix", "<<"]⟩,
    ⟨151, "XFMT", ["BINARY_RSHIFT", "infix", ">>"]⟩,
    ⟨152, "XFMT", ["BINARY_AND", "infix", "&"]⟩,
    ⟨153, "XFMT", ["BINARY_XOR", "infix", "^"]⟩,
    ⟨154, "XFMT", ["BINARY_OR", "infix", "|"]⟩,
    ⟨155, "XFMT", ["INPLACE_ADD", "infix", "+="]⟩,
    ⟨156, "XFMT", ["INPLACE_SUBTRACT", "infix", "-="]⟩,
    ⟨157, "XFMT", ["INPLACE_MULTIPLY", "infix", "*="]⟩,
    ⟨158, "XFMT", ["INPLACE_MODULO", "infix", "%="]⟩,
    ⟨159, "XFMT", ["INPLACE_POWER", "infix", "**="]⟩,
    ⟨160, "XFMT", ["INPLACE_FLOOR_DIVIDE", "infix", "//="]⟩,
    ⟨161, "XFMT", ["INPLACE_TRUE_DIVIDE", "infix", "/="]⟩,
    ⟨162, "XFMT", ["INPLACE_LSHIFT", "infix", "<<="]⟩,
    ⟨163, "XFMT", ["INPLACE_RSHIFT", "infix", ">>="]⟩,
    ⟨164, "XFMT", ["INPLACE_AND", "infix", "&="]⟩,
    ⟨165, "XFMT", ["INPLACE_XOR", "infix", "^="]⟩,
    ⟨166, "XFMT", ["INPLACE_OR", "infix", "|="]⟩,
    ⟨167, "XFMT", ["UNARY_NEGATIVE", "negate"]⟩,
    ⟨168, "XFMT", ["UNARY_POSITIVE", "positive"]⟩,
    ⟨169, "XFMT", ["UNARY_INVERT", "invert"]⟩,
    ⟨170, "XFMT", ["UNARY_NOT", "not"]⟩,
    ⟨171, "XFMT", ["COMPARE_OP", "compare"]⟩,
    ⟨172, "XFMT", ["DUP_TOP", "dup_top"]⟩,
    ⟨173, "XFMT", ["RETURN_VALUE", "return_value"]⟩,
    ⟨174, "XFMT", ["STORE_NAME", "store"]⟩,
    ⟨175, "XFMT", ["STORE_FAST", "store"]⟩,
    ⟨176, "XFMT", ["STORE_GLOBAL", "store"]⟩,
    ⟨177, "XFMT", ["STORE_DEREF", "store"]⟩,
    ⟨178, "XFMT", ["STORE_ATTR", "store_attr"]⟩,
    ⟨179, "XFMT", ["STORE_SUBSCR", "store_subscr"]⟩,
    ⟨180, "XFMT", ["LOAD_ATTR", "attr"]⟩,
    ⟨181, "XFMT", ["LOAD_BUILD_CLASS", "load_build_class"]⟩,
    ⟨182, "XFMT", ["BUILD_LIST", "build_list"]⟩,
    ⟨183, "XFMT", ["BUILD_TUPLE", "build_tuple"]⟩,
    ⟨184, "XFMT", ["BUILD_SET", "build_set"]⟩,
    ⟨185, "XFMT", ["BUILD_MAP", "build_map_hint"]⟩,
    ⟨186, "XFMT", ["BUILD_SLICE", "build_slice"]⟩,
    ⟨187, "XFMT", ["CALL_FUNCTION", "call_function_packed"]⟩,
    ⟨188, "XFMT", ["IMPORT_NAME", "import_name"]⟩,
    ⟨189, "XFMT", ["IMPORT_FROM", "import_from"]⟩,
    ⟨190, "XFMT", ["MAKE_FUNCTION", "make_function_old"]⟩,
    ⟨191, "XFMT", ["MAKE_CLOSURE", "make_function_old"]⟩,
    ⟨192, "XFMT", ["RAISE_VARARGS", "raise_varargs"]⟩]

end Catalog
end Disassembler
