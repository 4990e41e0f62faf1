import Disassembler.Table.Registry

/-!
# CPython 2.6

All opcodes of version 2.6.
-/

namespace Disassembler
namespace Catalog

/-- The table definition of cpython 2.6. -/
def cpython26 : Source where
  label := "cpython-2.6.def"
  version := ⟨2, 6⟩
  implementation := "cpython"
  parent := none
  directives := [
    ⟨5, "SET", ["wordcode", "false"]⟩,
    ⟨6, "SET", ["have_argument", "90"]⟩,
    ⟨7, "SET", ["extended_arg_shift", "16"]⟩,
    ⟨8, "SET", ["jump_unit", "1"]⟩,
    ⟨9, "SET", ["line_table", "lnotab"]⟩,
    ⟨11, "DEF", ["STOP_CODE", "0", "0", "0", "op", "nofollow"]⟩,
    ⟨12, "DEF", ["POP_TOP", "1", "1", "0", "op"]⟩,
    ⟨13, "DEF", ["ROT_TWO", "2", "2", "2", "op"]⟩,
    ⟨14, "DEF", ["ROT_THREE", "3", "3", "3", "op"]⟩,
    ⟨15, "DEF", ["DUP_TOP", "4", "1", "2", "op"]⟩,
    ⟨16, "DEF", ["ROT_FOUR", "5", "4", "4", "op"]⟩,
    ⟨17, "DEF", ["NOP", "9", "0", "0", "op"]⟩,
    ⟨19, "DEF", ["UNARY_POSITIVE", "10", "1", "1", "unary"]⟩,
    ⟨20, "DEF", ["UNARY_NEGATIVE", "11", "1", "1", "unary"]⟩,
    ⟨21, "DEF", ["UNARY_NOT", "12", "1", "1", "unary"]⟩,
    ⟨22, "DEF", ["UNARY_CONVERT", "13", "1", "1", "unary"]⟩,
    ⟨23, "DEF", ["UNARY_INVERT", "15", "1", "1", "unary"]⟩,
    ⟨25, "DEF", ["LIST_APPEND", "18", "2", "0", "op"]⟩,
    ⟨26, "DEF", ["BINARY_POWER", "19", "2", "1", "binary"]⟩,
    ⟨27, "DEF", ["BINARY_MULTIPLY", "20", "2", "1", "binary"]⟩,
    ⟨28, "DEF", ["BINARY_DIVIDE", "21", "2", "1", "binary"]⟩,
    ⟨29, "DEF", ["BINARY_MODULO", "22", "2", "1", "binary"]⟩,
    ⟨30, "DEF", ["BINARY_ADD", "23", "2", "1", "binary"]⟩,
    ⟨31, "DEF", ["BINARY_SUBTRACT", "24", "2", "1", "binary"]⟩,
    ⟨32, "DEF", ["BINARY_SUBSCR", "25", "2", "1", "binary"]⟩,
    ⟨33, "DEF", ["BINARY_FLOOR_DIVIDE", "26", "2", "1", "binary"]⟩,
    ⟨34, "DEF", ["BINARY_TRUE_DIVIDE", "27", "2", "1", "binary"]⟩,
    ⟨35, "DEF", ["INPLACE_FLOOR_DIVIDE", "28", "2", "1", "binary"]⟩,
    ⟨36, "DEF", ["INPLACE_TRUE_DIVIDE", "29", "2", "1", "binary"]⟩,
    ⟨38, "DEF", ["SLICE+0", "30", "1", "1", "op"]⟩,
    ⟨39, "DEF", ["SLICE+1", "31", "2", "1", "op"]⟩,
    ⟨40, "DEF", ["SLICE+2", "32", "2", "1", "op"]⟩,
    ⟨41, "DEF", ["SLICE+3", "33", "3", "1", "op"]⟩,
    ⟨42, "DEF", ["STORE_SLICE+0", "40", "2", "0", "op"]⟩,
    ⟨43, "DEF", ["STORE_SLICE+1", "41", "3", "0", "op"]⟩,
    ⟨44, "DEF", ["STORE_SLICE+2", "42", "3", "0", "op"]⟩,
    ⟨45, "DEF", ["STORE_SLICE+3", "43", "4", "0", "op"]⟩,
    ⟨46, "DEF", ["DELETE_SLICE+0", "50", "1", "0", "op"]⟩,
    ⟨47, "DEF", ["DELETE_SLICE+1", "51", "2", "0", "op"]⟩,
    ⟨48, "DEF", ["DELETE_SLICE+2", "52", "2", "0", "op"]⟩,
    ⟨49, "DEF", ["DELETE_SLICE+3", "53", "3", "0", "op"]⟩,
    ⟨51, "DEF", ["STORE_MAP", "54", "3", "1", "store"]⟩,
    ⟨52, "DEF", ["INPLACE_ADD", "55", "2", "1", "binary"]⟩,
    ⟨53, "DEF", ["INPLACE_SUBTRACT", "56", "2", "1", "binary"]⟩,
    ⟨54, "DEF", ["INPLACE_MULTIPLY", "57", "2", "1", "binary"]⟩,
    ⟨55, "DEF", ["INPLACE_DIVIDE", "58", "2", "1", "binary"]⟩,
    ⟨56, "DEF", ["INPLACE_MODULO", "59", "2", "1", "binary"]⟩,
    ⟨57, "DEF", ["STORE_SUBSCR", "60", "3", "0", "store"]⟩,
    ⟨58, "DEF", ["DELETE_SUBSCR", "61", "2", "0", "op"]⟩,
    ⟨59, "DEF", ["BINARY_LSHIFT", "62", "2", "1", "binary"]⟩,
    ⟨60, "DEF", ["BINARY_RSHIFT", "63", "2", "1", "binary"]⟩,
    ⟨61, "DEF", ["BINARY_AND", "64", "2", "1", "binary"]⟩,
    ⟨62, "DEF", ["BINARY_XOR", "65", "2", "1", "binary"]⟩,
    ⟨63, "DEF", ["BINARY_OR", "66", "2", "1", "binary"]⟩,
    ⟨64, "DEF", ["INPLACE_POWER", "67", "2", "1", "binary"]⟩,
    ⟨65, "DEF", ["GET_ITER", "68", "1", "1", "op"]⟩,
    ⟨67, "DEF", ["PRINT_EXPR", "70", "1", "0", "op"]⟩,
    ⟨68, "DEF", ["PRINT_ITEM", "71", "1", "0", "op"]⟩,
    ⟨69, "DEF", ["PRINT_NEWLINE", "72", "0", "0", "op"]⟩,
    ⟨70, "DEF", ["PRINT_ITEM_TO", "73", "2", "0", "op"]⟩,
    ⟨71, "DEF", ["PRINT_NEWLINE_TO", "74", "1", "0", "op"]⟩,
    ⟨72, "DEF", ["INPLACE_LSHIFT", "75", "2", "1", "binary"]⟩,
    ⟨73, "DEF", ["INPLACE_RSHIFT", "76", "2", "1", "binary"]⟩,
    ⟨74, "DEF", ["INPLACE_AND", "77", "2", "1", "binary"]⟩,
    ⟨75, "DEF", ["INPLACE_XOR", "78", "2", "1", "binary"]⟩,
    ⟨76, "DEF", ["INPLACE_OR", "79", "2", "1", "binary"]⟩,
    ⟨77, "DEF", ["BREAK_LOOP", "80", "0", "0", "op", "nofollow"]⟩,
    ⟨78, "DEF", ["WITH_CLEANUP", "81", "1", "0", "op"]⟩,
    ⟨79, "DEF", ["LOAD_LOCALS", "82", "0", "1", "op"]⟩,
    ⟨80, "DEF", ["RETURN_VALUE", "83", "1", "0", "op", "nofollow"]⟩,
    ⟨81, "DEF", ["IMPORT_STAR", "84", "1", "0", "op"]⟩,
    ⟨82, "DEF", ["EXEC_STMT", "85", "3", "0", "op"]⟩,
    ⟨83, "DEF", ["YIELD_VALUE", "86", "1", "1", "op"]⟩,
    ⟨84, "DEF", ["POP_BLOCK", "87", "0", "0", "op"]⟩,
    ⟨85, "DEF", ["END_FINALLY", "88", "1", "0", "op"]⟩,
    ⟨86, "DEF", ["BUILD_CLASS", "89", "3", "1", "op"]⟩,
    ⟨89, "DEF", ["STORE_NAME", "90", "1", "0", "store_name"]⟩,
    ⟨90, "DEF", ["DELETE_NAME", "91", "0", "0", "name"]⟩,
    ⟨91, "DEF", ["UNPACK_SEQUENCE", "92", "1", "-1", "varargs"]⟩,
    ⟨92, "DEF", ["FOR_ITER", "93", "0", "1", "jrel"]⟩,
    ⟨93, "DEF", ["STORE_ATTR", "95", "2", "0", "store_name"]⟩,
    ⟨94, "DEF", ["DELETE_ATTR", "96", "1", "0", "name"]⟩,
    ⟨95, "DEF", ["STORE_GLOBAL", "97", "1", "0", "store_name"]⟩,
    ⟨96, "DEF", ["DELETE_GLOBAL", "98", "0", "0", "name"]⟩,
    ⟨97, "DEF", ["DUP_TOPX", "99", "0", "-1", "op"]⟩,
    ⟨98, "DEF", ["LOAD_CONST", "100", "0", "1", "const", "nullary_load"]⟩,
    ⟨99, "DEF", ["LOAD_NAME", "101", "0", "1", "name", "nullary_load"]⟩,
    ⟨100, "DEF", ["BUILD_TUPLE", "102", "-1", "1", "varargs"]⟩,
    ⟨101, "DEF", ["BUILD_LIST", "103", "-1", "1", "varargs"]⟩,
    ⟨102, "DEF", ["BUILD_MAP", "104", "0", "1", "varargs"]⟩,
    ⟨103, "DEF", ["LOAD_ATTR", "105", "1", "1", "name"]⟩,
    ⟨104, "DEF", ["COMPARE_OP", "106", "2", "1", "compare"]⟩,
    ⟨105, "DEF", ["IMPORT_NAME", "107", "1", "1", "name", "nullary_load"]⟩,
    ⟨106, "DEF", ["IMPORT_FROM", "108", "0", "1", "name"]⟩,
    ⟨108, "DEF", ["JUMP_FORWARD", "110", "0", "0", "jrel", "nofollow"]⟩,
    ⟨109, "DEF", ["JUMP_IF_FALSE", "111", "0", "0", "jrel", "cond"]⟩,
    ⟨110, "DEF", ["JUMP_IF_TRUE", "112", "0", "0", "jrel", "cond"]⟩,
    ⟨111, "DEF", ["JUMP_ABSOLUTE", "113", "0", "0", "jabs", "nofollow"]⟩,
    ⟨112, "DEF", ["LOAD_GLOBAL", "116", "0", "1", "name", "nullary_load"]⟩,
    ⟨114, "DEF", ["CONTINUE_LOOP", "119", "0", "0", "jabs", "nofollow"]⟩,
    ⟨115, "DEF", ["SETUP_LOOP", "120", "0", "0", "jrel", "cond"]⟩,
    ⟨116, "DEF", ["SETUP_EXCEPT", "121", "0", "0", "jrel", "cond"]⟩,
    ⟨117, "DEF", ["SETUP_FINALLY", "122", "0", "0", "jrel", "cond"]⟩,
    ⟨119, "DEF", ["LOAD_FAST", "124", "0", "1", "local", "nullary_load"]⟩,
    ⟨120, "DEF", ["STORE_FAST", "125", "1", "0", "store_local"]⟩,
    ⟨121, "DEF", ["DELETE_FAST", "126", "0", "0", "local"]⟩,
    ⟨123, "DEF", ["RAISE_VARARGS", "130", "-1", "0", "nargs", "nofollow"]⟩,
    ⟨124, "DEF", ["CALL_FUNCTION", "131", "-1", "1", "call"]⟩,
    ⟨125, "DEF", ["MAKE_FUNCTION", "132", "-2", "1", "nargs"]⟩,
    ⟨126, "DEF", ["BUILD_SLICE", "133", "-1", "1", "varargs"]⟩,
    ⟨127, "DEF", ["MAKE_CLOSURE", "134", "-3", "1", "nargs"]⟩,
    ⟨128, "DEF", ["LOAD_CLOSURE", "135", "0", "1", "free", "nullary_load"]⟩,
    ⟨129, "DEF", ["LOAD_DEREF", "136", "0", "1", "free", "nullary_load"]⟩,
    ⟨130, "DEF", ["STORE_DEREF", "137", "1", "0", "store_free"]⟩,
    ⟨132, "DEF", ["CALL_FUNCTION_VAR", "140", "-1", "1", "call"]⟩,
    ⟨133, "DEF", ["CALL_FUNCTION_KW", "141", "-1", "1", "call"]⟩,
    ⟨134, "DEF", ["CALL_FUNCTION_VAR_KW", "142", "-1", "1", "call"]⟩,
    ⟨135, "DEF", ["EXTENDED_ARG", "143", "0", "0", "op"]⟩,
    ⟨137, "STACK", ["CALL_FUNCTION", "call_packed"]⟩,
    ⟨138, "STACK", ["CALL_FUNCTION_VAR", "call_packed_var"]⟩,
    ⟨139, "STACK", ["CALL_FUNCTION_KW", "call_packed_var"]⟩,
    ⟨140, "STACK", ["CALL_FUNCTION_VAR_KW", "call_packed_var_kw"]⟩,
    ⟨142, "FMT", ["EXTENDED_ARG", "extended_arg"]⟩,
    ⟨143, "FMT", ["CALL_FUNCTION", "call_pos_named"]⟩,
    ⟨144, "FMT", ["CALL_FUNCTION_VAR", "call_pos_named"]⟩,
    ⟨145, "FMT", ["CALL_FUNCTION_KW", "call_pos_named"]⟩,
    ⟨146, "FMT", ["CALL_FUNCTION_VAR_KW", "call_pos_named"]⟩,
    ⟨147, "FMT", ["MAKE_FUNCTION", "make_function_defaults"]⟩,
    ⟨148, "FMT", ["RAISE_VARARGS", "raise_varargs_older"]⟩,
    ⟨149, "FMT", ["ROT_TWO", "rot_two"]⟩,
    ⟨150, "FMT", ["ROT_THREE", "rot_three"]⟩,
    ⟨151, "FMT", ["ROT_FOUR", "rot_four"]⟩,
    ⟨153, "XFMT", ["BINARY_POWER", "infix", "**"]⟩,
    ⟨154, "XFMT", ["BINARY_MULTIPLY", "infix", "*"]⟩,
    ⟨155, "XFMT", ["BINARY_DIVIDE", "infix", "/"]⟩,
    ⟨156, "XFMT", ["BINARY_MODULO", "infix", "%"]⟩,
    ⟨157, "XFMT", ["BINARY_ADD", "infix", "+"]⟩,
    ⟨158, "XFMT", ["BINARY_SUBTRACT", "infix", "-"]⟩,
    ⟨159, "XFMT", ["BINARY_SUBSCR", "subscript"]⟩,
    ⟨160, "XFMT", ["BINARY_FLOOR_DIVIDE", "infix", "//"]⟩,
    ⟨161, "XFMT", ["BINARY_TRUE_DIVIDE", "infix", "/"]⟩,
    ⟨162, "XFMT", ["BINARY_LSHIFT", "infix", "<<"]⟩,
    ⟨163, "XFMT", ["BINARY_RSHIFT", "infix", ">>"]⟩,
    ⟨164, "XFMT", ["BINARY_AND", "infix", "&"]⟩,
    ⟨165, "XFMT", ["BINARY_XOR", "infix", "^"]⟩,
    ⟨166, "XFMT", ["BINARY_OR", "infix", "|"]⟩,
    ⟨167, "XFMT", ["INPLACE_ADD", "infix", "+="]⟩,
    ⟨168, "XFMT", ["INPLACE_SUBTRACT", "infix", "-="]⟩,
    ⟨169, "XFMT", ["INPLACE_MULTIPLY", "infix", "*="]⟩,
    ⟨170, "XFMT", ["INPLACE_DIVIDE", "infix", "/="]⟩,
    ⟨171, "XFMT", ["INPLACE_MODULO", "infix", "%="]⟩,
    ⟨172, "XFMT", ["INPLACE_POWER", "infix", "**="]⟩,
    ⟨173, "XFMT", ["INPLACE_FLOOR_DIVIDE", "infix", "//="]⟩,
    ⟨174, "XFMT", ["INPLACE_TRUE_DIVIDE", "infix", "/="]⟩,
    ⟨175, "XFMT", ["INPLACE_LSHIFT", "infix", "<<="]⟩,
    ⟨176, "XFMT", ["INPLACE_RSHIFT", "infix", ">>="]⟩,
    ⟨177, "XFMT", ["INPLACE_AND", "infix", "&="]⟩,
    ⟨178, "XFMT", ["INPLACE_XOR", "infix", "^="]⟩,
    ⟨179, "XFMT", ["INPLACE_OR", "infix", "|="]⟩,
    ⟨180, "XFMT", ["UNARY_NEGATIVE", "negate"]⟩,
    ⟨181, "XFMT", ["UNARY_POSITIVE", "positive"]⟩,
    ⟨182, "XFMT", ["UNARY_INVERT", "invert"]⟩,
    ⟨183, "XFMT", ["UNARY_NOT", "not"]⟩,
    ⟨184, "XFMT", ["COMPARE_OP", "compare"]⟩,
    ⟨185, "XFMT", ["DUP_TOP", "dup_top"]⟩,
    ⟨186, "XFMT", ["RETURN_VALUE", "return_value"]⟩,
    ⟨187, "XFMT", ["STORE_NAME", "store"]⟩,
    ⟨188, "XFMT", ["STORE_FAST", "store"]⟩,
    ⟨189, "XFMT", ["STORE_GLOBAL", "store"]⟩,
    ⟨190, "XFMT", ["STORE_DEREF", "store"]⟩,
    ⟨191, "XFMT", ["STORE_ATTR", "store_attr"]⟩,
    ⟨192, "XFMT", ["STORE_SUBSCR", "store_subscr"]⟩,
    ⟨193, "XFMT", ["LOAD_ATTR", "attr"]⟩,
    ⟨194, "XFMT", ["BUILD_LIST", "build_list"]⟩,
    ⟨195, "XFMT", ["BUILD_TUPLE", "build_tuple"]⟩,
    ⟨196, "XFMT", ["BUILD_MAP", "build_map_hint"]⟩,
    ⟨197, "XFMT", ["BUILD_SLICE", "build_slice"]⟩,
    ⟨198, "XFMT", ["CALL_FUNCTION", "call_function_packed"]⟩,
    ⟨199, "XFMT", ["IMPORT_NAME", "import_name"]⟩,
    ⟨200, "XFMT", ["IMPORT_FROM", "import_from"]⟩,
    ⟨201, "XFMT", ["MAKE_FUNCTION", "make_function_old"]⟩,
    ⟨202, "XFMT", ["RAISE_VARARGS", "raise_varargs"]⟩]

end Catalog
end Disassembler
