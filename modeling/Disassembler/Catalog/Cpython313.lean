import Disassembler.Table.Registry

/-!
# CPython 3.13

The opcodes of version 3.13, as changes to those of cpython 3.12.
-/

namespace Disassembler
namespace Catalog

/-- The table definition of cpython 3.13. -/
def cpython313 : Source where
  label := "cpython-3.13.def"
  version := ⟨3, 13⟩
  implementation := "cpython"
  parent := some (⟨3, 12⟩, "cpython")
  directives := [
    ⟨7, "RM_ALL", []⟩,
    ⟨8, "SET", ["have_argument", "45"]⟩,
    ⟨10, "DEF", ["CACHE", "0", "0", "0", "op"]⟩,
    ⟨11, "DEF", ["BEFORE_ASYNC_WITH", "1", "1", "2", "op"]⟩,
    ⟨12, "DEF", ["BEFORE_WITH", "2", "1", "2", "op"]⟩,
    ⟨13, "DEF", ["BINARY_SLICE", "4", "3", "1", "op"]⟩,
    ⟨14, "DEF", ["BINARY_SUBSCR", "5", "2", "1", "binary"]⟩,
    ⟨15, "DEF", ["CHECK_EG_MATCH", "6", "2", "2", "op"]⟩,
    ⟨16, "DEF", ["CHECK_EXC_MATCH", "7", "2", "2", "op"]⟩,
    ⟨17, "DEF", ["CLEANUP_THROW", "8", "3", "2", "op"]⟩,
    ⟨18, "DEF", ["DELETE_SUBSCR", "9", "2", "0", "op"]⟩,
    ⟨19, "DEF", ["END_ASYNC_FOR", "10", "2", "0", "op"]⟩,
    ⟨20, "DEF", ["END_FOR", "11", "1", "0", "op"]⟩,
    ⟨21, "DEF", ["END_SEND", "12", "2", "1", "op"]⟩,
    ⟨22, "DEF", ["EXIT_INIT_CHECK", "13", "1", "0", "op"]⟩,
    ⟨23, "DEF", ["FORMAT_SIMPLE", "14", "1", "1", "op"]⟩,
    ⟨24, "DEF", ["FORMAT_WITH_SPEC", "15", "2", "1", "op"]⟩,
    ⟨25, "DEF", ["GET_AITER", "16", "1", "1", "op"]⟩,
    ⟨26, "DEF", ["RESERVED", "17", "0", "0", "op"]⟩,
    ⟨27, "DEF", ["GET_ANEXT", "18", "1", "2", "op"]⟩,
    ⟨28, "DEF", ["GET_ITER", "19", "1", "1", "op"]⟩,
    ⟨29, "DEF", ["GET_LEN", "20", "1", "2", "op"]⟩,
    ⟨30, "DEF", ["GET_YIELD_FROM_ITER", "21", "1", "1", "op"]⟩,
    ⟨31, "DEF", ["INTERPRETER_EXIT", "22", "1", "0", "op", "nofollow"]⟩,
    ⟨32, "DEF", ["LOAD_ASSERTION_ERROR", "23", "0", "1", "op"]⟩,
    ⟨33, "DEF", ["LOAD_BUILD_CLASS", "24", "0", "1", "op"]⟩,
    ⟨34, "DEF", ["LOAD_LOCALS", "25", "0", "1", "op"]⟩,
    ⟨35, "DEF", ["MAKE_FUNCTION", "26", "1", "1", "op"]⟩,
    ⟨36, "DEF", ["MATCH_KEYS", "27", "2", "3", "op"]⟩,
    ⟨37, "DEF", ["MATCH_MAPPING", "28", "1", "2", "op"]⟩,
    ⟨38, "DEF", ["MATCH_SEQUENCE", "29", "1", "2", "op"]⟩,
    ⟨39, "DEF", ["NOP", "30", "0", "0", "op"]⟩,
    ⟨40, "DEF", ["POP_EXCEPT", "31", "1", "0", "op"]⟩,
    ⟨41, "DEF", ["POP_TOP", "32", "1", "0", "op"]⟩,
    ⟨42, "DEF", ["PUSH_EXC_INFO", "33", "1", "2", "op"]⟩,
    ⟨43, "DEF", ["PUSH_NULL", "34", "0", "1", "op"]⟩,
    ⟨44, "DEF", ["RETURN_GENERATOR", "35", "0", "1", "op"]⟩,
    ⟨45, "DEF", ["RETURN_VALUE", "36", "1", "0", "op", "nofollow"]⟩,
    ⟨46, "DEF", ["SETUP_ANNOTATIONS", "37", "0", "0", "op"]⟩,
    ⟨47, "DEF", ["STORE_SLICE", "38", "4", "0", "op"]⟩,
    ⟨48, "DEF", ["STORE_SUBSCR", "39", "3", "0", "store"]⟩,
    ⟨49, "DEF", ["TO_BOOL", "40", "1", "1", "op"]⟩,
    ⟨50, "DEF", ["UNARY_INVERT", "41", "1", "1", "unary"]⟩,
    ⟨51, "DEF", ["UNARY_NEGATIVE", "42", "1", "1", "unary"]⟩,
    ⟨52, "DEF", ["UNARY_NOT", "43", "1", "1", "unary"]⟩,
    ⟨53, "DEF", ["WITH_EXCEPT_START", "44", "4", "5", "op"]⟩,
    ⟨56, "DEF", ["BINARY_OP", "45", "2", "1", "binary"]⟩,
    ⟨57, "DEF", ["BUILD_CONST_KEY_MAP", "46", "-2", "1", "varargs"]⟩,
    ⟨58, "DEF", ["BUILD_LIST", "47", "-1", "1", "varargs"]⟩,
    ⟨59, "DEF", ["BUILD_MAP", "48", "-1", "-1", "varargs"]⟩,
    ⟨60, "DEF", ["BUILD_SET", "49", "-1", "1", "varargs"]⟩,
    ⟨61, "DEF", ["BUILD_SLICE", "50", "-1", "1", "varargs"]⟩,
    ⟨62, "DEF", ["BUILD_STRING", "51", "-1", "1", "varargs"]⟩,
    ⟨63, "DEF", ["BUILD_TUPLE", "52", "-1", "1", "varargs"]⟩,
    ⟨64, "DEF", ["CALL", "53", "-3", "1", "call"]⟩,
    ⟨65, "DEF", ["CALL_FUNCTION_EX", "54", "-2", "1", "call"]⟩,
    ⟨66, "DEF", ["CALL_INTRINSIC_1", "55", "1", "1", "op"]⟩,
    ⟨67, "DEF", ["CALL_INTRINSIC_2", "56", "2", "1", "op"]⟩,
    ⟨68, "DEF", ["CALL_KW", "57", "-4", "1", "call"]⟩,
    ⟨69, "DEF", ["COMPARE_OP", "58", "2", "1", "compare"]⟩,
    ⟨70, "DEF", ["CONTAINS_OP", "59", "2", "1", "binary"]⟩,
    ⟨71, "DEF", ["CONVERT_VALUE", "60", "1", "1", "op"]⟩,
    ⟨72, "DEF", ["COPY", "61", "0", "1", "op"]⟩,
    ⟨73, "DEF", ["COPY_FREE_VARS", "62", "0", "0", "op"]⟩,
    ⟨74, "DEF", ["DELETE_ATTR", "63", "1", "0", "name"]⟩,
    ⟨75, "DEF", ["DELETE_DEREF", "64", "0", "0", "free"]⟩,
    ⟨76, "DEF", ["DELETE_FAST", "65", "0", "0", "local"]⟩,
    ⟨77, "DEF", ["DELETE_GLOBAL", "66", "0", "0", "name"]⟩,
    ⟨78, "DEF", ["DELETE_NAME", "67", "0", "0", "name"]⟩,
    ⟨79, "DEF", ["DICT_MERGE", "68", "2", "1", "op"]⟩,
    ⟨80, "DEF", ["DICT_UPDATE", "69", "2", "1", "op"]⟩,
    ⟨81, "DEF", ["ENTER_EXECUTOR", "70", "0", "0", "op"]⟩,
    ⟨82, "DEF", ["EXTENDED_ARG", "71", "0", "0", "op"]⟩,
    ⟨83, "DEF", ["FOR_ITER", "72", "0", "1", "jrel"]⟩,
    ⟨84, "DEF", ["GET_AWAITABLE", "73", "1", "1", "op"]⟩,
    ⟨85, "DEF", ["IMPORT_FROM", "74", "0", "1", "name"]⟩,
    ⟨86, "DEF", ["IMPORT_NAME", "75", "2", "1", "name", "nullary_load"]⟩,
    ⟨87, "DEF", ["IS_OP", "76", "2", "1", "binary"]⟩,
    ⟨88, "DEF", ["JUMP_BACKWARD", "77", "0", "0", "jrel", "nofollow", "backward"]⟩,
    ⟨89, "DEF", ["JUMP_BACKWARD_NO_INTERRUPT", "78", "0", "0", "jrel", "nofollow", "backward"]⟩,
    ⟨90, "DEF", ["JUMP_FORWARD", "79", "0", "0", "jrel", "nofollow"]⟩,
    ⟨91, "DEF", ["LIST_APPEND", "80", "2", "1", "op"]⟩,
    ⟨92, "DEF", ["LIST_EXTEND", "81", "2", "1", "op"]⟩,
    ⟨93, "DEF", ["LOAD_ATTR", "82", "1", "1", "name"]⟩,
    ⟨94, "DEF", ["LOAD_CONST", "83", "0", "1", "const", "nullary_load"]⟩,
    ⟨95, "DEF", ["LOAD_DEREF", "84", "0", "1", "free", "nullary_load"]⟩,
    ⟨96, "DEF", ["LOAD_FAST", "85", "0", "1", "local", "nullary_load"]⟩,
    ⟨97, "DEF", ["LOAD_FAST_AND_CLEAR", "86", "0", "1", "local"]⟩,
    ⟨98, "DEF", ["LOAD_FAST_CHECK", "87", "0", "1", "local", "nullary_load"]⟩,
    ⟨99, "DEF", ["LOAD_FAST_LOAD_FAST", "88", "0", "2", "local"]⟩,
    ⟨100, "DEF", ["LOAD_FROM_DICT_OR_DEREF", "89", "1", "1", "free"]⟩,
    ⟨101, "DEF", ["LOAD_FROM_DICT_OR_GLOBALS", "90", "1", "1", "name"]⟩,
    ⟨102, "DEF", ["LOAD_GLOBAL", "91", "0", "1", "name", "nullary_load"]⟩,
    ⟨103, "DEF", ["LOAD_NAME", "92", "0", "1", "name", "nullary_load"]⟩,
    ⟨104, "DEF", ["LOAD_SUPER_ATTR", "93", "3", "1", "name"]⟩,
    ⟨105, "DEF", ["MAKE_CELL", "94", "0", "0", "free"]⟩,
    ⟨106, "DEF", ["MAP_ADD", "95", "3", "1", "op"]⟩,
    ⟨107, "DEF", ["MATCH_CLASS", "96", "3", "1", "op"]⟩,
    ⟨108, "DEF", ["POP_JUMP_IF_FALSE", "97", "1", "0", "jrel", "cond"]⟩,
    ⟨109, "DEF", ["POP_JUMP_IF_NONE", "98", "1", "0", "jrel", "cond"]⟩,
    ⟨110, "DEF", ["POP_JUMP_IF_NOT_NONE", "99", "1", "0", "jrel", "cond"]⟩,
    ⟨111, "DEF", ["POP_JUMP_IF_TRUE", "100", "1", "0", "jrel", "cond"]⟩,
    ⟨112, "DEF", ["RAISE_VARARGS", "101", "-1", "0", "nargs", "nofollow"]⟩,
    ⟨113, "DEF", ["RERAISE", "102", "1", "0", "op", "nofollow"]⟩,
    ⟨114, "DEF", ["RETURN_CONST", "103", "0", "0", "const", "nofollow"]⟩,
    ⟨115, "DEF", ["SEND", "104", "0", "0", "jrel"]⟩,
    ⟨116, "DEF", ["SET_ADD", "105", "1", "0", "op"]⟩,
    ⟨117, "DEF", ["SET_FUNCTION_ATTRIBUTE", "106", "2", "1", "op"]⟩,
    ⟨118, "DEF", ["SET_UPDATE", "107", "2", "1", "op"]⟩,
    ⟨119, "DEF", ["STORE_ATTR", "108", "2", "0", "store_name"]⟩,
    ⟨120, "DEF", ["STORE_DEREF", "109", "1", "0", "store_free"]⟩,
    ⟨121, "DEF", ["STORE_FAST", "110", "1", "0", "store_local"]⟩,
    ⟨122, "DEF", ["STORE_FAST_LOAD_FAST", "111", "1", "1", "local"]⟩,
    ⟨123, "DEF", ["STORE_FAST_STORE_FAST", "112", "2", "0", "store_local"]⟩,
    ⟨124, "DEF", ["STORE_GLOBAL", "113", "1", "0", "store_name"]⟩,
    ⟨125, "DEF", ["STORE_NAME", "114", "1", "0", "store_name"]⟩,
    ⟨126, "DEF", ["SWAP", "115", "0", "0", "op"]⟩,
    ⟨127, "DEF", ["UNPACK_EX", "116", "1", "-1", "varargs"]⟩,
    ⟨128, "DEF", ["UNPACK_SEQUENCE", "117", "1", "-1", "varargs"]⟩,
    ⟨129, "DEF", ["YIELD_VALUE", "118", "1", "1", "op"]⟩,
    ⟨130, "DEF", ["RESUME", "149", "0", "0", "op"]⟩,
    ⟨132, "DEF", ["INSTRUMENTED_RESUME", "236", "0", "0", "op"]⟩,
    ⟨133, "DEF", ["INSTRUMENTED_END_FOR", "237", "1", "0", "op"]⟩,
    ⟨134, "DEF", ["INSTRUMENTED_END_SEND", "238", "2", "1", "op"]⟩,
    ⟨135, "DEF", ["INSTRUMENTED_RETURN_VALUE", "239", "1", "0", "op", "nofollow"]⟩,
    ⟨136, "DEF", ["INSTRUMENTED_RETURN_CONST", "240", "0", "0", "op", "nofollow"]⟩,
    ⟨137, "DEF", ["INSTRUMENTED_YIELD_VALUE", "241", "1", "1", "op"]⟩,
    ⟨138, "DEF", ["INSTRUMENTED_LOAD_SUPER_ATTR", "242", "3", "1", "op"]⟩,
    ⟨139, "DEF", ["INSTRUMENTED_FOR_ITER", "243", "0", "1", "op"]⟩,
    ⟨140, "DEF", ["INSTRUMENTED_CALL", "244", "0", "0", "op"]⟩,
    ⟨141, "DEF", ["INSTRUMENTED_CALL_KW", "245", "0", "0", "op"]⟩,
    ⟨142, "DEF", ["INSTRUMENTED_CALL_FUNCTION_EX", "246", "0", "0", "op"]⟩,
    ⟨143, "DEF", ["INSTRUMENTED_INSTRUCTION", "247", "0", "0", "op"]⟩,
    ⟨144, "DEF", ["INSTRUMENTED_JUMP_FORWARD", "248", "0", "0", "op"]⟩,
    ⟨145, "DEF", ["INSTRUMENTED_JUMP_BACKWARD", "249", "0", "0", "op"]⟩,
    ⟨146, "DEF", ["INSTRUMENTED_POP_JUMP_IF_TRUE", "250", "1", "0", "op"]⟩,
    ⟨147, "DEF", ["INSTRUMENTED_POP_JUMP_IF_FALSE", "251", "1", "0", "op"]⟩,
    ⟨148, "DEF", ["INSTRUMENTED_POP_JUMP_IF_NONE", "252", "1", "0", "op"]⟩,
    ⟨149, "DEF", ["INSTRUMENTED_POP_JUMP_IF_NOT_NONE", "253", "1", "0", "op"]⟩,
    ⟨150, "DEF", ["INSTRUMENTED_LINE", "254", "0", "0", "op"]⟩,
    ⟨152, "DEF", ["JUMP", "256", "0", "0", "jrel", "nofollow"]⟩,
    ⟨153, "DEF", ["JUMP_NO_INTERRUPT", "257", "0", "0", "jrel", "nofollow"]⟩,
    ⟨154, "DEF", ["LOAD_CLOSURE", "258", "0", "1", "local"]⟩,
    ⟨155, "DEF", ["LOAD_METHOD", "259", "1", "2", "name"]⟩,
    ⟨156, "DEF", ["LOAD_SUPER_METHOD", "260", "3", "2", "name"]⟩,
    ⟨157, "DEF", ["LOAD_ZERO_SUPER_ATTR", "261", "3", "1", "name"]⟩,
    ⟨158, "DEF", ["LOAD_ZERO_SUPER_METHOD", "262", "3", "2", "name"]⟩,
    ⟨159, "DEF", ["POP_BLOCK", "263", "0", "0", "op"]⟩,
    ⟨160, "DEF", ["SETUP_CLEANUP", "264", "0", "0", "jrel", "exc"]⟩,
    ⟨161, "DEF", ["SETUP_FINALLY", "265", "0", "0", "jrel", "exc"]⟩,
    ⟨162, "DEF", ["SETUP_WITH", "266", "0", "0", "jrel", "exc"]⟩,
    ⟨163, "DEF", ["STORE_FAST_MAYBE_NULL", "267", "1", "0", "store_local"]⟩,
    ⟨165, "CACHE", ["TO_BOOL", "3"]⟩,
    ⟨166, "CACHE", ["BINARY_SUBSCR", "1"]⟩,
    ⟨167, "CACHE", ["STORE_SUBSCR", "1"]⟩,
    ⟨168, "CACHE", ["SEND", "1"]⟩,
    ⟨169, "CACHE", ["UNPACK_SEQUENCE", "1"]⟩,
    ⟨170, "CACHE", ["STORE_ATTR", "4"]⟩,
    ⟨171, "CACHE", ["LOAD_GLOBAL", "4"]⟩,
    ⟨172, "CACHE", ["LOAD_SUPER_ATTR", "1"]⟩,
    ⟨173, "CACHE", ["LOAD_ATTR", "9"]⟩,
    ⟨174, "CACHE", ["COMPARE_OP", "1"]⟩,
    ⟨175, "CACHE", ["CONTAINS_OP", "1"]⟩,
    ⟨176, "CACHE", ["BINARY_OP", "1"]⟩,
    ⟨177, "CACHE", ["FOR_ITER", "1"]⟩,
    ⟨178, "CACHE", ["CALL", "3"]⟩,
    ⟨179, "CACHE", ["JUMP_BACKWARD", "1"]⟩,
    ⟨180, "CACHE", ["POP_JUMP_IF_FALSE", "1"]⟩,
    ⟨181, "CACHE", ["POP_JUMP_IF_TRUE", "1"]⟩,
    ⟨182, "CACHE", ["POP_JUMP_IF_NONE", "1"]⟩,
    ⟨183, "CACHE", ["POP_JUMP_IF_NOT_NONE", "1"]⟩,
    ⟨185, "ENC", ["LOAD_GLOBAL", "null_push"]⟩,
    ⟨186, "ENC", ["LOAD_ATTR", "method_flag"]⟩,
    ⟨187, "ENC", ["LOAD_SUPER_ATTR", "super_method_flag"]⟩,
    ⟨188, "ENC", ["COMPARE_OP", "compare_bool"]⟩,
    ⟨189, "ENC", ["LOAD_FAST_LOAD_FAST", "nibble_pair"]⟩,
    ⟨190, "ENC", ["STORE_FAST_LOAD_FAST", "nibble_pair"]⟩,
    ⟨191, "ENC", ["STORE_FAST_STORE_FAST", "nibble_pair"]⟩,
    ⟨193, "STACK", ["LOAD_GLOBAL", "null_push_flag"]⟩,
    ⟨194, "STACK", ["LOAD_ATTR", "method_flag"]⟩,
    ⟨195, "STACK", ["LOAD_SUPER_ATTR", "super_attr"]⟩,
    ⟨196, "STACK", ["CALL_FUNCTION_EX", "call_ex311"]⟩,
    ⟨197, "STACK", ["BUILD_MAP", "map_pairs"]⟩,
    ⟨198, "STACK", ["UNPACK_EX", "unpack_ex"]⟩,
    ⟨200, "FMT", ["EXTENDED_ARG", "extended_arg"]⟩,
    ⟨201, "FMT", ["BINARY_OP", "binary_op"]⟩,
    ⟨202, "FMT", ["IS_OP", "is_op"]⟩,
    ⟨203, "FMT", ["CONTAINS_OP", "contains_op"]⟩,
    ⟨204, "FMT", ["CALL_FUNCTION_EX", "call_ex"]⟩,
    ⟨205, "FMT", ["CALL_INTRINSIC_1", "intrinsic1"]⟩,
    ⟨206, "FMT", ["CALL_INTRINSIC_2", "intrinsic2"]⟩,
    ⟨207, "FMT", ["RAISE_VARARGS", "raise_varargs"]⟩,
    ⟨208, "FMT", ["CONVERT_VALUE", "convert_value"]⟩,
    ⟨209, "FMT", ["SET_FUNCTION_ATTRIBUTE", "function_attribute"]⟩,
    ⟨211, "XFMT", ["BINARY_OP", "binary_op"]⟩,
    ⟨212, "XFMT", ["BINARY_SUBSCR", "subscript"]⟩,
    ⟨213, "XFMT", ["COMPARE_OP", "compare"]⟩,
    ⟨214, "XFMT", ["IS_OP", "is_op"]⟩,
    ⟨215, "XFMT", ["CONTAINS_OP", "contains_op"]⟩,
    ⟨216, "XFMT", ["UNARY_NEGATIVE", "negate"]⟩,
    ⟨217, "XFMT", ["UNARY_INVERT", "invert"]⟩,
    ⟨218, "XFMT", ["UNARY_NOT", "not"]⟩,
    ⟨219, "XFMT", ["RETURN_VALUE", "return_value"]⟩,
    ⟨220, "XFMT", ["RETURN_CONST", "return_const"]⟩,
    ⟨221, "XFMT", ["STORE_NAME", "store"]⟩,
    ⟨222, "XFMT", ["STORE_FAST", "store"]⟩,
    ⟨223, "XFMT", ["STORE_GLOBAL", "store"]⟩,
    ⟨224, "XFMT", ["STORE_DEREF", "store"]⟩,
    ⟨225, "XFMT", ["STORE_ATTR", "store_attr"]⟩,
    ⟨226, "XFMT", ["STORE_SUBSCR", "store_subscr"]⟩,
    ⟨227, "XFMT", ["LOAD_ATTR", "attr"]⟩,
    ⟨228, "XFMT", ["LOAD_BUILD_CLASS", "load_build_class"]⟩,
    ⟨229, "XFMT", ["BUILD_LIST", "build_list"]⟩,
    ⟨230, "XFMT", ["BUILD_TUPLE", "build_tuple"]⟩,
    ⟨231, "XFMT", ["BUILD_SET", "build_set"]⟩,
    ⟨232, "XFMT", ["BUILD_MAP", "build_map"]⟩,
    ⟨233, "XFMT", ["BUILD_CONST_KEY_MAP", "build_const_key_map"]⟩,
    ⟨234, "XFMT", ["BUILD_SLICE", "build_slice"]⟩,
    ⟨235, "XFMT", ["BUILD_STRING", "build_string"]⟩,
    ⟨236, "XFMT", ["CALL", "call"]⟩,
    ⟨237, "XFMT", ["CALL_KW", "call_kw"]⟩,
    ⟨238, "XFMT", ["IMPORT_NAME", "import_name"]⟩,
    ⟨239, "XFMT", ["IMPORT_FROM", "import_from"]⟩,
    ⟨240, "XFMT", ["RAISE_VARARGS", "raise_varargs"]⟩]

end Catalog
end Disassembler
