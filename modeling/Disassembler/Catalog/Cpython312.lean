import Disassembler.Table.Registry

/-!
# CPython 3.12

The opcodes of version 3.12, as changes to those of cpython 3.11.
-/

namespace Disassembler
namespace Catalog

/-- The table definition of cpython 3.12. -/
def cpython312 : Source where
  label := "cpython-3.12.def"
  version := ⟨3, 12⟩
  implementation := "cpython"
  parent := some (⟨3, 11⟩, "cpython")
  directives := [
    ⟨5, "RM", ["UNARY_POSITIVE", "10"]⟩,
    ⟨6, "RM", ["PRINT_EXPR", "70"]⟩,
    ⟨7, "RM", ["LIST_TO_TUPLE", "82"]⟩,
    ⟨8, "RM", ["IMPORT_STAR", "84"]⟩,
    ⟨9, "RM", ["YIELD_VALUE", "86"]⟩,
    ⟨10, "RM", ["ASYNC_GEN_WRAP", "87"]⟩,
    ⟨11, "RM", ["PREP_RERAISE_STAR", "88"]⟩,
    ⟨12, "RM", ["JUMP_IF_FALSE_OR_POP", "111"]⟩,
    ⟨13, "RM", ["JUMP_IF_TRUE_OR_POP", "112"]⟩,
    ⟨14, "RM", ["POP_JUMP_FORWARD_IF_FALSE", "114"]⟩,
    ⟨15, "RM", ["POP_JUMP_FORWARD_IF_TRUE", "115"]⟩,
    ⟨16, "RM", ["POP_JUMP_FORWARD_IF_NOT_NONE", "128"]⟩,
    ⟨17, "RM", ["POP_JUMP_FORWARD_IF_NONE", "129"]⟩,
    ⟨18, "RM", ["LOAD_CLASSDEREF", "148"]⟩,
    ⟨19, "RM", ["LOAD_METHOD", "160"]⟩,
    ⟨20, "RM", ["PRECALL", "166"]⟩,
    ⟨21, "RM", ["POP_JUMP_BACKWARD_IF_NOT_NONE", "173"]⟩,
    ⟨22, "RM", ["POP_JUMP_BACKWARD_IF_NONE", "174"]⟩,
    ⟨23, "RM", ["POP_JUMP_BACKWARD_IF_FALSE", "175"]⟩,
    ⟨24, "RM", ["POP_JUMP_BACKWARD_IF_TRUE", "176"]⟩,
    ⟨26, "DEF", ["INTERPRETER_EXIT", "3", "1", "0", "op", "nofollow"]⟩,
    ⟨27, "DEF", ["END_FOR", "4", "2", "0", "op"]⟩,
    ⟨28, "DEF", ["END_SEND", "5", "2", "1", "op"]⟩,
    ⟨29, "DEF", ["RESERVED", "17", "0", "0", "op"]⟩,
    ⟨30, "DEF", ["BINARY_SLICE", "26", "3", "1", "op"]⟩,
    ⟨31, "DEF", ["STORE_SLICE", "27", "4", "0", "op"]⟩,
    ⟨32, "DEF", ["CLEANUP_THROW", "55", "3", "2", "op"]⟩,
    ⟨33, "DEF", ["LOAD_LOCALS", "87", "0", "1", "op"]⟩,
    ⟨34, "DEF", ["POP_JUMP_IF_FALSE", "114", "1", "0", "jrel", "cond"]⟩,
    ⟨35, "DEF", ["POP_JUMP_IF_TRUE", "115", "1", "0", "jrel", "cond"]⟩,
    ⟨36, "DEF", ["RETURN_CONST", "121", "0", "0", "const", "nofollow"]⟩,
    ⟨37, "DEF", ["LOAD_FAST_CHECK", "127", "0", "1", "local", "nullary_load"]⟩,
    ⟨38, "DEF", ["POP_JUMP_IF_NOT_NONE", "128", "1", "0", "jrel", "cond"]⟩,
    ⟨39, "DEF", ["POP_JUMP_IF_NONE", "129", "1", "0", "jrel", "cond"]⟩,
    ⟨40, "DEF", ["LOAD_SUPER_ATTR", "141", "3", "1", "name"]⟩,
    ⟨41, "DEF", ["LOAD_FAST_AND_CLEAR", "143", "0", "1", "local"]⟩,
    ⟨42, "DEF", ["YIELD_VALUE", "150", "1", "1", "op"]⟩,
    ⟨43, "DEF", ["CALL_INTRINSIC_1", "173", "1", "1", "op"]⟩,
    ⟨44, "DEF", ["CALL_INTRINSIC_2", "174", "2", "1", "op"]⟩,
    ⟨45, "DEF", ["LOAD_FROM_DICT_OR_GLOBALS", "175", "1", "1", "name"]⟩,
    ⟨46, "DEF", ["LOAD_FROM_DICT_OR_DEREF", "176", "1", "1", "free"]⟩,
    ⟨48, "DEF", ["INSTRUMENTED_LOAD_SUPER_ATTR", "237", "3", "1", "op"]⟩,
    ⟨49, "DEF", ["INSTRUMENTED_POP_JUMP_IF_NONE", "238", "1", "0", "op"]⟩,
    ⟨50, "DEF", ["INSTRUMENTED_POP_JUMP_IF_NOT_NONE", "239", "1", "0", "op"]⟩,
    ⟨51, "DEF", ["INSTRUMENTED_RESUME", "240", "0", "0", "op"]⟩,
    ⟨52, "DEF", ["INSTRUMENTED_CALL", "241", "0", "0", "op"]⟩,
    ⟨53, "DEF", ["INSTRUMENTED_RETURN_VALUE", "242", "1", "0", "op", "nofollow"]⟩,
    ⟨54, "DEF", ["INSTRUMENTED_YIELD_VALUE", "243", "1", "1", "op"]⟩,
    ⟨55, "DEF", ["INSTRUMENTED_CALL_FUNCTION_EX", "244", "0", "0", "op"]⟩,
    ⟨56, "DEF", ["INSTRUMENTED_JUMP_FORWARD", "245", "0", "0", "op"]⟩,
    ⟨57, "DEF", ["INSTRUMENTED_JUMP_BACKWARD", "246", "0", "0", "op"]⟩,
    ⟨58, "DEF", ["INSTRUMENTED_RETURN_CONST", "247", "0", "0", "op", "nofollow"]⟩,
    ⟨59, "DEF", ["INSTRUMENTED_FOR_ITER", "248", "0", "1", "op"]⟩,
    ⟨60, "DEF", ["INSTRUMENTED_POP_JUMP_IF_FALSE", "249", "1", "0", "op"]⟩,
    ⟨61, "DEF", ["INSTRUMENTED_POP_JUMP_IF_TRUE", "250", "1", "0", "op"]⟩,
    ⟨62, "DEF", ["INSTRUMENTED_END_FOR", "251", "2", "0", "op"]⟩,
    ⟨63, "DEF", ["INSTRUMENTED_END_SEND", "252", "2", "1", "op"]⟩,
    ⟨64, "DEF", ["INSTRUMENTED_INSTRUCTION", "253", "0", "0", "op"]⟩,
    ⟨65, "DEF", ["INSTRUMENTED_LINE", "254", "0", "0", "op"]⟩,
    ⟨68, "DEF", ["SETUP_FINALLY", "256", "0", "0", "jrel", "exc"]⟩,
    ⟨69, "DEF", ["SETUP_CLEANUP", "257", "0", "0", "jrel", "exc"]⟩,
    ⟨70, "DEF", ["SETUP_WITH", "258", "0", "0", "jrel", "exc"]⟩,
    ⟨71, "DEF", ["POP_BLOCK", "259", "0", "0", "op"]⟩,
    ⟨72, "DEF", ["JUMP", "260", "0", "0", "jrel", "nofollow"]⟩,
    ⟨73, "DEF", ["JUMP_NO_INTERRUPT", "261", "0", "0", "jrel", "nofollow"]⟩,
    ⟨74, "DEF", ["LOAD_METHOD", "262", "1", "2", "name"]⟩,
    ⟨75, "DEF", ["LOAD_SUPER_METHOD", "263", "3", "2", "name"]⟩,
    ⟨76, "DEF", ["LOAD_ZERO_SUPER_METHOD", "264", "3", "2", "name"]⟩,
    ⟨77, "DEF", ["LOAD_ZERO_SUPER_ATTR", "265", "3", "1", "name"]⟩,
    ⟨78, "DEF", ["STORE_FAST_MAYBE_NULL", "266", "1", "0", "store_local"]⟩,
    ⟨80, "REDEF", ["CALL", "171", "-3", "1", "call"]⟩,
    ⟨82, "CACHE", ["LOAD_GLOBAL", "4"]⟩,
    ⟨83, "CACHE", ["BINARY_SUBSCR", "1"]⟩,
    ⟨84, "CACHE", ["COMPARE_OP", "1"]⟩,
    ⟨85, "CACHE", ["LOAD_ATTR", "9"]⟩,
    ⟨86, "CACHE", ["CALL", "3"]⟩,
    ⟨87, "CACHE", ["FOR_ITER", "1"]⟩,
    ⟨88, "CACHE", ["LOAD_SUPER_ATTR", "1"]⟩,
    ⟨89, "CACHE", ["SEND", "1"]⟩,
    ⟨91, "ENC", ["LOAD_ATTR", "method_flag"]⟩,
    ⟨92, "ENC", ["LOAD_SUPER_ATTR", "super_method_flag"]⟩,
    ⟨93, "ENC", ["COMPARE_OP", "compare_shift", "4"]⟩,
    ⟨95, "STACK", ["LOAD_ATTR", "method_flag"]⟩,
    ⟨96, "STACK", ["LOAD_SUPER_ATTR", "super_attr"]⟩,
    ⟨98, "FMT", ["CALL_INTRINSIC_1", "intrinsic1"]⟩,
    ⟨99, "FMT", ["CALL_INTRINSIC_2", "intrinsic2"]⟩,
    ⟨101, "XFMT", ["CALL", "call"]⟩,
    ⟨102, "XFMT", ["RETURN_CONST", "return_const"]⟩]

end Catalog
end Disassembler
