import Disassembler.Table.Registry

/-!
# CPython 3.11

The opcodes of version 3.11, as changes to those of cpython 3.10.
-/

namespace Disassembler
namespace Catalog

/-- The table definition of cpython 3.11. -/
def cpython311 : Source where
  label := "cpython-3.11.def"
  version := ⟨3, 11⟩
  implementation := "cpython"
  parent := some (⟨3, 10⟩, "cpython")
  directives := [
    ⟨7, "SET", ["localsplus", "true"]⟩,
    ⟨8, "SET", ["line_table", "locations"]⟩,
    ⟨9, "SET", ["exception_table", "true"]⟩,
    ⟨11, "RM", ["ROT_TWO", "2"]⟩,
    ⟨12, "RM", ["ROT_THREE", "3"]⟩,
    ⟨13, "RM", ["DUP_TOP", "4"]⟩,
    ⟨14, "RM", ["DUP_TOP_TWO", "5"]⟩,
    ⟨15, "RM", ["ROT_FOUR", "6"]⟩,
    ⟨16, "RM", ["BINARY_MATRIX_MULTIPLY", "16"]⟩,
    ⟨17, "RM", ["INPLACE_MATRIX_MULTIPLY", "17"]⟩,
    ⟨18, "RM", ["BINARY_POWER", "19"]⟩,
    ⟨19, "RM", ["BINARY_MULTIPLY", "20"]⟩,
    ⟨20, "RM", ["BINARY_MODULO", "22"]⟩,
    ⟨21, "RM", ["BINARY_ADD", "23"]⟩,
    ⟨22, "RM", ["BINARY_SUBTRACT", "24"]⟩,
    ⟨23, "RM", ["BINARY_FLOOR_DIVIDE", "26"]⟩,
    ⟨24, "RM", ["BINARY_TRUE_DIVIDE", "27"]⟩,
    ⟨25, "RM", ["INPLACE_FLOOR_DIVIDE", "28"]⟩,
    ⟨26, "RM", ["INPLACE_TRUE_DIVIDE", "29"]⟩,
    ⟨27, "RM", ["COPY_DICT_WITHOUT_KEYS", "34"]⟩,
    ⟨28, "RM", ["INPLACE_ADD", "55"]⟩,
    ⟨29, "RM", ["INPLACE_SUBTRACT", "56"]⟩,
    ⟨30, "RM", ["INPLACE_MULTIPLY", "57"]⟩,
    ⟨31, "RM", ["INPLACE_MODULO", "59"]⟩,
    ⟨32, "RM", ["BINARY_LSHIFT", "62"]⟩,
    ⟨33, "RM", ["BINARY_RSHIFT", "63"]⟩,
    ⟨34, "RM", ["BINARY_AND", "64"]⟩,
    ⟨35, "RM", ["BINARY_XOR", "65"]⟩,
    ⟨36, "RM", ["BINARY_OR", "66"]⟩,
    ⟨37, "RM", ["INPLACE_POWER", "67"]⟩,
    ⟨38, "RM", ["YIELD_FROM", "72"]⟩,
    ⟨39, "RM", ["GET_AWAITABLE", "73"]⟩,
    ⟨40, "RM", ["INPLACE_LSHIFT", "75"]⟩,
    ⟨41, "RM", ["INPLACE_RSHIFT", "76"]⟩,
    ⟨42, "RM", ["INPLACE_AND", "77"]⟩,
    ⟨43, "RM", ["INPLACE_XOR", "78"]⟩,
    ⟨44, "RM", ["INPLACE_OR", "79"]⟩,
    ⟨45, "RM", ["POP_BLOCK", "87"]⟩,
    ⟨46, "RM", ["ROT_N", "99"]⟩,
    ⟨47, "RM", ["JUMP_IF_FALSE_OR_POP", "111"]⟩,
    ⟨48, "RM", ["JUMP_IF_TRUE_OR_POP", "112"]⟩,
    ⟨49, "RM", ["JUMP_ABSOLUTE", "113"]⟩,
    ⟨50, "RM", ["POP_JUMP_IF_FALSE", "114"]⟩,
    ⟨51, "RM", ["POP_JUMP_IF_TRUE", "115"]⟩,
    ⟨52, "RM", ["JUMP_IF_NOT_EXC_MATCH", "121"]⟩,
    ⟨53, "RM", ["SETUP_FINALLY", "122"]⟩,
    ⟨54, "RM", ["GEN_START", "129"]⟩,
    ⟨55, "RM", ["CALL_FUNCTION", "131"]⟩,
    ⟨56, "RM", ["LOAD_CLOSURE", "135"]⟩,
    ⟨57, "RM", ["LOAD_DEREF", "136"]⟩,
    ⟨58, "RM", ["STORE_DEREF", "137"]⟩,
    ⟨59, "RM", ["DELETE_DEREF", "138"]⟩,
    ⟨60, "RM", ["CALL_FUNCTION_KW", "141"]⟩,
    ⟨61, "RM", ["SETUP_WITH", "143"]⟩,
    ⟨62, "RM", ["SETUP_ASYNC_WITH", "154"]⟩,
    ⟨63, "RM", ["CALL_METHOD", "161"]⟩,
    ⟨65, "DEF", ["CACHE", "0", "0", "0", "op"]⟩,
    ⟨66, "DEF", ["PUSH_NULL", "2", "0", "1", "op"]⟩,
    ⟨67, "DEF", ["PUSH_EXC_INFO", "35", "0", "1", "op"]⟩,
    ⟨68, "DEF", ["CHECK_EXC_MATCH", "36", "0", "0", "op"]⟩,
    ⟨69, "DEF", ["CHECK_EG_MATCH", "37", "0", "0", "op"]⟩,
    ⟨70, "DEF", ["BEFORE_WITH", "53", "0", "1", "op"]⟩,
    ⟨71, "DEF", ["RETURN_GENERATOR", "75", "0", "0", "op"]⟩,
    ⟨72, "DEF", ["ASYNC_GEN_WRAP", "87", "0", "0", "op"]⟩,
    ⟨73, "DEF", ["PREP_RERAISE_STAR", "88", "1", "0", "op"]⟩,
    ⟨74, "DEF", ["SWAP", "99", "0", "0", "op"]⟩,
    ⟨75, "DEF", ["JUMP_IF_FALSE_OR_POP", "111", "0", "0", "jrel", "cond"]⟩,
    ⟨76, "DEF", ["JUMP_IF_TRUE_OR_POP", "112", "0", "0", "jrel", "cond"]⟩,
    ⟨77, "DEF", ["POP_JUMP_FORWARD_IF_FALSE", "114", "1", "0", "jrel", "cond"]⟩,
    ⟨78, "DEF", ["POP_JUMP_FORWARD_IF_TRUE", "115", "1", "0", "jrel", "cond"]⟩,
    ⟨79, "DEF", ["COPY", "120", "0", "1", "op"]⟩,
    ⟨80, "DEF", ["BINARY_OP", "122", "2", "1", "binary"]⟩,
    ⟨81, "DEF", ["SEND", "123", "0", "0", "jrel"]⟩,
    ⟨82, "DEF", ["POP_JUMP_FORWARD_IF_NOT_NONE", "128", "1", "0", "jrel", "cond"]⟩,
    ⟨83, "DEF", ["POP_JUMP_FORWARD_IF_NONE", "129", "1", "0", "jrel", "cond"]⟩,
    ⟨84, "DEF", ["GET_AWAITABLE", "131", "0", "0", "op"]⟩,
    ⟨85, "DEF", ["JUMP_BACKWARD_NO_INTERRUPT", "134", "0", "0", "jrel", "nofollow", "backward"]⟩,
    ⟨86, "DEF", ["MAKE_CELL", "135", "0", "0", "free"]⟩,
    ⟨87, "DEF", ["LOAD_CLOSURE", "136", "0", "1", "free", "nullary_load"]⟩,
    ⟨88, "DEF", ["LOAD_DEREF", "137", "0", "1", "free", "nullary_load"]⟩,
    ⟨89, "DEF", ["STORE_DEREF", "138", "1", "0", "store_free"]⟩,
    ⟨90, "DEF", ["DELETE_DEREF", "139", "0", "0", "free"]⟩,
    ⟨91, "DEF", ["JUMP_BACKWARD", "140", "0", "0", "jrel", "nofollow", "backward"]⟩,
    ⟨92, "DEF", ["COPY_FREE_VARS", "149", "0", "0", "op"]⟩,
    ⟨93, "DEF", ["RESUME", "151", "0", "0", "op"]⟩,
    ⟨94, "DEF", ["PRECALL", "166", "-1", "0", "nargs"]⟩,
    ⟨95, "DEF", ["CALL", "171", "2", "1", "call"]⟩,
    ⟨96, "DEF", ["KW_NAMES", "172", "0", "0", "const"]⟩,
    ⟨97, "DEF", ["POP_JUMP_BACKWARD_IF_NOT_NONE", "173", "1", "0", "jrel", "cond", "backward"]⟩,
    ⟨98, "DEF", ["POP_JUMP_BACKWARD_IF_NONE", "174", "1", "0", "jrel", "cond", "backward"]⟩,
    ⟨99, "DEF", ["POP_JUMP_BACKWARD_IF_FALSE", "175", "1", "0", "jrel", "cond", "backward"]⟩,
    ⟨100, "DEF", ["POP_JUMP_BACKWARD_IF_TRUE", "176", "1", "0", "jrel", "cond", "backward"]⟩,
    ⟨102, "REDEF", ["MATCH_KEYS", "33", "0", "1", "op"]⟩,
    ⟨103, "REDEF", ["MATCH_CLASS", "152", "3", "1", "op"]⟩,
    ⟨105, "CACHE", ["BINARY_SUBSCR", "4"]⟩,
    ⟨106, "CACHE", ["STORE_SUBSCR", "1"]⟩,
    ⟨107, "CACHE", ["UNPACK_SEQUENCE", "1"]⟩,
    ⟨108, "CACHE", ["STORE_ATTR", "4"]⟩,
    ⟨109, "CACHE", ["LOAD_ATTR", "4"]⟩,
    ⟨110, "CACHE", ["COMPARE_OP", "2"]⟩,
    ⟨111, "CACHE", ["LOAD_GLOBAL", "5"]⟩,
    ⟨112, "CACHE", ["BINARY_OP", "1"]⟩,
    ⟨113, "CACHE", ["LOAD_METHOD", "10"]⟩,
    ⟨114, "CACHE", ["PRECALL", "1"]⟩,
    ⟨115, "CACHE", ["CALL", "4"]⟩,
    ⟨117, "ENC", ["LOAD_GLOBAL", "null_push"]⟩,
    ⟨119, "STACK", ["LOAD_GLOBAL", "null_push_flag"]⟩,
    ⟨120, "STACK", ["MAKE_FUNCTION", "make_function311"]⟩,
    ⟨121, "STACK", ["CALL_FUNCTION_EX", "call_ex311"]⟩,
    ⟨123, "FMT", ["BINARY_OP", "binary_op"]⟩,
    ⟨125, "XFMT", ["BINARY_OP", "binary_op"]⟩]

end Catalog
end Disassembler
