import Disassembler.Table.Registry

/-!
# CPython 3.7

The opcodes of version 3.7, as changes to those of cpython 3.6.
-/

namespace Disassembler
namespace Catalog

/-- The table definition of cpython 3.7. -/
def cpython37 : Source where
  label := "cpython-3.7.def"
  version := ⟨3, 7⟩
  implementation := "cpython"
  parent := some (⟨3, 6⟩, "cpython")
  directives := [
    ⟨5, "RM", ["STORE_ANNOTATION", "127"]⟩,
    ⟨7, "DEF", ["WITH_CLEANUP_START", "81", "0", "1", "op"]⟩,
    ⟨8, "DEF", ["WITH_CLEANUP_FINISH", "82", "2", "0", "op"]⟩,
    ⟨9, "DEF", ["END_FINALLY", "88", "1", "0", "op"]⟩,
    ⟨10, "DEF", ["POP_EXCEPT", "89", "3", "0", "op"]⟩,
    ⟨11, "DEF", ["SETUP_ASYNC_WITH", "154", "0", "5", "jrel"]⟩,
    ⟨12, "DEF", ["SETUP_WITH", "143", "0", "6", "jrel"]⟩,
    ⟨13, "DEF", ["LOAD_METHOD", "160", "1", "2", "name"]⟩,
    ⟨14, "DEF", ["CALL_METHOD", "161", "-3", "1", "call"]⟩,
    ⟨16, "FMT", ["CALL_METHOD", "call_positional"]⟩,
    ⟨17, "FMT", ["RAISE_VARARGS", "raise_varargs"]⟩,
    ⟨19, "XFMT", ["LOAD_METHOD", "attr"]⟩,
    ⟨20, "XFMT", ["CALL_METHOD", "call_method"]⟩]

end Catalog
end Disassembler
