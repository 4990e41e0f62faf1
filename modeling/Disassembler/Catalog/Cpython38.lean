import Disassembler.Table.Registry

/-!
# CPython 3.8

The opcodes of version 3.8, as changes to those of cpython 3.7.
-/

namespace Disassembler
namespace Catalog

/-- The table definition of cpython 3.8. -/
def cpython38 : Source where
  label := "cpython-3.8.def"
  version := ⟨3, 8⟩
  implementation := "cpython"
  parent := some (⟨3, 7⟩, "cpython")
  directives := [
    ⟨5, "RM", ["BREAK_LOOP", "80"]⟩,
    ⟨6, "RM", ["CONTINUE_LOOP", "119"]⟩,
    ⟨7, "RM", ["SETUP_LOOP", "120"]⟩,
    ⟨8, "RM", ["SETUP_EXCEPT", "121"]⟩,
    ⟨10, "DEF", ["ROT_FOUR", "6", "4", "4", "op"]⟩,
    ⟨11, "DEF", ["BEGIN_FINALLY", "53", "0", "6", "op"]⟩,
    ⟨12, "DEF", ["END_ASYNC_FOR", "54", "7", "0", "op"]⟩,
    ⟨13, "DEF", ["CALL_FINALLY", "162", "0", "1", "jrel"]⟩,
    ⟨14, "DEF", ["POP_FINALLY", "163", "0", "0", "op"]⟩,
    ⟨16, "FMT", ["ROT_FOUR", "rot_four"]⟩]

end Catalog
end Disassembler
