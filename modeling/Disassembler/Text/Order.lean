/-!
# The order of names

**Results.** `byteOrder` orders texts by their bytes. It is a total order in which only equal texts
compare equal, so that it can order the keys of a map.
-/

namespace Disassembler
namespace Text

/-- The bytes of a text. -/
def bytes (s : String) : List UInt8 :=
  s.toByteArray.data.toList

/-- Texts with the same bytes are equal. -/
theorem bytes_inj
    {s t : String}
    (h : bytes s = bytes t) :
    s = t := by
  apply String.toByteArray_inj.mp
  apply ByteArray.ext
  exact Array.toList_inj.mp h

/-- The order of texts by their bytes. -/
def byteOrder : String → String → Ordering :=
  compareOn bytes

instance : Std.TransCmp byteOrder := by
  unfold byteOrder
  infer_instance

instance : Std.LawfulEqCmp byteOrder where
  eq_of_compare h := by
    simp only [byteOrder, compareOn, Std.LawfulEqOrd.compare_eq_iff_eq] at h
    exact bytes_inj h

end Text
end Disassembler
