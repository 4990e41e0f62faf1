import Disassembler.Catalog.Cpython26
import Disassembler.Catalog.Cpython27
import Disassembler.Catalog.Cpython33
import Disassembler.Catalog.Cpython34
import Disassembler.Catalog.Cpython35
import Disassembler.Catalog.Cpython36
import Disassembler.Catalog.Cpython37
import Disassembler.Catalog.Cpython38
import Disassembler.Catalog.Cpython39
import Disassembler.Catalog.Cpython310
import Disassembler.Catalog.Cpython311
import Disassembler.Catalog.Cpython312
import Disassembler.Catalog.Cpython313
import Disassembler.Catalog.Pypy27
import Disassembler.Catalog.Pypy36

/-!
# The tables of this library

**Results.** `Catalog.sources` lists all table definitions, `Catalog.registry` is the registry built
from them, and `Catalog.find` looks up the table of a version and an implementation.
-/

namespace Disassembler
namespace Catalog

/-- All table definitions. Their order does not matter: each is built after its parent. -/
def sources : List Source :=
  [cpython26, cpython27, cpython33, cpython34, cpython35, cpython36, cpython37, cpython38,
   cpython39, cpython310, cpython311, cpython312, cpython313, pypy27, pypy36]

/-- All tables. -/
def registry : Registry :=
  Registry.ofSources sources

/-- The table of a version and an implementation. -/
def find (version : Version) (implementation : Implementation) : Except Error Table :=
  registry.get ⟨version, implementation⟩

/-- What there are tables for, in order. -/
def keys : List TableKey :=
  registry.keys

end Catalog
end Disassembler
