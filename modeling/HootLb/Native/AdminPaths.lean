import HootLb.Native.Director
import HootLb.Native.Rbac
import HootLb.Native.System

/-!
# Names in admin paths

How the handlers of the admin API read a pool name and a backend address out of the
decoded path of a request, and which operation a request comes to behind the mux.
-/

namespace HootLb.Admin

open L7

/-- `extractPoolName`. -/
def extractPoolName (path : GoString) : GoString :=
  let path := path.trimPrefix (ascii "/admin/pools/")
  match GoString.index (ascii "/") path with
  | none => path
  | some idx => path.take idx

/-- `extractBackendAddress`. -/
def extractBackendAddress (path : GoString) : GoString :=
  let path := path.trimPrefix (ascii "/admin/pools/")
  match GoString.index (ascii "/backends/") path with
  | none => []
  | some idx =>
    let addr : GoString := path.drop (idx + (ascii "/backends/").length)
    let addr : GoString := addr.trimSuffix (ascii "/drain")
    addr.trimSuffix (ascii "/undrain")

/-- An operation on the pool and the backend that the path names. No pool and no backend
    has a name that is not UTF-8. -/
def Request.onBackend (r : Request) (op : String → String → Op) : Option Op :=
  match addrOfBytes (extractPoolName r.path), addrOfBytes (extractBackendAddress r.path) with
  | some poolName, some address => some (op poolName address)
  | _, _ => none

/-- What a request does to the pools; `body` is its decoded body. -/
def Request.op (r : Request) (body : Option AddBackendRequest) : Option Op :=
  match restMux r with
  | some .addBackend =>
    (addrOfBytes (extractPoolName r.path)).map fun poolName => .addBackend poolName body
  | some .removeBackend => r.onBackend .removeBackend
  | some .drainBackend => r.onBackend .drainBackend
  | some .undrainBackend => r.onBackend .undrainBackend
  | some .listPools | some .restart | none => none

end HootLb.Admin
