import HootLb.Native.Routing
import Mathlib.Data.List.DropRight

/-!
# Header passes

What the Director does to the headers of a request that is forwarded
(`internal/proxy/l7/headers.go`): it enters the client into `X-Real-IP` and
`X-Forwarded-For`, and then takes out everything that concerns a single hop only.
-/

namespace HootLb.L7

/-! ## `http.Header` -/

/-- `Header.Set`. -/
def Header.set (h : Header) (key value : String) : Header :=
  h.insert (canonicalMIMEHeaderKey key) [value]

/-- `Header.Del`. -/
def Header.del (h : Header) (key : String) : Header := h.erase (canonicalMIMEHeaderKey key)

/-! ## Strings -/

/-- `unicode.IsSpace`. -/
def isSpace (c : Char) : Bool :=
  let n := c.toNat
  (9 ≤ n ∧ n ≤ 13) || n = 0x20 || n = 0x85 || n = 0xa0 || n = 0x1680 ||
    (0x2000 ≤ n ∧ n ≤ 0x200a) || n = 0x2028 || n = 0x2029 || n = 0x202f || n = 0x205f ||
    n = 0x3000

/-- `strings.TrimSpace`. -/
def trimSpace (s : String) : String :=
  String.ofList ((s.toList.dropWhile isSpace).rdropWhile isSpace)

/-- `strings.Split` at commas. -/
def splitComma (s : String) : List String := (s.toList.splitOn ',').map String.ofList

/-! ## The passes -/

/-- `sanitiseXFF`. -/
def sanitiseXFF (val : String) : String :=
  if !val.toList.any fun c => c = '\r' || c = '\n' then val
  else String.ofList (val.toList.filter fun c => !(c = '\r' || c = '\n'))

/-- `InjectForwardedHeaders`. -/
def injectForwardedHeaders (h : Header) (clientIP : String) : Header :=
  let h := h.set "X-Real-IP" clientIP
  -- only the first value is read, and `Set` replaces all of them
  let existing := h.get "X-Forwarded-For"
  if existing ≠ "" then
    h.set "X-Forwarded-For" (sanitiseXFF existing ++ ", " ++ clientIP)
  else h.set "X-Forwarded-For" clientIP

def hopByHopHeaders : List String :=
  ["Connection", "Keep-Alive", "Proxy-Authenticate", "Proxy-Authorization", "TE", "Trailer",
    "Transfer-Encoding", "Upgrade"]

/-- One token of the `Connection` header. -/
def delToken (h : Header) (token : String) : Header :=
  let token := trimSpace token
  if token ≠ "" then h.del token else h

/-- `StripHopByHop`. -/
def stripHopByHop (h : Header) : Header :=
  let conn := h.get "Connection"
  let h :=
    if conn ≠ "" then ((splitComma conn).foldl delToken h).del "Connection"
    else h
  hopByHopHeaders.foldl Header.del h

end HootLb.L7
