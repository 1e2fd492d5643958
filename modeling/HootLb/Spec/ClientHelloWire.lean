import HootLb.ForStd.BigEndian
import HootLb.Native.ClientHello

/-!
# ClientHello messages on the wire

The format `ParseSNI` reads, written down from the side of the client: a ClientHello
is a value, its encoding is a byte string in one record. On every such byte string,
whatever follows the record, the parser returns the server name the value holds.

## Key results

- `findHostName_entries`, `findServerName_extensions`: the two loops
- `parseSNI_wire`: the server name of every ClientHello is read back
-/

namespace HootLb.L4

open BigEndian

/-! ## Messages -/

/-- An entry of a server name list. Type 0 is a host name. -/
structure NameEntry where
  nameType : UInt8
  name : List UInt8

def NameEntry.encode (e : NameEntry) : List UInt8 := e.nameType :: counted 2 e.name

/-- A server name list whose first host name is not empty. -/
structure ServerNames where
  entries : List NameEntry
  hostName : List UInt8
  first : (entries.find? fun e => e.nameType = 0).map (·.name) = some hostName
  nonempty : hostName ≠ []

inductive Extension where
  | serverName (names : ServerNames)
  | other (type : UInt16) (data : List UInt8) (htype : type ≠ 0)

namespace Extension

def type : Extension → UInt16
  | serverName _ => 0
  | other type _ _ => type

def data : Extension → List UInt8
  | serverName names => counted 2 (names.entries.flatMap NameEntry.encode)
  | other _ data _ => data

def encode (e : Extension) : List UInt8 := BigEndian.encode 2 e.type.toNat ++ counted 2 e.data

def hostName? : Extension → Option (List UInt8)
  | serverName names => some names.hostName
  | other .. => none

end Extension

/-- A ClientHello; without `extensions` there is no extension block. -/
structure ClientHello where
  version : UInt16
  random : List UInt8
  random_length : random.length = 32
  sessionId : List UInt8
  sessionId_length : sessionId.length ≤ 255
  cipherSuites : List UInt16
  compressionMethods : List UInt8
  compressionMethods_length : compressionMethods.length ≤ 255
  extensions : Option (List Extension)

namespace ClientHello

def extensionBlock (hello : ClientHello) : List UInt8 :=
  match hello.extensions with
  | none => []
  | some es => counted 2 (es.flatMap Extension.encode)

def suites (hello : ClientHello) : List UInt8 :=
  hello.cipherSuites.flatMap fun c => encode 2 c.toNat

/-- The fields in front of the extensions. -/
def front (hello : ClientHello) : List UInt8 :=
  encode 2 hello.version.toNat ++ hello.random ++ counted 1 hello.sessionId ++
    counted 2 hello.suites ++ counted 1 hello.compressionMethods

def body (hello : ClientHello) : List UInt8 := hello.front ++ hello.extensionBlock

def handshake (hello : ClientHello) : List UInt8 := 1 :: counted 3 hello.body

/-- The record around the message, with the version of the record layer. -/
def wire (hello : ClientHello) (recordVersion : UInt16) : List UInt8 :=
  22 :: (encode 2 recordVersion.toNat ++ counted 2 hello.handshake)

/-- The first host name of the first server name extension, or nothing. -/
def serverName (hello : ClientHello) : GoString :=
  ((hello.extensions.getD []).findSome? Extension.hostName?).getD []

end ClientHello

/-! ## Reading at an offset -/

@[simp] theorem ok_bind {α β : Type} (a : α) (f : α → Parse β) : (Except.ok a >>= f) = f a := rfl

/-- The element between two parts of a byte string. -/
theorem index_append (pre post : List UInt8) (b : UInt8) (i : Nat) (hi : i = pre.length) :
    index (pre ++ b :: post) i = .ok b := by
  subst hi
  simp [index]

/-- The part between two parts of a byte string. -/
theorem slice_append (pre part post : List UInt8) (lo hi : Nat) (hlo : lo = pre.length)
    (hhi : hi = lo + part.length) : slice (pre ++ part ++ post) lo hi = .ok part := by
  subst hlo hhi
  unfold slice
  rw [if_pos (by simp), List.take_left' (by simp), List.drop_left]

private theorem uint16_pair (hi lo : UInt8) : uint16 [hi, lo] = .ok (value [hi, lo]) := by
  simp [uint16, index, value, pure, Except.pure]

/-- Two bytes of a number. -/
theorem uint16_encode (n : Nat) (h : n < 2 ^ 16) : uint16 (encode 2 n) = .ok n := by
  have hvalue := value_encode 2 n h
  have hbytes : encode 2 n = [UInt8.ofNat (n / 256), UInt8.ofNat n] := rfl
  rw [hbytes] at hvalue ⊢
  rw [uint16_pair, hvalue]

/-! ## Counted fields -/

theorem skip8_counted (pre field post : List UInt8) (off : Nat) (atLength inField : String)
    (hoff : off = pre.length) (hfield : field.length ≤ 255) :
    skip8 (pre ++ counted 1 field ++ post) off atLength inField =
      .ok (off + 1 + field.length) := by
  have hbytes : pre ++ counted 1 field ++ post =
      pre ++ UInt8.ofNat field.length :: (field ++ post) := by simp [counted, encode]
  have hlen : (UInt8.ofNat field.length).toNat = field.length := by simp; omega
  unfold skip8
  rw [hbytes, index_append pre _ _ off hoff, ok_bind, hlen]
  simp only [List.length_append, List.length_cons]
  rw [if_neg (by omega), if_neg (by omega)]

theorem skipCipherSuites_counted (pre field post : List UInt8) (off : Nat)
    (hoff : off = pre.length) (hfield : field.length < 2 ^ 16) :
    skipCipherSuites (pre ++ counted 2 field ++ post) off = .ok (off + 2 + field.length) := by
  have hbytes : pre ++ counted 2 field ++ post =
      pre ++ encode 2 field.length ++ (field ++ post) := by simp [counted]
  unfold skipCipherSuites
  rw [hbytes, slice_append pre _ _ off _ hoff (by simp), ok_bind, uint16_encode _ hfield, ok_bind]
  simp only [List.length_append, encode_length]
  rw [if_neg (by omega), if_neg (by omega)]

/-! ## The loops -/

/-- The loop over a server name list stops at its first host name. -/
theorem findHostName_entries (pre post : List UInt8) (entries : List NameEntry)
    (off listEnd : Nat) (hoff : off = pre.length)
    (hend : listEnd = off + (entries.flatMap NameEntry.encode).length)
    (hfits : (entries.flatMap NameEntry.encode).length < 2 ^ 16) (name : List UInt8)
    (hfirst : (entries.find? fun e => e.nameType = 0).map (·.name) = some name)
    (hname : name ≠ []) :
    findHostName (pre ++ entries.flatMap NameEntry.encode ++ post) off listEnd = .ok name := by
  induction entries generalizing pre off with
  | nil => exact nomatch hfirst
  | cons e rest ih =>
    have hlen : (List.flatMap NameEntry.encode (e :: rest)).length =
        3 + e.name.length + (rest.flatMap NameEntry.encode).length := by
      rw [List.flatMap_cons, List.length_append]
      simp only [NameEntry.encode, List.length_cons, counted_length]
      omega
    rw [hlen] at hend hfits
    generalize hall : pre ++ List.flatMap NameEntry.encode (e :: rest) ++ post = data
    -- the entry, cut at its type, its length and its name
    have htype : index data off = .ok e.nameType := by
      have hcut : data = pre ++ e.nameType :: (counted 2 e.name ++
          (rest.flatMap NameEntry.encode ++ post)) := by simp [← hall, NameEntry.encode]
      rw [hcut, index_append pre _ _ off hoff]
    have hcount : slice data (off + 1) (off + 3) = .ok (encode 2 e.name.length) := by
      have hcut : data = (pre ++ [e.nameType]) ++ encode 2 e.name.length ++
          (e.name ++ (rest.flatMap NameEntry.encode ++ post)) := by
        simp [← hall, NameEntry.encode, counted]
      rw [hcut, slice_append _ _ _ (off + 1) _ (by simp [hoff]) (by simp)]
    have hdata : slice data (off + 3) (off + 3 + e.name.length) = .ok e.name := by
      have hcut : data = (pre ++ [e.nameType] ++ encode 2 e.name.length) ++ e.name ++
          (rest.flatMap NameEntry.encode ++ post) := by
        simp [← hall, NameEntry.encode, counted]
      rw [hcut, slice_append _ _ _ (off + 3) _ (by simp [hoff]) rfl]
    rw [findHostName, if_pos (by omega), htype, ok_bind, hcount, ok_bind,
      uint16_encode _ (by omega), ok_bind]
    dsimp only
    rw [if_neg (by omega)]
    by_cases hhost : e.nameType = 0
    · rw [List.find?_cons_of_pos (by simpa using hhost), Option.map_some,
        Option.some.injEq] at hfirst
      rw [if_pos (by rw [hhost]; rfl), hdata, ok_bind, hfirst, if_neg (by simpa using hname)]
    · rw [List.find?_cons_of_neg (by simpa using hhost)] at hfirst
      have hrest : data = (pre ++ e.encode) ++ rest.flatMap NameEntry.encode ++ post := by
        simp [← hall]
      have hne : e.nameType.toNat ≠ 0 := fun hzero => hhost (UInt8.toNat_inj.mp hzero)
      rw [if_neg hne, hrest]
      refine ih (pre ++ e.encode) _ ?_ (by omega) (by omega) hfirst
      rw [List.length_append, hoff, NameEntry.encode, List.length_cons, counted_length]
      omega

theorem parseSNIExtension_names (names : ServerNames)
    (hfits : (names.entries.flatMap NameEntry.encode).length < 2 ^ 16) :
    parseSNIExtension (counted 2 (names.entries.flatMap NameEntry.encode)) =
      .ok names.hostName := by
  have hcount : slice (counted 2 (names.entries.flatMap NameEntry.encode)) 0 2 =
      .ok (encode 2 (names.entries.flatMap NameEntry.encode).length) :=
    slice_append [] _ _ 0 2 rfl (by simp)
  unfold parseSNIExtension
  rw [hcount, ok_bind, uint16_encode _ hfits, ok_bind, counted_length, if_neg (by omega),
    if_neg (by omega)]
  have hloop := findHostName_entries (encode 2 (names.entries.flatMap NameEntry.encode).length) []
    names.entries 2 _ (by simp) rfl hfits names.hostName names.first names.nonempty
  rw [List.append_nil] at hloop
  exact hloop

/-- The data of an extension is no longer than the extension. -/
theorem Extension.encode_length (e : Extension) : e.encode.length = 4 + e.data.length := by
  simp only [Extension.encode, List.length_append, BigEndian.encode_length, counted_length]
  omega

/-- The loop over the extensions stops at the first server name extension. -/
theorem findServerName_extensions (pre post : List UInt8) (es : List Extension)
    (off extEnd : Nat) (hoff : off = pre.length)
    (hend : extEnd = off + (es.flatMap Extension.encode).length)
    (hfits : (es.flatMap Extension.encode).length < 2 ^ 16) :
    findServerName (pre ++ es.flatMap Extension.encode ++ post) off extEnd =
      .ok ((es.findSome? Extension.hostName?).getD []) := by
  induction es generalizing pre off with
  | nil =>
    rw [findServerName, if_neg (by simp [hend])]
    rfl
  | cons e rest ih =>
    have hlen : (List.flatMap Extension.encode (e :: rest)).length =
        4 + e.data.length + (rest.flatMap Extension.encode).length := by
      rw [List.flatMap_cons, List.length_append, e.encode_length]
    rw [hlen] at hend hfits
    generalize hall : pre ++ List.flatMap Extension.encode (e :: rest) ++ post = hs
    -- the extension, cut at its type, its length and its data
    have htype : slice hs off (off + 2) = .ok (encode 2 e.type.toNat) := by
      have hcut : hs = pre ++ encode 2 e.type.toNat ++
          (counted 2 e.data ++ (rest.flatMap Extension.encode ++ post)) := by
        simp [← hall, Extension.encode]
      rw [hcut, slice_append pre _ _ off _ hoff (by simp)]
    have hcount : slice hs (off + 2) (off + 4) = .ok (encode 2 e.data.length) := by
      have hcut : hs = (pre ++ encode 2 e.type.toNat) ++ encode 2 e.data.length ++
          (e.data ++ (rest.flatMap Extension.encode ++ post)) := by
        simp [← hall, Extension.encode, counted]
      rw [hcut, slice_append _ _ _ (off + 2) _ (by simp [hoff]) (by simp)]
    have hdata : slice hs (off + 4) (off + 4 + e.data.length) = .ok e.data := by
      have hcut : hs = (pre ++ encode 2 e.type.toNat ++ encode 2 e.data.length) ++ e.data ++
          (rest.flatMap Extension.encode ++ post) := by
        simp [← hall, Extension.encode, counted]
      rw [hcut, slice_append _ _ _ (off + 4) _ (by simp [hoff]) rfl]
    rw [findServerName, if_pos (by omega), htype, ok_bind, uint16_encode _ e.type.toNat_lt,
      ok_bind, hcount, ok_bind, uint16_encode _ (by omega), ok_bind]
    dsimp only
    rw [if_neg (by omega)]
    cases e with
    | serverName names =>
      have hnames : (names.entries.flatMap NameEntry.encode).length < 2 ^ 16 := by
        simp only [Extension.data, counted_length] at hfits
        omega
      have hsni : (Extension.serverName names).type.toNat = sniExtensionType := rfl
      rw [if_pos hsni, hdata, ok_bind, Extension.data, parseSNIExtension_names names hnames]
      rfl
    | other type data htype0 =>
      have hrest : hs = (pre ++ (Extension.other type data htype0).encode) ++
          rest.flatMap Extension.encode ++ post := by simp [← hall]
      have hne : (Extension.other type data htype0).type.toNat ≠ sniExtensionType :=
        fun hzero => htype0 (UInt16.toNat_inj.mp hzero)
      rw [if_neg hne, hrest]
      refine ih (pre ++ (Extension.other type data htype0).encode) _ ?_ (by omega) (by omega)
      rw [List.length_append, hoff, Extension.encode_length]
      omega

/-! ## The whole message -/

/-- The payload of a handshake record. -/
theorem recordPayload_counted (version : UInt16) (payload rest : List UInt8)
    (hmin : 4 ≤ payload.length) (hmax : payload.length ≤ 16384) :
    recordPayload (22 :: (encode 2 version.toNat ++ counted 2 payload) ++ rest) = .ok payload := by
  generalize hall : 22 :: (encode 2 version.toNat ++ counted 2 payload) ++ rest = data
  have hlen : data.length = 5 + payload.length + rest.length := by
    simp [← hall]
    omega
  have htype : index data 0 = .ok 22 := by
    rw [← hall]
    rfl
  have hcount : slice data 3 5 = .ok (encode 2 payload.length) := by
    have hcut : data = (22 :: encode 2 version.toNat) ++ encode 2 payload.length ++
        (payload ++ rest) := by simp [← hall, counted]
    rw [hcut, slice_append _ _ _ 3 5 (by simp) (by simp)]
  have hpayload : slice data 5 (5 + payload.length) = .ok payload := by
    have hcut : data = (22 :: (encode 2 version.toNat ++ encode 2 payload.length)) ++ payload ++
        rest := by simp [← hall, counted]
    rw [hcut, slice_append _ _ _ 5 _ (by simp) rfl]
  unfold recordPayload
  rw [if_neg (by rw [hlen, tlsRecordHeaderSize]; omega), htype, ok_bind, if_neg (by decide), hcount,
    ok_bind, uint16_encode _ (by omega), ok_bind, if_neg (by omega),
    if_neg (by rw [maxClientHelloSize]; omega)]
  dsimp only [tlsRecordHeaderSize]
  rw [if_neg (by omega), hpayload]

/-- The body of a handshake message. -/
theorem clientHelloBody_counted (body : List UInt8) (hmin : 34 ≤ body.length)
    (hmax : body.length < 2 ^ 24) : clientHelloBody (1 :: counted 3 body) = .ok body := by
  have hvalue := value_encode 3 body.length hmax
  have hbytes : encode 3 body.length = [UInt8.ofNat (body.length / 256 / 256),
      UInt8.ofNat (body.length / 256), UInt8.ofNat body.length] := rfl
  rw [counted, hbytes]
  rw [hbytes] at hvalue
  -- from here on only the value of the three length bytes matters
  generalize UInt8.ofNat (body.length / 256 / 256) = b1 at hvalue
  generalize UInt8.ofNat (body.length / 256) = b2 at hvalue
  generalize UInt8.ofNat body.length = b3 at hvalue
  have hlen : 256 * (256 * b1.toNat + b2.toNat) + b3.toNat = body.length := by
    simpa [value] using hvalue
  generalize hall : (1 :: ([b1, b2, b3] ++ body) : List UInt8) = payload
  have hlength : payload.length = 4 + body.length := by
    simp [← hall]
    omega
  have h0 : index payload 0 = .ok 1 := by rw [← hall]; rfl
  have h1 : index payload 1 = .ok b1 := by rw [← hall]; rfl
  have h2 : index payload 2 = .ok b2 := by rw [← hall]; rfl
  have h3 : index payload 3 = .ok b3 := by rw [← hall]; rfl
  have hbody : slice payload 4 (4 + body.length) = .ok body := by
    have hcut : payload = [1, b1, b2, b3] ++ body ++ [] := by simp [← hall]
    rw [hcut, slice_append _ _ _ 4 _ rfl rfl]
  unfold clientHelloBody
  rw [if_neg (by omega), h0, ok_bind, if_neg (by decide), h1, ok_bind, h2, ok_bind, h3, ok_bind]
  dsimp only
  rw [hlen, if_neg (by omega), if_neg (by omega), hbody]

namespace ClientHello

variable (hello : ClientHello)

theorem handshake_length : hello.handshake.length = 4 + hello.body.length := by
  simp only [handshake, List.length_cons, counted_length]
  omega

theorem front_length : hello.front.length =
    38 + hello.sessionId.length + hello.suites.length + hello.compressionMethods.length := by
  simp only [front, List.length_append, encode_length, counted_length, hello.random_length]
  omega

theorem body_length : hello.body.length = hello.front.length + hello.extensionBlock.length :=
  List.length_append

/-! The fields of the body, one after the other. -/

theorem skipSessionID_body : skipSessionID hello.body 34 = .ok (35 + hello.sessionId.length) := by
  have hcut : hello.body = (encode 2 hello.version.toNat ++ hello.random) ++
      counted 1 hello.sessionId ++
      (counted 2 hello.suites ++ counted 1 hello.compressionMethods ++ hello.extensionBlock) := by
    simp [body, front]
  rw [hcut, skipSessionID, skip8_counted _ _ _ 34 _ _ (by simp [hello.random_length])
    hello.sessionId_length]

theorem skipCipherSuites_body (h : hello.suites.length < 2 ^ 16) :
    skipCipherSuites hello.body (35 + hello.sessionId.length) =
      .ok (37 + hello.sessionId.length + hello.suites.length) := by
  have hcut : hello.body = (encode 2 hello.version.toNat ++ hello.random ++
      counted 1 hello.sessionId) ++ counted 2 hello.suites ++
      (counted 1 hello.compressionMethods ++ hello.extensionBlock) := by
    simp [body, front]
  rw [hcut, skipCipherSuites_counted _ _ _ _ (by simp [hello.random_length]; omega) h]
  congr 1
  omega

theorem skipCompressionMethods_body :
    skipCompressionMethods hello.body (37 + hello.sessionId.length + hello.suites.length) =
      .ok hello.front.length := by
  have hcut : hello.body = (encode 2 hello.version.toNat ++ hello.random ++
      counted 1 hello.sessionId ++ counted 2 hello.suites) ++ counted 1 hello.compressionMethods ++
      hello.extensionBlock := by
    simp [body, front]
  rw [hcut, skipCompressionMethods, skip8_counted _ _ _ _ _ _
    (by simp [hello.random_length]; omega) hello.compressionMethods_length, front_length]
  congr 1
  omega

/-- The extension block, if there is one. -/
theorem extensions_body (es : List Extension) (hext : hello.extensions = some es)
    (hfits : (es.flatMap Extension.encode).length < 2 ^ 16) :
    slice hello.body hello.front.length (hello.front.length + 2) =
        .ok (encode 2 (es.flatMap Extension.encode).length) ∧
      findServerName hello.body (hello.front.length + 2)
        (hello.front.length + 2 + (es.flatMap Extension.encode).length) =
          .ok ((es.findSome? Extension.hostName?).getD []) := by
  have hcut : hello.body =
      hello.front ++ encode 2 (es.flatMap Extension.encode).length ++
        es.flatMap Extension.encode := by
    simp [body, extensionBlock, hext, counted]
  constructor
  · rw [hcut, slice_append _ _ _ _ _ rfl (by simp)]
  · have hloop := findServerName_extensions
      (hello.front ++ encode 2 (es.flatMap Extension.encode).length) [] es
      (hello.front.length + 2) _ (by simp) rfl hfits
    rw [List.append_nil, ← hcut] at hloop
    exact hloop

end ClientHello

/-- `ParseSNI` returns the server name of every ClientHello that fits one record, or the
    empty string, whatever follows the record. -/
theorem parseSNI_wire (hello : ClientHello) (recordVersion : UInt16)
    (hfits : hello.handshake.length ≤ 16384) (rest : List UInt8) :
    parseSNI (hello.wire recordVersion ++ rest) = .ok hello.serverName := by
  have hhandshake := hello.handshake_length
  have hbody := hello.body_length
  have hfront := hello.front_length
  -- record and handshake header, then the fields in front of the extensions
  unfold parseSNI
  rw [ClientHello.wire, recordPayload_counted _ _ _ (by omega) hfits, ok_bind,
    ClientHello.handshake, clientHelloBody_counted _ (by omega) (by omega), ok_bind,
    if_neg (by omega), hello.skipSessionID_body, ok_bind,
    hello.skipCipherSuites_body (by omega), ok_bind, hello.skipCompressionMethods_body, ok_bind]
  cases hext : hello.extensions with
  | none =>
    have hblock : hello.extensionBlock = [] := by simp [ClientHello.extensionBlock, hext]
    rw [hblock, List.length_nil] at hbody
    rw [if_pos (by omega)]
    simp [ClientHello.serverName, hext]
  | some es =>
    have hblock : hello.extensionBlock.length = 2 + (es.flatMap Extension.encode).length := by
      simp [ClientHello.extensionBlock, hext]
    obtain ⟨hcount, hloop⟩ := hello.extensions_body es hext (by omega)
    rw [if_neg (by omega), hcount, ok_bind, uint16_encode _ (by omega), ok_bind,
      if_neg (by omega), hloop]
    simp [ClientHello.serverName, hext]

/-- A hello with an extension in front of the server name, and an entry of another type
    in front of the host name. -/
def exampleHello : ClientHello :=
  { version := 0x0303, random := List.replicate 32 7, random_length := by decide
    sessionId := [1, 2, 3], sessionId_length := by decide, cipherSuites := [0x1301, 0x1302]
    compressionMethods := [0], compressionMethods_length := by decide
    extensions := some
      [.other 10 [0, 2, 0, 29] (by decide),
        .serverName
          { entries := [⟨1, [9, 9]⟩, ⟨0, ascii "example.com"⟩], hostName := ascii "example.com"
            first := by decide, nonempty := by decide },
        .other 16 [] (by decide)] }

theorem parseSNI_wire_example :
    parseSNI (exampleHello.wire 0x0301 ++ [22, 3, 1]) = .ok (ascii "example.com") :=
  parseSNI_wire exampleHello 0x0301 (by decide) [22, 3, 1]

end HootLb.L4
