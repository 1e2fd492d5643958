import HootLb.ForStd.ExceptRules
import HootLb.Spec.ClientHelloWire

/-!
# What `ParseSNI` accepts

One statement for each function of the parser: it does not panic, and if it returns,
the bytes it has gone over have the form it takes them to have. Positions are offsets
into one byte string, so the statements are about `hs.drop off`, what is left of it.

## Key results

- `findHostName_returns`, `findServerName_returns`: the two loops
- `parseSNI_returns`: what is taken for a hello without server name
-/

namespace HootLb.L4

open BigEndian

/-- The call returns an error, or a value of which `post` holds; it does not panic. -/
def Returns {α : Type} (post : α → Prop) (p : Parse α) : Prop := p.Ends (· ≠ .panic) post

namespace Returns

variable {α β : Type} {post : α → Prop}

theorem fail (msg : Message) : Returns post (L4.fail msg) := fun h => nomatch h

theorem ok {a : α} (h : post a) : Returns post (.ok a) := h

theorem bind {p : Parse α} {f : α → Parse β} {Q : β → Prop} (hp : Returns post p)
    (hf : ∀ a, post a → Returns Q (f a)) : Returns Q (p >>= f) :=
  Except.Ends.bind hp hf

theorem mono {p : Parse α} {Q : α → Prop} (hp : Returns post p) (h : ∀ a, post a → Q a) :
    Returns Q p :=
  Except.Ends.mono hp h

theorem ite {c : Prop} [Decidable c] {p q : Parse α} (hp : c → Returns post p)
    (hq : ¬ c → Returns post q) : Returns post (if c then p else q) :=
  Except.Ends.ite hp hq

theorem ends {p : Parse α} (hp : Returns post p) :
    (∃ a, p = .ok a) ∨ ∃ msg, p = .error (.error msg) := by
  cases p with
  | ok a => exact .inl ⟨a, rfl⟩
  | error e =>
    cases e with
    | error msg => exact .inr ⟨msg, rfl⟩
    | panic => exact absurd rfl hp

end Returns

/-! ## Accesses -/

theorem index_returns {b : List UInt8} {i : Nat} (h : i < b.length) :
    Returns (fun x => b.drop i = x :: b.drop (i + 1)) (index b i) := by
  unfold index
  rw [List.getElem?_eq_getElem h]
  exact .ok (List.drop_eq_getElem_cons h)

theorem slice_returns {b : List UInt8} {lo hi : Nat} (hlo : lo ≤ hi) (hhi : hi ≤ b.length) :
    Returns (fun part => b.drop lo = part ++ b.drop hi ∧ part.length = hi - lo)
      (slice b lo hi) := by
  unfold slice
  rw [if_pos ⟨hlo, hhi⟩]
  refine .ok ⟨?_, by simp; omega⟩
  calc b.drop lo = (b.take hi ++ b.drop hi).drop lo := by rw [List.take_append_drop]
    _ = (b.take hi).drop lo ++ b.drop hi := by
      rw [List.drop_append_of_le_length (by simp; omega)]

/-- Two bytes are a number. -/
theorem uint16_returns {b : List UInt8} (h : b.length = 2) :
    Returns (fun n => b = encode 2 n ∧ n < 2 ^ 16) (uint16 b) := by
  have hencode := encode_value b
  have hlt := value_lt b
  rw [h] at hencode hlt
  obtain ⟨hi, lo, rfl⟩ := List.length_eq_two.mp h
  have hread : uint16 [hi, lo] = .ok (value [hi, lo]) := by
    simp [uint16, index, value, pure, Except.pure]
  rw [hread]
  exact .ok ⟨hencode.symm, hlt⟩

/-- A number in front of at least as many bytes is a counted field. -/
theorem counted_of_drop {b : List UInt8} {k off n : Nat}
    (hcount : b.drop off = encode k n ++ b.drop (off + k)) (hfits : off + k + n ≤ b.length) :
    ∃ field, b.drop off = counted k field ++ b.drop (off + k + n) ∧ field.length = n := by
  refine ⟨(b.drop (off + k)).take n, ?_, by simp; omega⟩
  have hlen : ((b.drop (off + k)).take n).length = n := by simp; omega
  have hcut : b.drop (off + k) = (b.drop (off + k)).take n ++ b.drop (off + k + n) := by
    rw [← List.drop_drop (i := n), List.take_append_drop]
  rw [hcount, counted, hlen, List.append_assoc, ← hcut]

/-! ## Record and handshake header -/

theorem recordPayload_returns (data : List UInt8) :
    Returns (fun payload => ∃ (version : UInt16) (rest : List UInt8),
        data = 22 :: (encode 2 version.toNat ++ counted 2 payload) ++ rest ∧
        4 ≤ payload.length ∧ payload.length ≤ 16384)
      (recordPayload data) := by
  unfold recordPayload
  refine .ite (fun _ => .fail _) fun hheader => ?_
  have hlen : 5 ≤ data.length := by simpa [tlsRecordHeaderSize] using hheader
  refine (index_returns (by omega)).bind fun contentType hfirst => ?_
  refine .ite (fun _ => .fail _) fun htype => ?_
  refine (slice_returns (by omega) (by omega)).bind fun part h => ?_
  obtain ⟨hpart, hpartlen⟩ := h
  refine (uint16_returns (by omega)).bind fun recordLen h => ?_
  obtain ⟨hcount, hlt⟩ := h
  refine .ite (fun _ => .fail _) fun hmin => .ite (fun _ => .fail _) fun hmax => ?_
  dsimp only
  refine .ite (fun _ => .fail _) fun htotal => ?_
  have hmax : recordLen ≤ 16384 := by simpa [maxClientHelloSize] using hmax
  simp only [tlsRecordHeaderSize] at htotal ⊢
  refine (slice_returns (by omega) (by omega)).mono fun payload h => ?_
  obtain ⟨hpayload, hpayloadlen⟩ := h
  -- the two bytes in between are the version of the record layer
  have hversion : data.drop 1 = (data.drop 1).take 2 ++ data.drop 3 := by
    have hthree : data.drop 3 = (data.drop 1).drop 2 := by rw [List.drop_drop]
    rw [hthree, List.take_append_drop]
  have htwo : ((data.drop 1).take 2).length = 2 := by simp; omega
  have hn := encode_value ((data.drop 1).take 2)
  have hnlt := value_lt ((data.drop 1).take 2)
  rw [htwo] at hn hnlt
  generalize value ((data.drop 1).take 2) = n at hn hnlt
  have hpos : payload.length = recordLen := by omega
  refine ⟨UInt16.ofNat n, data.drop (5 + recordLen), ?_, by omega, by omega⟩
  have hcontent : contentType = 22 :=
    UInt8.toNat_inj.mp (by simpa [tlsContentTypeHandshake] using htype)
  have hofNat : (UInt16.ofNat n).toNat = n := by simp; omega
  calc data = data.drop 0 := rfl
    _ = 22 :: data.drop 1 := by rw [hfirst, hcontent]
    _ = 22 :: (encode 2 n ++ (encode 2 recordLen ++ data.drop 5)) := by
      rw [hversion, ← hn, hpart, hcount]
    _ = _ := by
      rw [hpayload, hofNat, counted, hpos]
      simp

theorem clientHelloBody_returns (payload : List UInt8) :
    Returns (fun hs => ∃ after, payload = 1 :: counted 3 hs ++ after ∧ 34 ≤ hs.length)
      (clientHelloBody payload) := by
  unfold clientHelloBody
  refine .ite (fun _ => .fail _) fun hlen => ?_
  refine (index_returns (by omega)).bind fun hsType h0 => ?_
  refine .ite (fun _ => .fail _) fun htype => ?_
  refine (index_returns (by omega)).bind fun b1 h1 => ?_
  refine (index_returns (by omega)).bind fun b2 h2 => ?_
  refine (index_returns (by omega)).bind fun b3 h3 => ?_
  dsimp only
  refine .ite (fun _ => .fail _) fun hmin => .ite (fun _ => .fail _) fun hmax => ?_
  refine (slice_returns (by omega) (by omega)).mono fun hs h => ?_
  obtain ⟨hbody, hbodylen⟩ := h
  have hend : 256 * (256 * b1.toNat + b2.toNat) + b3.toNat = hs.length := by omega
  have hcount : encode 3 hs.length = [b1, b2, b3] := by
    have hvalue : value [b1, b2, b3] = hs.length := by
      rw [← hend]
      simp [value]
    rw [← hvalue]
    exact encode_value [b1, b2, b3]
  refine ⟨payload.drop (4 + hs.length), ?_, by omega⟩
  have hone : hsType = 1 := UInt8.toNat_inj.mp (by simpa [tlsHandshakeClientHello] using htype)
  rw [hend] at hbody
  calc payload = payload.drop 0 := rfl
    _ = 1 :: b1 :: b2 :: b3 :: payload.drop 4 := by rw [h0, h1, h2, h3, hone]
    _ = _ := by
      rw [hbody, counted, hcount]
      simp

/-! ## Counted fields -/

theorem skip8_returns (hs : List UInt8) (off : Nat) (atLength inField : String) :
    Returns (fun off' => off' ≤ hs.length ∧ ∃ field, hs.drop off = counted 1 field ++ hs.drop off' ∧
        field.length ≤ 255 ∧ off' = off + 1 + field.length)
      (skip8 hs off atLength inField) := by
  unfold skip8
  refine .ite (fun _ => .fail _) fun hoff => ?_
  refine (index_returns (by omega)).bind fun n hn => ?_
  dsimp only
  refine .ite (fun _ => .fail _) fun hfits => ?_
  have hlt := n.toNat_lt
  have hcount : hs.drop off = encode 1 n.toNat ++ hs.drop (off + 1) := by
    simp [hn, encode]
  obtain ⟨field, hfield, hlen⟩ := counted_of_drop hcount (by omega)
  exact .ok ⟨by omega, field, hfield, by omega, by omega⟩

theorem skipCipherSuites_returns (hs : List UInt8) (off : Nat) :
    Returns (fun off' => off' ≤ hs.length ∧ ∃ field, hs.drop off = counted 2 field ++ hs.drop off' ∧
        field.length < 2 ^ 16 ∧ off' = off + 2 + field.length)
      (skipCipherSuites hs off) := by
  unfold skipCipherSuites
  refine .ite (fun _ => .fail _) fun hoff => ?_
  refine (slice_returns (by omega) (by omega)).bind fun part h => ?_
  obtain ⟨hpart, hpartlen⟩ := h
  refine (uint16_returns (by omega)).bind fun n h => ?_
  obtain ⟨hn, hlt⟩ := h
  dsimp only
  refine .ite (fun _ => .fail _) fun hfits => ?_
  rw [hn] at hpart
  obtain ⟨field, hfield, hlen⟩ := counted_of_drop hpart (by omega)
  exact .ok ⟨by omega, field, hfield, by omega, by omega⟩

/-! ## The loops -/

/-- The loop over the server names stays inside the list. -/
theorem findHostName_returns (data : List UInt8) (off listEnd : Nat)
    (hend : listEnd ≤ data.length) :
    Returns (fun name => name ≠ []) (findHostName data off listEnd) := by
  -- each round leaves less of the list
  induction hleft : listEnd - off using Nat.strong_induction_on generalizing off with
  | _ left ih =>
    rw [findHostName]
    refine .ite (fun hroom => ?_) fun _ => .fail _
    refine (index_returns (by omega)).bind fun nameType _ => ?_
    refine (slice_returns (by omega) (by omega)).bind fun part h => ?_
    obtain ⟨_, hpartlen⟩ := h
    refine (uint16_returns (by omega)).bind fun nameLen _ => ?_
    dsimp only
    refine .ite (fun _ => .fail _) fun hfits => .ite (fun _ => ?_) fun _ => ?_
    · refine (slice_returns (by omega) (by omega)).bind fun name _ => ?_
      refine .ite (fun _ => .fail _) fun hname => .ok ?_
      exact fun hnil => hname (by rw [hnil]; rfl)
    · exact ih (listEnd - (off + 3 + nameLen)) (by omega) (off + 3 + nameLen) rfl

theorem parseSNIExtension_returns (data : List UInt8) :
    Returns (fun name => name ≠ []) (parseSNIExtension data) := by
  unfold parseSNIExtension
  refine .ite (fun _ => .fail _) fun hlen => ?_
  refine (slice_returns (by omega) (by omega)).bind fun part h => ?_
  obtain ⟨_, hpartlen⟩ := h
  refine (uint16_returns (by omega)).bind fun listLen _ => ?_
  exact .ite (fun _ => .fail _) fun hfits => findHostName_returns data 2 _ (by omega)

theorem wrapSNIError_ne_panic {e : Abort} (h : e ≠ .panic) : wrapSNIError e ≠ .panic := by
  cases e with
  | error msg => exact fun h => nomatch h
  | panic => exact absurd rfl h

/-- What the loop has gone over when it finds no server name: extensions of other
    types, and at the end what is too short for one. -/
structure OtherExtensions where
  extensions : List Extension
  type_ne : ∀ e ∈ extensions, e.type ≠ 0
  junk : List UInt8
  junk_length : junk.length ≤ 3

def OtherExtensions.bytes (x : OtherExtensions) : List UInt8 :=
  x.extensions.flatMap Extension.encode ++ x.junk

/-- A part of a block, from one offset to another. -/
theorem drop_take_eq {b part : List UInt8} {lo hi stop : Nat}
    (hpart : b.drop lo = part ++ b.drop hi) (hhi : hi = lo + part.length) (hstop : hi ≤ stop) :
    (b.take stop).drop lo = part ++ (b.take stop).drop hi := by
  rw [List.drop_take, hpart, List.take_append, List.take_of_length_le (by omega), List.drop_take]
  congr 2
  omega

/-- The loop over the extensions stays inside the block. -/
theorem findServerName_returns (hs : List UInt8) (off extEnd : Nat) (hoff : off ≤ extEnd)
    (hend : extEnd ≤ hs.length) :
    Returns (fun name => name = [] → ∃ x : OtherExtensions, (hs.take extEnd).drop off = x.bytes)
      (findServerName hs off extEnd) := by
  induction hleft : extEnd - off using Nat.strong_induction_on generalizing off with
  | _ left ih =>
    rw [findServerName]
    refine .ite (fun hroom => ?_) fun hroom => .ok fun _ => ?_
    · refine (slice_returns (by omega) (by omega)).bind fun typePart h => ?_
      obtain ⟨htypePart, htypeLen⟩ := h
      refine (uint16_returns (by omega)).bind fun extType h => ?_
      obtain ⟨htype, htypeLt⟩ := h
      refine (slice_returns (by omega) (by omega)).bind fun lenPart h => ?_
      obtain ⟨hlenPart, hlenLen⟩ := h
      refine (uint16_returns (by omega)).bind fun extDataLen h => ?_
      obtain ⟨hlen, hlenLt⟩ := h
      dsimp only
      refine .ite (fun _ => .fail _) fun hfits => .ite (fun _ => ?_) fun hother => ?_
      · refine (slice_returns (by omega) (by omega)).bind fun ext _ => ?_
        -- a name that was found is not empty
        have hname : Returns (fun name => name ≠ [])
            ((parseSNIExtension ext).mapError wrapSNIError) :=
          Except.Ends.mapError (parseSNIExtension_returns ext) fun _ => wrapSNIError_ne_panic
        exact hname.mono fun name hne hnil => absurd hnil hne
      · refine (ih _ (by omega) (off + 4 + extDataLen) (by omega) rfl).mono ?_
        intro name hrest hnil
        obtain ⟨rest, hrest⟩ := hrest hnil
        rw [htype] at htypePart
        rw [hlen] at hlenPart
        obtain ⟨data, hdata, hdataLen⟩ := counted_of_drop hlenPart (by omega)
        have htypeNat : (UInt16.ofNat extType).toNat = extType := by simp; omega
        have hne : UInt16.ofNat extType ≠ 0 := by
          intro hzero
          rw [hzero] at htypeNat
          exact hother htypeNat.symm
        have hcut : hs.drop off = (Extension.other (UInt16.ofNat extType) data hne).encode ++
            hs.drop (off + 4 + extDataLen) := by
          rw [htypePart, hdata, Extension.encode, Extension.type, Extension.data, htypeNat,
            List.append_assoc]
        refine ⟨{ extensions := .other (UInt16.ofNat extType) data hne :: rest.extensions
                  type_ne := ?_, junk := rest.junk, junk_length := rest.junk_length }, ?_⟩
        · rintro e (_ | ⟨_, he⟩)
          · exact hne
          · exact rest.type_ne e he
        · have hlength := Extension.encode_length (.other (UInt16.ofNat extType) data hne)
          rw [Extension.data] at hlength
          rw [drop_take_eq hcut (by omega) (by omega), hrest, OtherExtensions.bytes,
            OtherExtensions.bytes, List.flatMap_cons, List.append_assoc]
    · exact ⟨{ extensions := [], type_ne := by simp, junk := _
               junk_length := by simp; omega }, rfl⟩

/-! ## The whole message -/

/-- What follows the compression methods of a hello without server name: no extension
    block, with room for at most a stray byte, or a block and what follows it. -/
inductive HelloTail where
  | absent (stray : List UInt8) (hstray : stray.length ≤ 1)
  | block (others : OtherExtensions) (hfits : others.bytes.length < 2 ^ 16) (more : List UInt8)

def HelloTail.bytes : HelloTail → List UInt8
  | absent stray _ => stray
  | block others _ more => counted 2 others.bytes ++ more

/-- The fields `ParseSNI` sees in the body of a hello without server name. -/
structure HelloBody where
  version : UInt16
  random : List UInt8
  random_length : random.length = 32
  sessionId : List UInt8
  sessionId_length : sessionId.length ≤ 255
  suites : List UInt8
  suites_length : suites.length < 2 ^ 16
  compressionMethods : List UInt8
  compressionMethods_length : compressionMethods.length ≤ 255
  tail : HelloTail

def HelloBody.bytes (b : HelloBody) : List UInt8 :=
  encode 2 b.version.toNat ++ b.random ++ counted 1 b.sessionId ++ counted 2 b.suites ++
    counted 1 b.compressionMethods ++ b.tail.bytes

/-- A whole input: `after` is in the record behind the message, `rest` is behind the
    record. -/
structure HelloLayout extends HelloBody where
  recordVersion : UInt16
  after : List UInt8
  fits : 4 + toHelloBody.bytes.length + after.length ≤ 16384
  rest : List UInt8

def HelloLayout.bytes (l : HelloLayout) : List UInt8 :=
  22 :: (encode 2 l.recordVersion.toNat ++
    counted 2 (1 :: counted 3 l.toHelloBody.bytes ++ l.after)) ++ l.rest

/-- The end of the body, from the offset at which the extensions begin. -/
theorem extensions_returns (hs : List UInt8) (off : Nat) (hoff : off ≤ hs.length) :
    Returns (fun name => name = [] → ∃ tail : HelloTail, hs.drop off = tail.bytes)
      (if off + 2 > hs.length then .ok []
      else do
        let extLen ← uint16 (← slice hs off (off + 2))
        let off := off + 2
        if off + extLen > hs.length then L4.fail (.text "ClientHello truncated in extensions")
        else findServerName hs off (off + extLen)) := by
  refine .ite (fun hshort => .ok fun _ => ?_) fun hroom => ?_
  · exact ⟨.absent (hs.drop off) (by simp; omega), rfl⟩
  · refine (slice_returns (by omega) (by omega)).bind fun part h => ?_
    obtain ⟨hpart, hpartlen⟩ := h
    refine (uint16_returns (by omega)).bind fun extLen h => ?_
    obtain ⟨hcount, hlt⟩ := h
    dsimp only
    refine .ite (fun _ => .fail _) fun hfits => ?_
    refine (findServerName_returns hs (off + 2) _ (by omega) (by omega)).mono fun name hx hnil => ?_
    obtain ⟨others, hothers⟩ := hx hnil
    have hlen : others.bytes.length = extLen := by
      rw [← hothers]
      simp
      omega
    have hshort : others.bytes.length < 2 ^ 16 := by omega
    refine ⟨.block others hshort (hs.drop (off + 2 + extLen)), ?_⟩
    have hcut : hs.drop (off + 2) = others.bytes ++ hs.drop (off + 2 + extLen) := by
      calc hs.drop (off + 2)
          = (hs.take (off + 2 + extLen) ++ hs.drop (off + 2 + extLen)).drop (off + 2) := by
            rw [List.take_append_drop]
        _ = _ := by rw [List.drop_append_of_le_length (by simp; omega), hothers]
    rw [hpart, hcount, hcut, HelloTail.bytes, counted, hlen, List.append_assoc]

/-- Version and random are the first 34 bytes. -/
theorem drop_34 (hs : List UInt8) (h : 34 ≤ hs.length) :
    ∃ (version : UInt16) (random : List UInt8), random.length = 32 ∧
      hs = encode 2 version.toNat ++ random ++ hs.drop 34 := by
  have hn := encode_value (hs.take 2)
  have hlt := value_lt (hs.take 2)
  have htwo : (hs.take 2).length = 2 := by simp; omega
  rw [htwo] at hn hlt
  refine ⟨UInt16.ofNat (value (hs.take 2)), (hs.drop 2).take 32, by simp; omega, ?_⟩
  have hnat : (UInt16.ofNat (value (hs.take 2))).toNat = value (hs.take 2) := by simp; omega
  have hrest : hs.drop 34 = (hs.drop 2).drop 32 := by rw [List.drop_drop]
  rw [hnat, hn, hrest, List.append_assoc, List.take_append_drop, List.take_append_drop]

/-- `ParseSNI` does not panic, and what it takes for a hello without server name has
    this form. -/
theorem parseSNI_returns (data : List UInt8) :
    Returns (fun name => name = [] → ∃ l : HelloLayout, data = l.bytes) (parseSNI data) := by
  unfold parseSNI
  refine (recordPayload_returns data).bind fun payload hrecord => ?_
  refine (clientHelloBody_returns payload).bind fun hs hbody => ?_
  refine .ite (fun _ => .fail _) fun _ => ?_
  refine (skip8_returns hs 34 _ _).bind fun off₁ h => ?_
  obtain ⟨_, sessionId, hsession, hsessionLen, _⟩ := h
  refine (skipCipherSuites_returns hs off₁).bind fun off₂ h => ?_
  obtain ⟨_, suites, hsuites, hsuitesLen, _⟩ := h
  refine (skip8_returns hs off₂ _ _).bind fun off₃ h => ?_
  obtain ⟨hoff₃, methods, hmethods, hmethodsLen, _⟩ := h
  refine (extensions_returns hs off₃ hoff₃).mono fun name htail hnil => ?_
  obtain ⟨recordVersion, rest, hdata, -, hpayloadLen⟩ := hrecord
  obtain ⟨after, hpayload, hmin⟩ := hbody
  obtain ⟨version, random, hrandom, hhs⟩ := drop_34 hs hmin
  obtain ⟨tail, htail⟩ := htail hnil
  let body : HelloBody :=
    { version, random, random_length := hrandom, sessionId, sessionId_length := hsessionLen, suites
      suites_length := hsuitesLen, compressionMethods := methods
      compressionMethods_length := hmethodsLen, tail }
  have hbytes : hs = body.bytes := by
    rw [hhs, hsession, hsuites, hmethods, htail]
    simp [body, HelloBody.bytes]
  have hfits : 4 + body.bytes.length + after.length ≤ 16384 := by
    have hlen := congrArg List.length hpayload
    simp only [List.length_cons, List.length_append, counted_length] at hlen
    rw [← hbytes]
    omega
  refine ⟨{ body with recordVersion, after, rest, fits := hfits }, ?_⟩
  rw [hdata, hpayload, hbytes]
  rfl

/-- Every index and slice expression of `ParseSNI` and of `parseSNIExtension` is in
    bounds, whatever the bytes: both end with a value or an error, and never panic. -/
theorem parseSNI_in_bounds (data : List UInt8) :
    ((∃ name, parseSNI data = .ok name) ∨ ∃ msg, parseSNI data = .error (.error msg)) ∧
      ((∃ name, parseSNIExtension data = .ok name) ∨
        ∃ msg, parseSNIExtension data = .error (.error msg)) :=
  ⟨(parseSNI_returns data).ends, (parseSNIExtension_returns data).ends⟩

end HootLb.L4
