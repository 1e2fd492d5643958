import HootLb.Spec.ClientHelloAccepted

/-!
# Hellos without server name

When `ParseSNI` finds no server name, the input has the form of a `HelloLayout`: a
hello whose lengths may leave bytes over at four places. It is the encoding of a
hello without server name exactly when nothing is left over and the cipher suites
are whole.

## Key results

- `HelloLayout.isHello_iff`: which layouts are encodings
- `no_server_name_iff`: which inputs are rightly reported to have no server name
-/

namespace HootLb.L4

open BigEndian

/-- The bytes begin with a whole hello in one record that has no server name
    extension. -/
def HelloWithoutName (data : List UInt8) : Prop :=
  ∃ (hello : ClientHello) (recordVersion : UInt16) (rest : List UInt8),
    hello.handshake.length ≤ 16384 ∧ (∀ e ∈ hello.extensions.getD [], e.type ≠ 0) ∧
      data = hello.wire recordVersion ++ rest

/-- What is left over in and behind the extension block, or in its place. -/
def HelloTail.slack : HelloTail → List UInt8
  | absent stray _ => stray
  | block others _ more => others.junk ++ more

/-- Nothing is left over between the declared ends, and the cipher suites are whole. -/
structure HelloLayout.Tight (l : HelloLayout) : Prop where
  suites : 2 ∣ l.suites.length
  tail : l.tail.slack = []
  after : l.after = []

/-! ## Lists of encodings -/

/-- Extensions end where their lengths say; what is too short for one is left over. -/
theorem junk_eq_nil {es es' : List Extension} {junk : List UInt8}
    (hjunk : junk.length ≤ 3)
    (h : es.flatMap Extension.encode ++ junk = es'.flatMap Extension.encode)
    (hfits : (es'.flatMap Extension.encode).length < 2 ^ 16) : junk = [] := by
  induction es generalizing es' with
  | nil =>
    cases es' with
    | nil => simpa using h
    | cons e' rest' =>
      -- an extension has at least four bytes
      have hlen := congrArg List.length h
      simp only [List.flatMap_nil, List.flatMap_cons, List.nil_append, List.length_append,
        Extension.encode_length] at hlen
      omega
  | cons e rest ih =>
    cases es' with
    | nil =>
      have hlen := congrArg List.length h
      simp only [List.flatMap_nil, List.flatMap_cons, List.length_append, List.length_nil,
        Extension.encode_length] at hlen
      omega
    | cons e' rest' =>
      have hlen := congrArg List.length h
      simp only [List.flatMap_cons, List.length_append, Extension.encode_length] at hlen hfits
      simp only [List.flatMap_cons, Extension.encode, List.append_assoc] at h
      obtain ⟨-, h⟩ := List.append_inj h (by simp)
      obtain ⟨-, hrest⟩ := counted_append_inj (by omega) (by omega) h
      exact ih hrest (by omega)

/-- Bytes in pairs are numbers of two bytes. -/
theorem exists_suites (bytes : List UInt8) (h : 2 ∣ bytes.length) :
    ∃ suites : List UInt16, suites.flatMap (fun c => encode 2 c.toNat) = bytes := by
  obtain ⟨n, hn⟩ := h
  induction n generalizing bytes with
  | zero => exact ⟨[], by simpa using (List.length_eq_zero_iff.mp hn).symm⟩
  | succ n ih =>
    obtain ⟨suites, hsuites⟩ := ih (bytes.drop 2) (by simp; omega)
    have hvalue := encode_value (bytes.take 2)
    have hlt := value_lt (bytes.take 2)
    have htwo : (bytes.take 2).length = 2 := by simp; omega
    rw [htwo] at hvalue hlt
    have hnat : (UInt16.ofNat (value (bytes.take 2))).toNat = value (bytes.take 2) := by
      simp
      omega
    refine ⟨UInt16.ofNat (value (bytes.take 2)) :: suites, ?_⟩
    rw [List.flatMap_cons, hnat, hvalue, hsuites, List.take_append_drop]

theorem suites_length_even (suites : List UInt16) :
    2 ∣ (suites.flatMap fun c => encode 2 c.toNat).length := by
  induction suites with
  | nil => simp
  | cons c rest ih =>
    rw [List.flatMap_cons, List.length_append, encode_length]
    omega

/-! ## Layouts and messages -/

/-- An end without leftovers is the extension block of a hello. -/
theorem HelloTail.extensions_of_slack {tail : HelloTail} (h : tail.slack = []) :
    ∃ extensions : Option (List Extension), (∀ e ∈ extensions.getD [], e.type ≠ 0) ∧
      tail.bytes = match extensions with
        | none => []
        | some es => counted 2 (es.flatMap Extension.encode) := by
  cases tail with
  | absent stray hstray => exact ⟨none, by simp, h⟩
  | block others hfits more =>
    obtain ⟨hjunk, hmore⟩ := List.append_eq_nil_iff.mp h
    refine ⟨some others.extensions, others.type_ne, ?_⟩
    simp [HelloTail.bytes, OtherExtensions.bytes, hjunk, hmore]

/-- The extension block of a hello has no leftovers. -/
theorem HelloTail.slack_of_extensions {tail : HelloTail} {hello : ClientHello}
    (h : tail.bytes = hello.extensionBlock) (hfits : hello.extensionBlock.length < 2 ^ 16) :
    tail.slack = [] := by
  unfold ClientHello.extensionBlock at h hfits
  cases hext : hello.extensions with
  | none =>
    rw [hext] at h
    cases tail with
    | absent stray hstray => exact h
    | block others hshort more =>
      have hlen := congrArg List.length h
      simp [HelloTail.bytes] at hlen
  | some es =>
    rw [hext] at h hfits
    simp only [counted_length] at hfits
    cases tail with
    | absent stray hstray =>
      -- the block has at least the two bytes of its length
      have hlen := congrArg List.length h
      simp only [HelloTail.bytes, counted_length] at hlen
      omega
    | block others hshort more =>
      simp only [HelloTail.bytes] at h
      rw [← List.append_nil (counted 2 (es.flatMap Extension.encode))] at h
      obtain ⟨hothers, hmore⟩ := counted_append_inj hshort (by omega) h
      have hjunk := junk_eq_nil others.junk_length hothers (by omega)
      simp [HelloTail.slack, hjunk, hmore]

namespace HelloLayout

variable (l : HelloLayout)

/-- A hello with the fields of a tight layout. -/
theorem Tight.isHello (h : l.Tight) : HelloWithoutName l.bytes := by
  obtain ⟨suites, hsuites⟩ := exists_suites l.suites h.suites
  obtain ⟨extensions, htypes, htail⟩ := HelloTail.extensions_of_slack h.tail
  let hello : ClientHello :=
    { version := l.version, random := l.random, random_length := l.random_length
      sessionId := l.sessionId, sessionId_length := l.sessionId_length, cipherSuites := suites
      compressionMethods := l.compressionMethods
      compressionMethods_length := l.compressionMethods_length, extensions }
  have hbody : hello.body = l.toHelloBody.bytes := by
    rw [HelloBody.bytes, htail, ← hsuites]
    rfl
  have hlen : hello.handshake.length ≤ 16384 := by
    have hfits := l.fits
    rw [hello.handshake_length, hbody]
    omega
  refine ⟨hello, l.recordVersion, l.rest, hlen, htypes, ?_⟩
  rw [HelloLayout.bytes, ClientHello.wire, ClientHello.handshake, hbody, h.after, List.append_nil]

/-- The encoding of a hello is cut at the same places whoever reads it. -/
theorem tight_of_isHello (h : HelloWithoutName l.bytes) : l.Tight := by
  obtain ⟨hello, recordVersion, rest, hfits, -, heq⟩ := h
  have hlayout := l.fits
  have hhandshake := hello.handshake_length
  have hbodyLen := hello.body_length
  have hfrontLen := hello.front_length
  -- the record
  simp only [HelloLayout.bytes, ClientHello.wire, List.cons_append, List.cons.injEq, true_and,
    List.append_assoc] at heq
  obtain ⟨-, heq⟩ := List.append_inj heq (by simp)
  obtain ⟨hpayload, -⟩ := counted_append_inj
    (by simp only [List.length_cons, List.length_append, counted_length]; omega) (by omega) heq
  -- the message in it
  simp only [ClientHello.handshake, List.cons.injEq, true_and] at hpayload
  rw [← List.append_nil (counted 3 hello.body)] at hpayload
  obtain ⟨hbody, hafter⟩ := counted_append_inj (by omega) (by omega) hpayload
  -- its fields, one after the other
  simp only [HelloBody.bytes, ClientHello.body, ClientHello.front, List.append_assoc] at hbody
  obtain ⟨-, hbody⟩ := List.append_inj hbody (by simp)
  obtain ⟨-, hbody⟩ := List.append_inj hbody (by rw [l.random_length, hello.random_length])
  obtain ⟨-, hbody⟩ := counted_append_inj (Nat.lt_succ_of_le l.sessionId_length)
    (Nat.lt_succ_of_le hello.sessionId_length) hbody
  obtain ⟨hsuites, hbody⟩ := counted_append_inj l.suites_length (by omega) hbody
  obtain ⟨-, htail⟩ := counted_append_inj (Nat.lt_succ_of_le l.compressionMethods_length)
    (Nat.lt_succ_of_le hello.compressionMethods_length) hbody
  refine ⟨?_, HelloTail.slack_of_extensions htail (by omega), hafter⟩
  rw [hsuites]
  exact suites_length_even hello.cipherSuites

theorem isHello_iff : HelloWithoutName l.bytes ↔ l.Tight :=
  ⟨l.tight_of_isHello, Tight.isHello l⟩

end HelloLayout

/-- An input in which `ParseSNI` finds no server name begins with a hello without
    server name exactly when no bytes are left over behind the message, in or behind
    its extensions or in their place, and the cipher suites are whole. -/
theorem no_server_name_iff (data : List UInt8) (h : parseSNI data = .ok []) :
    ∃ l : HelloLayout, data = l.bytes ∧ (HelloWithoutName data ↔ l.Tight) := by
  obtain ⟨l, hl⟩ := Except.Ends.of_ok (parseSNI_returns data) h rfl
  refine ⟨l, hl, ?_⟩
  rw [hl]
  exact l.isHello_iff

/-! ## Leftovers that are overlooked -/

/-- A small hello with the given end. -/
def smallBody (tail : HelloTail) : HelloBody :=
  { version := 0x0303
    random := exampleHello.random, random_length := exampleHello.random_length
    sessionId := [], sessionId_length := by simp
    suites := [0x13, 0x01], suites_length := by simp
    compressionMethods := exampleHello.compressionMethods
    compressionMethods_length := exampleHello.compressionMethods_length
    tail }

theorem smallBody_fits (tail : HelloTail) (after : List UInt8)
    (fits : 45 + tail.bytes.length + after.length ≤ 16384) :
    4 + (smallBody tail).bytes.length + after.length ≤ 16384 := by
  simp only [HelloBody.bytes, smallBody, exampleHello, counted, List.length_append, encode_length,
    List.length_replicate, List.length_cons, List.length_nil]
  omega

/-- The hello in a record, with the given bytes behind it. -/
def smallHello (tail : HelloTail) (after : List UInt8)
    (fits : 45 + tail.bytes.length + after.length ≤ 16384) : HelloLayout :=
  { smallBody tail with
    recordVersion := 0x0301, after, fits := smallBody_fits tail after fits, rest := [] }

/-- An extension block that ends in the first three bytes of an extension. -/
def cutExtension : HelloLayout :=
  smallHello (.block ⟨[], by simp, [0, 0, 0], by simp⟩ (by decide) []) [] (by decide)

/-- A single byte where the length of the extension block should be. -/
def cutBlock : HelloLayout := smallHello (.absent [0] (by simp)) [] (by decide)

/-- Bytes behind the extension block, and bytes behind the message. -/
def longHello : HelloLayout :=
  smallHello (.block ⟨[], by simp, [], by simp⟩ (by decide) [1]) [2] (by decide)

/-- All three are reported to have no server name, and none of them is a hello. -/
theorem leftovers_overlooked :
    (parseSNI cutExtension.bytes = .ok [] ∧ ¬ HelloWithoutName cutExtension.bytes) ∧
    (parseSNI cutBlock.bytes = .ok [] ∧ ¬ HelloWithoutName cutBlock.bytes) ∧
    (parseSNI longHello.bytes = .ok [] ∧ ¬ HelloWithoutName longHello.bytes) := by
  refine ⟨⟨by decide +kernel, ?_⟩, ⟨by decide +kernel, ?_⟩, ⟨by decide +kernel, ?_⟩⟩
  · rw [HelloLayout.isHello_iff]
    exact fun h => nomatch h.tail
  · rw [HelloLayout.isHello_iff]
    exact fun h => nomatch h.tail
  · rw [HelloLayout.isHello_iff]
    exact fun h => nomatch h.after

/-- The theorem at a hello with one extension. -/
theorem no_server_name_plain :
    ∃ l : HelloLayout,
      (smallHello (.block ⟨[.other 10 [0, 2, 0, 29] (by decide)], by simp [Extension.type], [],
        Nat.zero_le _⟩ (by decide) []) [] (by decide)).bytes = l.bytes ∧ l.Tight := by
  obtain ⟨l, hl, hiff⟩ := no_server_name_iff (smallHello
    (.block ⟨[.other 10 [0, 2, 0, 29] (by decide)], by simp [Extension.type], [],
      Nat.zero_le _⟩ (by decide) []) [] (by decide)).bytes (by decide +kernel)
  refine ⟨l, hl, hiff.mp ?_⟩
  rw [HelloLayout.isHello_iff]
  exact ⟨by decide, rfl, rfl⟩

end HootLb.L4
