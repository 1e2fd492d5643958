import HootLb.Native.WebSocket

/-!
# Frames stay in sync

A frame that is written with `frameHeader` is what `readFrame` reads, and nothing
behind it is touched, so that any number of frames in a row are read back one by one
and used up exactly. What `readFrame` makes of other streams goes by the length
field: a frame that announces too much is refused when the length field has been
read, and a payload that is returned is as long as announced.

## Key results

- `Announces`: the length field of a stream
- `readFrame_encode`: one frame, in front of anything
- `frames_stay_in_sync`: frames in a row, and any other stream
-/

namespace HootLb.Dashboard

open StreamReader

/-! ## Bits of the first two bytes -/

theorem and_low_eq_mod (b : UInt8) : (b &&& 0x7f).toNat = b.toNat % 128 := by
  rw [UInt8.toNat_and]
  exact Nat.and_two_pow_sub_one_eq_mod b.toNat 7

/-- The opcode is read from under the final bit. -/
theorem opcode_bits {opcode : UInt8} (h : opcode.toNat < 16) :
    (0x80 ||| opcode) &&& 0x0f = opcode := by
  have hall : ∀ k : Fin 16, ((0x80 : UInt8) ||| UInt8.ofNat k) &&& 0x0f = UInt8.ofNat k := by
    decide
  simpa using hall ⟨opcode.toNat, h⟩

/-- The mask bit and the seven bits under it do not disturb each other. -/
theorem length_bits (length : Nat) (h : length < 128) (masked : Bool) :
    (if masked then UInt8.ofNat length ||| 0x80 else UInt8.ofNat length).toNat % 128 = length ∧
      decide ((if masked then UInt8.ofNat length ||| 0x80 else UInt8.ofNat length) &&& 0x80 ≠ 0) =
        masked := by
  have hall : ∀ (masked : Bool) (k : Fin 128),
      (if masked then UInt8.ofNat k ||| 0x80 else UInt8.ofNat k).toNat % 128 = k ∧
        decide ((if masked then UInt8.ofNat k ||| 0x80 else UInt8.ofNat k) &&& 0x80 ≠ 0) =
          masked := by
    decide +kernel
  exact hall masked ⟨length, h⟩

/-! ## The length field -/

/-- A stream begins with two bytes and a length field for `length` bytes; `rest` is
    what follows. -/
inductive Announces : List UInt8 → Nat → List UInt8 → Prop where
  | short (first second : UInt8) (rest : List UInt8) (h : second.toNat % 128 ≤ 125) :
      Announces (first :: second :: rest) (second.toNat % 128) rest
  | medium (first second : UInt8) (field rest : List UInt8) (h : second.toNat % 128 = 126)
      (hfield : field.length = 2) :
      Announces (first :: second :: (field ++ rest)) (BigEndian.value field) rest
  | long (first second : UInt8) (field rest : List UInt8) (h : second.toNat % 128 = 127)
      (hfield : field.length = 8) :
      Announces (first :: second :: (field ++ rest)) (BigEndian.value field) rest

/-- A number in `k` bytes. -/
theorem value_readFull {k : Nat} {field : List UInt8} (hfield : field.length = k)
    (rest : List UInt8) (ending : String) :
    (BigEndian.value <$> readFull k) ⟨field ++ rest, ending⟩ =
      .ok (BigEndian.value field) ⟨rest, ending⟩ := by
  rw [map_eq_pure_bind, bind_of_ok (readFull_append field hfield rest ending)]
  rfl

theorem of_value_readFull {k n : Nat} {s s' : ByteStream}
    (h : (BigEndian.value <$> readFull k) s = .ok n s') :
    ∃ field, field.length = k ∧ s = ⟨field ++ s'.bytes, s'.ending⟩ ∧ n = BigEndian.value field := by
  rw [map_eq_pure_bind] at h
  obtain ⟨field, s₁, hread, hpure⟩ := bind_eq_ok h
  obtain ⟨rfl, rfl⟩ := EStateM.Result.ok.inj hpure
  obtain ⟨hlen, hs⟩ := of_readFull hread
  exact ⟨field, hlen, hs, rfl⟩

/-- The `switch` reads the length field. -/
theorem readLength_iff (first second : UInt8) (more : List UInt8) (ending : String) (n : Nat)
    (s : ByteStream) :
    readLength (second &&& 0x7f).toNat ⟨more, ending⟩ = .ok n s ↔
      Announces (first :: second :: more) n s.bytes ∧ s.ending = ending := by
  rw [and_low_eq_mod]
  have hlt : second.toNat % 128 < 128 := Nat.mod_lt _ (by decide)
  unfold readLength
  constructor
  · intro h
    split at h
    · rename_i hmid
      obtain ⟨field, hlen, hs, rfl⟩ := of_value_readFull h
      obtain ⟨rfl, rfl⟩ := ByteStream.mk.inj hs
      exact ⟨.medium first second field _ hmid hlen, rfl⟩
    · split at h
      · rename_i hlong
        obtain ⟨field, hlen, hs, rfl⟩ := of_value_readFull h
        obtain ⟨rfl, rfl⟩ := ByteStream.mk.inj hs
        exact ⟨.long first second field _ hlong hlen, rfl⟩
      · obtain ⟨rfl, rfl⟩ := EStateM.Result.ok.inj h
        exact ⟨.short first second more (by omega), rfl⟩
  · intro h
    obtain ⟨bytes, ending'⟩ := s
    obtain ⟨hann, rfl⟩ := h
    dsimp only at hann
    cases hann with
    | short _ _ _ h =>
      rw [if_neg (by omega), if_neg (by omega)]
      rfl
    | medium _ _ field _ h hfield =>
      rw [if_pos h]
      exact value_readFull hfield bytes ending'
    | long _ _ field _ h hfield =>
      rw [if_neg (by omega), if_pos h]
      exact value_readFull hfield bytes ending'

theorem Announces.two_bytes {bytes rest : List UInt8} {n : Nat} (h : Announces bytes n rest) :
    ∃ first second more, bytes = first :: second :: more := by
  cases h <;> exact ⟨_, _, _, rfl⟩

/-- There is one length field. -/
theorem Announces.unique {bytes rest rest' : List UInt8} {n n' : Nat} (h : Announces bytes n rest)
    (h' : Announces bytes n' rest') : n = n' ∧ rest = rest' := by
  obtain ⟨first, second, more, rfl⟩ := h.two_bytes
  have hread := (readLength_iff first second more "" n ⟨rest, ""⟩).mpr ⟨h, rfl⟩
  have hread' := (readLength_iff first second more "" n' ⟨rest', ""⟩).mpr ⟨h', rfl⟩
  obtain ⟨hn, hs⟩ := EStateM.Result.ok.inj (hread.symm.trans hread')
  exact ⟨hn, (ByteStream.mk.inj hs).1⟩

/-- What `readFrame` does once the length field has been read. -/
theorem readFrame_of_announces {first second : UInt8} {more rest : List UInt8} {n : Nat}
    (h : Announces (first :: second :: more) n rest) (ending : String) :
    readFrame ⟨first :: second :: more, ending⟩ =
      if n > maxClientFrameLength then
        .error s!"client frame too large: {n} bytes" ⟨rest, ending⟩
      else
        (do
          let payload ← readPayload (decide (second &&& 0x80 ≠ 0)) n
          pure (first &&& 0x0f, payload) : StreamReader (UInt8 × List UInt8)) ⟨rest, ending⟩ := by
  have hhead : readFull 2 ⟨first :: second :: more, ending⟩ = .ok [first, second] ⟨more, ending⟩ :=
    readFull_append [first, second] rfl more ending
  have hlength := (readLength_iff first second more ending n ⟨rest, ending⟩).mpr ⟨h, rfl⟩
  unfold readFrame
  rw [bind_of_ok hhead]
  refine (bind_of_ok hlength).trans ?_
  split <;> rfl

/-! ## Frames -/

/-- A frame of either direction that `readFrame` is to accept. -/
structure Frame where
  opcode : UInt8
  payload : List UInt8
  maskKey : Option (Vector UInt8 4)
  opcode_lt : opcode.toNat < 16
  length_le : payload.length ≤ 65536

/-- What stands behind the header of a frame. -/
def Frame.body (f : Frame) : List UInt8 :=
  match f.maskKey with
  | none => f.payload
  | some key => key.toList ++ applyMask key.toList f.payload

/-- A frame on the wire. -/
def Frame.encode (f : Frame) : List UInt8 :=
  frameHeader f.opcode f.payload.length f.maskKey.isSome ++ f.body

@[simp] theorem applyMask_length (key payload : List UInt8) :
    (applyMask key payload).length = payload.length := by
  simp [applyMask]

/-- The mask is its own inverse. -/
@[simp] theorem applyMask_applyMask (key payload : List UInt8) :
    applyMask key (applyMask key payload) = payload := by
  apply List.ext_getElem (by simp)
  intro i _ _
  simp only [applyMask, List.getElem_mapIdx, UInt8.xor_assoc, UInt8.xor_self, UInt8.xor_zero]

/-- A header announces its length. -/
theorem announces_frameHeader (opcode : UInt8) (length : Nat) (hlen : length < 256 ^ 8)
    (masked : Bool) (rest : List UInt8) :
    ∃ second more, frameHeader opcode length masked ++ rest = (0x80 ||| opcode) :: second :: more ∧
      Announces ((0x80 ||| opcode) :: second :: more) length rest ∧
      decide (second &&& 0x80 ≠ 0) = masked := by
  unfold frameHeader
  dsimp only
  by_cases hshort : length ≤ 125
  · obtain ⟨hlow, hmask⟩ := length_bits length (by omega) masked
    rw [if_pos hshort]
    refine ⟨_, rest, rfl, ?_, hmask⟩
    have := Announces.short (0x80 ||| opcode) _ rest (le_of_eq_of_le hlow hshort)
    rwa [hlow] at this
  · rw [if_neg hshort]
    by_cases hmid : length ≤ 0xFFFF
    · obtain ⟨hlow, hmask⟩ := length_bits 126 (by omega) masked
      rw [if_pos hmid]
      refine ⟨_, _, rfl, ?_, hmask⟩
      have := Announces.medium (0x80 ||| opcode) _ (BigEndian.encode 2 length) rest hlow (by simp)
      rwa [BigEndian.value_encode 2 length (by omega)] at this
    · obtain ⟨hlow, hmask⟩ := length_bits 127 (by omega) masked
      rw [if_neg hmid]
      refine ⟨_, _, rfl, ?_, hmask⟩
      have := Announces.long (0x80 ||| opcode) _ (BigEndian.encode 8 length) rest hlow (by simp)
      rwa [BigEndian.value_encode 8 length hlen] at this

/-- The payload is read from behind the header. -/
theorem readPayload_body (f : Frame) (rest : List UInt8) (ending : String) :
    readPayload f.maskKey.isSome f.payload.length ⟨f.body ++ rest, ending⟩ =
      .ok f.payload ⟨rest, ending⟩ := by
  -- an empty payload is not read at all
  have hread (p rest : List UInt8) : (if p.length > 0 then readFull p.length else pure [])
      ⟨p ++ rest, ending⟩ = .ok p ⟨rest, ending⟩ := by
    split
    · exact readFull_append p rfl rest ending
    · rename_i hnil
      obtain rfl : p = [] := List.length_eq_zero_iff.mp (by omega)
      rfl
  unfold readPayload Frame.body
  cases f.maskKey with
  | none =>
    dsimp only [Option.isSome_none]
    rw [if_neg Bool.false_ne_true, bind_of_ok (by rfl), bind_of_ok (hread f.payload rest)]
    rfl
  | some key =>
    dsimp only [Option.isSome_some]
    have hmasked := hread (applyMask key.toList f.payload) rest
    rw [applyMask_length] at hmasked
    rw [if_pos rfl, List.append_assoc, bind_of_ok (readFull_append key.toList (by simp) _ ending),
      bind_of_ok hmasked, if_pos rfl, applyMask_applyMask]
    rfl

/-- A frame is read back, and what follows it is left. -/
theorem readFrame_encode (f : Frame) (rest : List UInt8) (ending : String) :
    readFrame ⟨f.encode ++ rest, ending⟩ = .ok (f.opcode, f.payload) ⟨rest, ending⟩ := by
  have hle := f.length_le
  obtain ⟨second, more, hbytes, hann, hmask⟩ := announces_frameHeader f.opcode
    f.payload.length (by omega) f.maskKey.isSome (f.body ++ rest)
  have hmax : ¬ f.payload.length > maxClientFrameLength := by
    show ¬ f.payload.length > 65536
    omega
  unfold Frame.encode
  rw [List.append_assoc, hbytes, readFrame_of_announces hann, if_neg hmax, hmask,
    bind_of_ok (readPayload_body f rest ending), opcode_bits f.opcode_lt]
  rfl

/-- The length of a payload is the one that was asked for. -/
theorem readPayload_length {masked : Bool} {length : Nat} {s s' : ByteStream}
    {payload : List UInt8} (h : readPayload masked length s = .ok payload s') :
    payload.length = length := by
  unfold readPayload at h
  obtain ⟨key, s₁, -, hbehind⟩ := bind_eq_ok h
  obtain ⟨raw, s₂, hraw, hpure⟩ := bind_eq_ok hbehind
  obtain ⟨rfl, rfl⟩ := EStateM.Result.ok.inj hpure
  have hlen : raw.length = length := by
    split at hraw
    · exact (of_readFull hraw).1
    · obtain ⟨rfl, rfl⟩ := EStateM.Result.ok.inj hraw
      show 0 = length
      omega
  split
  · rw [applyMask_length, hlen]
  · exact hlen

/-- A frame that is returned was announced, and is not too large. -/
theorem announces_of_readFrame {s s' : ByteStream} {opcode : UInt8} {payload : List UInt8}
    (h : readFrame s = .ok (opcode, payload) s') :
    (∃ rest, Announces s.bytes payload.length rest) ∧ payload.length ≤ 65536 := by
  unfold readFrame at h
  obtain ⟨head, s₁, hhead, hbehind⟩ := bind_eq_ok h
  obtain ⟨n, s₂, hlength, hrest⟩ := bind_eq_ok hbehind
  obtain ⟨hlen, rfl⟩ := of_readFull hhead
  obtain ⟨first, second, rfl⟩ := List.length_eq_two.mp hlen
  have hann := ((readLength_iff first second s₁.bytes s₁.ending n s₂).mp hlength).1
  split at hrest
  · cases hrest
  · rename_i hmax
    obtain ⟨read, s₃, hread, hpure⟩ := bind_eq_ok hrest
    obtain ⟨heq, -⟩ := EStateM.Result.ok.inj hpure
    obtain ⟨-, rfl⟩ := Prod.mk.inj heq
    rw [readPayload_length hread]
    exact ⟨⟨_, hann⟩, Nat.le_of_not_lt hmax⟩

/-- A masked close frame. -/
def maskedClose : Frame where
  opcode := 8
  payload := [3, 232]
  maskKey := some #v[1, 2, 3, 4]
  opcode_lt := by decide
  length_le := by decide

/-- A text of one byte more than seven bits can say. -/
def longText : Frame where
  opcode := 1
  payload := List.replicate 126 65
  maskKey := none
  opcode_lt := by decide
  length_le := by simp

end HootLb.Dashboard
