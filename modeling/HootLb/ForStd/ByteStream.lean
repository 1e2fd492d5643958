import Mathlib.Data.List.Basic

/-!
# Streams that are read in exact amounts

A stream hands out bytes and then an error, the same one at every further read.
`readFull` asks for an exact number of them, as `io.ReadFull` does, and a reader is
put together from such reads. A reader that fails leaves the stream where it
stopped.
-/

/-- Bytes that are still to come, and what is returned once there are none. -/
structure ByteStream where
  bytes : List UInt8
  ending : String
  deriving DecidableEq

/-- Programs that read from a stream. -/
abbrev StreamReader (α : Type) := EStateM String ByteStream α

namespace StreamReader

variable {α β : Type} {x : StreamReader α} {f : α → StreamReader β} {s s' : ByteStream}

/-! ## One read after another -/

theorem bind_of_ok {a : α} (h : x s = .ok a s') : (x >>= f) s = f a s' := by
  show EStateM.bind x f s = f a s'
  simp only [EStateM.bind, h]

theorem bind_of_error {e : String} (h : x s = .error e s') : (x >>= f) s = .error e s' := by
  show EStateM.bind x f s = .error e s'
  simp only [EStateM.bind, h]

theorem bind_eq_ok {b : β} {t : ByteStream} (h : (x >>= f) s = .ok b t) :
    ∃ a s', x s = .ok a s' ∧ f a s' = .ok b t := by
  cases hx : x s with
  | ok a s' => exact ⟨a, s', rfl, (bind_of_ok hx).symm.trans h⟩
  | error e s' =>
    rw [bind_of_error hx] at h
    cases h

/-! ## Exact amounts -/

/-- `io.ReadFull` with a buffer of `n` bytes. -/
def readFull (n : Nat) : StreamReader (List UInt8) := fun s =>
  if n ≤ s.bytes.length then .ok (s.bytes.take n) { s with bytes := s.bytes.drop n }
  else
    .error (if s.ending = "EOF" ∧ s.bytes ≠ [] then "unexpected EOF" else s.ending)
      { s with bytes := [] }

theorem readFull_append {n : Nat} (front : List UInt8) (hlen : front.length = n)
    (rest : List UInt8) (ending : String) :
    readFull n ⟨front ++ rest, ending⟩ = .ok front ⟨rest, ending⟩ := by
  subst hlen
  simp [readFull]

/-- What has been read stood in front of what is left. -/
theorem of_readFull {n : Nat} {got : List UInt8} (h : readFull n s = .ok got s') :
    got.length = n ∧ s = ⟨got ++ s'.bytes, s'.ending⟩ := by
  unfold readFull at h
  split at h
  · rename_i hle
    obtain ⟨rfl, rfl⟩ := EStateM.Result.ok.inj h
    simp [hle]
  · cases h

/-! ## Items in a row -/

/-- As many items as asked for. -/
def readMany (item : StreamReader α) : Nat → StreamReader (List α)
  | 0 => pure []
  | n + 1 => do
    let first ← item
    let others ← readMany item n
    pure (first :: others)

/-- A reader that gets an item back from in front of anything gets back any list of
    items, and stops where they end. -/
theorem readMany_flatMap {ι : Type} {item : StreamReader α} {encode : ι → List UInt8}
    {result : ι → α}
    (hitem : ∀ i rest ending, item ⟨encode i ++ rest, ending⟩ = .ok (result i) ⟨rest, ending⟩)
    (items : List ι) (rest : List UInt8) (ending : String) :
    readMany item items.length ⟨items.flatMap encode ++ rest, ending⟩ =
      .ok (items.map result) ⟨rest, ending⟩ := by
  induction items with
  | nil => rfl
  | cons i items ih =>
    rw [List.flatMap_cons, List.append_assoc, List.length_cons, readMany,
      bind_of_ok (hitem i _ ending), bind_of_ok ih]
    rfl

end StreamReader
