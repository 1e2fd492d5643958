import Mathlib.Data.List.DropRight
import Mathlib.Data.List.Infix

/-!
# Byte strings

Go strings as lists of bytes, with the functions of the `strings` package that
the modelled code calls on them.
-/

namespace HootLb

abbrev GoString := List UInt8

/-- The bytes of an ASCII literal. -/
def ascii (s : String) : GoString := s.toList.map fun c => UInt8.ofNat c.toNat

namespace GoString

/-- `strings.HasPrefix`. -/
def hasPrefix (s p : GoString) : Bool := p.isPrefixOf s

/-- `strings.HasSuffix`. -/
def hasSuffix (s p : GoString) : Bool := p.isSuffixOf s

/-- `strings.Contains`. -/
def contains (s p : GoString) : Bool := decide (p <:+: s)

/-- `strings.TrimPrefix`. -/
def trimPrefix (s p : GoString) : GoString := if s.hasPrefix p then s.drop p.length else s

/-- `strings.TrimSuffix`. -/
def trimSuffix (s p : GoString) : GoString :=
  if s.hasSuffix p then s.take (s.length - p.length) else s

/-- `strings.Index`: where the first occurrence of `sep` begins; `none` is -1. -/
def index (sep : GoString) : GoString → Option Nat
  | [] => if sep = [] then some 0 else none
  | b :: rest => if hasPrefix (b :: rest) sep then some 0 else (index sep rest).map (· + 1)

/-- `strings.TrimRight`, for a cutset of ASCII bytes. -/
def trimRight (s cutset : GoString) : GoString := s.rdropWhile fun b => b ∈ cutset

/-- The UTF-8 encodings of the runes `unicode.IsSpace` holds for. -/
def spaceRunes : List GoString :=
  [[9], [10], [11], [12], [13], [32], [0xc2, 0x85], [0xc2, 0xa0], [0xe1, 0x9a, 0x80]] ++
    (List.range 11).map (fun i => [0xe2, 0x80, 0x80 + UInt8.ofNat i]) ++
    [[0xe2, 0x80, 0xa8], [0xe2, 0x80, 0xa9], [0xe2, 0x80, 0xaf], [0xe2, 0x81, 0x9f],
      [0xe3, 0x80, 0x80]]

/-- Drop up to `n` of the given runes from the front. -/
def dropRunes (runes : List GoString) : Nat → GoString → GoString
  | 0, s => s
  | n + 1, s =>
    match runes.find? fun r => r.isPrefixOf s with
    | none => s
    | some r => dropRunes runes n (s.drop r.length)

/-- `strings.TrimSpace`. No encoding of a space rune ends in another one, so the
    end is trimmed by reading backwards. -/
def trimSpace (s : GoString) : GoString :=
  let s := dropRunes spaceRunes s.length s
  (dropRunes (spaceRunes.map List.reverse) s.length s.reverse).reverse

end GoString

end HootLb
