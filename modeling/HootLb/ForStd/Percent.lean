import HootLb.ForStd.List
import Mathlib.Tactic.IntervalCases

/-!
# Percent-encoding

Percent-decoding of byte strings as URL paths use it, and how it goes together
with a separator that is neither the percent sign nor a hexadecimal digit. Then
the form that query components use, where a space is written as a plus sign, and
its encoding; and the plain encoding of paths, which leaves slashes and dots as
they are.
-/

namespace Percent

def hexValue (b : UInt8) : Option UInt8 :=
  if 48 ≤ b ∧ b ≤ 57 then some (b - 48)
  else if 97 ≤ b ∧ b ≤ 102 then some (b - 97 + 10)
  else if 65 ≤ b ∧ b ≤ 70 then some (b - 65 + 10)
  else none

/-- Fails on a percent sign that two hexadecimal digits do not follow. -/
def unescape : List UInt8 → Option (List UInt8)
  | [] => some []
  | b :: rest =>
    if b = 37 then
      match rest with
      | high :: low :: rest =>
        match hexValue high, hexValue low with
        | some high, some low => (unescape rest).map ((high * 16 + low) :: ·)
        | _, _ => none
      | _ => none
    else (unescape rest).map (b :: ·)

theorem unescape_cons_of_ne {b : UInt8} (h : b ≠ 37) (rest : List UInt8) :
    unescape (b :: rest) = (unescape rest).map (b :: ·) := by
  rw [unescape.eq_def]
  exact if_neg h

theorem unescape_percent (high low : UInt8) (rest : List UInt8) :
    unescape (37 :: high :: low :: rest) =
      (hexValue high).bind fun h => (hexValue low).bind fun l =>
        (unescape rest).map ((h * 16 + l) :: ·) := by
  rw [unescape.eq_def]
  dsimp only
  rw [if_pos rfl]
  cases hexValue high <;> cases hexValue low <;> rfl

/-- A byte that decoding does not look at. -/
structure IsSep (sep : UInt8) : Prop where
  ne_percent : sep ≠ 37
  not_hex : hexValue sep = none

/-- The parts on both sides of a separator are decoded on their own. -/
theorem unescape_append_sep {sep : UInt8} (hsep : IsSep sep) (a b : List UInt8) :
    unescape (a ++ sep :: b) =
      (unescape a).bind fun x => (unescape b).map fun y => x ++ sep :: y := by
  fun_induction unescape a with
  | case1 => exact unescape_cons_of_ne hsep.ne_percent b
  | case2 high low rest h l hlow hhigh ih =>
    rw [List.cons_append, List.cons_append, List.cons_append, unescape_percent, hhigh, hlow, ih]
    cases unescape rest <;> simp [Function.comp_def]
  | case3 high low rest hbad =>
    rw [List.cons_append, List.cons_append, List.cons_append, unescape_percent]
    cases hhigh : hexValue high with
    | none => rfl
    | some h =>
      cases hlow : hexValue low with
      | none => rfl
      | some l => exact (hbad h l hhigh hlow).elim
  | case4 rest hshort =>
    -- an escape that is cut off by the separator
    match rest with
    | [] =>
      cases b with
      | nil => rfl
      | cons c b => rw [List.cons_append, List.nil_append, unescape_percent, hsep.not_hex]; rfl
    | [high] =>
      rw [List.cons_append, List.cons_append, List.nil_append, unescape_percent, hsep.not_hex]
      cases hexValue high <;> rfl
    | high :: low :: rest => exact (hshort high low rest rfl).elim
  | case5 c rest hne ih =>
    rw [List.cons_append, unescape_cons_of_ne hne, ih]
    cases unescape rest <;> simp [Function.comp_def]

/-- A string of parts decodes to the string of the decoded parts. -/
theorem unescape_intercalate {sep : UInt8} (hsep : IsSep sep) (parts : List (List UInt8))
    {decoded : List UInt8} (h : unescape ([sep].intercalate parts) = some decoded) :
    decoded = [sep].intercalate (parts.map fun part => (unescape part).getD part) := by
  induction parts generalizing decoded with
  | nil => exact (Option.some.inj h).symm
  | cons part rest ih =>
    cases rest with
    | nil =>
      rw [List.intercalate_singleton] at h
      rw [List.map_singleton, List.intercalate_singleton, h, Option.getD_some]
    | cons next rest =>
      rw [List.intercalate_cons_cons, List.append_assoc, List.singleton_append,
        unescape_append_sep hsep, Option.bind_eq_some_iff] at h
      obtain ⟨x, hx, h⟩ := h
      obtain ⟨y, hy, rfl⟩ := Option.map_eq_some_iff.mp h
      rw [List.map_cons, hx, ih hy, Option.getD_some, List.map_cons, List.intercalate_cons_cons,
        List.append_assoc, List.singleton_append]

/-- What has no percent sign is decoded as it is. -/
theorem unescape_append_of_not_mem {a : List UInt8} (h : 37 ∉ a) (b : List UInt8) :
    unescape (a ++ b) = (unescape b).map (a ++ ·) := by
  induction a with
  | nil => exact Option.map_id'.symm
  | cons c a ih =>
    obtain ⟨hc, ha⟩ := not_or.mp (mt List.mem_cons.mpr h)
    rw [List.cons_append, unescape_cons_of_ne (Ne.symm hc), ih ha, Option.map_map]
    rfl

/-- A part that decoding leaves as it is is a part of the decoded string. -/
theorem mem_splitOn_of_unescape {sep : UInt8} (hsep : IsSep sep) {s decoded part : List UInt8}
    (h : unescape s = some decoded) (hpart : part ∈ s.splitOn sep)
    (hsame : unescape part = some part) : part ∈ decoded.splitOn sep := by
  have hjoin : [sep].intercalate (s.splitOn sep) = s := List.intercalate_splitOn sep
  rw [← hjoin] at h
  rw [unescape_intercalate hsep _ h]
  refine List.mem_splitOn_intercalate ?_ (List.not_mem_of_mem_splitOn sep s part hpart)
  exact List.mem_map.mpr ⟨part, hpart, by rw [hsame, Option.getD_some]⟩

/-! ## Query components -/

/-- Decoding of a query component: a plus sign stands for a space. -/
def queryUnescape (s : List UInt8) : Option (List UInt8) :=
  unescape (s.map fun b => if b = 43 then 32 else b)

/-- The upper-case digit of a number below 16. -/
def hexDigit (n : Nat) : UInt8 := if n < 10 then UInt8.ofNat (48 + n) else UInt8.ofNat (55 + n)

/-- Letters, digits and `-_.~` stand for themselves. -/
def unreserved (b : UInt8) : Bool :=
  (97 ≤ b ∧ b ≤ 122) || (65 ≤ b ∧ b ≤ 90) || (48 ≤ b ∧ b ≤ 57) || b = 45 || b = 95 || b = 46 ||
    b = 126

def queryEscapeByte (b : UInt8) : List UInt8 :=
  if unreserved b then [b]
  else if b = 32 then [43]
  else [37, hexDigit (b.toNat / 16), hexDigit (b.toNat % 16)]

def queryEscape (s : List UInt8) : List UInt8 := s.flatMap queryEscapeByte

theorem hexValue_hexDigit (n : Nat) (h : n < 16) :
    hexValue (hexDigit n) = some (UInt8.ofNat n) := by
  interval_cases n <;> rfl

theorem hexDigit_ne_plus (n : Nat) (h : n < 16) : hexDigit n ≠ 43 := by
  interval_cases n <;> decide

/-- A byte is made of its two digits. -/
theorem ofNat_digits (b : UInt8) :
    UInt8.ofNat (b.toNat / 16) * 16 + UInt8.ofNat (b.toNat % 16) = b := by
  have hb := b.toNat_lt
  apply UInt8.toNat_inj.mp
  rw [UInt8.toNat_add, UInt8.toNat_mul, UInt8.toNat_ofNat', UInt8.toNat_ofNat']
  simp
  omega

theorem unescape_digits (b : UInt8) (rest : List UInt8) :
    unescape (37 :: hexDigit (b.toNat / 16) :: hexDigit (b.toNat % 16) :: rest) =
      (unescape rest).map (b :: ·) := by
  have hb := b.toNat_lt
  rw [unescape_percent, hexValue_hexDigit _ (by omega), hexValue_hexDigit _ (by omega),
    Option.bind_some, Option.bind_some, ofNat_digits]

/-- One encoded byte is decoded on its own. -/
theorem queryUnescape_escapeByte (b : UInt8) (rest : List UInt8) :
    queryUnescape (queryEscapeByte b ++ rest) = (queryUnescape rest).map (b :: ·) := by
  unfold queryUnescape queryEscapeByte
  rw [List.map_append]
  split
  · rename_i hkeep
    have hplus : b ≠ 43 := by
      rintro rfl
      exact absurd hkeep (by decide)
    have hpercent : b ≠ 37 := by
      rintro rfl
      exact absurd hkeep (by decide)
    simp only [List.map_cons, List.map_nil, hplus, if_false, List.cons_append, List.nil_append]
    exact unescape_cons_of_ne hpercent _
  · split
    · rename_i hspace
      subst hspace
      exact unescape_cons_of_ne (by decide) _
    · have hb := b.toNat_lt
      have hhigh : b.toNat / 16 < 16 := by omega
      have hlow : b.toNat % 16 < 16 := by omega
      simp only [List.map_cons, List.map_nil, hexDigit_ne_plus _ hhigh, hexDigit_ne_plus _ hlow,
        if_false, List.cons_append, List.nil_append]
      exact unescape_digits b _

/-- Decoding undoes encoding. -/
theorem queryUnescape_queryEscape (s : List UInt8) : queryUnescape (queryEscape s) = some s := by
  induction s with
  | nil => rfl
  | cons b rest ih =>
    show queryUnescape (queryEscapeByte b ++ queryEscape rest) = _
    rw [queryUnescape_escapeByte, ih]
    rfl

/-! ## Paths -/

/-- What stands for itself in a path: the unreserved bytes and `$&+,/:;=@`. -/
def pathPlain (b : UInt8) : Bool := unreserved b || b ∈ [36, 38, 43, 44, 47, 58, 59, 61, 64]

def pathEscapeByte (b : UInt8) : List UInt8 :=
  if pathPlain b then [b] else [37, hexDigit (b.toNat / 16), hexDigit (b.toNat % 16)]

def pathEscape (s : List UInt8) : List UInt8 := s.flatMap pathEscapeByte

theorem pathEscape_append (a b : List UInt8) :
    pathEscape (a ++ b) = pathEscape a ++ pathEscape b := List.flatMap_append

theorem unescape_pathEscapeByte (b : UInt8) (rest : List UInt8) :
    unescape (pathEscapeByte b ++ rest) = (unescape rest).map (b :: ·) := by
  unfold pathEscapeByte
  split
  · rename_i hplain
    refine unescape_cons_of_ne ?_ rest
    rintro rfl
    exact absurd hplain (by decide)
  · exact unescape_digits b rest

theorem unescape_pathEscape (s : List UInt8) : unescape (pathEscape s) = some s := by
  induction s with
  | nil => rfl
  | cons b rest ih =>
    show unescape (pathEscapeByte b ++ pathEscape rest) = _
    rw [unescape_pathEscapeByte, ih]
    rfl

theorem pathEscape_intercalate {sep : UInt8} (hsep : pathPlain sep) (parts : List (List UInt8)) :
    pathEscape ([sep].intercalate parts) = [sep].intercalate (parts.map pathEscape) := by
  induction parts with
  | nil => rfl
  | cons part rest ih =>
    cases rest with
    | nil => rw [List.intercalate_singleton, List.map_singleton, List.intercalate_singleton]
    | cons next rest =>
      have hself : pathEscape [sep] = [sep] := by
        rw [pathEscape, List.flatMap_singleton, pathEscapeByte, if_pos hsep]
      rw [List.intercalate_cons_cons, pathEscape_append, pathEscape_append, hself, ih,
        List.map_cons, List.map_cons, List.map_cons, List.intercalate_cons_cons]

/-- A part that encoding leaves as it is is a part of the encoded string. -/
theorem mem_splitOn_pathEscape {sep : UInt8} (hsep : pathPlain sep) {s part : List UInt8}
    (hpart : part ∈ s.splitOn sep) (hsame : pathEscape part = part) :
    part ∈ (pathEscape s).splitOn sep := by
  have hjoin : [sep].intercalate (s.splitOn sep) = s := List.intercalate_splitOn sep
  rw [← hjoin, pathEscape_intercalate hsep]
  refine List.mem_splitOn_intercalate ?_ (List.not_mem_of_mem_splitOn sep s part hpart)
  exact List.mem_map.mpr ⟨part, hpart, hsame⟩

end Percent
