import HootLb.Spec.ForwardedHeaders
import Mathlib

/-!
# Hop-by-hop headers

What `StripHopByHop` is to take out: the headers of the fixed set and those that a
`Connection` header names, in any spelling. A client may send `Connection` more than
once; the code reads the first value only, so that what the others name is forwarded.

## Key results

- `canonical_eq_iff_sameName`: canonical names are spellings of one name
- `strip_exact_iff`: the header maps that are stripped as they should be
-/

namespace HootLb.L7

/-! ## Names -/

/-- Two spellings of one header name. -/
def SameName (a b : String) : Prop := a.toList.map Char.toLower = b.toList.map Char.toLower

instance (a b : String) : Decidable (SameName a b) :=
  inferInstanceAs (Decidable (_ = _))

theorem SameName.symm {a b : String} (h : SameName a b) : SameName b a := Eq.symm h

theorem SameName.trans {a b c : String} (h : SameName a b) (h' : SameName b c) : SameName a c :=
  Eq.trans h h'

theorem toLower_canonicalChars (upper : Bool) (cs : List Char) :
    (canonicalChars upper cs).map Char.toLower = cs.map Char.toLower := by
  induction cs generalizing upper with
  | nil => rfl
  | cons c rest ih =>
    simp only [canonicalChars, List.map_cons, ih]
    cases upper <;> simp

theorem canonicalChars_toLower (upper : Bool) (cs : List Char) :
    canonicalChars upper (cs.map Char.toLower) = canonicalChars upper cs := by
  induction cs generalizing upper with
  | nil => rfl
  | cons c rest ih =>
    simp only [canonicalChars, List.map_cons, ih]
    cases upper <;> simp

theorem validHeaderFieldByte_toLower (c : Char) :
    validHeaderFieldByte c.toLower = validHeaderFieldByte c := by
  by_cases hc : c.isUpper
  · -- both letters are valid
    simp [validHeaderFieldByte, Char.isAlphanum, Char.isAlpha, hc]
  · rw [Char.toLower_eq_of_not_isUpper hc]

theorem sameName_canonicalMIMEHeaderKey (name : String) :
    SameName (canonicalMIMEHeaderKey name) name := by
  unfold canonicalMIMEHeaderKey SameName
  split
  · rw [String.toList_ofList, toLower_canonicalChars]
  · rfl

/-- The names that net/http lets into a header map. -/
def IsCanonical (name : String) : Prop :=
  name.toList.all validHeaderFieldByte ∧ canonicalMIMEHeaderKey name = name

instance (name : String) : Decidable (IsCanonical name) :=
  inferInstanceAs (Decidable (_ ∧ _))

/-- A canonical name is what all of its spellings are turned into. -/
theorem canonical_eq_iff_sameName {name : String} (hname : IsCanonical name) (a : String) :
    canonicalMIMEHeaderKey a = name ↔ SameName a name := by
  constructor
  · intro h
    rw [← h]
    exact (sameName_canonicalMIMEHeaderKey a).symm
  · intro h
    -- an invalid spelling would be left as it is, but letters of both cases are valid
    have hvalid : a.toList.all validHeaderFieldByte = name.toList.all validHeaderFieldByte := by
      have hmap (s : String) : s.toList.all validHeaderFieldByte =
          (s.toList.map Char.toLower).all validHeaderFieldByte := by
        rw [List.all_map]
        congr 1
        funext c
        exact (validHeaderFieldByte_toLower c).symm
      rw [hmap a, h, ← hmap name]
    have hcanonical := hname.2
    unfold canonicalMIMEHeaderKey at hcanonical ⊢
    rw [hvalid, if_pos hname.1, ← canonicalChars_toLower, h, canonicalChars_toLower]
    rwa [if_pos hname.1] at hcanonical

/-! ## What is to be stripped -/

/-- The names in a value of the `Connection` header. -/
def valueTokens (value : String) : List String :=
  ((splitComma value).map trimSpace).filter (· ≠ "")

/-- A header of the fixed set, or one that some value of a `Connection` header names. -/
def IsHopByHop (h : Header) (name : String) : Prop :=
  (∃ header ∈ hopByHopHeaders, SameName header name) ∨
    ∃ key values, h.lookup key = some values ∧ SameName key "Connection" ∧
      ∃ value ∈ values, ∃ token ∈ valueTokens value, SameName token name

/-- Exactly the hop-by-hop headers are gone. -/
structure StrippedExactly (h stripped : Header) : Prop where
  gone : ∀ name, IsHopByHop h name → stripped.lookup name = none
  kept : ∀ name, ¬ IsHopByHop h name → stripped.lookup name = h.lookup name

theorem canonicalMIMEHeaderKey_connection :
    canonicalMIMEHeaderKey "Connection" = "Connection" := by decide

/-- The tokens that the code deletes are those of the first value. -/
theorem connectionTokens_eq (h : Header) :
    connectionTokens h = ((h.values "Connection").head?.map valueTokens).getD [] := by
  unfold connectionTokens Header.get Header.values
  cases ((h.lookup (canonicalMIMEHeaderKey "Connection")).getD []).head? with
  | none => decide
  | some value => rfl

theorem mem_values_connection {h : Header} {value : String} (hv : value ∈ h.values "Connection") :
    ∃ values, h.lookup "Connection" = some values ∧ value ∈ values := by
  rw [Header.values, canonicalMIMEHeaderKey_connection] at hv
  cases hvalues : h.lookup "Connection" with
  | none => simp [hvalues] at hv
  | some values => exact ⟨values, rfl, by rwa [hvalues] at hv⟩

theorem exists_value_of_mem_connectionTokens {h : Header} {token : String}
    (ht : token ∈ connectionTokens h) :
    ∃ value ∈ h.values "Connection", token ∈ valueTokens value := by
  rw [connectionTokens_eq] at ht
  cases hhead : (h.values "Connection").head? with
  | none => simp [hhead] at ht
  | some value =>
    rw [hhead] at ht
    exact ⟨value, List.mem_of_head? hhead, ht⟩

/-- Nothing is deleted that is not hop-by-hop. -/
theorem isHopByHop_of_mem {h : Header} {name : String}
    (hname : name ∈ (connectionTokens h ++ hopByHopHeaders).map canonicalMIMEHeaderKey) :
    IsHopByHop h name := by
  obtain ⟨n, hn, rfl⟩ := List.mem_map.mp hname
  have hsame := (sameName_canonicalMIMEHeaderKey n).symm
  rcases List.mem_append.mp hn with ht | hfixed
  · obtain ⟨value, hvalue, htoken⟩ := exists_value_of_mem_connectionTokens ht
    obtain ⟨values, hvalues, hvalue⟩ := mem_values_connection hvalue
    exact Or.inr ⟨"Connection", values, hvalues, rfl, value, hvalue, n, htoken, hsame⟩
  · exact Or.inl ⟨n, hfixed, hsame⟩

/-- Stripping is exact as soon as it reaches every hop-by-hop header that is there. -/
theorem strippedExactly_iff (h : Header) :
    StrippedExactly h (stripHopByHop h) ↔
      ∀ name ∈ h, IsHopByHop h name →
        name ∈ (connectionTokens h ++ hopByHopHeaders).map canonicalMIMEHeaderKey := by
  constructor
  · intro hexact name hmem hhop
    have hgone := hexact.gone name hhop
    rw [lookup_stripHopByHop] at hgone
    -- what the code does not name it keeps
    by_contra hnot
    rw [if_neg hnot] at hgone
    exact AList.lookup_eq_none.mp hgone hmem
  · intro hall
    refine ⟨fun name hhop => ?_, fun name hhop => ?_⟩
    · rw [lookup_stripHopByHop]
      by_cases hmem : name ∈ h
      · rw [if_pos (hall name hmem hhop)]
      · rw [AList.lookup_eq_none.mpr hmem, ite_self]
    · rw [lookup_stripHopByHop, if_neg fun hname => hhop (isHopByHop_of_mem hname)]

/-- In a map of canonical names, the hop-by-hop headers beyond those that are deleted
    are the ones that only a later value of `Connection` names. -/
theorem strippedExactly_iff_of_canonical (h : Header) (hkeys : ∀ name ∈ h, IsCanonical name) :
    StrippedExactly h (stripHopByHop h) ↔
      ∀ value ∈ h.values "Connection", ∀ token ∈ valueTokens value,
        canonicalMIMEHeaderKey token ∈ h →
        ∃ n ∈ connectionTokens h ++ hopByHopHeaders, SameName n token := by
  rw [strippedExactly_iff]
  constructor
  · intro hall value hvalue token htoken hmem
    have hsame := sameName_canonicalMIMEHeaderKey token
    obtain ⟨values, hvalues, hvalue⟩ := mem_values_connection hvalue
    have hhop : IsHopByHop h (canonicalMIMEHeaderKey token) :=
      Or.inr ⟨"Connection", values, hvalues, rfl, value, hvalue, token, htoken, hsame.symm⟩
    obtain ⟨n, hn, hcanonical⟩ := List.mem_map.mp (hall _ hmem hhop)
    exact ⟨n, hn, ((canonical_eq_iff_sameName (hkeys _ hmem) n).mp hcanonical).trans hsame⟩
  · intro hall name hmem hhop
    have hspelling := canonical_eq_iff_sameName (hkeys name hmem)
    rcases hhop with ⟨header, hheader, hsame⟩ | ⟨key, values, hvalues, hkey, hnamed⟩
    · exact List.mem_map.mpr ⟨header, List.mem_append_right _ hheader, (hspelling header).mpr hsame⟩
    · obtain ⟨value, hvalue, token, htoken, hsame⟩ := hnamed
      -- the only spelling of the header in the map is the canonical one
      have hcanonical : canonicalMIMEHeaderKey "Connection" = key :=
        (canonical_eq_iff_sameName
          (hkeys key (AList.lookup_isSome.mp (by rw [hvalues]; rfl))) _).mpr hkey.symm
      have hvalue' : value ∈ h.values "Connection" := by
        rw [Header.values, hcanonical, hvalues]
        exact hvalue
      have hpresent : canonicalMIMEHeaderKey token ∈ h := by
        rw [(hspelling token).mpr hsame]
        exact hmem
      obtain ⟨n, hn, hsame'⟩ := hall value hvalue' token htoken hpresent
      exact List.mem_map.mpr ⟨n, hn, (hspelling n).mpr (hsame'.trans hsame)⟩

/-- `StripHopByHop` takes out exactly the hop-by-hop headers when it comes to each of
    them by a canonical name from the fixed set or from the first value of `Connection`.
    In a map of canonical names this is so when every header that a later value names is
    among these, and so with at most one value. -/
theorem strip_exact_iff (h : Header) :
    (StrippedExactly h (stripHopByHop h) ↔
      ∀ name ∈ h, IsHopByHop h name →
        name ∈ (connectionTokens h ++ hopByHopHeaders).map canonicalMIMEHeaderKey) ∧
    ((∀ name ∈ h, IsCanonical name) →
      (StrippedExactly h (stripHopByHop h) ↔
        ∀ value ∈ h.values "Connection", ∀ token ∈ valueTokens value,
          canonicalMIMEHeaderKey token ∈ h →
          ∃ n ∈ connectionTokens h ++ hopByHopHeaders, SameName n token) ∧
      ((h.values "Connection").length ≤ 1 → StrippedExactly h (stripHopByHop h))) := by
  refine ⟨strippedExactly_iff h, fun hkeys => ⟨strippedExactly_iff_of_canonical h hkeys, ?_⟩⟩
  intro hone
  rw [strippedExactly_iff_of_canonical h hkeys]
  intro value hvalue token htoken hmem
  have hhead : (h.values "Connection").head? = some value := by
    match hvalues : h.values "Connection", hone with
    | [], _ => simp [hvalues] at hvalue
    | [v], _ =>
      rw [hvalues, List.mem_singleton] at hvalue
      rw [hvalue, List.head?_cons]
  refine ⟨token, List.mem_append_left _ ?_, rfl⟩
  rw [connectionTokens_eq, hhead]
  exact htoken

/-- A request with `Connection: x-secret, close`. -/
theorem one_connection_value_stripped :
    let h : Header := (AList.insert "Connection" ["x-secret, close"] ∅).insert "X-Secret" ["1"]
    StrippedExactly h (stripHopByHop h) ∧ (stripHopByHop h).lookup "X-Secret" = none := by
  intro h
  have hkeys : ∀ name ∈ h, IsCanonical name := by decide +kernel
  exact ⟨((strip_exact_iff h).2 hkeys).2 (by decide), by decide +kernel⟩

/-- A request with `Connection: close` and `Connection: x-secret`: the second one is not
    read, and the header it names is forwarded. -/
theorem second_connection_value_ignored :
    let h : Header :=
      (AList.insert "Connection" ["close", "x-secret"] ∅).insert "X-Secret" ["1"]
    IsHopByHop h "X-Secret" ∧ (stripHopByHop h).lookup "X-Secret" = some ["1"] := by
  intro h
  have hlookup : h.lookup "Connection" = some ["close", "x-secret"] := by decide +kernel
  have hsecret : "x-secret" ∈ valueTokens "x-secret" := by decide +kernel
  have hhop : IsHopByHop h "X-Secret" :=
    Or.inr ⟨"Connection", _, hlookup, rfl, "x-secret", by decide, "x-secret", hsecret, by decide⟩
  exact ⟨hhop, by decide +kernel⟩

end HootLb.L7
