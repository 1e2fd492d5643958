import HootLb.Native.AdminPaths
import HootLb.Spec.RbacCoverage

/-!
# How admin paths are read

A path of the admin API is read three times: the mux cleans and matches it segment by
segment and tests how it ends, `extractPoolName` cuts it at the first slash, and
`extractBackendAddress` takes what follows `/backends/` and trims `/drain` and
`/undrain`. The three agree on the names the path was made of exactly if the pool name
has no slash, no segment is empty or made of dots, and the address does not end in a
segment that the mux looks for.

## Key results

- `extractPoolName_adminPath_iff`, `extractBackendAddress_adminPath`: the names
- `cleanPath_pools_iff`, `restMux_of_route`: the mux
- `addressed_iff`: the names that every path is read as
-/

namespace HootLb.GoString

theorem trimSuffix_append (s p : GoString) : trimSuffix (s ++ p) p = s := by
  have hsuffix : hasSuffix (s ++ p) p := List.isSuffixOf_iff_suffix.mpr (List.suffix_append s p)
  rw [trimSuffix, if_pos hsuffix, List.length_append, Nat.add_sub_cancel, List.take_left]

theorem trimSuffix_of_not {s p : GoString} (h : hasSuffix s p = false) : trimSuffix s p = s := by
  rw [trimSuffix, h]
  rfl

/-- A suffix that begins with a separator and has no other is looked for behind the last
    one. -/
theorem hasSuffix_append_cons {c : UInt8} {w : GoString} (hw : c ∉ w) (x a : GoString) :
    hasSuffix (x ++ c :: a) (c :: w) = hasSuffix (c :: a) (c :: w) := by
  rw [Bool.eq_iff_iff]
  unfold hasSuffix
  rw [List.isSuffixOf_iff_suffix, List.isSuffixOf_iff_suffix]
  constructor
  · intro h
    rcases List.suffix_or_suffix_of_suffix h (List.suffix_append x (c :: a)) with hs | hs
    · exact hs
    · -- the separator before `a` would be one inside of the suffix
      rcases List.suffix_cons_iff.mp hs with heq | hinside
      · rw [heq]
      · exact absurd (hinside.mem List.mem_cons_self) hw
  · exact List.suffix_append_of_suffix

/-- The first occurrence of a text is where its first byte occurs first. -/
theorem index_append {c : UInt8} {p : GoString} (hp : c ∉ p) (w rest : GoString) :
    index (c :: w) (p ++ (c :: w ++ rest)) = some p.length := by
  induction p with
  | nil => exact if_pos (hasPrefix_append (c :: w) rest)
  | cons b p ih =>
    obtain ⟨hb, hp⟩ := not_or.mp (mt List.mem_cons.mpr hp)
    have hprefix : hasPrefix (b :: (p ++ (c :: w ++ rest))) (c :: w) = false := by
      simp [hasPrefix, List.isPrefixOf, hb]
    rw [List.cons_append, index, hprefix, ih hp]
    rfl

/-- What is cut off before a separator does not contain it. -/
theorem not_mem_of_index (c : UInt8) (s : GoString) :
    match index [c] s with
    | none => c ∉ s
    | some idx => c ∉ s.take idx := by
  induction s with
  | nil => exact List.not_mem_nil
  | cons b rest ih =>
    by_cases hb : c = b
    · subst hb
      have hprefix : hasPrefix (c :: rest) [c] := by simp [hasPrefix, List.isPrefixOf]
      rw [index, if_pos hprefix]
      exact List.not_mem_nil
    · have hprefix : hasPrefix (b :: rest) [c] = false := by simp [hasPrefix, List.isPrefixOf, hb]
      rw [index, hprefix]
      cases hindex : index [c] rest with
      | none =>
        rw [hindex] at ih
        exact List.not_mem_cons_of_ne_of_not_mem hb ih
      | some idx =>
        rw [hindex] at ih
        exact List.not_mem_cons_of_ne_of_not_mem hb ih

end HootLb.GoString

namespace HootLb.Admin

/-! ## Paths of a backend -/

/-- What a path asks for, by its ending. -/
inductive Target where
  | backend
  | drain
  | undrain
  deriving DecidableEq

def Target.suffix : Target → GoString
  | backend => []
  | drain => ascii "/drain"
  | undrain => ascii "/undrain"

/-- The handler for the ending and the method. -/
def Target.endpoint (method : String) : Target → Option Endpoint
  | backend => if method = "DELETE" then some .removeBackend else none
  | drain => some .drainBackend
  | undrain => some .undrainBackend

/-- What follows `/admin/pools/` in the path of a backend. -/
def belowPools (p a : GoString) (t : Target) : GoString :=
  p ++ (ascii "/backends/" ++ (a ++ t.suffix))

/-- The path of a backend. -/
def adminPath (p a : GoString) (t : Target) : GoString :=
  ascii "/admin/pools/" ++ belowPools p a t

/-- The request asks for the path, with whatever escapes below `/admin/pools/`. -/
structure Request.Asks (r : Request) (path : GoString) : Prop where
  path : r.path = path
  escaped : ascii "/admin/pools/" <+: r.escapedPath

/-- Every reader of the paths of a backend finds the names in them. -/
structure Addressed (p a : GoString) : Prop where
  pool : ∀ t, extractPoolName (adminPath p a t) = p
  backend : ∀ t, extractBackendAddress (adminPath p a t) = a
  endpoint : ∀ t r, Request.Asks r (adminPath p a t) → restMux r = t.endpoint r.method

/-- The segments that `cleanPath` removes. -/
def dotSegments : List GoString := [[], ascii ".", ascii ".."]

/-- No slash in the pool name, no segment that is cleaned away, and no ending that the mux
    takes for its own. -/
structure Addressable (p a : GoString) : Prop where
  slash : 47 ∉ p
  segments : ∀ s ∈ p :: a.splitOn 47, s ∉ dotSegments
  ending : ∀ s ∈ [ascii "/drain", ascii "/undrain", ascii "/backends"],
    GoString.hasSuffix (47 :: a) s = false

/-! ## The names -/

theorem not_mem_extractPoolName (path : GoString) : 47 ∉ extractPoolName path := by
  have hcut := GoString.not_mem_of_index 47 (path.trimPrefix (ascii "/admin/pools/"))
  unfold extractPoolName
  dsimp only
  have hslash : ascii "/" = [47] := rfl
  rw [hslash]
  cases hindex : GoString.index [47] (path.trimPrefix (ascii "/admin/pools/")) with
  | none =>
    rw [hindex] at hcut
    exact hcut
  | some idx =>
    rw [hindex] at hcut
    exact hcut

theorem extractPoolName_adminPath_iff (p a : GoString) (t : Target) :
    extractPoolName (adminPath p a t) = p ↔ 47 ∉ p := by
  constructor
  · intro heq
    rw [← heq]
    exact not_mem_extractPoolName _
  · intro hslash
    have hindex : GoString.index (ascii "/") (belowPools p a t) = some p.length :=
      GoString.index_append hslash [] _
    unfold extractPoolName adminPath
    rw [GoString.trimPrefix_append]
    dsimp only
    rw [hindex]
    exact List.take_left

/-- What is left when the endings are trimmed. -/
theorem extractBackendAddress_adminPath {p : GoString} (hslash : 47 ∉ p) (a : GoString)
    (t : Target) :
    extractBackendAddress (adminPath p a t) =
      GoString.trimSuffix (GoString.trimSuffix (a ++ t.suffix) (ascii "/drain"))
        (ascii "/undrain") := by
  have hindex : GoString.index (ascii "/backends/") (belowPools p a t) = some p.length :=
    GoString.index_append hslash (ascii "backends/") _
  have hdrop : (belowPools p a t).drop (p.length + (ascii "/backends/").length) =
      a ++ t.suffix := by
    rw [belowPools, ← List.drop_drop, List.drop_left, List.drop_left]
  unfold extractBackendAddress adminPath
  rw [GoString.trimPrefix_append]
  dsimp only
  rw [hindex]
  dsimp only
  rw [hdrop]

theorem Addressable.extractBackendAddress {p a : GoString} (h : Addressable p a) (t : Target) :
    extractBackendAddress (adminPath p a t) = a := by
  have hnot : ∀ s ∈ [ascii "/drain", ascii "/undrain"], GoString.hasSuffix a s = false := by
    intro s hs
    have hlong := h.ending s (by simp only [List.mem_cons] at hs ⊢; tauto)
    rw [Bool.eq_false_iff] at hlong ⊢
    intro hsuffix
    refine hlong (List.isSuffixOf_iff_suffix.mpr ?_)
    exact (List.isSuffixOf_iff_suffix.mp hsuffix).trans (List.suffix_cons 47 a)
  have hdrain := hnot (ascii "/drain") (by simp)
  have hundrain := hnot (ascii "/undrain") (by simp)
  rw [extractBackendAddress_adminPath h.slash]
  cases t with
  | backend =>
    rw [Target.suffix, List.append_nil, GoString.trimSuffix_of_not hdrain,
      GoString.trimSuffix_of_not hundrain]
  | drain => rw [Target.suffix, GoString.trimSuffix_append, GoString.trimSuffix_of_not hundrain]
  | undrain =>
    have hother : GoString.hasSuffix (a ++ ascii "/undrain") (ascii "/drain") = false :=
      GoString.hasSuffix_append_cons (w := ascii "drain") (by decide) a (ascii "undrain")
    rw [Target.suffix, GoString.trimSuffix_of_not hother, GoString.trimSuffix_append]

/-! ## The mux -/

/-- The segments below `/admin/pools/`. -/
theorem splitOn_pools (e : GoString) :
    ((ascii "/admin/pools/" ++ e).drop 1).splitOn 47 =
      ascii "admin" :: ascii "pools" :: e.splitOn 47 := by
  show (ascii "admin" ++ 47 :: (ascii "pools" ++ 47 :: e)).splitOn 47 = _
  rw [List.splitOn_append_cons_self_of_not_mem (by decide),
    List.splitOn_append_cons_self_of_not_mem (by decide)]

theorem matchPath_pools (e : GoString) :
    matchPath (ascii "/admin/pools/" ++ e) = some .poolsSubtree := by
  obtain ⟨first, rest, hsplit⟩ := List.exists_cons_of_ne_nil (List.splitOn_ne_nil 47 e)
  unfold matchPath segments
  rw [splitOn_pools, hsplit]
  rfl

theorem cleanSegments_of_plain {segs : List GoString} (h : ∀ s ∈ segs, s ∉ dotSegments)
    (kept : List GoString) :
    segs.foldl (fun kept segment =>
      if segment = [] ∨ segment = ascii "." then kept
      else if segment = ascii ".." then kept.dropLast
      else kept ++ [segment]) kept = kept ++ segs := by
  induction segs generalizing kept with
  | nil => exact (List.append_nil kept).symm
  | cons s segs ih =>
    have hs := h s List.mem_cons_self
    simp only [dotSegments, List.mem_cons, List.not_mem_nil, or_false, not_or] at hs
    rw [List.foldl_cons, if_neg (not_or.mpr ⟨hs.1, hs.2.1⟩), if_neg hs.2.2,
      ih fun x hx => h x (List.mem_cons_of_mem s hx), List.append_assoc]
    rfl

/-- What is kept is some of the segments, and none that is removed. -/
theorem mem_cleanSegments {segs : List GoString} :
    ∀ s ∈ cleanSegments segs, s ∈ segs ∧ s ∉ dotSegments := by
  unfold cleanSegments
  refine List.foldlRecOn segs _ (motive := fun kept => ∀ s ∈ kept, s ∈ segs ∧ s ∉ dotSegments)
    (fun s hs => by cases hs) ?_
  intro kept hkept segment hsegment s hs
  split at hs
  · exact hkept s hs
  · rename_i hplain
    split at hs
    · exact hkept s (List.mem_of_mem_dropLast hs)
    · rename_i hup
      rcases List.mem_append.mp hs with hs | hs
      · exact hkept s hs
      · obtain rfl := List.mem_singleton.mp hs
        refine ⟨hsegment, ?_⟩
        simp only [dotSegments, List.mem_cons, List.not_mem_nil, or_false]
        tauto

/-- Which paths below `/admin/pools/` are clean. -/
theorem cleanPath_pools_iff {e : GoString} (hne : e ≠ []) (hend : e.getLast? ≠ some 47) :
    cleanPath (ascii "/admin/pools/" ++ e) = ascii "/admin/pools/" ++ e ↔
      ∀ s ∈ e.splitOn 47, s ∉ dotSegments := by
  set segs := ascii "admin" :: ascii "pools" :: e.splitOn 47 with hsegs
  have hpath : ascii "/admin/pools/" ++ e = 47 :: [47].intercalate segs := by
    rw [hsegs, ← splitOn_pools, List.intercalate_splitOn]
    rfl
  have hlast : (ascii "/admin/pools/" ++ e).getLast? ≠ some 47 := by
    rw [List.getLast?_append_of_ne_nil _ hne]
    exact hend
  have hclean : cleanPath (ascii "/admin/pools/" ++ e) =
      47 :: [47].intercalate (cleanSegments segs) := by
    have hrooted : (ascii "/admin/pools/" ++ e).head? = some 47 := rfl
    unfold cleanPath
    dsimp only
    rw [if_pos hrooted, if_neg (fun h => hlast h.1), splitOn_pools]
  have hfixed : (∀ s ∈ segs, s ∉ dotSegments) ↔ ∀ s ∈ e.splitOn 47, s ∉ dotSegments := by
    rw [hsegs, List.forall_mem_cons, List.forall_mem_cons]
    exact ⟨fun h => h.2.2, fun h => ⟨by decide, by decide, h⟩⟩
  rw [hclean, hpath, List.cons_inj_right, ← hfixed]
  constructor
  · intro heq
    -- both are joined from segments without slashes, so they are the same segments
    have hfree : ∀ s ∈ segs, 47 ∉ s := by
      intro s hs
      rw [hsegs, ← splitOn_pools] at hs
      exact List.not_mem_of_mem_splitOn 47 _ s hs
    have hsome : cleanSegments segs ≠ [] := by
      intro hnil
      rw [hnil, hsegs, List.intercalate_cons_cons] at heq
      cases heq
    have hsame := congrArg (List.splitOn 47) heq
    rw [List.splitOn_intercalate 47 (fun s hs => hfree s (mem_cleanSegments s hs).1) hsome,
      List.splitOn_intercalate 47 hfree (List.cons_ne_nil _ _)] at hsame
    rw [← hsame]
    exact fun s hs => (mem_cleanSegments s hs).2
  · intro hplain
    have hkept : cleanSegments segs = segs := cleanSegments_of_plain hplain []
    rw [hkept]

/-- Removed segments are written as they are, in every encoding. -/
theorem unescape_dotSegment {s : GoString} (h : s ∈ dotSegments) :
    Percent.unescape s = some s ∧ Percent.pathEscape s = s := by
  simp only [dotSegments, List.mem_cons, List.not_mem_nil, or_false] at h
  rcases h with rfl | rfl | rfl <;> exact ⟨rfl, rfl⟩

/-- The segments of the path. -/
def Target.segments : Target → List GoString
  | backend => []
  | drain => [ascii "drain"]
  | undrain => [ascii "undrain"]

theorem splitOn_belowPools (p a : GoString) (t : Target) :
    (belowPools p a t).splitOn 47 =
      p.splitOn 47 ++ ascii "backends" :: (a.splitOn 47 ++ t.segments) := by
  have hword : ∀ w : GoString, 47 ∉ w → (a ++ 47 :: w).splitOn 47 = a.splitOn 47 ++ [w] := by
    intro w hw
    rw [List.splitOn_append_cons_self, List.splitOn_eq_singleton hw]
  have htarget : (a ++ t.suffix).splitOn 47 = a.splitOn 47 ++ t.segments := by
    cases t with
    | backend => rw [Target.suffix, Target.segments, List.append_nil, List.append_nil]
    | drain => exact hword (ascii "drain") (by decide)
    | undrain => exact hword (ascii "undrain") (by decide)
  show (p ++ 47 :: (ascii "backends" ++ 47 :: (a ++ t.suffix))).splitOn 47 = _
  rw [List.splitOn_append_cons_self, List.splitOn_append_cons_self_of_not_mem (by decide), htarget]

theorem plain_belowPools {p a : GoString} (hslash : 47 ∉ p)
    (hsegments : ∀ s ∈ p :: a.splitOn 47, s ∉ dotSegments) (t : Target) :
    ∀ s ∈ (belowPools p a t).splitOn 47, s ∉ dotSegments := by
  rw [splitOn_belowPools, List.splitOn_eq_singleton hslash]
  intro s hs
  simp only [List.mem_append, List.mem_cons, List.not_mem_nil, or_false] at hs
  rcases hs with rfl | rfl | ha | ht
  · exact hsegments s List.mem_cons_self
  · decide
  · exact hsegments s (List.mem_cons_of_mem p ha)
  · cases t with
    | backend => cases ht
    | drain =>
      obtain rfl := List.mem_singleton.mp ht
      decide
    | undrain =>
      obtain rfl := List.mem_singleton.mp ht
      decide

/-- A path without removed segments is routed, in every encoding. -/
theorem Request.Asks.route {r : Request} {below : GoString}
    (h : r.Asks (ascii "/admin/pools/" ++ below))
    (hplain : ∀ s ∈ below.splitOn 47, s ∉ dotSegments) : r.route = some .poolsSubtree := by
  obtain ⟨e, he⟩ := h.escaped
  have hdecoded : Percent.unescape e = some below := by
    have hunescape := r.unescape_eq
    rw [← he, h.path, Percent.unescape_append_of_not_mem (by decide)] at hunescape
    obtain ⟨decoded, hdecoded, happend⟩ := Option.map_eq_some_iff.mp hunescape
    rw [hdecoded, List.append_cancel_left happend]
  have hplain' : ∀ s ∈ e.splitOn 47, s ∉ dotSegments := by
    intro s hs hdot
    have hself := (unescape_dotSegment hdot).1
    exact hplain s (Percent.mem_splitOn_of_unescape slash_isSep hdecoded hs hself) hdot
  have hne : e ≠ [] := by
    rintro rfl
    exact hplain' [] (List.mem_singleton_self _) List.mem_cons_self
  have hend : e.getLast? ≠ some 47 := by
    intro hlast
    obtain ⟨init, rfl⟩ := List.getLast?_eq_some_iff.mp hlast
    refine hplain' [] ?_ List.mem_cons_self
    rw [List.splitOn_append_cons_self]
    exact List.mem_append_right _ (List.mem_singleton_self _)
  unfold Request.route
  rw [← he, if_pos (.inr ((cleanPath_pools_iff hne hend).mpr hplain'))]
  exact matchPath_pools e

/-- The endings that the mux tests. -/
theorem restMux_of_route {r : Request} {x last : GoString}
    (hroute : r.route = some .poolsSubtree) (hpath : r.path = x ++ 47 :: last) :
    restMux r =
      if GoString.hasSuffix (47 :: last) (ascii "/drain") then some .drainBackend
      else if GoString.hasSuffix (47 :: last) (ascii "/undrain") then some .undrainBackend
      else if GoString.hasSuffix (47 :: last) (ascii "/backends") ∧ r.method = "POST" then
        some .addBackend
      else if r.path.contains (ascii "/backends/") ∧ r.method = "DELETE" then
        some .removeBackend
      else none := by
  have hending : ∀ w : GoString, 47 ∉ w →
      r.path.hasSuffix (47 :: w) = GoString.hasSuffix (47 :: last) (47 :: w) := by
    intro w hw
    rw [hpath]
    exact GoString.hasSuffix_append_cons hw x last
  have hdrain := hending (ascii "drain") (by decide)
  have hundrain := hending (ascii "undrain") (by decide)
  have hbackends := hending (ascii "backends") (by decide)
  unfold restMux
  rw [hroute]
  show (if r.path.hasSuffix (47 :: ascii "drain") then some Endpoint.drainBackend
    else if r.path.hasSuffix (47 :: ascii "undrain") then some .undrainBackend
    else if r.path.hasSuffix (47 :: ascii "backends") ∧ r.method = "POST" then some .addBackend
    else _) = _
  rw [hdrain, hundrain, hbackends]
  rfl

theorem contains_adminPath (p a : GoString) (t : Target) :
    GoString.contains (adminPath p a t) (ascii "/backends/") := by
  refine decide_eq_true ⟨ascii "/admin/pools/" ++ p, a ++ t.suffix, ?_⟩
  rw [adminPath, belowPools, List.append_assoc, List.append_assoc]

/-! The path, cut at its last fixed slash. -/

theorem adminPath_backend (p a : GoString) :
    adminPath p a .backend = (ascii "/admin/pools/" ++ (p ++ ascii "/backends")) ++ 47 :: a := by
  rw [adminPath, belowPools, Target.suffix, List.append_nil, List.append_assoc, List.append_assoc]
  rfl

theorem adminPath_append_suffix (p a : GoString) (t : Target) :
    adminPath p a t = adminPath p a .backend ++ t.suffix := by
  simp only [adminPath, belowPools, Target.suffix, List.append_nil, List.append_assoc]

theorem Addressable.restMux {p a : GoString} (h : Addressable p a) {t : Target} {r : Request}
    (hr : r.Asks (adminPath p a t)) : restMux r = t.endpoint r.method := by
  have hroute := Request.Asks.route hr (plain_belowPools h.slash h.segments t)
  have hpath := hr.path.trans (adminPath_append_suffix p a t)
  cases t with
  | backend =>
    have hcontains : r.path.contains (ascii "/backends/") := by
      rw [hr.path]
      exact contains_adminPath p a .backend
    rw [restMux_of_route hroute (hr.path.trans (adminPath_backend p a)), h.ending _ (by simp),
      h.ending _ (by simp), h.ending _ (by simp), hcontains]
    simp [Target.endpoint]
  | drain =>
    rw [restMux_of_route hroute hpath]
    rfl
  | undrain =>
    rw [restMux_of_route hroute hpath]
    rfl

/-- The request that escapes no more than it has to. -/
def plainRequest (method : String) (p a : GoString) (t : Target) : Request where
  method := method
  escapedPath := Percent.pathEscape (adminPath p a t)
  path := adminPath p a t
  authorization := []
  unescape_eq := Percent.unescape_pathEscape (adminPath p a t)
  rooted _ := .inr rfl

theorem escapedPath_plainRequest (method : String) (p a : GoString) (t : Target) :
    (plainRequest method p a t).escapedPath =
      ascii "/admin/pools/" ++ Percent.pathEscape (belowPools p a t) :=
  Percent.pathEscape_append (ascii "/admin/pools/") (belowPools p a t)

theorem asks_plainRequest (method : String) (p a : GoString) (t : Target) :
    (plainRequest method p a t).Asks (adminPath p a t) where
  path := rfl
  escaped := ⟨_, (escapedPath_plainRequest method p a t).symm⟩

/-- A plain request for a drain that the mux serves has a clean path. -/
theorem plain_of_restMux {p a : GoString}
    (h : restMux (plainRequest "GET" p a .drain) = some .drainBackend) :
    ∀ s ∈ (belowPools p a .drain).splitOn 47, s ∉ dotSegments := by
  have hclean : cleanPath (plainRequest "GET" p a .drain).escapedPath =
      (plainRequest "GET" p a .drain).escapedPath := by
    by_contra hne
    have hroute : (plainRequest "GET" p a .drain).route = none :=
      if_neg (not_or.mpr ⟨by simp [plainRequest], hne⟩)
    rw [Admin.restMux, hroute] at h
    cases h
  have hescaped : Percent.pathEscape (belowPools p a .drain) =
      Percent.pathEscape (p ++ (ascii "/backends/" ++ a)) ++ ascii "/drain" := by
    show Percent.pathEscape (p ++ (ascii "/backends/" ++ (a ++ ascii "/drain"))) = _
    rw [← List.append_assoc (ascii "/backends/"), ← List.append_assoc p, Percent.pathEscape_append]
    rfl
  rw [escapedPath_plainRequest] at hclean
  have hplain := (cleanPath_pools_iff (by rw [hescaped]; simp [ascii]) (by
    rw [hescaped, List.getLast?_append_of_ne_nil _ (by decide)]
    decide)).mp hclean
  intro s hs hdot
  have hself := (unescape_dotSegment hdot).2
  exact hplain s (Percent.mem_splitOn_pathEscape (by decide) hs hself) hdot

/-- Which names every path of a backend is read as. -/
theorem addressed_iff (p a : GoString) : Addressed p a ↔ Addressable p a := by
  constructor
  · intro h
    have hslash := (extractPoolName_adminPath_iff p a .backend).mp (h.pool .backend)
    have hsegments : ∀ s ∈ p :: a.splitOn 47, s ∉ dotSegments := by
      have hplain := plain_of_restMux (h.endpoint .drain _ (asks_plainRequest "GET" p a .drain))
      rw [splitOn_belowPools, List.splitOn_eq_singleton hslash] at hplain
      intro s hs
      refine hplain s ?_
      simp only [List.mem_append, List.mem_cons, List.not_mem_nil, or_false] at hs ⊢
      tauto
    refine ⟨hslash, hsegments, ?_⟩
    -- a request for the backend itself is served for what its address ends in
    have hserved := fun method =>
      have hasks := asks_plainRequest method p a .backend
      have hroute := hasks.route (plain_belowPools hslash hsegments .backend)
      (restMux_of_route hroute (adminPath_backend p a)).symm.trans (h.endpoint .backend _ hasks)
    intro s hs
    rw [Bool.eq_false_iff]
    intro hending
    simp only [List.mem_cons, List.not_mem_nil, or_false] at hs
    rcases hs with rfl | rfl | rfl
    · have hdelete := hserved "DELETE"
      rw [if_pos hending] at hdelete
      cases hdelete
    · have hdelete := hserved "DELETE"
      rw [if_pos hending] at hdelete
      split at hdelete <;> cases hdelete
    · have hpost := hserved "POST"
      have hadd : GoString.hasSuffix (47 :: a) (ascii "/backends") ∧
          (plainRequest "POST" p a .backend).method = "POST" := ⟨hending, rfl⟩
      rw [if_pos hadd] at hpost
      split at hpost
      · cases hpost
      · split at hpost <;> cases hpost
  · intro h
    exact ⟨fun t => (extractPoolName_adminPath_iff p a t).mpr h.slash, h.extractBackendAddress,
      fun t r hr => h.restMux hr⟩

end HootLb.Admin
