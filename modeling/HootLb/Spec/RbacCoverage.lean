import HootLb.Native.Rbac

/-!
# Which requests the permissions cover

The mux matches the escaped path segment by segment and the middleware tests the
decoded path as a whole. A route determines the decoded path, or how it starts,
and then both agree on the handler, with one exception: `/admin/pools` needs the
`read` permission for GET only, and the mux hands it to `listPools` for every
method.

## Key results

- `Request.path_eq`: the decoded path of a routed request, from its segments
- `rbac_covers_iff`: the requests for which the permissions are enforced
-/

namespace HootLb.GoString

theorem hasPrefix_append (p s : GoString) : hasPrefix (p ++ s) p :=
  List.isPrefixOf_iff_prefix.mpr (List.prefix_append p s)

theorem trimPrefix_append (p s : GoString) : trimPrefix (p ++ s) p = s := by
  rw [trimPrefix, if_pos (hasPrefix_append p s), List.drop_left]

end HootLb.GoString

namespace HootLb.Admin

/-- The permission each handler is for. -/
def Endpoint.permission : Endpoint → Permission
  | .listPools => .read
  | .drainBackend => .drain
  | .undrainBackend => .drain
  | .addBackend => .backends
  | .removeBackend => .backends
  | .restart => .restart

/-! ## Routes and decoded paths -/

theorem slash_isSep : Percent.IsSep 47 := ⟨by decide, by decide⟩

/-- The decoded path, from the segments the mux looks at. -/
theorem Request.path_eq (r : Request) (h : r.escapedPath.head? = some 47) :
    r.path = 47 :: [47].intercalate (segments r.escapedPath) := by
  obtain ⟨rest, hrest⟩ := List.head?_eq_some_iff.mp h
  have hunescape := r.unescape_eq
  rw [hrest, Percent.unescape_cons_of_ne slash_isSep.ne_percent] at hunescape
  obtain ⟨decoded, hdecoded, hpath⟩ := Option.map_eq_some_iff.mp hunescape
  have hsplit : [47].intercalate (rest.splitOn 47) = rest := List.intercalate_splitOn 47
  rw [← hsplit] at hdecoded
  rw [← hpath, Percent.unescape_intercalate slash_isSep _ hdecoded, hrest]
  rfl

theorem cleanPath_rooted (p : GoString) : (cleanPath p).head? = some 47 := by
  unfold cleanPath
  rw [apply_ite List.head?]
  exact ite_self _

/-- A routed request has a rooted path, and its segments decide the route. -/
theorem Request.of_route {r : Request} {p : Pattern} (h : r.route = some p) :
    r.escapedPath.head? = some 47 ∧ matchPath r.escapedPath = some p := by
  unfold Request.route at h
  split at h
  · rename_i hserved
    refine ⟨?_, h⟩
    obtain hconnect | hclean := hserved
    · refine (r.rooted hconnect).resolve_left fun hnil => ?_
      rw [hnil] at h
      cases h
    · rw [← hclean]
      exact cleanPath_rooted _
  · cases h

/-- The segments each pattern stands for. -/
theorem matchPath_cases {escapedPath : GoString} {p : Pattern}
    (h : matchPath escapedPath = some p) :
    p = .pools ∧ segments escapedPath = [ascii "admin", ascii "pools"] ∨
      p = .restart ∧ segments escapedPath = [ascii "admin", ascii "restart"] ∨
      p = .poolsSubtree ∧ ∃ next rest,
        segments escapedPath = ascii "admin" :: ascii "pools" :: next :: rest := by
  unfold matchPath at h
  split at h
  · rename_i first second hsegments
    split_ifs at h with hpools hrestart
    · cases h
      rw [hsegments, hpools.1, hpools.2]
      exact .inl ⟨rfl, rfl⟩
    · cases h
      rw [hsegments, hrestart.1, hrestart.2]
      exact .inr (.inl ⟨rfl, rfl⟩)
  · rename_i first second next rest hsegments
    split_ifs at h with hpools
    cases h
    rw [hsegments, hpools.1, hpools.2]
    exact .inr (.inr ⟨rfl, next, rest, rfl⟩)
  · cases h

/-- What a pattern says about the decoded path. -/
def Pattern.Covers (path : GoString) : Pattern → Prop
  | .pools => path = ascii "/admin/pools"
  | .restart => path = ascii "/admin/restart"
  | .poolsSubtree => path.hasPrefix (ascii "/admin/pools/")

theorem Request.covers_of_route {r : Request} {p : Pattern} (h : r.route = some p) :
    p.Covers r.path := by
  obtain ⟨hrooted, hmatch⟩ := Request.of_route h
  obtain ⟨rfl, hsegments⟩ | ⟨rfl, hsegments⟩ | ⟨rfl, next, rest, hsegments⟩ :=
    matchPath_cases hmatch
  · rw [r.path_eq hrooted, hsegments]
    rfl
  · rw [r.path_eq hrooted, hsegments]
    rfl
  · have hpath : r.path = ascii "/admin/pools/" ++ [47].intercalate (next :: rest) := by
      rw [r.path_eq hrooted, hsegments, List.intercalate_cons_cons, List.intercalate_cons_cons]
      rfl
    rw [hpath]
    exact GoString.hasPrefix_append _ _

/-! ## Permissions and handlers -/

/-- The paths below `/admin/pools/` are neither of the other two. -/
theorem ne_of_hasPrefix {path : GoString} (h : path.hasPrefix (ascii "/admin/pools/")) :
    path ≠ ascii "/admin/pools" ∧ path ≠ ascii "/admin/restart" := by
  constructor
  · rintro rfl
    revert h
    decide
  · rintro rfl
    revert h
    decide

/-- `/admin/pools` needs a permission for GET only. -/
theorem endpointPermission_pools {r : Request} (h : r.path = ascii "/admin/pools") :
    endpointPermission r = if r.method = "GET" then some .read else none := by
  have hbelow : (ascii "/admin/pools").hasPrefix (ascii "/admin/pools/") = false := by decide
  have hrestart : ascii "/admin/pools" ≠ ascii "/admin/restart" := by decide
  have hbackends : GoString.contains (ascii "/admin/pools") (ascii "/backends/") = false := by
    decide +kernel
  simp [endpointPermission, h, hbelow, hrestart, hbackends]

theorem endpointPermission_restart {r : Request} (h : r.path = ascii "/admin/restart") :
    endpointPermission r = some .restart := by
  have hpools : ascii "/admin/restart" ≠ ascii "/admin/pools" := by decide
  have hbelow : (ascii "/admin/restart").hasPrefix (ascii "/admin/pools/") = false := by decide
  simp [endpointPermission, h, hpools, hbelow]

/-- Below `/admin/pools/` the middleware makes the tests of the mux. -/
theorem endpointPermission_below {r : Request} (h : r.path.hasPrefix (ascii "/admin/pools/")) :
    endpointPermission r =
      if r.path.hasSuffix (ascii "/drain") then some .drain
      else if r.path.hasSuffix (ascii "/undrain") then some .drain
      else if r.path.hasSuffix (ascii "/backends") ∧ r.method = "POST" then some .backends
      else if r.path.contains (ascii "/backends/") ∧ r.method = "DELETE" then some .backends
      else none := by
  obtain ⟨hpools, hrestart⟩ := ne_of_hasPrefix h
  simp [endpointPermission, h, hpools, hrestart]

/-- But for other methods on `/admin/pools`, the middleware asks for the
    permission of the handler. -/
theorem endpointPermission_of_restMux {r : Request} {e : Endpoint} (h : restMux r = some e)
    (hget : r.route = some .pools → r.method = "GET") :
    endpointPermission r = some e.permission := by
  unfold restMux at h
  cases hroute : r.route with
  | none => simp [hroute] at h
  | some p =>
    have hpath := Request.covers_of_route hroute
    simp only [hroute] at h
    cases p with
    | pools =>
      cases h
      rw [endpointPermission_pools hpath, if_pos (hget hroute)]
      rfl
    | restart =>
      cases h
      exact endpointPermission_restart hpath
    | poolsSubtree =>
      rw [endpointPermission_below hpath]
      dsimp only at h
      split_ifs at h ⊢ <;> cases h <;> rfl

/-- A request that goes through has a role with the permission asked for. -/
theorem holds_of_rbacMiddleware {roles : List Role} {r : Request} {role : Role}
    (h : rbacMiddleware roles r = .ok role) {perm : Permission}
    (hperm : endpointPermission r = some perm) : role.holds perm := by
  unfold rbacMiddleware at h
  simp only [hperm] at h
  split_ifs at h
  split at h
  · cases h
  · split_ifs at h with hholds
    cases h
    exact hholds

/-- A role with the token goes through where no permission is asked for. -/
theorem rbacMiddleware_of_open {r : Request} {role : Role} (hne : role.token ≠ [])
    (hauth : r.authorization = ascii "Bearer " ++ role.token)
    (hperm : endpointPermission r = none) : rbacMiddleware [role] r = .ok role := by
  have hbearer := GoString.hasPrefix_append (ascii "Bearer ") role.token
  have hheader : ¬ (ascii "Bearer " ++ role.token = [] ∨
      ¬ (ascii "Bearer " ++ role.token).hasPrefix (ascii "Bearer ")) := by
    simp [hne, hbearer]
  have htoken := GoString.trimPrefix_append (ascii "Bearer ") role.token
  unfold rbacMiddleware
  simp only [hauth, hheader, htoken, hne, if_false, hperm, List.find?_cons, decide_true]

/-- For a request, whatever its bearer token: for every list of roles, if the
    middleware lets it through and the mux hands it to a handler, the matched role
    holds the handler's permission, if and only if the request is a GET whenever
    it is routed to `/admin/pools`. -/
theorem rbac_covers_iff (r : Request) :
    (∀ (roles : List Role) (authorization : GoString) (role : Role) (e : Endpoint),
      rbacMiddleware roles { r with authorization } = .ok role →
      restMux { r with authorization } = some e → role.holds e.permission) ↔
      (r.route = some .pools → r.method = "GET") := by
  constructor
  · intro h hroute
    by_contra hget
    -- a role without any permission is let through to `listPools`
    let role : Role := { token := ascii "t", permissions := ∅ }
    let bearer : Request := { r with authorization := ascii "Bearer " ++ role.token }
    have hpath : bearer.path = ascii "/admin/pools" := Request.covers_of_route hroute
    have hperm : endpointPermission bearer = none := by
      rw [endpointPermission_pools hpath]
      exact if_neg hget
    have hpass : rbacMiddleware [role] bearer = .ok role :=
      rbacMiddleware_of_open (by decide) rfl hperm
    have hlist : restMux bearer = some .listPools := by
      have hroute' : bearer.route = some .pools := hroute
      simp only [restMux, hroute']
    have hholds : role.holds .read := h _ _ _ _ hpass hlist
    revert hholds
    decide
  · intro hget roles authorization role e hpass hmux
    exact holds_of_rbacMiddleware hpass (endpointPermission_of_restMux hmux hget)

/-- `POST /admin/pools`. -/
def postPools : Request where
  method := "POST"
  escapedPath := ascii "/admin/pools"
  path := ascii "/admin/pools"
  authorization := ascii "Bearer op"
  unescape_eq := by decide +kernel
  rooted := by decide

/-- A role that may only drain. -/
def drainer : Role := { token := ascii "op", permissions := (∅ : GoMap Bool).insert "drain" true }

theorem post_pools_needs_no_permission :
    rbacMiddleware [drainer] postPools = .ok drainer ∧ restMux postPools = some .listPools ∧
      drainer.holds Endpoint.listPools.permission = false := by
  refine ⟨?_, by decide +kernel, by decide⟩
  apply rbacMiddleware_of_open
  · decide
  · rfl
  · decide +kernel

end HootLb.Admin
