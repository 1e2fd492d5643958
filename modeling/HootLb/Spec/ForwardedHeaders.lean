import HootLb.Spec.DirectorSound

/-!
# Who the client was

The backend learns the client's address from `X-Real-IP` and from the last element
of `X-Forwarded-For`. The Director writes both and strips the hop-by-hop headers
afterwards, and which headers are hop-by-hop is for the client to say: a
`Connection` header that names one of the two takes it out again. Of a repeated
`X-Forwarded-For` only the first value is kept, and an empty one is dropped.

## Key results

- `lookup_stripHopByHop`: what is left after stripping
- `client_identity_iff`: when both headers arrive as they should
-/

namespace HootLb.L7

open Balancer HootLb.Runtime

/-! ## Headers as maps -/

theorem Header.lookup_set (h : Header) (key value k : String) :
    (h.set key value).lookup k =
      if k = canonicalMIMEHeaderKey key then some [value] else h.lookup k :=
  RefMap.lookup_insert_eq h (canonicalMIMEHeaderKey key) k [value]

theorem Header.lookup_del (h : Header) (key k : String) :
    (h.del key).lookup k = if k = canonicalMIMEHeaderKey key then none else h.lookup k := by
  unfold Header.del
  by_cases hk : k = canonicalMIMEHeaderKey key
  · rw [if_pos hk, hk, AList.lookup_erase]
  · rw [if_neg hk, AList.lookup_erase_ne hk]

/-- Deleting several headers. -/
theorem Header.lookup_dels (keys : List String) (h : Header) (k : String) :
    (keys.foldl Header.del h).lookup k =
      if k ∈ keys.map canonicalMIMEHeaderKey then none else h.lookup k := by
  induction keys generalizing h with
  | nil => simp
  | cons key rest ih =>
    rw [List.foldl_cons, ih, Header.lookup_del, List.map_cons]
    by_cases hrest : k ∈ rest.map canonicalMIMEHeaderKey
    · simp [hrest]
    · by_cases hk : k = canonicalMIMEHeaderKey key <;> simp [hrest, hk]

/-! ## Stripping -/

/-- The headers the client declares to be hop-by-hop: the tokens of the first
    `Connection` value. -/
def connectionTokens (h : Header) : List String :=
  ((splitComma (h.get "Connection")).map trimSpace).filter (· ≠ "")

private theorem foldl_delToken (tokens : List String) (h : Header) :
    tokens.foldl delToken h = ((tokens.map trimSpace).filter (· ≠ "")).foldl Header.del h := by
  induction tokens generalizing h with
  | nil => simp
  | cons token rest ih =>
    rw [List.foldl_cons, ih, List.map_cons]
    by_cases ht : trimSpace token = ""
    · simp [delToken, ht]
    · simp [delToken, ht]

/-- Every header that is no token and not in the fixed list stays. -/
theorem lookup_stripHopByHop (h : Header) (k : String) :
    (stripHopByHop h).lookup k =
      if k ∈ (connectionTokens h ++ hopByHopHeaders).map canonicalMIMEHeaderKey then none
      else h.lookup k := by
  unfold stripHopByHop
  dsimp only
  rw [Header.lookup_dels]
  by_cases hconn : h.get "Connection" = ""
  · -- without the header there are no tokens
    have htokens : connectionTokens h = [] := by
      rw [connectionTokens, hconn]
      decide
    rw [if_neg (not_not.mpr hconn), htokens, List.nil_append]
  · have hfixed : canonicalMIMEHeaderKey "Connection" ∈
        hopByHopHeaders.map canonicalMIMEHeaderKey := List.mem_map_of_mem (by decide)
    rw [if_pos hconn, Header.lookup_del, foldl_delToken, Header.lookup_dels, List.map_append]
    by_cases hk : k ∈ hopByHopHeaders.map canonicalMIMEHeaderKey
    · rw [if_pos hk, if_pos (List.mem_append_right _ hk)]
    · have hne : k ≠ canonicalMIMEHeaderKey "Connection" := fun heq => hk (heq ▸ hfixed)
      rw [if_neg hk, if_neg hne]
      simp only [List.mem_append, hk, or_false]
      rfl

/-! ## The client's address -/

/-- The values of a header. -/
def Header.values (h : Header) (key : String) : List String :=
  (h.lookup (canonicalMIMEHeaderKey key)).getD []

/-- A value without its line breaks. -/
def withoutLineBreaks (val : String) : String :=
  String.ofList (val.toList.filter fun c => !(c = '\r' || c = '\n'))

/-- The values as one list, with the client as its last element. -/
def forwardedFor (values : List String) (clientIP : String) : String :=
  (values.map withoutLineBreaks).foldr (fun val rest => val ++ ", " ++ rest) clientIP

/-- `X-Real-IP` is the client, and `X-Forwarded-For` is what came in, followed by
    the client. -/
structure IdentifiesClient (inbound : Header) (clientIP : String) (outgoing : Header) : Prop where
  realIP : outgoing.values "X-Real-IP" = [clientIP]
  forwarded : outgoing.values "X-Forwarded-For" =
    [forwardedFor (inbound.values "X-Forwarded-For") clientIP]

theorem sanitiseXFF_eq (val : String) : sanitiseXFF val = withoutLineBreaks val := by
  unfold sanitiseXFF withoutLineBreaks
  split
  · rename_i h
    simp only [Bool.not_eq_eq_eq_not, Bool.not_true, List.any_eq_false] at h
    rw [List.filter_eq_self.mpr fun c hc => by simpa using h c hc, String.ofList_toList]
  · rfl

private theorem canonical_realIP : canonicalMIMEHeaderKey "X-Real-IP" = "X-Real-Ip" := by decide

private theorem canonical_forwardedFor :
    canonicalMIMEHeaderKey "X-Forwarded-For" = "X-Forwarded-For" := by decide

private theorem canonical_connection : canonicalMIMEHeaderKey "Connection" = "Connection" := by
  decide

/-- What the injection leaves under the two names, and that it touches nothing
    else. -/
theorem lookup_injectForwardedHeaders (h : Header) (clientIP k : String) :
    (injectForwardedHeaders h clientIP).lookup k =
      if k = "X-Forwarded-For" then
        some [if h.get "X-Forwarded-For" = "" then clientIP
          else withoutLineBreaks (h.get "X-Forwarded-For") ++ ", " ++ clientIP]
      else if k = "X-Real-Ip" then some [clientIP] else h.lookup k := by
  have hget : (h.set "X-Real-IP" clientIP).get "X-Forwarded-For" = h.get "X-Forwarded-For" := by
    unfold Header.get
    rw [Header.lookup_set, canonical_realIP, canonical_forwardedFor, if_neg (by decide)]
  unfold injectForwardedHeaders
  dsimp only
  rw [hget]
  by_cases hempty : h.get "X-Forwarded-For" = ""
  · rw [if_neg (not_not.mpr hempty), if_pos hempty, Header.lookup_set, Header.lookup_set,
      canonical_forwardedFor, canonical_realIP]
  · rw [if_pos hempty, if_neg hempty, Header.lookup_set, Header.lookup_set,
      canonical_forwardedFor, canonical_realIP, sanitiseXFF_eq]

theorem connectionTokens_inject (h : Header) (clientIP : String) :
    connectionTokens (injectForwardedHeaders h clientIP) = connectionTokens h := by
  unfold connectionTokens Header.get
  rw [lookup_injectForwardedHeaders, canonical_connection, if_neg (by decide),
    if_neg (by decide)]

/-- An element more makes the list longer. -/
private theorem forwardedFor_eq_iff (values : List String) (clientIP : String) :
    forwardedFor values clientIP = clientIP ↔ values = [] := by
  constructor
  · intro heq
    cases values with
    | nil => rfl
    | cons val rest =>
      have hge : ∀ rest : List String, clientIP.length ≤ (forwardedFor rest clientIP).length := by
        intro rest
        induction rest with
        | nil => exact Nat.le_refl _
        | cons val rest ih =>
          show _ ≤ (withoutLineBreaks val ++ ", " ++ forwardedFor rest clientIP).length
          rw [String.length_append]
          omega
      have hlen := congrArg String.length heq
      have hcons : (forwardedFor (val :: rest) clientIP).length =
          (withoutLineBreaks val).length + 2 + (forwardedFor rest clientIP).length := by
        show (withoutLineBreaks val ++ ", " ++ forwardedFor rest clientIP).length = _
        rw [String.length_append, String.length_append]
        rfl
      have := hge rest
      omega
  · rintro rfl
    rfl

/-- The injected value is the right one exactly when there is at most one value,
    and not an empty one. -/
theorem injected_eq_iff (h : Header) (clientIP : String) :
    (if h.get "X-Forwarded-For" = "" then clientIP
        else withoutLineBreaks (h.get "X-Forwarded-For") ++ ", " ++ clientIP) =
      forwardedFor (h.values "X-Forwarded-For") clientIP ↔
    (h.values "X-Forwarded-For").length ≤ 1 ∧ h.values "X-Forwarded-For" ≠ [""] := by
  have hget : h.get "X-Forwarded-For" = ((h.values "X-Forwarded-For").head?).getD "" := rfl
  rw [hget]
  generalize h.values "X-Forwarded-For" = values
  cases values with
  | nil => simp [forwardedFor]
  | cons val rest =>
    rw [show ((val :: rest).head?).getD "" = val from rfl]
    by_cases hval : val = ""
    · subst hval
      rw [if_pos rfl]
      refine iff_of_false (fun heq => ?_) ?_
      · exact absurd ((forwardedFor_eq_iff ("" :: rest) clientIP).mp heq.symm) (by simp)
      · rintro ⟨hlen, hne⟩
        cases rest with
        | nil => exact hne rfl
        | cons val' rest => simp at hlen
    · rw [if_neg hval]
      have hcons : forwardedFor (val :: rest) clientIP =
          withoutLineBreaks val ++ ", " ++ forwardedFor rest clientIP := rfl
      rw [hcons, String.append_right_inj, eq_comm, forwardedFor_eq_iff]
      simp [hval, List.length_eq_zero_iff]

/-- After both passes a header that is not hop-by-hop by itself is there unless the
    client named it. -/
private theorem values_forwarded (h : Header) (clientIP key : String)
    (hkey : canonicalMIMEHeaderKey key ∉ hopByHopHeaders.map canonicalMIMEHeaderKey) :
    (stripHopByHop (injectForwardedHeaders h clientIP)).values key =
      if ∃ token ∈ connectionTokens h,
          canonicalMIMEHeaderKey token = canonicalMIMEHeaderKey key then []
      else (injectForwardedHeaders h clientIP).values key := by
  unfold Header.values
  rw [lookup_stripHopByHop, connectionTokens_inject, List.map_append]
  simp only [List.mem_append, hkey, or_false, List.mem_map]
  split <;> rfl

private theorem values_realIP (h : Header) (clientIP : String) :
    (injectForwardedHeaders h clientIP).values "X-Real-IP" = [clientIP] := by
  unfold Header.values
  rw [lookup_injectForwardedHeaders, canonical_realIP, if_neg (by decide), if_pos rfl]
  rfl

private theorem values_forwardedFor (h : Header) (clientIP : String) :
    (injectForwardedHeaders h clientIP).values "X-Forwarded-For" =
      [if h.get "X-Forwarded-For" = "" then clientIP
        else withoutLineBreaks (h.get "X-Forwarded-For") ++ ", " ++ clientIP] := by
  unfold Header.values
  rw [lookup_injectForwardedHeaders, canonical_forwardedFor, if_pos rfl]
  rfl

/-- Both passes, for a request whose backend was found. -/
theorem identifiesClient_iff (h : Header) (clientIP : String) :
    IdentifiesClient h clientIP (stripHopByHop (injectForwardedHeaders h clientIP)) ↔
      (∀ token ∈ connectionTokens h,
        canonicalMIMEHeaderKey token ≠ "X-Real-Ip" ∧
        canonicalMIMEHeaderKey token ≠ "X-Forwarded-For") ∧
      (h.values "X-Forwarded-For").length ≤ 1 ∧ h.values "X-Forwarded-For" ≠ [""] := by
  have hreal := values_forwarded h clientIP "X-Real-IP" (by decide)
  have hfor := values_forwarded h clientIP "X-Forwarded-For" (by decide)
  rw [values_realIP, canonical_realIP] at hreal
  rw [values_forwardedFor, canonical_forwardedFor] at hfor
  rw [← injected_eq_iff]
  constructor
  · rintro ⟨h₁, h₂⟩
    rw [hreal] at h₁
    rw [hfor] at h₂
    have hnot₁ : ¬ ∃ token ∈ connectionTokens h, canonicalMIMEHeaderKey token = "X-Real-Ip" := by
      intro hnamed
      rw [if_pos hnamed] at h₁
      exact nomatch h₁
    have hnot₂ : ¬ ∃ token ∈ connectionTokens h,
        canonicalMIMEHeaderKey token = "X-Forwarded-For" := by
      intro hnamed
      rw [if_pos hnamed] at h₂
      exact nomatch h₂
    rw [if_neg hnot₂] at h₂
    exact ⟨fun token ht => ⟨fun heq => hnot₁ ⟨token, ht, heq⟩, fun heq => hnot₂ ⟨token, ht, heq⟩⟩,
      List.cons.inj h₂ |>.1⟩
  · rintro ⟨htokens, heq⟩
    refine ⟨?_, ?_⟩
    · rw [hreal, if_neg]
      rintro ⟨token, ht, hnamed⟩
      exact (htokens token ht).1 hnamed
    · rw [hfor, if_neg, heq]
      rintro ⟨token, ht, hnamed⟩
      exact (htokens token ht).2 hnamed

/-- The client is identified exactly when the `Connection` header does not name
    the two headers and there is at most one `X-Forwarded-For` value, and not an
    empty one. -/
theorem client_identity_iff (heap : Heap) (table : RouteTable PoolRef) (m : Option L7Metrics)
    (v : Visit) (r : DirectorResult) (hr : newDirectorInternal heap table m v = some r)
    (hpicked : r.ctx.err = none) :
    IdentifiesClient v.req.headers v.clientIP r.headers ↔
      (∀ token ∈ connectionTokens v.req.headers,
        canonicalMIMEHeaderKey token ≠ "X-Real-Ip" ∧
        canonicalMIMEHeaderKey token ≠ "X-Forwarded-For") ∧
      (v.req.headers.values "X-Forwarded-For").length ≤ 1 ∧
      v.req.headers.values "X-Forwarded-For" ≠ [""] := by
  have hheaders : r.headers =
      stripHopByHop (injectForwardedHeaders v.req.headers v.clientIP) := by
    obtain ⟨ps, -, -, ⟨b, hfw⟩ | ⟨why, href⟩⟩ := newDirectorInternal_some heap table m v r hr
    · exact hfw.headers
    · exact nomatch hpicked.symm.trans href.err
  rw [hheaders]
  exact identifiesClient_iff v.req.headers v.clientIP

/-! ## Requests that hide their client -/

/-- A request with the given headers. -/
def visitWith (headers : Header) : Visit :=
  { splitVisit [] 0 with req := { host := "example.com", path := "/", headers } }

/-- The two headers as they leave the Director. -/
def identityHeaders (headers : Header) : Option (Option String × List String × List String) :=
  (newDirectorInternal splitHeap splitTable none (visitWith headers)).map fun r =>
    (r.ctx.err, r.headers.values "X-Real-IP", r.headers.values "X-Forwarded-For")

/-- A `Connection` header removes the proxy's entries, and the second of two
    `X-Forwarded-For` values is lost. -/
theorem client_identity_lost :
    identityHeaders ((∅ : Header).insert "Connection" ["x-forwarded-for, X-Real-IP"]) =
      some (none, [], []) ∧
    identityHeaders ((∅ : Header).insert "X-Forwarded-For" ["198.51.100.1", "203.0.113.5"]) =
      some (none, ["192.0.2.7"], ["198.51.100.1, 192.0.2.7"]) ∧
    ∃ r, newDirectorInternal splitHeap splitTable none
        (visitWith ((∅ : Header).insert "Connection" ["x-forwarded-for, X-Real-IP"])) = some r ∧
      r.ctx.err = none ∧
      ¬ IdentifiesClient ((∅ : Header).insert "Connection" ["x-forwarded-for, X-Real-IP"])
        "192.0.2.7" r.headers := by
  have hrun : identityHeaders ((∅ : Header).insert "Connection" ["x-forwarded-for, X-Real-IP"]) =
      some (none, [], []) := by
    decide +kernel
  refine ⟨hrun, by decide +kernel, ?_⟩
  obtain ⟨r, hr, hvalues⟩ := Option.map_eq_some_iff.mp hrun
  simp only [Prod.mk.injEq] at hvalues
  refine ⟨r, hr, hvalues.1, fun h => ?_⟩
  exact nomatch hvalues.2.1.symm.trans h.realIP

/-- The theorem at a request that another proxy has passed on. -/
theorem client_appended_to_chain :
    ∃ r, newDirectorInternal splitHeap splitTable none
        (visitWith ((∅ : Header).insert "X-Forwarded-For" ["198.51.100.1, 203.0.113.5"])) =
          some r ∧
      r.ctx.err = none ∧
      IdentifiesClient ((∅ : Header).insert "X-Forwarded-For" ["198.51.100.1, 203.0.113.5"])
        "192.0.2.7" r.headers := by
  have hrun : (newDirectorInternal splitHeap splitTable none
      (visitWith ((∅ : Header).insert "X-Forwarded-For" ["198.51.100.1, 203.0.113.5"]))).map
        (fun r => r.ctx.err) = some none := by
    decide +kernel
  obtain ⟨r, hr, herr⟩ := Option.map_eq_some_iff.mp hrun
  refine ⟨r, hr, herr, (client_identity_iff splitHeap splitTable none _ r hr herr).mpr ?_⟩
  refine ⟨fun token htoken => ?_, by decide +kernel, by decide +kernel⟩
  have hnone : connectionTokens (visitWith
      ((∅ : Header).insert "X-Forwarded-For" ["198.51.100.1, 203.0.113.5"])).req.headers = [] := by
    decide +kernel
  rw [hnone] at htoken
  exact nomatch htoken

end HootLb.L7
