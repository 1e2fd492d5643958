import HootLb.Native.Routing

/-!
# The route of a request

`RouteTable.Match` goes through the routes once and keeps the best so far. What it
keeps is the first of the longest: a route whose conditions hold, with a path
prefix longer than that of every earlier route whose conditions hold and no
shorter than that of every later one.

## Key results

- `FirstLongest`: the route to take
- `match_first_longest`: `Match` takes it, and the fallback if there is none
-/

namespace HootLb.L7

variable {α : Type}

/-! ## Conditions -/

/-- The conditions of a route hold: its host is that of the request, its path
    prefix begins the path and its header has the value, where an empty field is no
    condition. -/
def Route.Applies (r : Route α) (req : Request) : Prop :=
  (r.host = "" ∨ r.host = req.host) ∧
    (r.pathPrefix = "" ∨ r.pathPrefix.toList <+: req.path.toList) ∧
    (r.headerName = "" ∨ req.headers.get r.headerName = r.headerValue)

/-- The three `continue`s of the loop. -/
theorem Route.admits_iff (r : Route α) (req : Request) : r.admits req ↔ r.Applies req := by
  have hpre : hasPrefix req.path r.pathPrefix = true ↔
      r.pathPrefix.toList <+: req.path.toList := List.isPrefixOf_iff_prefix
  unfold Route.admits Route.Applies
  rw [← hpre]
  split
  · rename_i hhost
    simp [hhost]
  · rename_i hhost
    split
    · rename_i hpath
      simp_all
    · rename_i hpath
      split
      · rename_i hheader
        simp [hheader]
      · rename_i hheader
        refine iff_of_true rfl ⟨?_, ?_, ?_⟩
        · exact or_iff_not_imp_left.mpr fun h => not_not.mp fun hne => hhost ⟨h, hne⟩
        · exact or_iff_not_imp_left.mpr fun h => by simpa [h] using hpath
        · exact or_iff_not_imp_left.mpr fun h => not_not.mp fun hne => hheader ⟨h, hne⟩

/-! ## The loop -/

/-- Lengths of path prefixes, in bytes. -/
def Route.prefixLen (r : Route α) : Nat := r.pathPrefix.utf8ByteSize

/-- `r` stands in the list and its conditions hold; those before it with conditions
    that hold are shorter, and those after it are no longer. -/
structure FirstLongest (req : Request) (routes : List (Route α)) (r : Route α) : Prop where
  applies : r.Applies req
  first : ∃ before after, routes = before ++ r :: after ∧
    (∀ r' ∈ before, r'.Applies req → r'.prefixLen < r.prefixLen) ∧
    ∀ r' ∈ after, r'.Applies req → r'.prefixLen ≤ r.prefixLen

/-- What the loop knows after the routes `seen`. -/
def BestSoFar (req : Request) (seen : List (Route α)) (best : Option (Route α))
    (bestLen : Int) : Prop :=
  match best with
  | none => bestLen = -1 ∧ ∀ r ∈ seen, ¬ r.Applies req
  | some r => bestLen = r.prefixLen ∧ FirstLongest req seen r

section

variable {req : Request} {seen : List (Route α)} {best : Option (Route α)} {bestLen : Int}

/-- No route whose conditions hold is longer than the best so far. -/
theorem BestSoFar.le_bestLen (h : BestSoFar req seen best bestLen) (r' : Route α) (hr' : r' ∈ seen)
    (happlies : r'.Applies req) : (r'.prefixLen : Int) ≤ bestLen := by
  cases best with
  | none => exact absurd happlies (h.2 r' hr')
  | some r =>
    obtain ⟨rfl, -, before, after, rfl, hbefore, hafter⟩ := h
    rcases List.mem_append.mp hr' with hb | hc
    · exact_mod_cast le_of_lt (hbefore r' hb happlies)
    · rcases List.mem_cons.mp hc with rfl | ha
      · exact Int.le_refl _
      · exact_mod_cast hafter r' ha happlies

/-- A longer route becomes the best. -/
theorem BestSoFar.replace (h : BestSoFar req seen best bestLen) {r : Route α}
    (happlies : r.Applies req) (hlonger : bestLen < r.prefixLen) :
    BestSoFar req (seen ++ [r]) (some r) r.prefixLen := by
  refine ⟨rfl, happlies, seen, [], rfl, ?_, by simp⟩
  intro r' hr' happlies'
  have hle := h.le_bestLen r' hr' happlies'
  omega

/-- Any other is passed over. -/
theorem BestSoFar.keep (h : BestSoFar req seen best bestLen) {r : Route α}
    (hr : ¬ (r.Applies req ∧ bestLen < r.prefixLen)) :
    BestSoFar req (seen ++ [r]) best bestLen := by
  cases best with
  | none =>
    obtain ⟨rfl, hnone⟩ := h
    refine ⟨rfl, List.forall_mem_append.mpr ⟨hnone, ?_⟩⟩
    -- any length is more than the -1 the loop starts with
    intro r' hr' happlies
    rw [List.mem_singleton.mp hr'] at happlies
    exact hr ⟨happlies, by omega⟩
  | some b =>
    obtain ⟨rfl, happlies, before, after, rfl, hbefore, hafter⟩ := h
    refine ⟨rfl, happlies, before, after ++ [r], by simp, hbefore, ?_⟩
    intro r' hr' happlies'
    rcases List.mem_append.mp hr' with ha | hlast
    · exact hafter r' ha happlies'
    · rw [List.mem_singleton.mp hlast] at happlies' ⊢
      have hnot : ¬ (b.prefixLen : Int) < r.prefixLen := fun hlt => hr ⟨happlies', hlt⟩
      omega

theorem BestSoFar.matchLoop (h : BestSoFar req seen best bestLen) (routes : List (Route α)) :
    ∃ len, BestSoFar req (seen ++ routes) (matchLoop req routes best bestLen) len := by
  induction routes generalizing seen best bestLen with
  | nil => exact ⟨bestLen, by simpa [L7.matchLoop] using h⟩
  | cons r rest ih =>
    rw [List.append_cons, L7.matchLoop]
    split
    · rename_i hbetter
      exact ih (h.replace (r.admits_iff req |>.mp hbetter.1) hbetter.2)
    · rename_i hworse
      exact ih (h.keep fun hr => hworse ⟨(r.admits_iff req).mpr hr.1, hr.2⟩)

end

/-! ## The result -/

/-- The pointer `best` when the loop of `Match` ends; `none` is nil. -/
def RouteTable.best (t : RouteTable α) (req : Request) : Option (Route α) :=
  L7.matchLoop req t.routes none (-1)

/-- `Match` returns the first of the longest routes whose conditions hold, and the
    fallback exactly when there is no route whose conditions hold. -/
theorem match_first_longest (t : RouteTable α) (req : Request) :
    t.matchRoute req = (t.best req).getD t.fallback ∧
      (∀ r, t.best req = some r → FirstLongest req t.routes r) ∧
      (t.best req = none ↔ ∀ r ∈ t.routes, ¬ r.Applies req) := by
  have hstart : BestSoFar req ([] : List (Route α)) none (-1) := ⟨rfl, by simp⟩
  obtain ⟨len, hend⟩ := hstart.matchLoop t.routes
  have hfirst : ∀ r, t.best req = some r → FirstLongest req t.routes r := by
    intro r hr
    rw [show L7.matchLoop req t.routes none (-1) = some r from hr] at hend
    exact hend.2
  have hreturn : t.matchRoute req = (t.best req).getD t.fallback := by
    unfold RouteTable.matchRoute RouteTable.best
    cases L7.matchLoop req t.routes none (-1) <;> rfl
  refine ⟨hreturn, hfirst, ?_, ?_⟩
  · intro hnone
    rw [show L7.matchLoop req t.routes none (-1) = none from hnone] at hend
    exact hend.2
  · intro hnone
    cases hbest : t.best req with
    | none => rfl
    | some r =>
      obtain ⟨happlies, before, after, hroutes, -, -⟩ := hfirst r hbest
      exact absurd happlies (hnone r (by simp [hroutes]))

end HootLb.L7
