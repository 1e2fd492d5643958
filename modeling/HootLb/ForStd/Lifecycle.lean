import Mathlib.Data.List.Nodup

/-!
# Objects that are started and stopped

A log of starts and a log of stops against the objects that should be running.
`Lifecycle` says that every object was started at most once and stopped at most
once, and that the live ones are those started and not yet stopped; it is kept by
every replacement that starts fresh objects and stops live ones.
-/

/-- The two logs account for the live objects. -/
structure Lifecycle {α : Type} (started stopped : List α) (live : α → Prop) : Prop where
  started_nodup : started.Nodup
  stopped_nodup : stopped.Nodup
  stopped_subset : stopped ⊆ started
  live_iff : ∀ a, live a ↔ a ∈ started ∧ a ∉ stopped

namespace Lifecycle

variable {α : Type} {started stopped : List α} {live : α → Prop}

/-- Nothing but starts so far. -/
theorem of_started (h : started.Nodup) (hlive : ∀ a, live a ↔ a ∈ started) :
    Lifecycle started [] live := by
  refine ⟨h, List.nodup_nil, List.nil_subset started, fun a => ?_⟩
  simp [hlive a]

/-- Start fresh objects, then stop live ones. -/
theorem replace (h : Lifecycle started stopped live) {start stop : List α} {live' : α → Prop}
    (hstart : start.Nodup) (hfresh : ∀ a ∈ start, a ∉ started) (hstop : stop.Nodup)
    (hold : ∀ a ∈ stop, live a) (hlive : ∀ a, live' a ↔ a ∈ start ∨ live a ∧ a ∉ stop) :
    Lifecycle (started ++ start) (stopped ++ stop) live' := by
  have hstop_started : ∀ a ∈ stop, a ∈ started := fun a ha => ((h.live_iff a).mp (hold a ha)).1
  have hstop_new : ∀ a ∈ stop, a ∉ stopped := fun a ha => ((h.live_iff a).mp (hold a ha)).2
  constructor
  · apply List.Nodup.append h.started_nodup hstart
    intro a ha hs
    exact hfresh a hs ha
  · apply List.Nodup.append h.stopped_nodup hstop
    intro a ha hs
    exact hstop_new a hs ha
  · intro a ha
    rcases List.mem_append.mp ha with ha | ha
    · exact List.mem_append_left start (h.stopped_subset ha)
    · exact List.mem_append_left start (hstop_started a ha)
  · intro a
    rw [hlive a, h.live_iff a, List.mem_append, List.mem_append, not_or]
    constructor
    · intro hcase
      rcases hcase with ha | ⟨⟨hs, hns⟩, hnew⟩
      · -- a fresh object was in neither log
        refine ⟨.inr ha, fun hst => ?_, fun hst => ?_⟩
        · exact hfresh a ha (h.stopped_subset hst)
        · exact hfresh a ha (hstop_started a hst)
      · exact ⟨.inl hs, hns, hnew⟩
    · intro hcase
      obtain ⟨hs | hs, hns, hnew⟩ := hcase
      · exact .inr ⟨⟨hs, hns⟩, hnew⟩
      · exact .inl hs

section Count

variable [DecidableEq α]

/-- A live object was started once and not stopped. -/
theorem count_of_live (h : Lifecycle started stopped live) {a : α} (ha : live a) :
    started.count a = 1 ∧ stopped.count a = 0 := by
  obtain ⟨hs, hns⟩ := (h.live_iff a).mp ha
  exact ⟨List.count_eq_one_of_mem h.started_nodup hs, List.count_eq_zero_of_not_mem hns⟩

/-- An object that was started and is no longer live was stopped once. -/
theorem count_of_not_live (h : Lifecycle started stopped live) {a : α} (hs : a ∈ started)
    (ha : ¬ live a) : stopped.count a = 1 := by
  have hst : a ∈ stopped := by
    by_contra hns
    exact ha ((h.live_iff a).mpr ⟨hs, hns⟩)
  exact List.count_eq_one_of_mem h.stopped_nodup hst

/-- The live objects are those started more often than stopped. -/
theorem live_iff_count (h : Lifecycle started stopped live) (a : α) :
    live a ↔ stopped.count a < started.count a := by
  constructor
  · intro ha
    obtain ⟨hs, hst⟩ := h.count_of_live ha
    omega
  · intro hlt
    have hs : a ∈ started := List.count_pos_iff.mp (by omega)
    have hone := List.count_eq_one_of_mem h.started_nodup hs
    have hns : a ∉ stopped := List.count_eq_zero.mp (by omega)
    exact (h.live_iff a).mpr ⟨hs, hns⟩

end Count

end Lifecycle
