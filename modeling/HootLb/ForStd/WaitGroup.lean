import HootLb.ForStd.List

/-!
# Wait groups

The counter of a wait group together with the tasks that it counts, in the order in
which they were started. A task counts itself when it is started and uncounts itself
as the last thing it does, so that the counter is the number of tasks that run; with
that as part of the structure a task that finishes never makes the counter negative,
and when the counter is zero every task has finished.

A group winds down when tasks finish and none is started. That is what a call that
waits for the group needs of everyone else from then on.
-/

/-- A counted task, with what it works on. -/
inductive Counted (ι : Type) where
  | running (work : ι)
  | done (work : ι)
  deriving DecidableEq

namespace Counted

variable {ι : Type}

def isRunning : Counted ι → Bool
  | running _ => true
  | done _ => false

def work : Counted ι → ι
  | running w => w
  | done w => w

end Counted

structure WaitGroup (ι : Type) where
  counter : Nat
  tasks : List (Counted ι)
  counter_eq : counter = tasks.countP Counted.isRunning

namespace WaitGroup

variable {ι : Type}

def empty : WaitGroup ι := { counter := 0, tasks := [], counter_eq := rfl }

/-- `Add(1)`, and the task is started. -/
def start (g : WaitGroup ι) (w : ι) : WaitGroup ι where
  counter := g.counter + 1
  tasks := g.tasks ++ [.running w]
  counter_eq := by simp [g.counter_eq, Counted.isRunning]

/-- `Done()`, which is the last thing that a task does. -/
def finish (g : WaitGroup ι) (k : Nat) (w : ι) (h : g.tasks[k]? = some (.running w)) :
    WaitGroup ι where
  counter := g.counter - 1
  tasks := g.tasks.set k (.done w)
  counter_eq := by
    have hcount := List.countP_set_add Counted.isRunning (.done w) h
    simp only [Counted.isRunning, if_true, Bool.false_eq_true, if_false] at hcount
    have := g.counter_eq
    omega

/-- What the tasks so far work on. -/
def works (g : WaitGroup ι) : List ι := g.tasks.map Counted.work

theorem works_start (g : WaitGroup ι) (w : ι) : (g.start w).works = g.works ++ [w] := by
  simp [works, start, Counted.work]

theorem works_finish (g : WaitGroup ι) (k : Nat) (w : ι)
    (h : g.tasks[k]? = some (.running w)) : (g.finish k w h).works = g.works := by
  have hwork : g.works[k]? = some w := by simp [works, h, Counted.work]
  obtain ⟨hlt, heq⟩ := List.getElem?_eq_some_iff.mp hwork
  calc (g.finish k w h).works = g.works.set k w := by simp [works, finish, Counted.work]
    _ = g.works.set k g.works[k] := by rw [heq]
    _ = g.works := List.set_getElem_self hlt

/-- A group with the counter at zero has only tasks that have finished. -/
theorem not_running_of_counter_eq_zero {g : WaitGroup ι} (h : g.counter = 0) {t : Counted ι}
    (ht : t ∈ g.tasks) : t.isRunning = false := by
  rw [g.counter_eq, List.countP_eq_zero] at h
  simpa using h t ht

theorem running_mem_start (g : WaitGroup ι) {v w : ι} (h : .running v ∈ g.tasks) :
    Counted.running v ∈ (g.start w).tasks := List.mem_append_left _ h

theorem running_self_mem_start (g : WaitGroup ι) (w : ι) :
    Counted.running w ∈ (g.start w).tasks := by
  simp [start]

/-- The other tasks keep running when one finishes. -/
theorem running_mem_finish (g : WaitGroup ι) {k : Nat} {v w : ι}
    (h : g.tasks[k]? = some (.running w)) (hv : .running v ∈ g.tasks) (hne : v ≠ w) :
    Counted.running v ∈ (g.finish k w h).tasks := by
  obtain ⟨j, hj⟩ := List.mem_iff_getElem?.mp hv
  have hjk : j ≠ k := by
    rintro rfl
    rw [h] at hj
    exact hne (by simpa using hj.symm)
  refine List.mem_iff_getElem?.mpr ⟨j, ?_⟩
  rw [finish, List.getElem?_set_ne (Ne.symm hjk), hj]

/-- Tasks finish and none is started. -/
def WindsDown (g g' : WaitGroup ι) : Prop := g'.works = g.works ∧ g'.counter ≤ g.counter

namespace WindsDown

variable {g g' g'' : WaitGroup ι}

theorem refl (g : WaitGroup ι) : g.WindsDown g := ⟨rfl, Nat.le_refl _⟩

theorem trans (h : g.WindsDown g') (h' : g'.WindsDown g'') : g.WindsDown g'' :=
  ⟨h'.1.trans h.1, Nat.le_trans h'.2 h.2⟩

theorem finish (g : WaitGroup ι) (k : Nat) (w : ι) (h : g.tasks[k]? = some (.running w)) :
    g.WindsDown (g.finish k w h) :=
  ⟨g.works_finish k w h, Nat.sub_le _ _⟩

/-- What has been waited for stays finished. -/
theorem not_running (h : g.WindsDown g') (hzero : g.counter = 0) {t : Counted ι}
    (ht : t ∈ g'.tasks) : t.isRunning = false :=
  not_running_of_counter_eq_zero (by have := h.2; omega) ht

end WindsDown

end WaitGroup
