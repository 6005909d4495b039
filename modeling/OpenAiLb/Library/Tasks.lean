import Mathlib.Data.List.Basic

/-!
# Lists of concurrent tasks

Tasks are numbered in the order in which they start: a start appends a task and a step
replaces one. A task found in the new list is the one that moved, or it was there before.
-/

namespace Tasks

variable {τ : Type*} {tasks : List τ} {old new found : τ} {i j : ℕ}

/-- A task found after a start is the new one, or it was there before. -/
theorem of_start (h : (tasks ++ [new])[j]? = some found) :
    tasks[j]? = some found ∨ (j = tasks.length ∧ found = new) := by
  by_cases hlt : j < tasks.length
  · left
    rwa [List.getElem?_append_left hlt] at h
  · right
    rw [List.getElem?_append_right (by omega)] at h
    obtain ⟨hzero, heq⟩ := List.getElem?_eq_some_iff.mp h
    have hlast : j - tasks.length = 0 := by simpa using hzero
    refine ⟨by omega, ?_⟩
    simpa [hlast, eq_comm] using heq

/-- A task found after a step is the one that moved, or another one that did not. -/
theorem of_set (hold : tasks[i]? = some old) (h : (tasks.set i new)[j]? = some found) :
    (j = i ∧ found = new) ∨ (j ≠ i ∧ tasks[j]? = some found) := by
  have hlt : i < tasks.length := (List.getElem?_eq_some_iff.mp hold).1
  by_cases heq : i = j
  · subst heq
    rw [List.getElem?_set_self hlt] at h
    exact .inl ⟨rfl, (Option.some.inj h).symm⟩
  · rw [List.getElem?_set_ne heq] at h
    exact .inr ⟨Ne.symm heq, h⟩

/-- What holds of every task still does after a start, if it holds of the new task. -/
theorem forall_start {p : ℕ → τ → Prop} (h : ∀ (j : ℕ) found, tasks[j]? = some found → p j found)
    (hnew : p tasks.length new) :
    ∀ (j : ℕ) found, (tasks ++ [new])[j]? = some found → p j found := by
  intro j found hfound
  rcases of_start hfound with hbefore | ⟨rfl, rfl⟩
  · exact h j found hbefore
  · exact hnew

/-- It still does after a step, if it holds of the task that moved. -/
theorem forall_set {p : ℕ → τ → Prop} (h : ∀ (j : ℕ) found, tasks[j]? = some found → p j found)
    (hold : tasks[i]? = some old) (hnew : p i new) :
    ∀ (j : ℕ) found, (tasks.set i new)[j]? = some found → p j found := by
  intro j found hfound
  rcases of_set hold hfound with ⟨rfl, rfl⟩ | ⟨-, hbefore⟩
  · exact hnew
  · exact h j found hbefore

/-- The task that moved. -/
theorem set_self (hold : tasks[i]? = some old) : (tasks.set i new)[i]? = some new :=
  List.getElem?_set_self (List.getElem?_eq_some_iff.mp hold).1

/-- A task that did not move. -/
theorem set_other (hne : i ≠ j) (h : tasks[j]? = some found) :
    (tasks.set i new)[j]? = some found := (List.getElem?_set_ne hne).trans h

/-- A start leaves the other tasks where they are. -/
theorem start_other (h : tasks[j]? = some found) : (tasks ++ [new])[j]? = some found :=
  (List.getElem?_append_left (List.getElem?_eq_some_iff.mp h).1).trans h

end Tasks
