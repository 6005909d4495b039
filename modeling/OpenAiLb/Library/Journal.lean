import Mathlib.Data.List.Induction

/-!
# Journals of keyed records

A journal is a list of messages, each about one key. Some messages create the record of
their key, the others update it. What a journal says about a key is a fold over its
messages, and it is decided by the messages about that key alone. So whatever holds of
the messages of each key, in their order, holds of every interleaving of them.
-/

/-- How messages act on the records of their keys. -/
structure Journal (μ κ ρ : Type*) where
  /-- The key that a message is about. -/
  key : μ → κ
  /-- The record that a message creates; `none` for an update. -/
  created : μ → Option ρ
  /-- What an update does to the record. -/
  update : μ → ρ → ρ

namespace Journal

variable {μ κ ρ : Type*}

section Order

variable (J : Journal μ κ ρ)

/-- Every update comes after the creation of its record. -/
def Ordered (log : List μ) : Prop :=
  ∀ before m after, log = before ++ m :: after → J.created m = none →
    ∃ creation ∈ before, J.key creation = J.key m ∧ (J.created creation).isSome = true

variable {J} {m : μ} {log : List μ}

/-- An empty journal is ordered. -/
theorem ordered_nil : J.Ordered [] := by
  rintro before m after hsplit
  simp at hsplit

/-- One more message: a creation, or an update of a record that was created. -/
theorem Ordered.concat (h : J.Ordered log) (hm : J.created m = none →
    ∃ creation ∈ log, J.key creation = J.key m ∧ (J.created creation).isSome = true) :
    J.Ordered (log ++ [m]) := by
  rintro before x after hsplit hupdate
  rcases List.eq_nil_or_concat after with rfl | ⟨after, last, rfl⟩
  · obtain ⟨rfl, hx⟩ := List.append_inj' hsplit rfl
    obtain rfl : m = x := by simpa using hx
    exact hm hupdate
  · rw [List.concat_eq_append, ← List.cons_append, ← List.append_assoc] at hsplit
    obtain ⟨rfl, -⟩ := List.append_inj' hsplit rfl
    exact h before x after rfl hupdate

end Order

section Records

variable [DecidableEq κ] (J : Journal μ κ ρ)

/-- The messages about a key. -/
def about (k : κ) (log : List μ) : List μ := log.filter fun m => J.key m = k

/-- What one message does to the record of a key. A record that does not exist is not updated. -/
def write (k : κ) (record : Option ρ) (m : μ) : Option ρ :=
  if J.key m = k then (J.created m).elim (record.map (J.update m)) some else record

/-- The record of a key after a journal. -/
def record (k : κ) (log : List μ) : Option ρ := log.foldl (J.write k) none

variable {J} {k : κ} {m : μ} {log : List μ}

@[simp] theorem about_nil (k : κ) : J.about k [] = [] := rfl

/-- What two journals say about a key, one after the other. -/
theorem about_append (k : κ) (first second : List μ) :
    J.about k (first ++ second) = J.about k first ++ J.about k second := List.filter_append ..

/-- A message about the key. -/
theorem about_concat_self (log : List μ) (m : μ) :
    J.about (J.key m) (log ++ [m]) = J.about (J.key m) log ++ [m] := by
  simp [about]

/-- A message about another key. -/
theorem about_concat_other (log : List μ) (h : J.key m ≠ k) :
    J.about k (log ++ [m]) = J.about k log := by
  simp [about, h]

/-- What a journal says about a key are its messages with this key. -/
theorem mem_about : m ∈ J.about k log ↔ m ∈ log ∧ J.key m = k := by
  simp [about]

/-- A journal without a key says nothing about it. -/
theorem about_eq_nil (h : ∀ m ∈ log, J.key m ≠ k) : J.about k log = [] := by
  simpa [about] using h

/-- A journal of one key is all about it. -/
theorem about_eq_self (h : ∀ m ∈ log, J.key m = k) : J.about k log = log := by
  simpa [about] using h

@[simp] theorem record_nil (k : κ) : J.record k [] = none := rfl

/-- The record after one more message. -/
theorem record_concat (k : κ) (log : List μ) (m : μ) :
    J.record k (log ++ [m]) = J.write k (J.record k log) m := by
  simp [record]

/-- A message about the key creates its record or updates it. -/
theorem record_concat_self (log : List μ) (m : μ) : J.record (J.key m) (log ++ [m]) =
    (J.created m).elim ((J.record (J.key m) log).map (J.update m)) some := by
  rw [record_concat, write, if_pos rfl]

/-- A message about another key leaves the record alone. -/
theorem record_concat_other (log : List μ) (h : J.key m ≠ k) :
    J.record k (log ++ [m]) = J.record k log := by
  rw [record_concat, write, if_neg h]

/-- **Only the messages about a key decide its record.** -/
theorem record_about (k : κ) (log : List μ) : J.record k (J.about k log) = J.record k log := by
  induction log using List.reverseRecOn with
  | nil => rfl
  | append_singleton log m ih =>
    by_cases h : J.key m = k
    · subst h
      rw [about_concat_self, record_concat_self, record_concat_self, ih]
    · rw [about_concat_other log h, record_concat_other log h, ih]

/-- **Order is a matter of each key**: if the messages about every key are in order, so is the
journal that interleaves them. -/
theorem ordered_of_about (h : ∀ m ∈ log, J.Ordered (J.about (J.key m) log)) : J.Ordered log := by
  rintro before m after rfl hupdate
  have habout : J.about (J.key m) (before ++ m :: after) =
      J.about (J.key m) before ++ m :: J.about (J.key m) after := by
    simp [about]
  obtain ⟨creation, hmem, hkey, hcreated⟩ :=
    h m (by simp) _ _ _ habout hupdate
  exact ⟨creation, (mem_about.mp hmem).1, hkey, hcreated⟩

end Records

end Journal
