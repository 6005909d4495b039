import Mathlib.Data.List.Induction

/-!
# Records and their history

A history is a list of entries, each about one key: an entry puts a record there, changes the
record that is there, or removes it. Replaying a history gives the record of each key. A record is
there exactly when some entry has put it and none after that has put another one or removed it,
and then it is what the entries after that have made of it.
-/

namespace Replay

/-- What an entry does to the record of its key. -/
inductive Change (ρ : Type*) where
  | put (record : ρ)
  | modify (f : ρ → ρ)
  | remove

variable {η κ ρ : Type*}

/-- Do a change. A record that is not there is not changed. -/
def Change.apply : Change ρ → Option ρ → Option ρ
  | put record, _ => some record
  | modify f, record => record.map f
  | remove, _ => none

/-- How the entries of a history are read. -/
structure Reading (η κ ρ : Type*) where
  key : η → κ
  change : η → Change ρ

namespace Reading

section Leaves

variable {R : Reading η κ ρ} {k : κ} {entry : η} {history : List η}

/-- No entry puts a record of this key or removes it. -/
def Leaves (R : Reading η κ ρ) (k : κ) (history : List η) : Prop :=
  ∀ entry ∈ history, R.key entry = k → ∃ f, R.change entry = .modify f

/-- An empty history leaves every key. -/
theorem leaves_nil : R.Leaves k [] := nofun

/-- A history leaves a key if its last entry does, and it did before. -/
theorem leaves_concat : R.Leaves k (history ++ [entry]) ↔
    R.Leaves k history ∧ (R.key entry = k → ∃ f, R.change entry = .modify f) := by
  unfold Leaves
  simp only [List.mem_append, List.mem_singleton, or_imp, forall_and, forall_eq]

end Leaves

variable [DecidableEq κ] (R : Reading η κ ρ) (k : κ)

/-- One more entry. -/
def write (record : Option ρ) (entry : η) : Option ρ :=
  if R.key entry = k then (R.change entry).apply record else record

/-- The record of a key after a history. -/
def replay (history : List η) : Option ρ := history.foldl (R.write k) none

/-- What the changes of a key make of its record. -/
def modified (record : ρ) (history : List η) : ρ :=
  history.foldl (fun record entry =>
    match R.change entry with
    | .modify f => if R.key entry = k then f record else record
    | _ => record) record

variable {R k} {entry : η} {history : List η} {record : ρ}

@[simp] theorem replay_nil : R.replay k [] = none := rfl

/-- The record after one more entry. -/
theorem replay_concat : R.replay k (history ++ [entry]) =
    if R.key entry = k then (R.change entry).apply (R.replay k history)
    else R.replay k history := by
  simp [replay, write]

/-- An entry about another key. -/
theorem replay_concat_other (h : R.key entry ≠ k) :
    R.replay k (history ++ [entry]) = R.replay k history := by
  rw [replay_concat, if_neg h]

/-- The modified record after one more entry. -/
theorem modified_concat : R.modified k record (history ++ [entry]) =
    match R.change entry with
    | .modify f =>
      if R.key entry = k then f (R.modified k record history) else R.modified k record history
    | _ => R.modified k record history := by
  simp only [modified, List.foldl_append, List.foldl_cons, List.foldl_nil]

/-- An entry of another key modifies nothing. -/
theorem modified_concat_other (h : R.key entry ≠ k) :
    R.modified k record (history ++ [entry]) = R.modified k record history := by
  rw [modified_concat]
  split
  · rw [if_neg h]
  · rfl

/-- The record was put by some entry, and those after it have made it what it is. -/
def PutBy (R : Reading η κ ρ) (k : κ) (history : List η) (record : ρ) : Prop :=
  ∃ before entry first after, history = before ++ entry :: after ∧ R.key entry = k ∧
    R.change entry = .put first ∧ R.Leaves k after ∧ record = R.modified k first after

/-- One more entry that leaves the key alone leaves it to the same entry. -/
theorem putBy_concat_of_ne (h : R.key entry ≠ k) :
    R.PutBy k (history ++ [entry]) record ↔ R.PutBy k history record := by
  constructor
  · rintro ⟨before, put, first, after, hsplit, hkey, hput, hleaves, rfl⟩
    rcases List.eq_nil_or_concat after with rfl | ⟨after, last, rfl⟩
    · obtain ⟨-, hlast⟩ := List.append_inj' hsplit rfl
      obtain rfl : entry = put := by simpa using hlast
      exact absurd hkey h
    · rw [List.concat_eq_append, ← List.cons_append, ← List.append_assoc] at hsplit
      obtain ⟨rfl, hlast⟩ := List.append_inj' hsplit rfl
      obtain rfl : entry = last := by simpa using hlast
      rw [List.concat_eq_append, leaves_concat] at hleaves
      refine ⟨before, put, first, after, rfl, hkey, hput, hleaves.1, ?_⟩
      rw [List.concat_eq_append, modified_concat_other h]
  · rintro ⟨before, put, first, after, rfl, hkey, hput, hleaves, rfl⟩
    refine ⟨before, put, first, after ++ [entry], by simp, hkey, hput, ?_, ?_⟩
    · exact leaves_concat.mpr ⟨hleaves, fun hsame => absurd hsame h⟩
    · rw [modified_concat_other h]

/-- One more entry about the key. -/
theorem putBy_concat_of_eq (h : R.key entry = k) :
    R.PutBy k (history ++ [entry]) record ↔
      match R.change entry with
      | .put first => record = first
      | .modify f => ∃ old, R.PutBy k history old ∧ record = f old
      | .remove => False := by
  constructor
  · rintro ⟨before, put, first, after, hsplit, hkey, hput, hleaves, rfl⟩
    rcases List.eq_nil_or_concat after with rfl | ⟨after, last, rfl⟩
    · obtain ⟨-, hlast⟩ := List.append_inj' hsplit rfl
      obtain rfl : entry = put := by simpa using hlast
      rw [hput]
      rfl
    · rw [List.concat_eq_append, ← List.cons_append, ← List.append_assoc] at hsplit
      obtain ⟨rfl, hlast⟩ := List.append_inj' hsplit rfl
      obtain rfl : entry = last := by simpa using hlast
      rw [List.concat_eq_append, leaves_concat] at hleaves
      obtain ⟨f, hf⟩ := hleaves.2 h
      rw [hf]
      refine ⟨_, ⟨before, put, first, after, rfl, hkey, hput, hleaves.1, rfl⟩, ?_⟩
      rw [List.concat_eq_append, modified_concat, hf]
      exact if_pos h
  · cases hchange : R.change entry with
    | put first =>
      rintro rfl
      exact ⟨history, entry, record, [], rfl, h, hchange, leaves_nil, rfl⟩
    | modify f =>
      rintro ⟨old, ⟨before, put, first, after, rfl, hkey, hput, hleaves, rfl⟩, rfl⟩
      refine ⟨before, put, first, after ++ [entry], by simp, hkey, hput, ?_, ?_⟩
      · exact leaves_concat.mpr ⟨hleaves, fun _ => ⟨f, hchange⟩⟩
      · rw [modified_concat, hchange]
        exact (if_pos h).symm
    | remove => exact False.elim

/-- **What a history says of a key**: the record that some entry has put and none after it has
replaced or removed. -/
theorem replay_eq_some_iff : R.replay k history = some record ↔ R.PutBy k history record := by
  induction history using List.reverseRecOn generalizing record with
  | nil =>
    refine iff_of_false nofun ?_
    rintro ⟨before, entry, first, after, hsplit, -⟩
    simp at hsplit
  | append_singleton history entry ih =>
    by_cases h : R.key entry = k
    · rw [putBy_concat_of_eq h, replay_concat, if_pos h]
      cases hchange : R.change entry with
      | put first => simp [Change.apply, eq_comm]
      | modify f =>
        simp only [Change.apply, Option.map_eq_some_iff, ih]
        exact exists_congr fun old => and_congr_right fun _ => eq_comm
      | remove => simp [Change.apply]
    · rw [putBy_concat_of_ne h, replay_concat_other h, ih]

end Reading

end Replay
