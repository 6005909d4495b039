import Mathlib.Data.List.Perm.Basic
import Mathlib.Data.Option.Basic
import Mathlib.Order.Lattice

/-!
# The history of a circuit

The abstract circuit of one provider: what an observation signals, which openings
the history records, and which openings are lost when only the last signal of a batch
is recorded. A signal comes with the moment of the maintenance run that flushes it.
-/

namespace OpenAiLb

/-- What an observation says about the circuit. -/
inductive Signal where
  /-- The response carries no status. -/
  | silent
  | authError
  | usageLimit (openedAt deadline : Int)
  deriving DecidableEq

/-- One opening in the history, event ids aside. -/
structure Opening where
  openedAt : Int
  cause : String
  cooldownUntil : Int
  isOpen : Bool
  deriving DecidableEq

/-- The open circuit: the opening and the deadline in the provider row. -/
structure OpenCircuit where
  openedAt : Int
  cause : String
  cooldownUntil : Int
  deadline : Int
  deriving DecidableEq

/-- The cause that every usage-limit response records. -/
def usageLimitCause : String := "usage_limit_reached"

/-- The opening of the circuit in the history. -/
def OpenCircuit.opening (circuit : OpenCircuit) (isOpen : Bool) : Opening :=
  ⟨circuit.openedAt, circuit.cause, circuit.cooldownUntil, isOpen⟩

/-- The circuit of a provider: the openings that were closed, and the one that is open. -/
structure Circuit where
  closed : List Opening
  current : Option OpenCircuit
  deriving DecidableEq

namespace Circuit

/-- All openings. -/
def history (circuit : Circuit) : List Opening :=
  circuit.closed ++ circuit.current.toList.map (OpenCircuit.opening · true)

/-- The circuit closes. -/
def close (circuit : Circuit) : Circuit where
  closed := circuit.closed ++ circuit.current.toList.map (OpenCircuit.opening · false)
  current := none

/-- The circuit takes a signal. -/
def take (circuit : Circuit) : Signal → Circuit
  | .silent => circuit
  | .authError => circuit.close
  | .usageLimit openedAt deadline =>
    { circuit with
      current := some <| match circuit.current with
        | none => ⟨openedAt, usageLimitCause, deadline, deadline⟩
        | some c => ⟨c.openedAt, usageLimitCause, max c.cooldownUntil deadline, deadline⟩ }

/-- The recovery at `now` closes a circuit whose deadline has passed. -/
def release (circuit : Circuit) (now : Int) : Circuit :=
  if circuit.current.any (·.deadline ≤ now) then circuit.close else circuit

/-- One maintenance run that flushes a signal. -/
def record (circuit : Circuit) (flushed : Signal × Int) : Circuit :=
  (circuit.take flushed.1).release flushed.2

end Circuit

/-! ## What the signals alone determine -/

/-- The deadline in force after a signal, from the one before. -/
def signalled (inForce : Option Int) : Signal → Option Int
  | .silent => inForce
  | .authError => none
  | .usageLimit _ deadline => some deadline

/-- The deadline in force after a signal was flushed. -/
def cooling (inForce : Option Int) (flushed : Signal × Int) : Option Int :=
  (signalled inForce flushed.1).filter (flushed.2 < ·)

/-- The usage limits that arrive while no deadline is in force. -/
def openings : Option Int → List (Signal × Int) → ℕ
  | _, [] => 0
  | inForce, (.usageLimit openedAt deadline, now) :: rest =>
    (if inForce.isNone then 1 else 0) +
      openings (cooling inForce (.usageLimit openedAt deadline, now)) rest
  | inForce, flushed :: rest => openings (cooling inForce flushed) rest

/-- The deadlines of the usage limits. -/
def deadlines : List (Signal × Int) → List Int
  | [] => []
  | (.usageLimit _ deadline, _) :: rest => deadline :: deadlines rest
  | _ :: rest => deadlines rest

/-- The moment of the first usage limit. -/
def firstOpening : List (Signal × Int) → Option Int
  | [] => none
  | (.usageLimit openedAt _, _) :: _ => some openedAt
  | _ :: rest => firstOpening rest

/-- The last signal that is not silent, which is what merging keeps. -/
def lastSignal : List (Signal × Int) → Signal
  | [] => .silent
  | flushed :: rest => if lastSignal rest = .silent then flushed.1 else lastSignal rest

namespace Circuit

/-- The deadline of the open circuit. -/
def deadline (circuit : Circuit) : Option Int := circuit.current.map OpenCircuit.deadline

/-- A signal moves the deadline as `signalled` says. -/
theorem deadline_take (circuit : Circuit) (signal : Signal) :
    (circuit.take signal).deadline = signalled circuit.deadline signal := by
  obtain ⟨closed, current⟩ := circuit
  cases signal <;> cases current <;> rfl

/-- A circuit whose deadline has passed is closed. -/
theorem release_of_due {circuit : Circuit} {c : OpenCircuit} {now : Int}
    (hcurrent : circuit.current = some c) (hdue : c.deadline ≤ now) :
    circuit.release now = circuit.close := by
  simp [release, hcurrent, hdue]

/-- A circuit whose deadline lies ahead stays as it is. -/
theorem release_of_not_due {circuit : Circuit} {now : Int}
    (h : ∀ c, circuit.current = some c → now < c.deadline) : circuit.release now = circuit := by
  refine if_neg ?_
  cases hcurrent : circuit.current with
  | none => simp
  | some c => simpa using h c hcurrent

/-- What a release leaves of the deadline. -/
theorem deadline_release (circuit : Circuit) (now : Int) :
    (circuit.release now).deadline = circuit.deadline.filter (now < ·) := by
  cases hcurrent : circuit.current with
  | none =>
    rw [release_of_not_due (by simp [hcurrent])]
    simp [deadline, hcurrent]
  | some c =>
    by_cases hdue : c.deadline ≤ now
    · rw [release_of_due hcurrent hdue]
      simp [deadline, close, hcurrent, Option.filter, hdue]
    · have hlater : now < c.deadline := by omega
      rw [release_of_not_due (by simpa [hcurrent] using hlater)]
      simp [deadline, hcurrent, Option.filter, hlater]

/-- Recording a signal follows the deadline in force. -/
theorem deadline_record (circuit : Circuit) (flushed : Signal × Int) :
    (circuit.record flushed).deadline = cooling circuit.deadline flushed := by
  rw [record, deadline_release, deadline_take]
  rfl

/-- A closed circuit that does not open again keeps its history. -/
theorem foldl_record_of_quiet {signals : List (Signal × Int)} {circuit : Circuit}
    (hclosed : circuit.current = none) (hquiet : openings none signals = 0) :
    signals.foldl record circuit = circuit ∧ deadlines signals = [] ∧
      signals.foldl cooling none = none := by
  induction signals with
  | nil => exact ⟨rfl, rfl, rfl⟩
  | cons flushed rest ih =>
    obtain ⟨signal, now⟩ := flushed
    obtain ⟨closed, current⟩ := circuit
    cases hclosed
    cases signal with
    | silent =>
      simpa [openings, deadlines, record, take, release, cooling, signalled] using ih hquiet
    | authError =>
      simpa [openings, deadlines, record, take, release, cooling, signalled, close] using ih hquiet
    | usageLimit => simp [openings] at hquiet

/-- The history grows by the openings. -/
theorem length_history_foldl_record (signals : List (Signal × Int)) (circuit : Circuit) :
    (signals.foldl record circuit).history.length =
      circuit.history.length + openings circuit.deadline signals := by
  induction signals generalizing circuit with
  | nil => simp [openings]
  | cons flushed rest ih =>
    obtain ⟨signal, now⟩ := flushed
    have hrelease : ∀ c : Circuit, (c.release now).history.length = c.history.length := by
      intro c
      unfold release
      split <;> simp [history, close]
    have htake : (circuit.take signal).history.length = circuit.history.length +
        (if signal matches .usageLimit .. then (if circuit.deadline.isNone then 1 else 0)
          else 0) := by
      obtain ⟨closed, current⟩ := circuit
      cases signal <;> cases current <;> simp [take, history, close, deadline]
    rw [List.foldl_cons, ih, deadline_record, record, hrelease, htake]
    cases signal <;> simp [openings, Nat.add_assoc]

/-- The bound on the deadlines that an open circuit records: it is reached, and it is the deadline
of the opening or of one of the signals. -/
def IsLatest (recorded opened : Int) (signals : List (Signal × Int)) : Prop :=
  opened ≤ recorded ∧ (∀ d ∈ deadlines signals, d ≤ recorded) ∧
    (recorded = opened ∨ recorded ∈ deadlines signals)

/-- **An open circuit that never opens again** stays one opening: every usage limit merges into
it. -/
theorem history_foldl_record_of_open {signals : List (Signal × Int)} {circuit : Circuit}
    {c : OpenCircuit} (hcurrent : circuit.current = some c)
    (hopenings : openings (some c.deadline) signals = 0) :
    ∃ recorded, IsLatest recorded c.cooldownUntil signals ∧
      (signals.foldl record circuit).history = circuit.closed ++
        [⟨c.openedAt, if deadlines signals = [] then c.cause else usageLimitCause, recorded,
          (signals.foldl cooling (some c.deadline)).isSome⟩] := by
  induction signals generalizing circuit c with
  | nil =>
    exact ⟨c.cooldownUntil, ⟨le_rfl, by simp [deadlines], .inl rfl⟩,
      by simp [history, hcurrent, deadlines, OpenCircuit.opening]⟩
  | cons flushed rest ih =>
    obtain ⟨signal, now⟩ := flushed
    obtain ⟨closed, current⟩ := circuit
    cases hcurrent
    -- After the signal the circuit is released for good, or the rest merges into it.
    have hrest : ∀ c' : OpenCircuit,
        openings ((some c'.deadline).filter (now < ·)) rest = 0 →
          ∃ recorded, IsLatest recorded c'.cooldownUntil rest ∧
            (rest.foldl record (release ⟨closed, some c'⟩ now)).history = closed ++
              [⟨c'.openedAt, if deadlines rest = [] then c'.cause else usageLimitCause, recorded,
                (rest.foldl cooling ((some c'.deadline).filter (now < ·))).isSome⟩] := by
      intro c' hopenings
      by_cases hdue : c'.deadline ≤ now
      · have hnone : (some c'.deadline).filter (now < ·) = none := by simp [Option.filter, hdue]
        rw [hnone] at hopenings ⊢
        obtain ⟨hfold, hdeadlines, hcooling⟩ :=
          foldl_record_of_quiet (show (close ⟨closed, some c'⟩).current = none from rfl) hopenings
        refine ⟨c'.cooldownUntil, ⟨le_rfl, by simp [hdeadlines], .inl rfl⟩, ?_⟩
        rw [release_of_due rfl hdue, hfold, hdeadlines, hcooling]
        simp [history, close, OpenCircuit.opening]
      · have hlater : now < c'.deadline := by omega
        have hsome : (some c'.deadline).filter (now < ·) = some c'.deadline := by
          simp [Option.filter, hlater]
        rw [hsome] at hopenings ⊢
        rw [release_of_not_due fun c hc => by cases hc; exact hlater]
        exact ih rfl hopenings
    cases signal with
    | silent => exact hrest c hopenings
    | authError =>
      obtain ⟨hfold, hdeadlines, hcooling⟩ :=
        foldl_record_of_quiet (show (close ⟨closed, some c⟩).current = none from rfl) hopenings
      have hrecord : record ⟨closed, some c⟩ (.authError, now) = close ⟨closed, some c⟩ :=
        release_of_not_due fun c' hc' => by cases hc'
      have hcool : cooling (some c.deadline) (.authError, now) = none := rfl
      refine ⟨c.cooldownUntil, ⟨le_rfl, by simp [deadlines, hdeadlines], .inl rfl⟩, ?_⟩
      rw [List.foldl_cons, List.foldl_cons, hrecord, hcool, hfold, hcooling]
      simp [history, close, deadlines, hdeadlines, OpenCircuit.opening]
    | usageLimit openedAt deadline =>
      let next : OpenCircuit :=
        ⟨c.openedAt, usageLimitCause, max c.cooldownUntil deadline, deadline⟩
      have hnext : openings ((some next.deadline).filter (now < ·)) rest = 0 := by
        simp only [openings, Option.isNone_some, Bool.false_eq_true, if_false, Nat.zero_add]
          at hopenings
        exact hopenings
      obtain ⟨recorded, ⟨hopened, hbound, hreached⟩, hhistory⟩ := hrest next hnext
      have hmax : max c.cooldownUntil deadline ≤ recorded := hopened
      refine ⟨recorded, ⟨by omega, ?_, ?_⟩, ?_⟩
      · simp only [deadlines, List.forall_mem_cons]
        exact ⟨by omega, hbound⟩
      · simp only [deadlines, List.mem_cons]
        obtain hopening | hmem := hreached
        · have hopening : recorded = max c.cooldownUntil deadline := hopening
          omega
        · exact .inr (.inr hmem)
      · refine Eq.trans hhistory ?_
        simp [deadlines, next, cooling, signalled]

/-- **A closed circuit that opens once** gains one opening, at its first usage limit. -/
theorem history_foldl_record_of_closed {signals : List (Signal × Int)} {circuit : Circuit}
    (hcurrent : circuit.current = none) (hopenings : openings none signals = 1) :
    ∃ openedAt recorded, firstOpening signals = some openedAt ∧
      (∀ d ∈ deadlines signals, d ≤ recorded) ∧ recorded ∈ deadlines signals ∧
      (signals.foldl record circuit).history = circuit.closed ++
        [⟨openedAt, usageLimitCause, recorded, (signals.foldl cooling none).isSome⟩] := by
  induction signals with
  | nil => cases hopenings
  | cons flushed rest ih =>
    obtain ⟨signal, now⟩ := flushed
    obtain ⟨closed, current⟩ := circuit
    cases hcurrent
    cases signal with
    | silent => exact ih hopenings
    | authError =>
      have hrecord : record ⟨closed, none⟩ (.authError, now) = ⟨closed, none⟩ := by
        simp [record, take, close, release]
      rw [List.foldl_cons, hrecord]
      exact ih hopenings
    | usageLimit openedAt deadline =>
      let c : OpenCircuit := ⟨openedAt, usageLimitCause, deadline, deadline⟩
      have hquiet : openings (some c.deadline) ((.silent, now) :: rest) = 0 := by
        simp only [openings, Option.isNone_none, if_true] at hopenings
        change openings (cooling (some c.deadline) (.silent, now)) rest = 0
        change 1 + openings (cooling (some c.deadline) (.silent, now)) rest = 1 at hopenings
        omega
      have hopen : (⟨closed, some c⟩ : Circuit).current = some c := rfl
      obtain ⟨recorded, ⟨hopened, hbound, hreached⟩, hhistory⟩ :=
        history_foldl_record_of_open hopen hquiet
      refine ⟨openedAt, recorded, rfl, ?_, ?_, ?_⟩
      · simp only [deadlines, List.forall_mem_cons]
        exact ⟨hopened, hbound⟩
      · exact List.mem_cons.mpr hreached
      · have hcause : (if deadlines ((.silent, now) :: rest) = [] then c.cause
            else usageLimitCause) = usageLimitCause := by
          split <;> rfl
        rw [hcause] at hhistory
        exact hhistory

end Circuit

/-- The deadline in force after a batch is the one that its last signal leaves at its last
moment: a later usage limit or an error overrides, and a recovery at a later moment comes to the
same as one before it. -/
theorem foldl_cooling {signals : List (Signal × Int)} {last : Signal × Int} (inForce : Option Int)
    (hmoments : ∀ flushed ∈ signals, flushed.2 ≤ last.2) :
    (signals ++ [last]).foldl cooling inForce =
      cooling inForce (lastSignal (signals ++ [last]), last.2) := by
  induction signals generalizing inForce with
  | nil => simp [lastSignal]
  | cons flushed rest ih =>
    obtain ⟨signal, now⟩ := flushed
    have hnow : now ≤ last.2 := hmoments _ List.mem_cons_self
    rw [List.cons_append, List.foldl_cons,
      ih _ fun flushed hmem => hmoments flushed (List.mem_cons_of_mem _ hmem)]
    simp only [lastSignal]
    cases hlast : lastSignal (rest ++ [last]) with
    | silent =>
      rw [if_pos rfl]
      simp only [cooling, signalled, Option.filter_filter]
      congr 1
      funext deadline
      have himp : last.2 < deadline → now < deadline := Int.lt_of_le_of_lt hnow
      simpa using himp
    | authError => rfl
    | usageLimit => rfl

/-- **When a batch loses nothing**: flushing only its last signal records the same history. Apart
from the opening that the flush itself makes, no usage limit may open the circuit; the opening that
the flush records must be as old as the first usage limit and as long as the longest one; and an
opening that the flush does not touch must already have the cause of a usage limit. -/
def Lossless (start : Option OpenCircuit) (signals : List (Signal × Int)) : Prop :=
  match start, lastSignal signals with
  | some c, .usageLimit _ deadline =>
    openings (some c.deadline) signals = 0 ∧
      ∀ d ∈ deadlines signals, d ≤ max c.cooldownUntil deadline
  | some c, _ =>
    openings (some c.deadline) signals = 0 ∧ (∀ d ∈ deadlines signals, d ≤ c.cooldownUntil) ∧
      (deadlines signals = [] ∨ c.cause = usageLimitCause)
  | none, .usageLimit openedAt deadline =>
    openings none signals = 1 ∧ firstOpening signals = some openedAt ∧
      ∀ d ∈ deadlines signals, d ≤ deadline
  | none, _ => openings none signals = 0

namespace Circuit

/-- The last usage limit is one of the deadlines. -/
theorem mem_deadlines_of_lastSignal {signals : List (Signal × Int)} {openedAt deadline : Int}
    (h : lastSignal signals = .usageLimit openedAt deadline) : deadline ∈ deadlines signals := by
  induction signals with
  | nil => cases h
  | cons flushed rest ih =>
    obtain ⟨signal, now⟩ := flushed
    simp only [lastSignal] at h
    split at h
    · subst h
      exact List.mem_cons_self
    · have hmem := ih h
      cases signal with
      | silent | authError => exact hmem
      | usageLimit => exact List.mem_cons_of_mem _ hmem

variable {signals : List (Signal × Int)} {last : Signal × Int}

/-- Recording the merged signal alone. -/
theorem foldl_record_merged (circuit : Circuit) (flushed : Signal × Int) :
    [flushed].foldl record circuit = circuit.record flushed := rfl

/-- Histories without a closed part have the length of the openings. -/
theorem openings_eq_of_perm {start : Option OpenCircuit} {flushed : Signal × Int}
    (h : ((⟨[], start⟩ : Circuit).record flushed).history.Perm
      (signals.foldl record ⟨[], start⟩).history) :
    openings (start.map OpenCircuit.deadline) signals =
      openings (start.map OpenCircuit.deadline) [flushed] := by
  have hlength := h.length_eq
  rw [← foldl_record_merged, length_history_foldl_record, length_history_foldl_record] at hlength
  exact (Nat.add_left_cancel hlength).symm

/-- The batch starts with an open circuit. -/
theorem record_merged_perm_of_open {c : OpenCircuit}
    (hmoments : ∀ flushed ∈ signals, flushed.2 ≤ last.2) :
    ((⟨[], some c⟩ : Circuit).record (lastSignal (signals ++ [last]), last.2)).history.Perm
        ((signals ++ [last]).foldl record ⟨[], some c⟩).history ↔
      Lossless (some c) (signals ++ [last]) := by
  have hcool := foldl_cooling (some c.deadline) hmoments
  have hmem : ∀ {openedAt deadline : Int},
      lastSignal (signals ++ [last]) = .usageLimit openedAt deadline →
        deadline ∈ deadlines (signals ++ [last]) := fun h => mem_deadlines_of_lastSignal h
  generalize signals ++ [last] = all at hcool hmem ⊢
  have hcurrent : (⟨[], some c⟩ : Circuit).current = some c := rfl
  have hmergedOpenings : openings (some c.deadline) [(lastSignal all, last.2)] = 0 := by
    cases lastSignal all <;> rfl
  obtain ⟨merged, ⟨hmergedOpened, hmergedBound, hmergedReached⟩, hmerged⟩ :=
    history_foldl_record_of_open hcurrent hmergedOpenings
  rw [foldl_record_merged] at hmerged
  by_cases hopenings : openings (some c.deadline) all = 0
  · obtain ⟨recorded, ⟨hopened, hbound, hreached⟩, heach⟩ :=
      history_foldl_record_of_open hcurrent hopenings
    rw [hmerged, heach, hcool]
    simp only [List.nil_append, List.foldl_cons, List.foldl_nil, List.perm_singleton,
      List.cons.injEq, Opening.mk.injEq, true_and, and_true]
    cases hlast : lastSignal all with
    | usageLimit openedAt deadline =>
      have hin := hmem hlast
      rw [hlast] at hmergedBound hmergedReached
      simp only [deadlines, List.mem_singleton, forall_eq] at hmergedBound hmergedReached
      simp only [Lossless, hlast, hopenings, deadlines, List.ne_nil_of_mem hin, if_false,
        List.cons_ne_nil, true_and]
      constructor
      · rintro rfl d hd
        have := hbound d hd
        omega
      · intro hall
        have hle : recorded ≤ max c.cooldownUntil deadline := by
          obtain heq | hreached := hreached
          · omega
          · exact hall recorded hreached
        have := hbound deadline hin
        omega
    | silent | authError =>
      rw [hlast] at hmergedReached
      simp only [deadlines, List.not_mem_nil, or_false] at hmergedReached
      simp only [Lossless, hlast, hopenings, deadlines, if_true, true_and]
      constructor
      · rintro ⟨hcause, rfl⟩
        refine ⟨fun d hd => hmergedReached ▸ hbound d hd, ?_⟩
        split at hcause
        · next hnone => exact .inl hnone
        · exact .inr hcause
      · rintro ⟨hall, hcause⟩
        refine ⟨?_, ?_⟩
        · split
          · rfl
          · next hsome => exact hcause.resolve_left hsome
        · rw [hmergedReached]
          obtain heq | hreached := hreached
          · exact heq.symm
          · exact le_antisymm hopened (hall recorded hreached)
  · constructor
    · intro h
      exact absurd ((openings_eq_of_perm h).trans hmergedOpenings) hopenings
    · intro h
      unfold Lossless at h
      split at h <;> simp_all

/-- The batch starts with a closed circuit. -/
theorem record_merged_perm_of_closed (hmoments : ∀ flushed ∈ signals, flushed.2 ≤ last.2) :
    ((⟨[], none⟩ : Circuit).record (lastSignal (signals ++ [last]), last.2)).history.Perm
        ((signals ++ [last]).foldl record ⟨[], none⟩).history ↔
      Lossless none (signals ++ [last]) := by
  have hcool := foldl_cooling none hmoments
  have hmem : ∀ {openedAt deadline : Int},
      lastSignal (signals ++ [last]) = .usageLimit openedAt deadline →
        deadline ∈ deadlines (signals ++ [last]) := fun h => mem_deadlines_of_lastSignal h
  have hperm : ((⟨[], none⟩ : Circuit).record (lastSignal (signals ++ [last]), last.2)).history.Perm
      ((signals ++ [last]).foldl record ⟨[], none⟩).history →
        openings none (signals ++ [last]) =
          openings none [(lastSignal (signals ++ [last]), last.2)] := openings_eq_of_perm
  generalize signals ++ [last] = all at hcool hmem hperm ⊢
  have hcurrent : (⟨[], none⟩ : Circuit).current = none := rfl
  cases hlast : lastSignal all with
  | usageLimit openedAt deadline =>
    rw [hlast] at hperm hcool
    have hin := hmem hlast
    have hmergedOpenings : openings none [(.usageLimit openedAt deadline, last.2)] = 1 := rfl
    by_cases hopenings : openings none all = 1
    · obtain ⟨first, recorded, hfirst, hbound, hreached, heach⟩ :=
        history_foldl_record_of_closed hcurrent hopenings
      obtain ⟨first', merged, hfirst', -, hmergedReached, hmerged⟩ :=
        history_foldl_record_of_closed hcurrent hmergedOpenings
      obtain rfl : openedAt = first' := Option.some.inj hfirst'
      obtain rfl : merged = deadline := by simpa [deadlines] using hmergedReached
      rw [foldl_record_merged] at hmerged
      rw [hmerged, heach, hcool]
      simp only [List.nil_append, List.foldl_cons, List.foldl_nil, List.perm_singleton,
        List.cons.injEq, Opening.mk.injEq, true_and, and_true, Lossless, hlast, hopenings, hfirst,
        Option.some.injEq]
      constructor
      · rintro ⟨rfl, rfl⟩
        exact ⟨rfl, hbound⟩
      · rintro ⟨rfl, hall⟩
        exact ⟨rfl, le_antisymm (hbound merged hin) (hall recorded hreached)⟩
    · refine ⟨fun h => absurd (hperm h) hopenings, fun h => ?_⟩
      simp only [Lossless, hlast] at h
      exact absurd h.1 hopenings
  | silent | authError =>
    rw [hlast] at hperm
    simp only [Lossless, hlast]
    refine ⟨fun h => hperm h, fun hquiet => ?_⟩
    rw [(foldl_record_of_quiet hcurrent hquiet).1]
    exact List.Perm.refl _

/-- **Recording the last signal of a batch** gives the history of recording every signal, exactly
when the batch loses nothing. -/
theorem record_merged_perm_iff {start : Option OpenCircuit}
    (hmoments : ∀ flushed ∈ signals, flushed.2 ≤ last.2) :
    ((⟨[], start⟩ : Circuit).record (lastSignal (signals ++ [last]), last.2)).history.Perm
        ((signals ++ [last]).foldl record ⟨[], start⟩).history ↔
      Lossless start (signals ++ [last]) := by
  cases start with
  | none => exact record_merged_perm_of_closed hmoments
  | some c => exact record_merged_perm_of_open hmoments

end Circuit

end OpenAiLb
