import OpenAiLb.Library.Renewal

/-!
# Tokens are redeemed once

A redeemed token stays in its cell only until its agent stores the new one, and no other
agent reads it, because the agent still holds the lock. So nobody sends or redeems the
token again. A token that an agent has read and that its cell no longer has is retired:
the agent finds its cell changed whenever it comes to store.
-/

namespace Renewal

variable {ι π τ : Type*}

open State

/-- After a token was redeemed, it is neither sent nor redeemed. -/
def SingleUse (log : List (Event τ)) : Prop :=
  log.Pairwise fun newer older => older ≠ .redeemed newer.token

/-- No token is redeemed twice. -/
theorem SingleUse.count_le_one [DecidableEq τ] {log : List (Event τ)} (h : SingleUse log) (x : τ) :
    log.count (.redeemed x) ≤ 1 := by
  induction log with
  | nil => simp
  | cons event log ih =>
    obtain ⟨hevent, hlog⟩ := List.pairwise_cons.mp h
    rw [List.count_cons]
    split
    · next heq =>
      have hnot : (Event.redeemed x) ∉ log := by
        intro hmem
        apply hevent _ hmem
        rw [show event = .redeemed x by simpa using heq]
        rfl
      have hzero := List.count_eq_zero_of_not_mem hnot
      omega
    · exact ih hlog

/-- No token is sent after it was redeemed. -/
theorem SingleUse.not_sent {newer older : List (Event τ)} {x : τ}
    (h : SingleUse (newer ++ .redeemed x :: older)) : .sent x ∉ newer := by
  intro hmem
  obtain ⟨-, -, hacross⟩ := List.pairwise_append.mp h
  exact hacross _ hmem _ List.mem_cons_self rfl

/-- A redeemed token is stored only as long as the agent that redeemed it has not stored the new
one, and nobody else reads it. -/
structure Unredeemed (s : State ι π τ) : Prop where
  stored : ∀ {p x}, s.cells p = some x → .redeemed x ∈ s.log →
    ∃ i y, s.agents i = ⟨p, .redeemed x y⟩
  reading : ∀ {i x}, (s.agents i).phase = .reading x → .redeemed x ∉ s.log
  log : SingleUse s.log

/-- The invariant of the protocol. -/
structure Sound (s : State ι π τ) : Prop where
  owned : Owned s
  exclusive : Exclusive s
  pending : Pending s
  unredeemed : Unredeemed s

/-- The token was overwritten: no cell has it and nobody is going to store it. -/
structure Retired (s : State ι π τ) (x : τ) : Prop where
  supplied : x ∈ s.tokens
  cells : ∀ p, s.cells p ≠ some x
  new : ∀ i, (s.agents i).phase.new? ≠ some x

section Steps

variable [DecidableEq ι] [DecidableEq π] [DecidableEq τ] {s t : State ι π τ}

namespace Unredeemed

omit [DecidableEq ι] [DecidableEq π] [DecidableEq τ] in
/-- The cells change, and a redeemed token in a cell was there before. -/
theorem setCells (h : Unredeemed s) {cells : π → Option τ}
    (hcells : ∀ p x, cells p = some x → .redeemed x ∈ s.log → s.cells p = some x) :
    Unredeemed { s with cells := cells } where
  stored hp hx := h.stored (hcells _ _ hp hx) hx
  reading := h.reading
  log := h.log

omit [DecidableEq π] [DecidableEq τ] in
/-- An agent that holds no redeemed token moves. -/
theorem move (h : Unredeemed s) {i : ι} {agent : Agent π τ}
    (hi : ∀ p x y, s.agents i ≠ ⟨p, .redeemed x y⟩)
    (hagent : ∀ x, agent.phase = .reading x → .redeemed x ∉ s.log) :
    Unredeemed (s.move i agent) where
  stored := by
    intro p x hp hx
    obtain ⟨j, y, hj⟩ := h.stored hp hx
    have hne : j ≠ i := by
      rintro rfl
      exact hi p x y hj
    exact ⟨j, y, by rwa [move_other hne]⟩
  reading := by
    intro j x hx
    by_cases heq : j = i
    · subst heq
      rw [move_self] at hx
      exact hagent x hx
    · rw [move_other heq] at hx
      exact h.reading hx
  log := h.log

omit [DecidableEq ι] [DecidableEq π] [DecidableEq τ] in
/-- A token that is read is sent. -/
theorem send (h : Unredeemed s) {x : τ} (hx : .redeemed x ∉ s.log) :
    Unredeemed (s.record (.sent x)) where
  stored := by
    intro p z hp hz
    rcases List.mem_cons.mp hz with hz | hz
    · cases hz
    · exact h.stored hp hz
  reading := by
    intro i z hi hz
    rcases List.mem_cons.mp hz with hz | hz
    · cases hz
    · exact h.reading hi hz
  log := List.pairwise_cons.mpr ⟨fun older holder heq => hx (heq ▸ holder), h.log⟩

omit [DecidableEq ι] [DecidableEq τ] in
/-- A redeemed token that is in a cell after a pending one was stored was there before. -/
theorem cells_of_store (h : Sound s) {i : ι} {p q : π} {y z : τ}
    (hi : (s.agents i).phase.new? = some y)
    (hq : Function.update s.cells p (some y) q = some z) (hz : .redeemed z ∈ s.log) :
    s.cells q = some z := by
  rcases of_store hq with ⟨-, rfl⟩ | hq
  · exact absurd rfl ((h.pending.unseen hi).log _ hz)
  · exact hq

omit [DecidableEq π] [DecidableEq τ] in
/-- The issuer redeems a token. -/
theorem redeem (h : Sound s) {i : ι} {p : π} {x y : τ} (hi : s.agents i = ⟨p, .reading x⟩) :
    Unredeemed (((s.supply p y).record (.redeemed x)).move i ⟨p, .redeemed x y⟩) := by
  have hx : (p, x) ∈ s.supplied := by
    have hown := h.owned.token (show (s.agents i).phase.token? = some x by rw [hi]; rfl)
    rwa [hi] at hown
  refine ⟨?_, ?_, ?_⟩
  · intro q z hq hz
    rcases List.mem_cons.mp hz with hz | hz
    · cases hz
      obtain rfl : q = p := h.owned.cell_unique (h.owned.cells hq) hx
      exact ⟨i, y, move_self⟩
    · obtain ⟨j, new, hj⟩ := h.unredeemed.stored hq hz
      have hne : j ≠ i := by
        rintro rfl
        rw [hi] at hj
        cases hj
      exact ⟨j, new, by rwa [move_other hne]⟩
  · intro j z hj hz
    have hne : j ≠ i := by
      rintro rfl
      rw [move_self] at hj
      cases hj
    rw [move_other hne] at hj
    have hj : (s.agents j).phase = .reading z := hj
    rcases List.mem_cons.mp hz with hz | hz
    · cases hz
      -- Both agents read the token, so both hold the lock of its cell.
      have hown := h.owned.token (show (s.agents j).phase.token? = some x by rw [hj]; rfl)
      apply hne
      apply h.exclusive
      · rw [hj]
        trivial
      · rw [hi]
        trivial
      · rw [hi]
        exact h.owned.cell_unique hown hx
    · exact h.unredeemed.reading hj hz
  · refine List.pairwise_cons.mpr ⟨fun older holder heq => ?_, h.unredeemed.log⟩
    exact h.unredeemed.reading (show (s.agents i).phase = .reading x by rw [hi]) (heq ▸ holder)

/-- The agent that redeemed a token stores the new one, unless the cell has changed. -/
theorem commit (h : Sound s) {i : ι} {p : π} {x y : τ} {after : Phase τ}
    (hi : s.agents i = ⟨p, .redeemed x y⟩) (hafter : after.rests) :
    Unredeemed ({ s with
      cells := if s.cells p = some x then Function.update s.cells p (some y) else s.cells }.move i
        ⟨p, after⟩) := by
  refine ⟨?_, ?_, h.unredeemed.log⟩
  · intro q z hq hz
    have hold : s.cells q = some z ∧ ¬(q = p ∧ z = x) := by
      replace hq : (if s.cells p = some x then Function.update s.cells p (some y)
        else s.cells) q = some z := hq
      split at hq
      · refine ⟨cells_of_store h (by rw [hi]; rfl) hq hz, ?_⟩
        rintro ⟨rfl, -⟩
        rw [Function.update_self] at hq
        cases hq
        exact (h.pending.unseen (show (s.agents i).phase.new? = some y by rw [hi]; rfl)).log _ hz
          rfl
      · next hchanged =>
        refine ⟨hq, ?_⟩
        rintro ⟨rfl, rfl⟩
        exact hchanged hq
    obtain ⟨j, new, hj⟩ := h.unredeemed.stored hold.1 hz
    have hne : j ≠ i := by
      rintro rfl
      rw [hi] at hj
      cases hj
      exact hold.2 ⟨rfl, rfl⟩
    exact ⟨j, new, by rwa [move_other hne]⟩
  · intro j z hj
    have hne : j ≠ i := by
      rintro rfl
      rw [move_self] at hj
      rw [show after = .reading z from hj] at hafter
      exact hafter.elim
    rw [move_other hne] at hj
    exact h.unredeemed.reading hj

end Unredeemed

/-- **A stored token is redeemed only by the agent that is about to replace it.** -/
theorem Unredeemed.step (h : Sound s) (hstep : Step s t) : Unredeemed t := by
  have hunredeemed := h.unredeemed
  cases hstep with
  | forget hcells => exact hunredeemed.setCells fun p x hp _ => hcells p x hp
  | call p hi =>
    apply hunredeemed.move
    · intro q x y heq
      rw [heq] at hi
      cases hi
    · intro x hx
      cases hx
  | @supply i p y hi hnew =>
    have hsupply : Unredeemed (s.supply p y) :=
      ⟨hunredeemed.stored, hunredeemed.reading, hunredeemed.log⟩
    apply hsupply.move
    · intro q x z heq
      rw [show s.agents i = _ from heq] at hi
      cases hi
    · intro x hx
      cases hx
  | lock hi hfree =>
    apply hunredeemed.move
    · intro q x y heq
      rw [hi] at heq
      cases heq
    · intro x hx
      cases hx
  | @read i p x hi hx =>
    apply hunredeemed.move
    · intro q z y heq
      rw [hi] at heq
      cases heq
    · rintro z ⟨⟩ hz
      -- The agent that redeemed the token would hold the same lock.
      obtain ⟨j, y, hj⟩ := hunredeemed.stored hx hz
      have heq : j = i := by
        apply h.exclusive
        · rw [hj]
          trivial
        · rw [hi]
          trivial
        · rw [hj, hi]
      rw [heq, hi] at hj
      cases hj
  | @send i p x hi => exact hunredeemed.send (hunredeemed.reading (by rw [hi]))
  | @release i p before after hi hbefore hafter hlock =>
    apply hunredeemed.move
    · intro q x y heq
      rw [hi] at heq
      cases heq
      cases hbefore
    · rintro x hx
      rw [show after = .reading x from hx] at hafter
      exact hafter.elim
  | redeem hi hnew => exact Unredeemed.redeem h hi
  | commit hi hafter => exact Unredeemed.commit h hi hafter
  | @overwrite i p q y cells hi hcells =>
    have hset : Unredeemed { s with cells := cells } := by
      rcases hcells with rfl | rfl
      · exact hunredeemed
      · apply hunredeemed.setCells
        intro q z hq hz
        exact Unredeemed.cells_of_store h (by rw [hi]; rfl) hq hz
    apply hset.move
    · intro q x z heq
      rw [show s.agents i = _ from heq] at hi
      cases hi
    · intro x hx
      cases hx

/-- **Every step keeps the invariant.** -/
theorem Sound.step (h : Sound s) (hstep : Step s t) : Sound t where
  owned := h.owned.step hstep
  exclusive := Exclusive.step h.exclusive hstep
  pending := h.pending.step h.owned hstep
  unredeemed := Unredeemed.step h hstep

omit [DecidableEq ι] [DecidableEq π] [DecidableEq τ] in
/-- Before the first call, with distinct tokens in the cells. -/
theorem Sound.of_idle (hidle : ∀ i, (s.agents i).phase = .idle) (hlog : s.log = [])
    (hnodup : s.tokens.Nodup) (hcells : ∀ p x, s.cells p = some x → (p, x) ∈ s.supplied) :
    Sound s where
  owned := by
    refine ⟨hnodup, fun hp => hcells _ _ hp, ?_, ?_, ?_⟩
    · intro i x hx
      rw [hidle] at hx
      cases hx
    · intro i y hy
      rw [hidle] at hy
      cases hy
    · simp [hlog]
  exclusive := by
    intro i j hi
    rw [hidle] at hi
    exact hi.elim
  pending := by
    constructor
    · intro i y hy
      rw [hidle] at hy
      cases hy
    · intro i j y hy
      rw [hidle] at hy
      cases hy
  unredeemed := by
    refine ⟨?_, ?_, ?_⟩
    · simp [hlog]
    · simp [hlog]
    · rw [hlog]
      exact List.Pairwise.nil

omit [DecidableEq π] [DecidableEq τ] in
/-- An agent moves that is not going to store the token. -/
theorem Retired.move {x : τ} (h : Retired s x) {i : ι} {agent : Agent π τ}
    (hagent : agent.phase.new? ≠ some x) : Retired (s.move i agent) x where
  supplied := h.supplied
  cells := h.cells
  new := by
    intro j
    by_cases heq : j = i
    · subst heq
      rwa [move_self]
    · rw [move_other heq]
      exact h.new j

omit [DecidableEq π] [DecidableEq τ] in
/-- An agent comes to rest. -/
theorem Retired.move_rests {x : τ} (h : Retired s x) {i : ι} {agent : Agent π τ}
    (hrests : agent.phase.rests) : Retired (s.move i agent) x := by
  apply h.move
  rw [Phase.new?_of_rests hrests]
  exact Option.some_ne_none x |>.symm

omit [DecidableEq ι] [DecidableEq π] [DecidableEq τ] in
/-- Another token is supplied. -/
theorem Retired.supply {x y : τ} (h : Retired s x) (p : π) : Retired (s.supply p y) x :=
  ⟨List.mem_cons_of_mem _ h.supplied, h.cells, h.new⟩

omit [DecidableEq ι] [DecidableEq τ] in
/-- A cell takes another token. -/
theorem Retired.store {x y : τ} (h : Retired s x) {p : π} (hne : y ≠ x) :
    Retired { s with cells := Function.update s.cells p (some y) } x where
  supplied := h.supplied
  cells := by
    intro q hq
    rcases of_store hq with ⟨-, heq⟩ | hq
    · exact hne heq.symm
    · exact h.cells q hq
  new := h.new

/-- **An overwritten token never comes back.** -/
theorem Retired.step {x : τ} (h : Retired s x) (hstep : Step s t) : Retired t x := by
  have hne : ∀ {i y}, (s.agents i).phase.new? = some y → y ≠ x := by
    rintro i y hi rfl
    exact h.new i hi
  have hfresh : ∀ {y}, y ∉ s.tokens → y ≠ x := by
    rintro y hnew rfl
    exact hnew h.supplied
  cases hstep with
  | forget hcells => exact ⟨h.supplied, fun p hp => h.cells p (hcells p x hp), h.new⟩
  | send hi => exact ⟨h.supplied, h.cells, h.new⟩
  | call p hi | lock hi hfree => exact h.move_rests trivial
  | read hi hx => exact h.move nofun
  | release hi hbefore hafter hlock => exact h.move_rests hafter
  | supply p hi hnew =>
    apply (h.supply p).move
    rintro ⟨⟩
    exact hfresh hnew rfl
  | @redeem i p z y hi hnew =>
    have hrecord : Retired ((s.supply p y).record (.redeemed z)) x :=
      ⟨(h.supply p).supplied, h.cells, h.new⟩
    apply hrecord.move
    rintro ⟨⟩
    exact hfresh hnew rfl
  | @commit i p z y after hi hafter =>
    split
    · exact (h.store (hne (by rw [hi]; rfl))).move_rests hafter
    · exact h.move_rests hafter
  | @overwrite i p q y cells hi hcells =>
    rcases hcells with rfl | rfl
    · exact h.move_rests trivial
    · exact (h.store (hne (by rw [hi]; rfl))).move_rests trivial

omit [DecidableEq ι] [DecidableEq π] [DecidableEq τ] in
/-- **A token that an agent has read is retired once its cell no longer has it.** -/
theorem Sound.retired (h : Sound s) {i : ι} {x : τ} (hi : (s.agents i).phase.token? = some x)
    (hcell : s.cells (s.agents i).cell ≠ some x) : Retired s x where
  supplied := Owned.mem_tokens (h.owned.token hi)
  cells p hp := by
    obtain rfl : p = (s.agents i).cell :=
      h.owned.cell_unique (h.owned.cells hp) (h.owned.token hi)
    exact hcell hp
  new _ hnew := (h.pending.unseen hnew).token i hi

end Steps

end Renewal
