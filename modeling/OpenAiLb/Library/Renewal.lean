import Mathlib.Data.List.Nodup
import Mathlib.Logic.Function.Basic

/-!
# Renewing single-use tokens

Each cell stores one token, and a token may be redeemed once, for a new one. An agent
renews a cell under the lock of the cell: it reads the token, redeems it at the issuer, and
stores the new token if the cell still has the old one. Other agents supply a token from
outside and store it without the lock. The issuer and the outside never supply a token
twice. Then no token is sent or redeemed again once it was redeemed, and a token that was
overwritten never comes back.
-/

namespace Renewal

variable {ι π τ : Type*}

/-- What happens at the issuer. -/
inductive Event (τ : Type*) where
  | sent (token : τ)
  | redeemed (token : τ)
  deriving DecidableEq

/-- The token of an event. -/
def Event.token : Event τ → τ
  | sent token | redeemed token => token

/-- Where an agent stands. -/
inductive Phase (τ : Type*) where
  | idle
  /-- It holds the lock of its cell. -/
  | holding
  /-- It holds the lock and has read the token. -/
  | reading (token : τ)
  /-- It holds the lock, has redeemed the token and has not stored the new one. -/
  | redeemed (token new : τ)
  /-- It brings a token from outside and has not stored it. -/
  | supplying (new : τ)

namespace Phase

/-- The lock is held. -/
def holds : Phase τ → Prop
  | idle | supplying _ => False
  | holding | reading _ | redeemed .. => True

/-- The token that was read from the cell. -/
def token? : Phase τ → Option τ
  | reading token | redeemed token _ => some token
  | _ => none

/-- The token that is still to be stored. -/
def new? : Phase τ → Option τ
  | redeemed _ new | supplying new => some new
  | _ => none

/-- There is no token in the hands of the agent. -/
def rests : Phase τ → Prop
  | idle | holding => True
  | _ => False

/-- A phase at rest holds no token. -/
theorem token?_of_rests {phase : Phase τ} (h : phase.rests) : phase.token? = none := by
  cases phase <;> first | rfl | exact h.elim

/-- A phase at rest has no new token either. -/
theorem new?_of_rests {phase : Phase τ} (h : phase.rests) : phase.new? = none := by
  cases phase <;> first | rfl | exact h.elim

end Phase

/-- An agent works on one cell. -/
structure Agent (π τ : Type*) where
  cell : π
  phase : Phase τ

/-- The cells, the agents, the tokens that were supplied so far with the cell they are for, and
the events at the issuer, the newest first. -/
structure State (ι π τ : Type*) where
  cells : π → Option τ
  agents : ι → Agent π τ
  supplied : List (π × τ)
  log : List (Event τ)

namespace State

/-- The tokens that were supplied so far. -/
def tokens (s : State ι π τ) : List τ := s.supplied.map Prod.snd

/-- An agent moves. -/
def move [DecidableEq ι] (s : State ι π τ) (i : ι) (agent : Agent π τ) : State ι π τ :=
  { s with agents := Function.update s.agents i agent }

/-- A token is supplied for a cell. -/
def supply (s : State ι π τ) (p : π) (y : τ) : State ι π τ :=
  { s with supplied := (p, y) :: s.supplied }

/-- An event at the issuer. -/
def record (s : State ι π τ) (event : Event τ) : State ι π τ := { s with log := event :: s.log }

end State

open State

/-- One step of an agent, or the loss of a cell. -/
inductive Step [DecidableEq ι] [DecidableEq π] [DecidableEq τ] (s : State ι π τ) :
    State ι π τ → Prop where
  /-- Cells are emptied. -/
  | forget {cells : π → Option τ} (hcells : ∀ p x, cells p = some x → s.cells p = some x) :
    Step s { s with cells := cells }
  /-- An idle agent turns to a cell. -/
  | call {i : ι} (p : π) (hi : (s.agents i).phase = .idle) : Step s (s.move i ⟨p, .idle⟩)
  /-- An idle agent brings a new token. -/
  | supply {i : ι} (p : π) {y : τ} (hi : (s.agents i).phase = .idle) (hnew : y ∉ s.tokens) :
    Step s ((s.supply p y).move i ⟨p, .supplying y⟩)
  | lock {i : ι} {p : π} (hi : s.agents i = ⟨p, .idle⟩)
    (hfree : ∀ j, (s.agents j).phase.holds → (s.agents j).cell ≠ p) :
    Step s (s.move i ⟨p, .holding⟩)
  | read {i : ι} {p : π} {x : τ} (hi : s.agents i = ⟨p, .holding⟩) (hx : s.cells p = some x) :
    Step s (s.move i ⟨p, .reading x⟩)
  | send {i : ι} {p : π} {x : τ} (hi : s.agents i = ⟨p, .reading x⟩) : Step s (s.record (.sent x))
  /-- The issuer redeems a token for a new one. -/
  | redeem {i : ι} {p : π} {x y : τ} (hi : s.agents i = ⟨p, .reading x⟩) (hnew : y ∉ s.tokens) :
    Step s (((s.supply p y).record (.redeemed x)).move i ⟨p, .redeemed x y⟩)
  /-- An agent gives up its token, or also its lock. -/
  | release {i : ι} {p : π} {before after : Phase τ} (hi : s.agents i = ⟨p, before⟩)
    (hbefore : before.new? = none) (hafter : after.rests) (hlock : after.holds → before.holds) :
    Step s (s.move i ⟨p, after⟩)
  /-- The new token is stored if the cell still has the redeemed one. -/
  | commit {i : ι} {p : π} {x y : τ} {after : Phase τ} (hi : s.agents i = ⟨p, .redeemed x y⟩)
    (hafter : after.rests) :
    Step s ({ s with
      cells := if s.cells p = some x then Function.update s.cells p (some y) else s.cells }.move i
        ⟨p, after⟩)
  /-- A token from outside is stored, or rejected. -/
  | overwrite {i : ι} {p q : π} {y : τ} {cells : π → Option τ}
    (hi : s.agents i = ⟨p, .supplying y⟩)
    (hcells : cells = s.cells ∨ cells = Function.update s.cells p (some y)) :
    Step s ({ s with cells := cells }.move i ⟨q, .idle⟩)

/-- Every token belongs to one cell. -/
structure Owned (s : State ι π τ) : Prop where
  nodup : s.tokens.Nodup
  cells : ∀ {p x}, s.cells p = some x → (p, x) ∈ s.supplied
  token : ∀ {i x}, (s.agents i).phase.token? = some x → ((s.agents i).cell, x) ∈ s.supplied
  new : ∀ {i y}, (s.agents i).phase.new? = some y → ((s.agents i).cell, y) ∈ s.supplied
  log : ∀ event ∈ s.log, event.token ∈ s.tokens

/-- A cell has at most one agent with its lock. -/
def Exclusive (s : State ι π τ) : Prop :=
  ∀ {i j}, (s.agents i).phase.holds → (s.agents j).phase.holds →
    (s.agents i).cell = (s.agents j).cell → i = j

/-- Nobody has seen the token. -/
structure Unseen (s : State ι π τ) (y : τ) : Prop where
  cells : ∀ p, s.cells p ≠ some y
  token : ∀ i, (s.agents i).phase.token? ≠ some y
  log : ∀ event ∈ s.log, event.token ≠ y

/-- A token that is still to be stored is unseen, and in the hands of one agent. -/
structure Pending (s : State ι π τ) : Prop where
  unseen : ∀ {i y}, (s.agents i).phase.new? = some y → Unseen s y
  once : ∀ {i j y}, (s.agents i).phase.new? = some y → (s.agents j).phase.new? = some y → i = j

section Agents

variable [DecidableEq ι] {s : State ι π τ} {i j : ι} {agent : Agent π τ}

/-- The agent that moves. -/
@[simp] theorem move_self : (s.move i agent).agents i = agent := Function.update_self ..

/-- The other agents stay where they are. -/
theorem move_other (hne : j ≠ i) : (s.move i agent).agents j = s.agents j :=
  Function.update_of_ne hne ..

/-- An agent that does not change does not move. -/
theorem move_eq_self (h : s.agents i = agent) : s.move i agent = s := by
  rw [State.move, ← h, Function.update_eq_self]

@[simp] theorem move_cells : (s.move i agent).cells = s.cells := rfl
@[simp] theorem move_supplied : (s.move i agent).supplied = s.supplied := rfl
@[simp] theorem move_tokens : (s.move i agent).tokens = s.tokens := rfl
@[simp] theorem move_log : (s.move i agent).log = s.log := rfl

end Agents

/-- A supplied token is one of the tokens. -/
@[simp] theorem tokens_supply (s : State ι π τ) (p : π) (y : τ) :
    (s.supply p y).tokens = y :: s.tokens := rfl

/-- What a cell has after a token was stored. -/
theorem of_store [DecidableEq π] {cells : π → Option τ} {p q : π} {y z : τ}
    (h : Function.update cells p (some y) q = some z) : (q = p ∧ z = y) ∨ cells q = some z := by
  rw [Function.update_apply] at h
  split at h
  · next heq => exact .inl ⟨heq, (Option.some.inj h).symm⟩
  · exact .inr h

namespace Owned

variable {s : State ι π τ}

/-- A supplied token belongs to one cell only. -/
theorem cell_unique (h : Owned s) {p q : π} {x : τ} (hp : (p, x) ∈ s.supplied)
    (hq : (q, x) ∈ s.supplied) : p = q := by
  have heq : (p, x) = (q, x) := List.inj_on_of_nodup_map h.nodup hp hq rfl
  exact congrArg Prod.fst heq

/-- A token in a supplied pair was supplied. -/
theorem mem_tokens {p : π} {x : τ} (h : (p, x) ∈ s.supplied) : x ∈ s.tokens :=
  List.mem_map_of_mem h

/-- Cells may be set to tokens that were supplied for them. -/
theorem setCells (h : Owned s) {cells : π → Option τ}
    (hcells : ∀ p x, cells p = some x → (p, x) ∈ s.supplied) : Owned { s with cells := cells } :=
  ⟨h.nodup, fun hp => hcells _ _ hp, h.token, h.new, h.log⟩

/-- A cell takes a token that was supplied for it. -/
theorem store [DecidableEq π] (h : Owned s) {p : π} {y : τ} (hy : (p, y) ∈ s.supplied) :
    Owned { s with cells := Function.update s.cells p (some y) } := by
  apply h.setCells
  intro q z hq
  rcases of_store hq with ⟨rfl, rfl⟩ | hq
  · exact hy
  · exact h.cells hq

/-- A new token may be supplied. -/
theorem supply (h : Owned s) {p : π} {y : τ} (hnew : y ∉ s.tokens) : Owned (s.supply p y) where
  nodup := List.nodup_cons.mpr ⟨hnew, h.nodup⟩
  cells hp := List.mem_cons_of_mem _ (h.cells hp)
  token hi := List.mem_cons_of_mem _ (h.token hi)
  new hi := List.mem_cons_of_mem _ (h.new hi)
  log event hevent := List.mem_cons_of_mem _ (h.log event hevent)

/-- An event about a known token may be recorded. -/
theorem record (h : Owned s) {event : Event τ} (htoken : event.token ∈ s.tokens) :
    Owned (s.record event) where
  nodup := h.nodup
  cells := h.cells
  token := h.token
  new := h.new
  log := by
    intro found hfound
    rcases List.mem_cons.mp hfound with rfl | hfound
    · exact htoken
    · exact h.log found hfound

/-- An agent may go on with tokens that were supplied for its cell. -/
theorem move [DecidableEq ι] (h : Owned s) {i : ι} {p : π} {phase : Phase τ}
    (htoken : ∀ x, phase.token? = some x → (p, x) ∈ s.supplied)
    (hnew : ∀ y, phase.new? = some y → (p, y) ∈ s.supplied) : Owned (s.move i ⟨p, phase⟩) where
  nodup := h.nodup
  cells := h.cells
  token := by
    intro j x hx
    by_cases heq : j = i
    · subst heq
      rw [move_self] at hx ⊢
      exact htoken x hx
    · rw [move_other heq] at hx ⊢
      exact h.token hx
  new := by
    intro j y hy
    by_cases heq : j = i
    · subst heq
      rw [move_self] at hy ⊢
      exact hnew y hy
    · rw [move_other heq] at hy ⊢
      exact h.new hy
  log := h.log

/-- An agent comes to rest. -/
theorem move_rests [DecidableEq ι] (h : Owned s) {i : ι} {p : π} {phase : Phase τ}
    (hrests : phase.rests) : Owned (s.move i ⟨p, phase⟩) := by
  apply h.move
  · intro x hx
    rw [Phase.token?_of_rests hrests] at hx
    cases hx
  · intro y hy
    rw [Phase.new?_of_rests hrests] at hy
    cases hy

end Owned

namespace Unseen

variable {s : State ι π τ} {y : τ}

/-- A token that was not supplied is unseen. -/
theorem of_owned (h : Owned s) (hnew : y ∉ s.tokens) : Unseen s y where
  cells _ hp := hnew (Owned.mem_tokens (h.cells hp))
  token _ hi := hnew (Owned.mem_tokens (h.token hi))
  log event hevent heq := hnew (heq ▸ h.log event hevent)

/-- Cells may be set to other tokens. -/
theorem setCells (h : Unseen s y) {cells : π → Option τ} (hcells : ∀ p, cells p ≠ some y) :
    Unseen { s with cells := cells } y := ⟨hcells, h.token, h.log⟩

/-- A cell takes another token. -/
theorem store [DecidableEq π] (h : Unseen s y) {p : π} {z : τ} (hne : z ≠ y) :
    Unseen { s with cells := Function.update s.cells p (some z) } y := by
  apply h.setCells
  intro q hq
  rcases of_store hq with ⟨-, heq⟩ | hq
  · exact hne heq.symm
  · exact h.cells q hq

/-- Supplying a token records nothing of it. -/
theorem supply (h : Unseen s y) (p : π) (z : τ) : Unseen (s.supply p z) y :=
  ⟨h.cells, h.token, h.log⟩

/-- An event about another token may be recorded. -/
theorem record (h : Unseen s y) {event : Event τ} (hne : event.token ≠ y) :
    Unseen (s.record event) y where
  cells := h.cells
  token := h.token
  log := by
    intro found hfound
    rcases List.mem_cons.mp hfound with rfl | hfound
    · exact hne
    · exact h.log found hfound

/-- An agent may go on with another token. -/
theorem move [DecidableEq ι] (h : Unseen s y) {i : ι} {agent : Agent π τ}
    (hagent : agent.phase.token? ≠ some y) : Unseen (s.move i agent) y where
  cells := h.cells
  token := by
    intro j
    by_cases heq : j = i
    · subst heq
      rwa [move_self]
    · rw [move_other heq]
      exact h.token j
  log := h.log

/-- An agent comes to rest. -/
theorem move_rests [DecidableEq ι] (h : Unseen s y) {i : ι} {agent : Agent π τ}
    (hrests : agent.phase.rests) : Unseen (s.move i agent) y := by
  apply h.move
  rw [Phase.token?_of_rests hrests]
  exact Option.some_ne_none y |>.symm

end Unseen

section Steps

variable [DecidableEq ι] [DecidableEq π] [DecidableEq τ] {s t : State ι π τ}

/-- Tokens keep their cell. -/
theorem Owned.step (h : Owned s) (hstep : Step s t) : Owned t := by
  have hagent : ∀ {i agent}, s.agents i = agent →
      (∀ x, agent.phase.token? = some x → (agent.cell, x) ∈ s.supplied) ∧
        ∀ y, agent.phase.new? = some y → (agent.cell, y) ∈ s.supplied := by
    rintro i agent rfl
    exact ⟨fun x hx => h.token hx, fun y hy => h.new hy⟩
  cases hstep with
  | forget hcells => exact h.setCells fun p x hp => h.cells (hcells p x hp)
  | call p hi => exact h.move_rests trivial
  | @supply i p y hi hnew =>
    apply (h.supply hnew).move
    · intro x hx
      cases hx
    · rintro z ⟨⟩
      exact List.mem_cons_self
  | lock hi hfree => exact h.move_rests trivial
  | read hi hx =>
    apply h.move
    · rintro z ⟨⟩
      exact h.cells hx
    · intro y hy
      cases hy
  | send hi => exact h.record (Owned.mem_tokens ((hagent hi).1 _ rfl))
  | @redeem i p x y hi hnew =>
    have hx : (p, x) ∈ s.supplied := (hagent hi).1 x rfl
    have hrecord : Owned ((s.supply p y).record (.redeemed x)) :=
      (h.supply hnew).record (List.mem_cons_of_mem _ (Owned.mem_tokens hx))
    apply hrecord.move
    · rintro z ⟨⟩
      exact List.mem_cons_of_mem _ hx
    · rintro z ⟨⟩
      exact List.mem_cons_self
  | release hi hbefore hafter hlock => exact h.move_rests hafter
  | @commit i p x y after hi hafter =>
    have hy : (p, y) ∈ s.supplied := (hagent hi).2 y rfl
    split
    · exact (h.store hy).move_rests hafter
    · exact h.move_rests hafter
  | @overwrite i p q y cells hi hcells =>
    have hy : (p, y) ∈ s.supplied := (hagent hi).2 y rfl
    rcases hcells with rfl | rfl
    · exact h.move_rests trivial
    · exact (h.store hy).move_rests trivial

omit [DecidableEq π] [DecidableEq τ] in
/-- An agent that takes no lock leaves the locks exclusive. -/
theorem Exclusive.move (h : Exclusive s) {i : ι} {agent : Agent π τ}
    (hlock : agent.phase.holds →
      (s.agents i).phase.holds ∧ (s.agents i).cell = agent.cell) :
    Exclusive (s.move i agent) := by
  have hheld : ∀ {j}, ((s.move i agent).agents j).phase.holds →
      (s.agents j).phase.holds ∧ (s.agents j).cell = ((s.move i agent).agents j).cell := by
    intro j hj
    by_cases heq : j = i
    · subst heq
      rw [move_self] at hj ⊢
      exact hlock hj
    · rw [move_other heq] at hj ⊢
      exact ⟨hj, rfl⟩
  intro j k hj hk hcell
  obtain ⟨hj, hjcell⟩ := hheld hj
  obtain ⟨hk, hkcell⟩ := hheld hk
  exact h hj hk (hjcell.trans (hcell.trans hkcell.symm))

/-- **Mutual exclusion.** -/
theorem Exclusive.step (h : Exclusive s) (hstep : Step s t) : Exclusive t := by
  cases hstep with
  | forget hcells => exact h
  | send hi => exact h
  | @lock i p hi hfree =>
    intro j k hj hk hcell
    by_cases hji : j = i
    · by_cases hki : k = i
      · exact hji.trans hki.symm
      · subst hji
        rw [move_self, move_other hki] at hcell
        rw [move_other hki] at hk
        exact absurd hcell.symm (hfree k hk)
    · by_cases hki : k = i
      · subst hki
        rw [move_self, move_other hji] at hcell
        rw [move_other hji] at hj
        exact absurd hcell (hfree j hj)
      · rw [move_other hji] at hj hcell
        rw [move_other hki] at hk hcell
        exact h hj hk hcell
  | call p hi | supply p hi hnew | overwrite hi hcells => exact h.move False.elim
  | read hi hx | redeem hi hnew | commit hi hafter =>
    apply h.move
    intro _
    rw [hi]
    exact ⟨trivial, rfl⟩
  | release hi hbefore hafter hlock =>
    apply h.move
    intro hafter
    rw [hi]
    exact ⟨hlock hafter, rfl⟩

omit [DecidableEq π] [DecidableEq τ] in
/-- The pending tokens after one agent moved: those of the others were pending before, and its
own is unseen and not among them. -/
theorem Pending.move (h : Pending s) {u : State ι π τ} {i : ι} {agent : Agent π τ}
    (hagents : u.agents = s.agents)
    (hothers : ∀ j y, j ≠ i → (s.agents j).phase.new? = some y → Unseen (u.move i agent) y)
    (hself : ∀ y, agent.phase.new? = some y →
      Unseen (u.move i agent) y ∧ ∀ j, (s.agents j).phase.new? ≠ some y) :
    Pending (u.move i agent) where
  unseen := by
    intro j y hy
    by_cases heq : j = i
    · subst heq
      rw [move_self] at hy
      exact (hself y hy).1
    · rw [move_other heq, hagents] at hy
      exact hothers j y heq hy
  once := by
    intro j k y hj hk
    by_cases hji : j = i
    · by_cases hki : k = i
      · exact hji.trans hki.symm
      · subst hji
        rw [move_self] at hj
        rw [move_other hki, hagents] at hk
        exact absurd hk ((hself y hj).2 k)
    · rw [move_other hji, hagents] at hj
      by_cases hki : k = i
      · subst hki
        rw [move_self] at hk
        exact absurd hj ((hself y hk).2 j)
      · rw [move_other hki, hagents] at hk
        exact h.once hj hk

omit [DecidableEq π] [DecidableEq τ] in
/-- An agent comes to rest. -/
theorem Pending.move_rests (h : Pending s) {i : ι} {agent : Agent π τ}
    (hrests : agent.phase.rests) : Pending (s.move i agent) := by
  apply h.move
  · rfl
  · intro j y _ hy
    exact (h.unseen hy).move_rests hrests
  · intro y hy
    rw [Phase.new?_of_rests hrests] at hy
    cases hy

/-- **A token that is still to be stored stays unseen.** -/
theorem Pending.step (h : Pending s) (howned : Owned s) (hstep : Step s t) : Pending t := by
  have hfresh : ∀ {y}, y ∉ s.tokens → ∀ j, (s.agents j).phase.new? ≠ some y :=
    fun hnew j hy => hnew (Owned.mem_tokens (howned.new hy))
  cases hstep with
  | @forget cells hcells =>
    refine ⟨fun hy => ?_, h.once⟩
    have hunseen := h.unseen hy
    exact hunseen.setCells fun p hp => hunseen.cells p (hcells p _ hp)
  | call p hi | lock hi hfree => exact h.move_rests trivial
  | release hi hbefore hafter hlock => exact h.move_rests hafter
  | @supply i p y hi hnew =>
    apply h.move
    · rfl
    · intro j z _ hz
      exact ((h.unseen hz).supply p y).move nofun
    · rintro z ⟨⟩
      exact ⟨((Unseen.of_owned howned hnew).supply p y).move nofun, hfresh hnew⟩
  | @read i p x hi hx =>
    apply h.move
    · rfl
    · intro j y _ hy
      have hunseen := h.unseen hy
      apply hunseen.move
      rintro ⟨⟩
      exact hunseen.cells p hx
    · intro y hy
      cases hy
  | @send i p x hi =>
    refine ⟨fun hy => ?_, h.once⟩
    have hunseen := h.unseen hy
    apply hunseen.record
    rintro rfl
    exact hunseen.token i (by rw [hi]; rfl)
  | @redeem i p x y hi hnew =>
    have hx : (s.agents i).phase.token? = some x := by rw [hi]; rfl
    have hkeep : ∀ {z}, Unseen s z →
        Unseen (((s.supply p y).record (.redeemed x)).move i ⟨p, .redeemed x y⟩) z := by
      intro z hunseen
      have hne : (Event.redeemed x).token ≠ z := by
        rintro rfl
        exact hunseen.token i hx
      apply ((hunseen.supply p y).record hne).move
      rintro ⟨⟩
      exact hne rfl
    apply h.move
    · rfl
    · intro j z _ hz
      exact hkeep (h.unseen hz)
    · rintro z ⟨⟩
      exact ⟨hkeep (Unseen.of_owned howned hnew), hfresh hnew⟩
  | @commit i p x y after hi hafter =>
    have hy : (s.agents i).phase.new? = some y := by rw [hi]; rfl
    apply h.move
    · rfl
    · intro j z hne hz
      have hunseen := h.unseen hz
      have hyz : y ≠ z := by
        rintro rfl
        exact hne (h.once hz hy)
      split
      · exact (hunseen.store hyz).move_rests hafter
      · exact hunseen.move_rests hafter
    · intro z hz
      rw [Phase.new?_of_rests hafter] at hz
      cases hz
  | @overwrite i p q y cells hi hcells =>
    have hy : (s.agents i).phase.new? = some y := by rw [hi]; rfl
    apply h.move
    · rfl
    · intro j z hne hz
      have hunseen := h.unseen hz
      have hyz : y ≠ z := by
        rintro rfl
        exact hne (h.once hz hy)
      rcases hcells with rfl | rfl
      · exact hunseen.move_rests trivial
      · exact (hunseen.store hyz).move_rests trivial
    · intro z hz
      cases hz

end Steps

end Renewal
