import OpenAiLb.CredentialLifecycle

/-!
# Nobody raises the own privileges

A role changes only through a request of the root, and anything else that is known of a user only
through one of an administrator. Each handler looks at the role of its caller once, in its login,
and the statements of other handlers come in between before it writes; the roles that decide do not
change meanwhile, unless the root is among the callers.
-/

namespace OpenAiLb

open Resumption

/-- The roles are those of the beginning, and who is new is a tenant. The access of an
administrator to the providers is not touched either. -/
structure RolesKept (before users : Users) : Prop where
  kept : ∀ id user, before.user? id = some user → ∃ after, users.user? id = some after ∧
    after.role = user.role ∧ (user.role ≠ .user → after.providerAccess = user.providerAccess)
  new : ∀ id after, users.user? id = some after → before.user? id = none → after.role = .user

/-- The rows are those of the beginning, and who is new is a tenant without anything. -/
structure UsersKept (before users : Users) : Prop where
  kept : ∀ id user, before.user? id = some user → users.user? id = some user
  new : ∀ id after, users.user? id = some after → before.user? id = none →
    ∃ now, after = Users.tenant id now

section Roles

variable {before users : Users}

/-- Everyone keeps the own role at first. -/
theorem RolesKept.refl (before : Users) : RolesKept before before where
  kept _ user huser := ⟨user, huser, rfl, fun _ => rfl⟩
  new _ after hafter hnone := by
    rw [hnone] at hafter
    cases hafter

/-- A login finds a row or makes one of a tenant. -/
theorem RolesKept.register (h : RolesKept before users) (id : String) (now : Int) :
    RolesKept before (users.register id now) where
  kept other user huser := by
    obtain ⟨after, hafter, hkept⟩ := h.kept other user huser
    refine ⟨after, ?_, hkept⟩
    rw [Users.user?_register]
    split
    · next hsame =>
      subst hsame
      rw [hafter]
      rfl
    · exact hafter
  new other after hafter hnone := by
    rw [Users.user?_register] at hafter
    split at hafter
    · next hsame =>
      subst hsame
      obtain rfl := Option.some.inj hafter
      cases hfound : users.user? other with
      | none => rfl
      | some user => exact h.new other user hfound hnone
    · exact h.new other after hafter hnone

/-- A statement that rewrites rows in place and leaves the role, and of an administrator the
access. -/
theorem RolesKept.rewrite (h : RolesKept before users) {after : Users} {set : User → User}
    (hset : ∀ id, after.user? id = (users.user? id).map set)
    (hrole : ∀ user, (set user).role = user.role)
    (haccess : ∀ user, user.role ≠ .user → (set user).providerAccess = user.providerAccess) :
    RolesKept before after where
  kept id user huser := by
    obtain ⟨row, hrow, hsame, hadmin⟩ := h.kept id user huser
    refine ⟨set row, by rw [hset, hrow, Option.map_some], (hrole row).trans hsame, fun hne => ?_⟩
    exact (haccess row (hsame ▸ hne)).trans (hadmin hne)
  new id row hrow hnone := by
    rw [hset] at hrow
    obtain ⟨old, hold, rfl⟩ := Option.map_eq_some_iff.mp hrow
    exact (hrole old).trans (h.new id old hold hnone)

/-- Who was not the root is not seen as the root. -/
theorem RolesKept.not_root (h : RolesKept before users) {id : String} {user : User}
    (hnot : ¬ before.IsRoot id) (huser : users.user? id = some user) : user.role ≠ .root := by
  intro hroot
  cases hfound : before.user? id with
  | none =>
    rw [h.new id user huser hfound] at hroot
    cases hroot
  | some old =>
    obtain ⟨after, hafter, hrole, -⟩ := h.kept id old hfound
    obtain rfl := Option.some.inj (huser.symm.trans hafter)
    exact hnot ⟨old, hfound, hrole.symm.trans hroot⟩

/-- The users keep themselves at first. -/
theorem UsersKept.refl (before : Users) : UsersKept before before where
  kept _ _ huser := huser
  new _ after hafter hnone := by
    rw [hnone] at hafter
    cases hafter

/-- Logging in keeps the users from before. -/
theorem UsersKept.register (h : UsersKept before users) (id : String) (now : Int) :
    UsersKept before (users.register id now) where
  kept other user huser := by
    rw [Users.user?_register]
    split
    · next hsame =>
      subst hsame
      rw [h.kept other user huser]
      rfl
    · exact h.kept other user huser
  new other after hafter hnone := by
    rw [Users.user?_register] at hafter
    split at hafter
    · next hsame =>
      subst hsame
      obtain rfl := Option.some.inj hafter
      cases hfound : users.user? other with
      | none => exact ⟨now, rfl⟩
      | some user => exact h.new other user hfound hnone
    · exact h.new other after hafter hnone

/-- A tenant is not seen as an administrator. -/
theorem UsersKept.tenant (h : UsersKept before users) {id : String} {user : User}
    (htenant : ∀ user, before.user? id = some user → user.role = .user)
    (huser : users.user? id = some user) : user.role = .user := by
  cases hfound : before.user? id with
  | none =>
    obtain ⟨now, rfl⟩ := h.new id user huser hfound
    rfl
  | some old =>
    obtain rfl := Option.some.inj (huser.symm.trans (h.kept id old hfound))
    exact htenant user hfound

end Roles

namespace Tenancy

section Respected

variable {before : Users} {userId : String}

/-- Creating a consumer leaves the accounts alone. -/
@[simp] theorem accounts_insertConsumer (row : Consumer) (s : Tenancy) :
    (s.insertConsumer row).2.accounts = s.accounts := by
  unfold insertConsumer
  split <;> rfl

/-- Whoever is not the root leaves the roles as they are. -/
theorem respects_roles (hnot : ¬ before.IsRoot userId) :
    Respects (fun s => RolesKept before s.accounts.users) userId where
  register now _ hs := hs.register userId now
  insertConsumer row s _ _ hs := by rwa [accounts_insertConsumer]
  editConsumer _ _ _ hs := hs
  revoke _ _ _ hs := hs
  delete _ _ hs := hs
  setDisplayName _ id displayName _ hs := by
    refine hs.rewrite (fun other => Users.user?_setDisplayName ..) (fun user => ?_)
      fun user _ => ?_ <;> split <;> rfl
  setRole hroot := by
    obtain ⟨s, user, hs, huser, hrole⟩ := hroot
    exact absurd hrole (hs.not_root hnot huser)
  setProviderAccess _ id access _ hs := by
    refine hs.rewrite (fun other => Users.user?_setProviderAccess ..) (fun user => ?_)
      fun user hadmin => ?_
    · split <;> rfl
    · rw [if_neg fun h => hadmin h.2]
  audit _ _ _ hs := hs

/-- A tenant leaves the users as they are, and no record in `admin_audit`. -/
theorem respects_users {records : List AdminAudit}
    (htenant : ∀ user, before.user? userId = some user → user.role = .user) :
    Respects (fun s => UsersKept before s.accounts.users ∧ s.accounts.adminAudit = records)
      userId := by
  have hnot : ¬ ∃ (s : Tenancy) (user : User), (UsersKept before s.accounts.users ∧
      s.accounts.adminAudit = records) ∧ s.accounts.users.user? userId = some user ∧
        user.role ≠ .user := by
    rintro ⟨s, user, ⟨hs, -⟩, huser, hrole⟩
    exact hrole (hs.tenant htenant huser)
  exact
    { register := fun now _ hs => ⟨hs.1.register userId now, hs.2⟩
      insertConsumer := fun row s _ _ hs => by rwa [accounts_insertConsumer]
      editConsumer := fun _ _ _ hs => hs
      revoke := fun _ _ _ hs => hs
      delete := fun _ _ hs => hs
      setDisplayName := fun hadmin => absurd hadmin hnot
      setRole := fun ⟨s, user, hs, huser, hrole⟩ =>
        absurd ⟨s, user, hs, huser, by rw [hrole]; nofun⟩ hnot
      setProviderAccess := fun hadmin => absurd hadmin hnot
      audit := fun hadmin => absurd hadmin hnot }

end Respected

section Run

variable {codec : CredentialCodec} {s₀ : Tenancy} {t : Pool AppError Tenancy TenancyAnswer}
  {moves : List (Move Request)}

/-- **Nobody raises the own privileges.** In any order of the accesses of any handlers: if none of
the requests is one of the root, every user has the role of the beginning, every new one is a
tenant, and the access of the administrators to the providers is as before. If none is one of an
administrator either, the rows of the users are as before, the new ones are tenants without a name
and without access, and nothing was recorded in `admin_audit`. -/
theorem privileges_need_privilege (hrun : Runs codec s₀ moves t) :
    ((∀ userId, Called moves userId → ¬ s₀.accounts.users.IsRoot userId) →
      RolesKept s₀.accounts.users t.state.accounts.users) ∧
    ((∀ userId, Called moves userId →
        ∀ user, s₀.accounts.users.user? userId = some user → user.role = .user) →
      UsersKept s₀.accounts.users t.state.accounts.users ∧
        t.state.accounts.adminAudit = s₀.accounts.adminAudit) := by
  constructor
  · intro hnot
    exact invariant_of_run (RolesKept.refl _)
      (fun userId hcalled => respects_roles (hnot userId hcalled)) (fun _ _ hs => hs) hrun
  · intro htenant
    exact invariant_of_run ⟨UsersKept.refl _, rfl⟩
      (fun userId hcalled => respects_users (htenant userId hcalled)) (fun _ _ hs => hs) hrun

/-- The root and a tenant, without consumers. -/
def rootAndTenant : Tenancy := ⟨⟨twoUsers, []⟩, .empty, []⟩

/-- The tenant asks for the role of an administrator and for the access to all providers. -/
def tenantAsks : List (Move Request) :=
  [.start (.updateUser ⟨.ok "tenant", 1, "127.0.0.1"⟩ "tenant" ⟨none, some "admin", some true⟩
      ⟨"audit", 1⟩ ⟨"audit", 1⟩ ⟨"audit", 1⟩),
    .advance 0, .start (.me ⟨.ok "other", 1, "127.0.0.1"⟩), .advance 0, .advance 1]

/-- The statement for this run: the row of the tenant is as before. -/
theorem tenant_stays_tenant :
    (Transition.after (Pool.step (handle zeroCodec)) ⟨rootAndTenant, []⟩
      tenantAsks).state.accounts.users.user? "tenant" =
        some ⟨"tenant", none, some "old", .user, false, 0⟩ := by
  have hrun : Runs zeroCodec rootAndTenant tenantAsks
      (Transition.after (Pool.step (handle zeroCodec)) ⟨rootAndTenant, []⟩ tenantAsks) :=
    Transition.run_eq_some_after (by decide +kernel)
  refine ((privileges_need_privilege hrun).2 fun userId hcalled user huser => ?_).1.kept
    "tenant" _ (by decide)
  obtain ⟨request, call, hmem, hcall, hverified⟩ := hcalled
  simp only [tenantAsks, List.mem_cons, Move.start.injEq, reduceCtorEq, List.not_mem_nil,
    false_or, or_false] at hmem
  rcases hmem with rfl | rfl
  · cases hcall
    cases hverified
    have hrow : twoUsers.user? "tenant" =
        some ⟨"tenant", none, some "old", .user, false, 0⟩ := by decide
    rw [Option.some.inj (huser.symm.trans hrow)]
  · cases hcall
    cases hverified
    cases huser

end Run

end Tenancy

end OpenAiLb
