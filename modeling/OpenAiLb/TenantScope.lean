import OpenAiLb.AuditQueries

/-!
# What a tenant can learn from the audit

Every query of the console carries the scope of its user. Two databases that agree on the
users, the providers and the records of one tenant give this tenant the same answers,
whatever the records of the other tenants are.
-/

namespace OpenAiLb

/-- The navigation order compares timestamps, then ids. -/
theorem Neighbour.before_iff {x y : Neighbour} :
    x.before y = true ↔ x.createdAt < y.createdAt ∨ (x.createdAt = y.createdAt ∧ x.id ≤ y.id) := by
  simp [Neighbour.before]

namespace ConsoleDatabase

/-- Every call carries the user of its consumer. -/
def CallsOwned (db : ConsoleDatabase) : Prop :=
  ∀ call ∈ db.records.apiCalls, ∀ consumer ∈ db.records.consumers,
    consumer.id = call.consumerId → consumer.userId = call.userId

/-- Two databases differ in the consumers, calls and archives of other users only. -/
structure SameFor (userId : String) (a b : ConsoleDatabase) : Prop where
  users : ∀ row, row ∈ a.users ↔ row ∈ b.users
  providers : ∀ row, row ∈ a.providers ↔ row ∈ b.providers
  consumers : ∀ row, row.userId = userId → (row ∈ a.records.consumers ↔ row ∈ b.records.consumers)
  calls : ∀ row, row.userId = userId → (row ∈ a.records.apiCalls ↔ row ∈ b.records.apiCalls)
  archives : ∀ row, (∃ call ∈ a.records.apiCalls, call.id = row.apiCallId ∧ call.userId = userId) →
    (row ∈ a.records.requestArchives ↔ row ∈ b.records.requestArchives)

/-- A tenant only matches calls of its own. -/
theorem userId_of_auditFilters {filters : AuditQuery} {user : UserIdentity} {row : JoinedCall}
    (huser : isAdmin user = false) (h : auditFilters filters user row = true) :
    row.call.userId = user.id := by
  simp only [auditFilters, huser, Bool.false_or, Bool.and_eq_true, decide_eq_true_eq] at h
  exact h.1.1.1.1.1

/-- The call of a joined row. -/
theorem call_of_join {db : ConsoleDatabase} {call : ApiCall} {row : JoinedCall}
    (h : db.join call = some row) : row.call = call := by
  obtain ⟨consumer, -, rfl⟩ := Option.map_eq_some_iff.mp h
  rfl

section Same

variable {a b : ConsoleDatabase} {user : UserIdentity} {userId : String}

/-- The users are the same. -/
theorem SameFor.findUser (h : SameFor userId a b) (id : String) :
    a.users.find? id = b.users.find? id :=
  Table.find?_congr fun row _ => h.users row

/-- The consumer of a call of the user is the same, since it belongs to the user as well. -/
theorem SameFor.findConsumer (h : SameFor userId a b) (ha : a.CallsOwned) (hb : b.CallsOwned)
    {call : ApiCall} (hcall : call ∈ a.records.apiCalls) (howner : call.userId = userId) :
    a.records.consumers.find? call.consumerId = b.records.consumers.find? call.consumerId := by
  have hcall' : call ∈ b.records.apiCalls := (h.calls call howner).mp hcall
  refine Table.find?_congr fun row hkey => ?_
  constructor
  · intro hrow
    have hrowner : row.userId = userId := (ha call hcall row hrow hkey).trans howner
    exact (h.consumers row hrowner).mp hrow
  · intro hrow
    have hrowner : row.userId = userId := (hb call hcall' row hrow hkey).trans howner
    exact (h.consumers row hrowner).mpr hrow

/-- A call of the user is joined to the same rows. -/
theorem SameFor.join_eq (h : SameFor userId a b) (ha : a.CallsOwned) (hb : b.CallsOwned)
    {call : ApiCall} (hcall : call ∈ a.records.apiCalls) (howner : call.userId = userId) :
    a.join call = b.join call := by
  have hproviders : a.providers.find? = b.providers.find? := by
    funext id
    exact Table.find?_congr fun row _ => h.providers row
  rw [join, join, h.findConsumer ha hb hcall howner, hproviders]

/-- `audit` matches the same rows. -/
theorem SameFor.auditMatches (h : SameFor user.id a b) (huser : isAdmin user = false)
    (ha : a.CallsOwned) (hb : b.CallsOwned) (filters : AuditQuery) :
    (a.auditMatches filters user).Perm (b.auditMatches filters user) := by
  have hout : ∀ (db : ConsoleDatabase) (call : ApiCall), decide (call.userId = user.id) = false →
      (db.join call).filter (auditFilters filters user) = none := by
    intro db call hother
    refine Option.filter_eq_none_iff.mpr fun row hrow hfilters => ?_
    have howner := userId_of_auditFilters huser hfilters
    rw [call_of_join hrow] at howner
    exact absurd howner (by simpa using hother)
  simp only [ConsoleDatabase.auditMatches, List.filter_filterMap]
  refine Table.perm_filterMap (p := fun call => decide (call.userId = user.id)) ?_ ?_ ?_
  · intro call howner
    exact h.calls call (by simpa using howner)
  · intro call hother
    exact ⟨hout a call hother, hout b call hother⟩
  · intro call hcall howner
    rw [h.join_eq ha hb hcall (by simpa using howner)]

/-- `audit` gives the same answers. -/
theorem SameFor.audit_iff (h : SameFor user.id a b) (huser : isAdmin user = false)
    (ha : a.CallsOwned) (hb : b.CallsOwned) (filters : AuditQuery) (answer : AuditAnswer) :
    a.Audit user filters answer ↔ b.Audit user filters answer := by
  have hmatches := h.auditMatches huser ha hb filters
  have hrow : a.auditRow = b.auditRow := by
    funext row
    simp only [auditRow, h.findUser]
  simp only [Audit, hrow, hmatches.length_eq, orderedBy_congr hmatches]

/-- `usage_rows` counts the same calls. -/
theorem SameFor.usageMatches (h : SameFor user.id a b) (huser : isAdmin user = false)
    (ha : a.CallsOwned) (hb : b.CallsOwned) (date : Int → Option String) (since : Int) :
    (a.usageMatches date user since).Perm (b.usageMatches date user since) := by
  have hscope : ∀ call, usageFilter user since call = true → call.userId = user.id := by
    intro call hfilter
    simp only [usageFilter, huser, Bool.false_or, Bool.and_eq_true, decide_eq_true_eq] at hfilter
    exact hfilter.2
  simp only [ConsoleDatabase.usageMatches, List.filterMap_filter]
  refine Table.perm_filterMap (p := usageFilter user since) ?_ ?_ ?_
  · intro call hfilter
    exact h.calls call (hscope call hfilter)
  · intro call hfilter
    simp [hfilter]
  · intro call hcall hfilter
    simp only [hfilter, if_true, usageJoin, h.findUser,
      h.findConsumer ha hb hcall (hscope call hfilter)]

/-- `usage_rows` gives the same answers. -/
theorem SameFor.usageRows_iff (h : SameFor user.id a b) (huser : isAdmin user = false)
    (ha : a.CallsOwned) (hb : b.CallsOwned) (date : Int → Option String) (since : Int)
    (answer : Option (List UsageRow)) :
    a.UsageRows date user since answer ↔ b.UsageRows date user since answer := by
  have hmatches := h.usageMatches huser ha hb date since
  constructor
  · rintro ⟨found, hfound, hanswer⟩
    exact ⟨found, hfound.trans hmatches, hanswer⟩
  · rintro ⟨found, hfound, hanswer⟩
    exact ⟨found, hfound.trans hmatches.symm, hanswer⟩

/-- The navigation of a call finds the same neighbours. -/
theorem SameFor.navigationRows (h : SameFor user.id a b) (huser : isAdmin user = false)
    (threadId consumerId : String) :
    a.navigationRows user threadId consumerId = b.navigationRows user threadId consumerId := by
  refine mergeSort_congr ?_ ?_ ?_ ((Table.perm_filter fun call hcall => ?_).map _)
  · intro x y z hxy hyz
    rw [Neighbour.before_iff] at hxy hyz ⊢
    rcases hxy with hxy | ⟨hxy, hid⟩ <;> rcases hyz with hyz | ⟨hyz, hid'⟩
    · exact Or.inl (by omega)
    · exact Or.inl (by omega)
    · exact Or.inl (by omega)
    · exact Or.inr ⟨by omega, hid.trans hid'⟩
  · intro x y
    rw [Bool.or_eq_true, Neighbour.before_iff, Neighbour.before_iff]
    rcases lt_trichotomy x.createdAt y.createdAt with hlt | heq | hgt
    · exact Or.inl (Or.inl hlt)
    · exact (le_total x.id y.id).imp (fun hle => Or.inr ⟨heq, hle⟩)
        fun hle => Or.inr ⟨heq.symm, hle⟩
    · exact Or.inr (Or.inl hgt)
  · -- Two rows with one id are the same row, since the id is the key of the calls.
    intro x hx y hy hxy hyx
    obtain ⟨call, hcall, rfl⟩ := List.mem_map.mp hx
    obtain ⟨other, hother, rfl⟩ := List.mem_map.mp hy
    have hid : call.id = other.id := by
      rcases Neighbour.before_iff.mp hxy with hlt | ⟨heq, hle⟩ <;>
        rcases Neighbour.before_iff.mp hyx with hlt' | ⟨heq', hle'⟩
      · omega
      · exact absurd hlt (by dsimp only at heq' ⊢; omega)
      · exact absurd hlt' (by dsimp only at heq ⊢; omega)
      · exact le_antisymm hle hle'
    rw [Table.eq_of_key_eq (List.mem_filter.mp hcall).1 (List.mem_filter.mp hother).1 hid]
  · simp only [huser, Bool.false_or, Bool.and_eq_true, decide_eq_true_eq] at hcall
    exact h.calls call hcall.2

/-- `audit_detail` finds the same call, and only one of the user. -/
theorem SameFor.detailCall (h : SameFor user.id a b) (huser : isAdmin user = false)
    (ha : a.CallsOwned) (hb : b.CallsOwned) (id : String) :
    a.detailCall user id = b.detailCall user id := by
  -- The call that the query sees is a call of the user in both databases.
  have hseen : ∀ call, call.userId = user.id →
      (a.records.apiCalls.find? id = some call ↔ b.records.apiCalls.find? id = some call) := by
    intro call howner
    rw [Table.find?_eq_some_iff, Table.find?_eq_some_iff, h.calls call howner]
  have hscoped : (a.records.apiCalls.find? id).filter (fun call => decide (call.userId = user.id)) =
      (b.records.apiCalls.find? id).filter fun call => decide (call.userId = user.id) := by
    ext call
    simp only [Option.filter_eq_some_iff, decide_eq_true_eq]
    constructor
    · rintro ⟨hfound, howner⟩
      exact ⟨(hseen call howner).mp hfound, howner⟩
    · rintro ⟨hfound, howner⟩
      exact ⟨(hseen call howner).mpr hfound, howner⟩
  simp only [ConsoleDatabase.detailCall, huser, Bool.false_or]
  rw [← hscoped]
  refine Option.bind_congr fun call hcall => ?_
  obtain ⟨hfound, howner⟩ := Option.filter_eq_some_iff.mp hcall
  exact h.join_eq ha hb (Table.mem_of_find? hfound) (by simpa using howner)

/-- The call of `audit_detail` belongs to the tenant who asks. -/
theorem of_detailCall {db : ConsoleDatabase} (huser : isAdmin user = false) {id : String}
    {row : JoinedCall} (h : db.detailCall user id = some row) :
    row.call ∈ db.records.apiCalls ∧ row.call.userId = user.id := by
  obtain ⟨call, hcall, hjoin⟩ := Option.bind_eq_some_iff.mp h
  obtain ⟨hfound, howner⟩ := Option.filter_eq_some_iff.mp hcall
  rw [call_of_join hjoin]
  exact ⟨Table.mem_of_find? hfound, by simpa [huser] using howner⟩

/-- `audit_detail` gives the same answer. -/
theorem SameFor.auditDetail_eq (h : SameFor user.id a b) (huser : isAdmin user = false)
    (ha : a.CallsOwned) (hb : b.CallsOwned) (serde : SerdeJson)
    (fromUtf8Lossy : List UInt8 → String) (id : String) :
    a.auditDetail serde fromUtf8Lossy user id = b.auditDetail serde fromUtf8Lossy user id := by
  unfold ConsoleDatabase.auditDetail
  rw [← h.detailCall huser ha hb id]
  cases hrow : a.detailCall user id with
  | none => rfl
  | some row =>
    obtain ⟨hcall, howner⟩ := of_detailCall huser hrow
    have harchive : a.records.requestArchives.find? row.call.id =
        b.records.requestArchives.find? row.call.id :=
      Table.find?_congr fun archive hkey => h.archives archive ⟨row.call, hcall, hkey.symm, howner⟩
    simp only [harchive, h.navigationRows huser]

end Same

/-- The database has an answer for every filter. -/
theorem exists_audit (db : ConsoleDatabase) (user : UserIdentity) (filters : AuditQuery) :
    ∃ answer, db.Audit user filters answer := by
  have hsorted := orderedBy_mergeSort (fun row : JoinedCall => OrderDual.toDual row.call.createdAt)
    (db.auditMatches filters user)
  exact ⟨_, _, hsorted, rfl⟩

/-- Two answers to one question agree up to the order of calls with one timestamp. -/
theorem Audit.agree {db : ConsoleDatabase} {user : UserIdentity} {filters : AuditQuery}
    {answer answer' : AuditAnswer} (h : db.Audit user filters answer)
    (h' : db.Audit user filters answer') :
    answer.total = answer'.total ∧
      answer.rows.map AuditRow.createdAt = answer'.rows.map AuditRow.createdAt := by
  obtain ⟨rows, hrows, rfl⟩ := h
  obtain ⟨rows', hrows', rfl⟩ := h'
  refine ⟨rfl, ?_⟩
  have htimes : rows.map (fun row => row.call.createdAt) =
      rows'.map fun row => row.call.createdAt :=
    @OrderedBy.map_eq _ _ rows rows' Int (fun x y => y ≤ x) (fun row => row.call.createdAt)
      (fun _ _ hxy hyx => le_antisymm hyx hxy) hrows hrows'
  have hpage : ∀ rows : List JoinedCall,
      ((page filters.rowLimit filters.rowOffset rows).map db.auditRow).map AuditRow.createdAt =
        page filters.rowLimit filters.rowOffset (rows.map fun row => row.call.createdAt) := by
    intro rows
    simp only [page, List.map_map, List.map_take, List.map_drop]
    rfl
  dsimp only
  rw [hpage, hpage, htimes]

/-- **Tenants are isolated**: whatever the consumers, calls and archives of the other users are, a
tenant gets the same answers from `audit` (the same total and the same rows, up to the order of
calls with one timestamp), from `audit_detail` and from `usage_rows`. -/
theorem tenant_isolation {a b : ConsoleDatabase} {user : UserIdentity}
    (huser : isAdmin user = false) (ha : a.CallsOwned) (hb : b.CallsOwned)
    (hsame : SameFor user.id a b) :
    (∀ filters answer, a.Audit user filters answer ↔ b.Audit user filters answer) ∧
      (∀ filters answer answer', a.Audit user filters answer → b.Audit user filters answer' →
        answer.total = answer'.total ∧
          answer.rows.map AuditRow.createdAt = answer'.rows.map AuditRow.createdAt) ∧
        (∀ serde fromUtf8Lossy id, a.auditDetail serde fromUtf8Lossy user id =
          b.auditDetail serde fromUtf8Lossy user id) ∧
          ∀ date since answer,
            a.UsageRows date user since answer ↔ b.UsageRows date user since answer := by
  refine ⟨fun filters answer => hsame.audit_iff huser ha hb filters answer, ?_,
    fun serde fromUtf8Lossy id => hsame.auditDetail_eq huser ha hb serde fromUtf8Lossy id,
    fun date since answer => hsame.usageRows_iff huser ha hb date since answer⟩
  intro filters answer answer' h h'
  exact h.agree ((hsame.audit_iff huser ha hb filters answer').mpr h')

/-- The consumer of a tenant. -/
def tenantConsumer (userId : String) : Consumer where
  id := "key-" ++ userId
  userId := userId
  name := "shared-name"
  keyPrefix := "sk-lb"
  secretHash := "hash-" ++ userId
  requestArchive := false
  createdAt := 0
  lastUsedAt := none
  revokedAt := none

/-- A call of the consumer, in a thread whose name every tenant can choose. -/
def tenantCall (userId : String) (createdAt : Int) : ApiCall :=
  AuditDatabase.callOf
    (.begin ⟨"call-" ++ userId, "shared-request", some "shared-thread", "POST", "/v1/responses",
      "127.0.0.1", createdAt⟩ ⟨"key-" ++ userId, userId, false⟩ false) none

/-- One call of the tenant `a`. -/
def oneTenant : ConsoleDatabase where
  users := ⟨[⟨"a", none, none, "user"⟩, ⟨"b", none, none, "user"⟩], by decide⟩
  providers := Table.empty
  records :=
    { users := ["a", "b"]
      providers := []
      consumers := ⟨[tenantConsumer "a"], by decide⟩
      apiCalls := ⟨[tenantCall "a" 5], by decide⟩
      requestArchives := Table.empty
      secretsUnique := by decide
      consumersReference :=
        show ∀ consumer ∈ [tenantConsumer "a"], consumer.userId ∈ ["a", "b"] by decide
      callsConsumer :=
        show ∀ call ∈ [tenantCall "a" 5], call.consumerId ∈ ["key-a"] by decide
      callsUser := show ∀ call ∈ [tenantCall "a" 5], call.userId ∈ ["a", "b"] by decide
      callsProvider := by
        intro call hcall id hid
        obtain rfl : call = tenantCall "a" 5 := List.mem_singleton.mp hcall
        cases hid
      archivesReference := fun _ h => absurd h (Table.not_mem_empty _) }
  usersKnown := rfl
  providersKnown := rfl

/-- The same with an earlier call of the tenant `b` in a thread of the same name. -/
def twoTenants : ConsoleDatabase where
  users := ⟨[⟨"a", none, none, "user"⟩, ⟨"b", none, none, "user"⟩], by decide⟩
  providers := Table.empty
  records :=
    { users := ["a", "b"]
      providers := []
      consumers := ⟨[tenantConsumer "b", tenantConsumer "a"], by decide⟩
      apiCalls := ⟨[tenantCall "b" 4, tenantCall "a" 5], by decide⟩
      requestArchives := Table.empty
      secretsUnique := by decide
      consumersReference := show ∀ consumer ∈ [tenantConsumer "b", tenantConsumer "a"],
        consumer.userId ∈ ["a", "b"] by decide
      callsConsumer := show ∀ call ∈ [tenantCall "b" 4, tenantCall "a" 5],
        call.consumerId ∈ ["key-b", "key-a"] by decide
      callsUser :=
        show ∀ call ∈ [tenantCall "b" 4, tenantCall "a" 5], call.userId ∈ ["a", "b"] by decide
      callsProvider := by
        intro call hcall id hid
        rcases List.mem_cons.mp hcall with rfl | hcall
        · cases hid
        · obtain rfl : call = tenantCall "a" 5 := List.mem_singleton.mp hcall
          cases hid
      archivesReference := fun _ h => absurd h (Table.not_mem_empty _) }
  usersKnown := rfl
  providersKnown := rfl

/-- The identity of the tenant `a`. -/
def tenantA : UserIdentity := ⟨"a", none, none, "user"⟩

/-- The two databases differ in the records of `b` only. -/
theorem sameFor_tenantA : SameFor tenantA.id oneTenant twoTenants where
  users := fun _ => Iff.rfl
  providers := fun _ => Iff.rfl
  consumers := by
    intro row howner
    constructor
    · exact fun hrow => List.mem_cons_of_mem _ hrow
    · intro hrow
      rcases List.mem_cons.mp hrow with rfl | hrow
      · exact absurd howner (by decide)
      · exact hrow
  calls := by
    intro row howner
    constructor
    · exact fun hrow => List.mem_cons_of_mem _ hrow
    · intro hrow
      rcases List.mem_cons.mp hrow with rfl | hrow
      · exact absurd howner (by decide)
      · exact hrow
  archives := fun _ _ => Iff.rfl

/-- The statement for a tenant without and with the calls of another one. -/
theorem tenant_isolation_twoTenants :
    (∀ filters answer, oneTenant.Audit tenantA filters answer ↔
      twoTenants.Audit tenantA filters answer) ∧
      (∀ serde fromUtf8Lossy id, oneTenant.auditDetail serde fromUtf8Lossy tenantA id =
        twoTenants.auditDetail serde fromUtf8Lossy tenantA id) ∧
        ∀ date since answer, oneTenant.UsageRows date tenantA since answer ↔
          twoTenants.UsageRows date tenantA since answer := by
  have hone : oneTenant.CallsOwned :=
    show ∀ call ∈ [tenantCall "a" 5], ∀ consumer ∈ [tenantConsumer "a"],
      consumer.id = call.consumerId → consumer.userId = call.userId by decide
  have htwo : twoTenants.CallsOwned :=
    show ∀ call ∈ [tenantCall "b" 4, tenantCall "a" 5],
      ∀ consumer ∈ [tenantConsumer "b", tenantConsumer "a"],
        consumer.id = call.consumerId → consumer.userId = call.userId by decide
  obtain ⟨haudit, -, hdetail, husage⟩ :=
    tenant_isolation (show isAdmin tenantA = false by decide) hone htwo sameFor_tenantA
  exact ⟨haudit, hdetail, husage⟩

/-- The call that the tenant `a` makes in a second, with two models in turn. -/
def callAt (second : ℕ) : ApiCall :=
  { tenantCall "a" second with
    id := String.ofList (List.replicate second 'c')
    model := some (if second % 2 = 0 then "gpt-5" else "gpt-5-mini")
    inputTokens := 100
    costUsdNanos := some 7 }

/-- The calls of different seconds have different ids. -/
theorem id_callAt_injective : Function.Injective fun second => (callAt second).id := by
  intro m n h
  have hlists := congrArg String.toList h
  simp only [callAt, String.toList_ofList] at hlists
  simpa using congrArg List.length hlists

/-- One call of the tenant `a` in each of the first seconds. -/
def busyTenant (n : ℕ) : ConsoleDatabase where
  users := ⟨[⟨"a", none, none, "user"⟩], by decide⟩
  providers := Table.empty
  records :=
    { users := ["a"]
      providers := []
      consumers := ⟨[tenantConsumer "a"], by decide⟩
      apiCalls := ⟨(List.range n).map callAt, by
        rw [List.map_map]
        exact List.nodup_range.map id_callAt_injective⟩
      requestArchives := Table.empty
      secretsUnique := by decide
      consumersReference :=
        show ∀ consumer ∈ [tenantConsumer "a"], consumer.userId ∈ ["a"] by decide
      callsConsumer := by
        intro call hcall
        obtain ⟨second, -, rfl⟩ := List.mem_map.mp hcall
        exact List.mem_singleton_self _
      callsUser := by
        intro call hcall
        obtain ⟨second, -, rfl⟩ := List.mem_map.mp hcall
        exact List.mem_singleton_self _
      callsProvider := by
        intro call hcall id hid
        obtain ⟨second, -, rfl⟩ := List.mem_map.mp hcall
        cases hid
      archivesReference := fun _ h => absurd h (Table.not_mem_empty _) }
  usersKnown := rfl
  providersKnown := rfl

end ConsoleDatabase

end OpenAiLb
