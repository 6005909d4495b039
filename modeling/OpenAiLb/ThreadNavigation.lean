import OpenAiLb.Library.Links
import OpenAiLb.TenantScope

/-!
# Walking along a thread

The detail of a call names the calls before and after it. Whoever sees a call can go on to its
neighbours and finds the way back there, and following the links from the first call visits each
visible call of the thread and of the consumer once, in the order of time.
-/

namespace OpenAiLb

/-- How the neighbours of a call name it. -/
def ApiCall.neighbour (call : ApiCall) : Neighbour := ⟨call.id, call.requestId, call.createdAt⟩

/-- How the neighbours of a call name it, as its own detail shows it. -/
def AuditDetail.neighbour (detail : AuditDetail) : Neighbour :=
  ⟨detail.id, detail.requestId, detail.createdAt⟩

/-- The order of the navigation is transitive. -/
theorem Neighbour.before_trans {x y z : Neighbour} (hxy : x.before y = true)
    (hyz : y.before z = true) : x.before z = true := by
  rw [Neighbour.before_iff] at hxy hyz ⊢
  rcases hxy with hxy | ⟨hxy, hid⟩
  · rcases hyz with hyz | ⟨hyz, -⟩
    · exact .inl (by omega)
    · exact .inl (by omega)
  · rcases hyz with hyz | ⟨hyz, hid'⟩
    · exact .inl (by omega)
    · exact .inr ⟨by omega, hid.trans hid'⟩

/-- Any two calls are in order one way or the other. -/
theorem Neighbour.before_total (x y : Neighbour) : (x.before y || y.before x) = true := by
  rw [Bool.or_eq_true, Neighbour.before_iff, Neighbour.before_iff]
  rcases lt_trichotomy x.createdAt y.createdAt with hlt | heq | hgt
  · exact .inl (.inl hlt)
  · rcases le_total x.id y.id with hle | hle
    · exact .inl (.inr ⟨heq, hle⟩)
    · exact .inr (.inr ⟨heq.symm, hle⟩)
  · exact .inr (.inl hgt)

namespace ConsoleDatabase

section Rows

variable {db : ConsoleDatabase} {user : UserIdentity} {threadId consumerId : String}

/-- The user may see the call. -/
def Visible (user : UserIdentity) (call : ApiCall) : Bool := isAdmin user || call.userId = user.id

/-- The visible calls of a thread and of a consumer. -/
def threadCalls (db : ConsoleDatabase) (user : UserIdentity) (threadId consumerId : String) :
    List ApiCall :=
  db.records.apiCalls.rows.filter fun call =>
    call.threadId = some threadId && call.consumerId = consumerId && Visible user call

/-- The calls of a thread are those of the consumer that the reader may see. -/
theorem mem_threadCalls {call : ApiCall} : call ∈ db.threadCalls user threadId consumerId ↔
    call ∈ db.records.apiCalls ∧ call.threadId = some threadId ∧ call.consumerId = consumerId ∧
      Visible user call = true := by
  simp [threadCalls, and_assoc]

/-- The navigation goes through the calls of the thread. -/
theorem navigationRows_perm (db : ConsoleDatabase) (user : UserIdentity)
    (threadId consumerId : String) : (db.navigationRows user threadId consumerId).Perm
      ((db.threadCalls user threadId consumerId).map ApiCall.neighbour) :=
  List.mergeSort_perm ..

/-- A visible call of a thread is among the rows of its navigation. -/
theorem neighbour_mem {call : ApiCall} (hcall : call ∈ db.records.apiCalls)
    (hthread : call.threadId = some threadId) (hvisible : Visible user call = true) :
    call.neighbour ∈ db.navigationRows user threadId call.consumerId :=
  (db.navigationRows_perm user threadId call.consumerId).mem_iff.mpr
    (List.mem_map_of_mem (mem_threadCalls.mpr ⟨hcall, hthread, rfl, hvisible⟩))

/-- The rows of the navigation come in the order of time. -/
theorem navigationRows_sorted (db : ConsoleDatabase) (user : UserIdentity)
    (threadId consumerId : String) :
    (db.navigationRows user threadId consumerId).Pairwise fun x y => x.before y = true :=
  @List.pairwise_mergeSort _ Neighbour.before (fun _ _ _ => Neighbour.before_trans)
    Neighbour.before_total _

/-- No call comes twice. -/
theorem navigationRows_nodup (db : ConsoleDatabase) (user : UserIdentity)
    (threadId consumerId : String) :
    ((db.navigationRows user threadId consumerId).map Neighbour.id).Nodup := by
  refine ((db.navigationRows_perm user threadId consumerId).map Neighbour.id).nodup_iff.mpr ?_
  rw [List.map_map]
  exact db.records.apiCalls.nodup.sublist (List.filter_sublist.map ApiCall.id)

end Rows

end ConsoleDatabase

section Neighbours

variable {rows : List Neighbour} {i : ℕ} {row : Neighbour}

/-- A row of different rows has the ones before and after it as its neighbours. -/
theorem neighbours_getElem (hnodup : (rows.map Neighbour.id).Nodup) (hi : rows[i]? = some row) :
    neighbours rows row.id = (if i = 0 then none else rows[i - 1]?, rows[i + 1]?) := by
  obtain ⟨hlt, hget⟩ := List.getElem?_eq_some_iff.mp hi
  have hfind : rows.findIdx? (fun other => other.id = row.id) = some i := by
    rw [List.findIdx?_eq_some_iff_getElem]
    refine ⟨hlt, by simp [hget], fun j hj hsame => ?_⟩
    have hsame : rows[j].id = rows[i].id := by simpa [hget] using hsame
    have hji : j = i := by
      refine (List.nodup_iff_injective_getElem.mp hnodup |> fun h =>
        Fin.mk.inj_iff.mp (@h ⟨j, by simpa using hj.trans hlt⟩ ⟨i, by simpa using hlt⟩ ?_))
      simpa using hsame
    omega
  unfold neighbours
  rw [hfind]

end Neighbours

namespace ConsoleDatabase

section Details

variable (db : ConsoleDatabase) (serde : SerdeJson) (fromUtf8Lossy : List UInt8 → String)
  (user : UserIdentity)

/-- The rows that the navigation of a call looks at. -/
def navigationOf (call : ApiCall) : List Neighbour :=
  call.threadId.elim [] fun threadId => db.navigationRows user threadId call.consumerId

variable {db serde fromUtf8Lossy user} {call : ApiCall} {id : String} {detail : AuditDetail}

/-- A visible call has a detail. -/
theorem detail_of_call (hcall : call ∈ db.records.apiCalls) (hvisible : Visible user call = true) :
    ∃ detail, db.auditDetail serde fromUtf8Lossy user call.id = .ok detail ∧
      detail.neighbour = call.neighbour ∧ detail.threadId = call.threadId ∧
      (detail.previous, detail.next) = neighbours (db.navigationOf user call) call.id := by
  obtain ⟨consumer, hconsumer⟩ := Option.isSome_iff_exists.mp
    (Table.find?_isSome_iff.mpr (db.records.callsConsumer call hcall))
  have hrow : db.detailCall user call.id =
      some ⟨call, consumer, call.providerId.bind db.providers.find?⟩ := by
    have hseen : (isAdmin user || call.userId = user.id) = true := hvisible
    unfold detailCall join
    rw [Table.find?_of_mem hcall, Option.filter_some, if_pos hseen, Option.bind_some, hconsumer]
    rfl
  unfold auditDetail
  rw [hrow]
  exact ⟨_, rfl, rfl, rfl, rfl⟩

/-- A detail is the one of a visible call. -/
theorem call_of_detail (h : db.auditDetail serde fromUtf8Lossy user id = .ok detail) :
    ∃ call ∈ db.records.apiCalls, call.id = id ∧ Visible user call = true := by
  unfold auditDetail at h
  cases hrow : db.detailCall user id with
  | none =>
    rw [hrow] at h
    cases h
  | some row =>
    obtain ⟨call, hcall, -⟩ := Option.bind_eq_some_iff.mp hrow
    obtain ⟨hfound, hvisible⟩ := Option.filter_eq_some_iff.mp hcall
    obtain ⟨hmem, hid⟩ := Table.find?_eq_some_iff.mp hfound
    exact ⟨call, hmem, hid, hvisible⟩

/-- The link to the next call. -/
def nextCall (db : ConsoleDatabase) (serde : SerdeJson) (fromUtf8Lossy : List UInt8 → String)
    (user : UserIdentity) (id : String) : Option String :=
  match db.auditDetail serde fromUtf8Lossy user id with
  | .ok detail => detail.next.map Neighbour.id
  | .error _ => none

/-- The rows of one thread and consumer, and what the detail of each of them shows. -/
theorem detail_of_row {threadId consumerId : String} {i : ℕ} {row : Neighbour}
    (hi : (db.navigationRows user threadId consumerId)[i]? = some row) :
    ∃ detail, db.auditDetail serde fromUtf8Lossy user row.id = .ok detail ∧
      detail.neighbour = row ∧ detail.threadId = some threadId ∧
      detail.previous =
        (if i = 0 then none else (db.navigationRows user threadId consumerId)[i - 1]?) ∧
      detail.next = (db.navigationRows user threadId consumerId)[i + 1]? := by
  obtain ⟨call, hcall, rfl⟩ := List.mem_map.mp
    ((db.navigationRows_perm user threadId consumerId).mem_iff.mp (List.mem_of_getElem? hi))
  obtain ⟨hmem, hthread, rfl, hvisible⟩ := mem_threadCalls.mp hcall
  obtain ⟨detail, hdetail, hself, hsame, hlinks⟩ :=
    @detail_of_call db serde fromUtf8Lossy user call hmem hvisible
  have hrows : db.navigationOf user call = db.navigationRows user threadId call.consumerId := by
    unfold navigationOf
    rw [hthread]
    rfl
  have hnodup := db.navigationRows_nodup user threadId call.consumerId
  rw [hrows] at hlinks
  have hneighbours := hlinks.trans (neighbours_getElem hnodup hi)
  exact ⟨detail, hdetail, hself, hsame.trans hthread, congrArg Prod.fst hneighbours,
    congrArg Prod.snd hneighbours⟩

/-- A neighbour in the detail of a call is a row of the navigation, next to the one of the call. -/
theorem row_of_detail (h : db.auditDetail serde fromUtf8Lossy user id = .ok detail) :
    (detail.previous = none ∧ detail.next = none ∧ detail.threadId = none) ∨
      ∃ threadId consumerId i, detail.threadId = some threadId ∧
        (db.navigationRows user threadId consumerId)[i]? = some detail.neighbour ∧
        detail.previous =
          (if i = 0 then none else (db.navigationRows user threadId consumerId)[i - 1]?) ∧
        detail.next = (db.navigationRows user threadId consumerId)[i + 1]? := by
  obtain ⟨call, hcall, rfl, hvisible⟩ := call_of_detail h
  obtain ⟨found, hfound, -, hsame, hlinks⟩ :=
    @detail_of_call db serde fromUtf8Lossy user call hcall hvisible
  obtain rfl := Except.ok.inj (hfound.symm.trans h)
  cases hthread : call.threadId with
  | none =>
    have hnone : neighbours (db.navigationOf user call) call.id = (none, none) := by
      unfold navigationOf
      rw [hthread]
      rfl
    rw [hnone] at hlinks
    exact .inl ⟨congrArg Prod.fst hlinks, congrArg Prod.snd hlinks, hsame.trans hthread⟩
  | some threadId =>
    obtain ⟨i, hi⟩ := List.mem_iff_getElem?.mp (neighbour_mem hcall hthread hvisible)
    obtain ⟨shown, hshown, hself, hthread', hprevious, hnext⟩ :=
      @detail_of_row db serde fromUtf8Lossy user threadId call.consumerId i call.neighbour hi
    obtain rfl := Except.ok.inj (hfound.symm.trans hshown)
    exact .inr ⟨threadId, call.consumerId, i, hthread', hself ▸ hi, hprevious, hnext⟩

/-- The next call leads back. -/
theorem previous_of_next {next : Neighbour}
    (h : db.auditDetail serde fromUtf8Lossy user id = .ok detail)
    (hnext : detail.next = some next) :
    ∃ other, db.auditDetail serde fromUtf8Lossy user next.id = .ok other ∧
      other.neighbour = next ∧ other.threadId = detail.threadId ∧
      other.previous = some detail.neighbour := by
  rcases row_of_detail h with ⟨-, hnone, -⟩ | ⟨threadId, consumerId, i, hthread, hrow, -, hlink⟩
  · rw [hnone] at hnext
    cases hnext
  · rw [hlink] at hnext
    obtain ⟨other, hother, hself, hsame, hprevious, -⟩ :=
      @detail_of_row db serde fromUtf8Lossy user threadId consumerId (i + 1) next hnext
    refine ⟨other, hother, hself, hsame.trans hthread.symm, ?_⟩
    rw [hprevious, if_neg (Nat.succ_ne_zero i), Nat.add_sub_cancel, hrow]

/-- The previous call leads on to this one. -/
theorem next_of_previous {previous : Neighbour}
    (h : db.auditDetail serde fromUtf8Lossy user id = .ok detail)
    (hprevious : detail.previous = some previous) :
    ∃ other, db.auditDetail serde fromUtf8Lossy user previous.id = .ok other ∧
      other.neighbour = previous ∧ other.threadId = detail.threadId ∧
      other.next = some detail.neighbour := by
  rcases row_of_detail h with ⟨hnone, -, -⟩ | ⟨threadId, consumerId, i, hthread, hrow, hlink, -⟩
  · rw [hnone] at hprevious
    cases hprevious
  · rw [hlink] at hprevious
    obtain ⟨hi, hprevious⟩ : i ≠ 0 ∧
        (db.navigationRows user threadId consumerId)[i - 1]? = some previous := by
      by_cases hi : i = 0
      · rw [if_pos hi] at hprevious
        cases hprevious
      · exact ⟨hi, by rwa [if_neg hi] at hprevious⟩
    obtain ⟨other, hother, hself, hsame, -, hnext⟩ :=
      @detail_of_row db serde fromUtf8Lossy user threadId consumerId (i - 1) previous hprevious
    refine ⟨other, hother, hself, hsame.trans hthread.symm, ?_⟩
    rw [hnext, Nat.sub_add_cancel (Nat.pos_of_ne_zero hi), hrow]

/-- The links lead through the rows of the navigation. -/
theorem walk_navigationRows {threadId consumerId : String} {i fuel : ℕ} {row : Neighbour}
    (hi : (db.navigationRows user threadId consumerId)[i]? = some row)
    (hfuel : (db.navigationRows user threadId consumerId).length ≤ fuel + i) :
    Links.walk (db.nextCall serde fromUtf8Lossy user) fuel row.id =
      ((db.navigationRows user threadId consumerId).map Neighbour.id).drop i := by
  refine Links.walk_eq_drop (fun j id hj => ?_) (by rw [List.getElem?_map, hi]; rfl)
    (by rwa [List.length_map])
  rw [List.getElem?_map] at hj
  obtain ⟨found, hfound, rfl⟩ := Option.map_eq_some_iff.mp hj
  obtain ⟨shown, hshown, -, -, -, hnext⟩ :=
    @detail_of_row db serde fromUtf8Lossy user threadId consumerId j found hfound
  unfold nextCall
  rw [hshown, List.getElem?_map]
  exact congrArg (Option.map Neighbour.id) hnext

/-- The visible calls that a call is read among: those of its thread, or the call alone. -/
def callsAround (db : ConsoleDatabase) (user : UserIdentity) (call : ApiCall) : List ApiCall :=
  match call.threadId with
  | some threadId => db.threadCalls user threadId call.consumerId
  | none => [call]

/-- From a call without a previous one the links lead through all calls around it. -/
theorem walk_callsAround (hcall : call ∈ db.records.apiCalls)
    (hvisible : Visible user call = true)
    (h : db.auditDetail serde fromUtf8Lossy user call.id = .ok detail)
    (hprevious : detail.previous = none) :
    ∃ rows, OrderedBy (fun x y => x.before y = true)
        ((db.callsAround user call).map ApiCall.neighbour) rows ∧
      ∀ fuel ≥ db.records.apiCalls.rows.length,
        Links.walk (db.nextCall serde fromUtf8Lossy user) fuel call.id =
          rows.map Neighbour.id := by
  obtain ⟨found, hfound, -, -, hlinks⟩ :=
    @detail_of_call db serde fromUtf8Lossy user call hcall hvisible
  obtain rfl := Except.ok.inj (hfound.symm.trans h)
  have hsome : 0 < db.records.apiCalls.rows.length :=
    List.length_pos_of_mem (a := call) hcall
  cases hthread : call.threadId with
  | none =>
    unfold callsAround navigationOf at *
    rw [hthread] at hlinks ⊢
    refine ⟨[call.neighbour], ⟨.refl _, List.pairwise_singleton ..⟩, fun fuel hfuel => ?_⟩
    obtain ⟨fuel, rfl⟩ := Nat.exists_eq_add_of_lt (hsome.trans_le hfuel)
    have hnext : found.next = none := congrArg Prod.snd hlinks
    have hlast : db.nextCall serde fromUtf8Lossy user call.id = none := by
      unfold nextCall
      rw [h]
      exact congrArg (Option.map Neighbour.id) hnext
    rw [Nat.zero_add, Links.walk, hlast]
    rfl
  | some threadId =>
    have hrows : db.callsAround user call = db.threadCalls user threadId call.consumerId := by
      unfold callsAround
      rw [hthread]
    obtain ⟨i, hi⟩ := List.mem_iff_getElem?.mp (neighbour_mem hcall hthread hvisible)
    obtain ⟨shown, hshown, -, -, hfirst, -⟩ :=
      @detail_of_row db serde fromUtf8Lossy user threadId call.consumerId i call.neighbour hi
    obtain rfl := Except.ok.inj (hfound.symm.trans hshown)
    obtain rfl : i = 0 := by
      by_contra hpos
      have hlt := (List.getElem?_eq_some_iff.mp hi).1
      rw [hprevious, if_neg hpos, List.getElem?_eq_getElem (by omega)] at hfirst
      cases hfirst
    refine ⟨db.navigationRows user threadId call.consumerId,
      ⟨hrows ▸ db.navigationRows_perm user threadId call.consumerId,
        db.navigationRows_sorted user threadId call.consumerId⟩, fun fuel hfuel => ?_⟩
    have hlength : (db.navigationRows user threadId call.consumerId).length ≤ fuel := by
      calc (db.navigationRows user threadId call.consumerId).length
          = (db.threadCalls user threadId call.consumerId).length := by
            rw [(db.navigationRows_perm user threadId call.consumerId).length_eq, List.length_map]
        _ ≤ db.records.apiCalls.rows.length := List.length_filter_le _ _
        _ ≤ fuel := hfuel
    exact walk_navigationRows hi (by omega)

end Details

section Links

variable (db : ConsoleDatabase) (serde : SerdeJson) (fromUtf8Lossy : List UInt8 → String)
  (user : UserIdentity)

/-- **The links between calls.** The next call of a detail has a detail of its own, of the same
thread, and leads back; so does the previous call. From a call without a previous one the links
lead through each visible call of its thread and consumer once, in the order of time. -/
theorem navigation_links :
    (∀ id detail next, db.auditDetail serde fromUtf8Lossy user id = .ok detail →
      detail.next = some next →
      ∃ other, db.auditDetail serde fromUtf8Lossy user next.id = .ok other ∧
        other.neighbour = next ∧ other.threadId = detail.threadId ∧
        other.previous = some detail.neighbour) ∧
    (∀ id detail previous, db.auditDetail serde fromUtf8Lossy user id = .ok detail →
      detail.previous = some previous →
      ∃ other, db.auditDetail serde fromUtf8Lossy user previous.id = .ok other ∧
        other.neighbour = previous ∧ other.threadId = detail.threadId ∧
        other.next = some detail.neighbour) ∧
    ∀ call ∈ db.records.apiCalls, Visible user call = true → ∀ detail,
      db.auditDetail serde fromUtf8Lossy user call.id = .ok detail → detail.previous = none →
      ∃ rows, OrderedBy (fun x y => x.before y = true)
          ((db.callsAround user call).map ApiCall.neighbour) rows ∧
        ∀ fuel ≥ db.records.apiCalls.rows.length,
          Links.walk (db.nextCall serde fromUtf8Lossy user) fuel call.id =
            rows.map Neighbour.id := by
  refine ⟨fun id detail next => previous_of_next, fun id detail previous => next_of_previous,
    fun call hcall hvisible detail hdetail hprevious => ?_⟩
  exact walk_callsAround hcall hvisible hdetail hprevious

end Links

end ConsoleDatabase

end OpenAiLb
