import OpenAiLb.ArchivePayloads
import OpenAiLb.Library.Tasks

/-!
# The capacity of the archive memory

Free permits and the shares of all calls add up to the capacity, in every order of steps of
the calls and of the writer. So the capacity is respected as long as each call keeps to its
share, and a call keeps to its share exactly if its headers fit.
-/

namespace OpenAiLb

namespace ArchiveNode

variable {serde : SerdeJson} {s t : ArchiveNode}

/-- **The invariant of the node**: free permits and shares add up, and the places are bounded. -/
structure Sound (serde : SerdeJson) (s : ArchiveNode) : Prop where
  calls : ∀ (i : ℕ) (call : ArchivingCall), s.calls[i]? = some call → call.Sound serde
  account : s.budget.permits + Shares.total (fun call => call.phase.permits) s.calls =
    queueByteCapacity
  places : s.places ≤ queueCapacity
  batched : s.batched ≤ batchCapacity

/-- Nothing has been archived at the start. -/
theorem sound_start (serde : SerdeJson) : start.Sound serde where
  calls := by
    rintro i call ⟨⟩
  account := rfl
  places := Nat.zero_le _
  batched := Nat.zero_le _

namespace Sound

/-- **One call moves**: the invariant is kept if it is kept of the call, the permits that the call
no longer holds are free, and the call takes no place that is not there. -/
theorem move (h : s.Sound serde) {i : ℕ} {old new : ArchivingCall} (hold : s.call i = some old)
    (hnew : new.Sound serde) {budget : Semaphore}
    (hbudget : budget.permits + new.phase.permits = s.budget.permits + old.phase.permits)
    (hplace : new.phase.place ≤ old.phase.place)
    (hbatched : new.phase.batched ≤ old.phase.batched ∨
      s.batched < batchCapacity ∧ new.phase.batched ≤ 1) :
    ArchiveNode.Sound serde ⟨budget, s.calls.set i new⟩ := by
  have haccount := h.account
  have hplaces := h.places
  have hbatch := h.batched
  unfold ArchiveNode.places at hplaces
  unfold ArchiveNode.batched at hbatch hbatched
  refine ⟨Tasks.forall_set (p := fun _ call => call.Sound serde) h.calls hold hnew, ?_, ?_, ?_⟩
  · have htotal := Shares.total_set (fun call => call.phase.permits) new hold
    dsimp only at htotal ⊢
    omega
  · have htotal := Shares.total_set (fun call => call.phase.place) new hold
    unfold ArchiveNode.places
    dsimp only at htotal ⊢
    omega
  · have htotal := Shares.total_set (fun call => call.phase.batched) new hold
    unfold ArchiveNode.batched
    dsimp only at htotal ⊢
    omega

/-- A call goes on with the same share and the same place. -/
theorem keep (h : s.Sound serde) {i : ℕ} {old new : ArchivingCall} (hold : s.call i = some old)
    (hnew : new.Sound serde) (hbudget : new.phase.budget = old.phase.budget)
    (hplace : new.phase.place = old.phase.place) (hbatched : new.phase.batched = 0) :
    (s.enter i new.phase new.handed).Sound serde := by
  have hpermits : new.phase.permits = old.phase.permits := by
    rw [ArchivePhase.permits, hbudget, ArchivePhase.permits]
  refine h.move hold hnew ?_ (le_of_eq hplace) (.inl ?_)
  · rw [hpermits]
  · rw [hbatched]
    exact Nat.zero_le _

/-- A call that ends gives its share back. -/
theorem release (h : s.Sound serde) {i : ℕ} {old : ArchivingCall} (hold : s.call i = some old)
    (handed : Handed) : ArchiveNode.Sound serde
      { s.enter i .gone handed with budget := s.budget.release old.phase.budget } :=
  h.move hold (.gone serde handed) rfl (Nat.zero_le _) (.inl (Nat.zero_le _))

/-- **The owner of an event ends**: the event that it sends holds what was handed over, and takes
the share along. -/
theorem leave (h : s.Sound serde) {i : ℕ} {old : ArchivingCall} (hold : s.call i = some old)
    (hbatched : old.phase.batched = 0) {sent : Except Panic (List QueuedEvent)}
    (hsent : ∀ queued, sent = .ok [queued] → queued.archiveBudget = old.phase.budget ∧
      old.phase.event.isSome = true ∧ queued.event.Backed serde old.handed old.phase.budget []) :
    (s.leave i old.handed old.phase.budget sent).Sound serde := by
  unfold ArchiveNode.leave
  split
  · next queued =>
    obtain ⟨hbudget, hevent, hbacked⟩ := hsent queued rfl
    have hcall := h.calls i old hold
    have hplaced := hcall.placed hevent
    have hnew : ArchivingCall.Sound serde ⟨.queued queued, old.handed⟩ := by
      refine .queued ?_ ?_
      · rw [hbudget]
        exact hcall.reserved
      · rw [hbudget]
        exact hbacked
    refine h.move hold hnew ?_ ?_ (.inl (Nat.zero_le _))
    · rw [ArchivePhase.permits, ArchivePhase.permits]
      exact congrArg (fun held => s.budget.permits + held.elim 0 OwnedSemaphorePermit.permits)
        hbudget
    · exact le_of_eq (by rw [hbatched] at hplaced; exact hplaced.symm)
  · exact h.release hold old.handed

/-- A new call acquires its share from the free permits. -/
theorem begin (h : s.Sound serde) {queue : Bool} (hqueue : queue = true → s.places < queueCapacity)
    (identity : ApiIdentity) (call : CallStart) (started : ℕ) :
    (s.begin queue identity call started).Sound serde := by
  have haccount := h.account
  have hplaces := h.places
  unfold ArchiveNode.begin
  dsimp only
  generalize hacquired : s.budget.tryAcquireMany archiveReservationBytes = acquired
  have hbudget := AuditTracker.archiveBudget_begin ⟨queue, acquired.isSome⟩ identity call started
  have hplace : (AuditTracker.begin ⟨queue, acquired.isSome⟩ identity call started).permit.elim 0
      (fun _ => 1) = if queue then 1 else 0 := by
    cases queue <;> rfl
  have hcall := ArchivingCall.Sound.begin serde ⟨queue, acquired.isSome⟩ identity call started
  generalize AuditTracker.begin ⟨queue, acquired.isSome⟩ identity call started = audit at *
  have hcalls := Tasks.forall_start (p := fun _ (call : ArchivingCall) => call.Sound serde)
    h.calls hcall
  refine ⟨hcalls, ?_, ?_, ?_⟩
  · rw [Shares.total_append, Shares.total_cons, Shares.total_nil]
    change _ + (_ + (audit.archiveBudget.elim 0 OwnedSemaphorePermit.permits + 0)) = _
    rw [hbudget]
    cases acquired with
    | none => simpa using haccount
    | some taken =>
      have htaken := Semaphore.permits_of_tryAcquireMany hacquired
      split
      · change taken.2.permits + (_ + (archiveReservationBytes + 0)) = _
        omega
      · exact haccount
  · unfold ArchiveNode.places at hplaces hqueue ⊢
    rw [Shares.total_append, Shares.total_cons, Shares.total_nil]
    change _ + (audit.permit.elim 0 (fun _ => 1) + 0) ≤ _
    rw [hplace]
    split
    · next hreserved =>
      have hfree := hqueue hreserved
      omega
    · exact hplaces
  · have hbatched := h.batched
    unfold ArchiveNode.batched at hbatched ⊢
    rw [Shares.total_append, Shares.total_cons, Shares.total_nil]
    exact hbatched

end Sound

variable {a : ArchiveStep}

/-- **Every step keeps the invariant.** -/
theorem sound_step (h : s.Sound serde) (hstep : s.step serde a = some t) : t.Sound serde := by
  cases a with
  | begin queue identity call started =>
    simp only [step] at hstep
    split at hstep
    · cases hstep
    · next hplace =>
      cases hstep
      refine h.begin (fun hqueue => ?_) identity call started
      simpa [hqueue] using hplace
  | perform i update =>
    simp only [step] at hstep
    split at hstep
    · next audit handed hcall =>
      cases hstep
      obtain ⟨hpermit, hbudget, -⟩ := audit.custody_perform serde update
      exact h.keep hcall ((h.calls i _ hcall).perform update) hbudget
        (congrArg (fun permit => permit.elim 0 fun _ => 1) hpermit) rfl
    · cases hstep
  | finish i status model usage error now =>
    simp only [step] at hstep
    split at hstep
    · next audit handed hcall =>
      cases hstep
      exact h.leave hcall rfl
        ((h.calls i _ hcall).sent_of_tracked fun event final hfinal => payload_of_settle hfinal)
    · cases hstep
  | takeStream i status model =>
    simp only [step] at hstep
    split at hstep
    · next audit handed hcall =>
      split at hstep
      · next hbody =>
        cases hstep
        have hnew := (h.calls i _ hcall).takeStream hbody status model
        exact h.keep hcall hnew rfl rfl rfl
      · cases hstep
    · cases hstep
  | capture i bytes =>
    simp only [step] at hstep
    split at hstep
    · next completion pending handed hcall =>
      cases hstep
      have hcustody := StreamCompletion.toCustody_captureSse serde completion pending bytes
      exact h.keep hcall ((h.calls i _ hcall).capture bytes)
        (congrArg Custody.archiveBudget hcustody)
        (congrArg (fun custody => custody.permit.elim 0 fun _ => 1) hcustody) rfl
    · cases hstep
  | finishStream i failed now =>
    simp only [step] at hstep
    split at hstep
    · next completion pending handed hcall =>
      cases hstep
      exact h.leave hcall rfl ((h.calls i _ hcall).sent_of_streamed fun event final hfinal =>
        ⟨_, _, payload_of_settle hfinal⟩)
    · cases hstep
  | drop i now =>
    simp only [step] at hstep
    split at hstep
    · next audit handed hcall =>
      cases hstep
      exact h.leave hcall rfl
        ((h.calls i _ hcall).sent_of_tracked fun event final hfinal =>
          (payload_of_settle hfinal).trans rfl)
    · next completion pending handed hcall =>
      cases hstep
      exact h.leave hcall rfl ((h.calls i _ hcall).sent_of_streamed fun event final hfinal =>
        ⟨_, _, payload_of_settle hfinal⟩)
    · cases hstep
  | receive i =>
    simp only [step] at hstep
    split at hstep
    · next queued handed hcall =>
      split at hstep
      · next hbatch =>
        cases hstep
        exact h.move hcall (h.calls i _ hcall).write rfl (Nat.zero_le _)
          (.inr ⟨hbatch, Nat.le_refl _⟩)
      · cases hstep
    · cases hstep
  | discard i =>
    simp only [step] at hstep
    split at hstep
    · next queued handed hcall =>
      cases hstep
      exact h.release hcall handed
    · cases hstep

/-- Every event with a share keeps to what its permit reserved. -/
def WithinReservations (s : ArchiveNode) : Prop :=
  ∀ call ∈ s.calls, ∀ permit, call.phase.budget = some permit →
    permit.permits = archiveReservationBytes ∧ call.phase.bytes ≤ permit.permits

/-- What was handed over for every event with a share fits. -/
def HandedFits (serde : SerdeJson) (s : ArchiveNode) : Prop :=
  ∀ call ∈ s.calls, call.phase.budget.isSome = true → call.handed.Fits serde

/-- An event without a share holds nothing but placeholders. -/
def PlainBare (s : ArchiveNode) : Prop :=
  ∀ call ∈ s.calls, call.phase.budget = none →
    call.phase.preview = [] ∧ ∀ event, call.phase.event = some event → event.payload.Bare

namespace Sound

/-- In a sound state each call is sound. -/
theorem sound_of_mem (h : s.Sound serde) {call : ArchivingCall} (hmem : call ∈ s.calls) :
    call.Sound serde := by
  obtain ⟨i, hi⟩ := List.mem_iff_getElem?.mp hmem
  exact h.calls i call hi

/-- In a sound state the reservations are kept exactly if what was handed over fits. -/
theorem withinReservations_iff (h : s.Sound serde) : s.WithinReservations ↔ s.HandedFits serde := by
  constructor
  · intro hwithin call hmem hbudget
    obtain ⟨permit, hpermit⟩ := Option.isSome_iff_exists.mp hbudget
    obtain ⟨hpermits, hle⟩ := hwithin call hmem permit hpermit
    exact ((h.sound_of_mem hmem).bytes_le_iff hbudget).mp (hpermits ▸ hle)
  · intro hfits call hmem permit hpermit
    have hbudget : call.phase.budget.isSome = true := by rw [hpermit]; rfl
    have hpermits := (h.sound_of_mem hmem).reserved permit hpermit
    refine ⟨hpermits, ?_⟩
    rw [hpermits]
    exact ((h.sound_of_mem hmem).bytes_le_iff hbudget).mpr (hfits call hmem hbudget)

/-- In a sound state an event without a share holds nothing but placeholders. -/
theorem plainBare (h : s.Sound serde) : s.PlainBare := by
  intro call hmem hbudget
  have hcall := h.sound_of_mem hmem
  refine ⟨?_, (hcall.bytes_of_plain hbudget).1⟩
  cases hevent : call.phase.event with
  | none => exact (hcall.unowned hevent).2
  | some event =>
    have hbacked := hcall.backed event hevent
    rw [hbudget] at hbacked
    exact (hbacked.plain hbacked.flag).2

/-- The bytes of a call are covered by its share and its places. -/
theorem bytes_le (h : s.Sound serde) (hfits : s.HandedFits serde) {call : ArchivingCall}
    (hmem : call ∈ s.calls) :
    call.phase.bytes ≤ call.phase.permits + 2 * (call.phase.place + call.phase.batched) := by
  have hcall := h.sound_of_mem hmem
  cases hbudget : call.phase.budget with
  | none =>
    have hplain := (hcall.bytes_of_plain hbudget).2
    omega
  | some permit =>
    have hisSome : call.phase.budget.isSome = true := by rw [hbudget]; rfl
    have hle := (hcall.bytes_le_iff hisSome).mpr (hfits call hmem hisSome)
    have hpermits := hcall.permits_eq
    rw [if_pos hisSome] at hpermits
    omega

/-- **The capacity**: at most 31 reservations fit into it, and what is left is more than all
placeholders. -/
theorem bytes_le_capacity (h : s.Sound serde) (hfits : s.HandedFits serde) :
    s.bytes ≤ queueByteCapacity := by
  have hbytes : s.bytes ≤ Shares.total (fun call => call.phase.permits) s.calls +
      2 * (s.places + s.batched) := by
    have hle := Shares.total_le_total fun call hmem => h.bytes_le hfits hmem
    rw [Shares.total_add, Shares.total_mul, Shares.total_add] at hle
    exact hle
  have hpermits : Shares.total (fun call => call.phase.permits) s.calls = archiveReservationBytes *
      Shares.total (fun call => if call.phase.budget.isSome then 1 else 0) s.calls := by
    rw [← Shares.total_mul]
    exact Shares.total_congr fun call hmem => (h.sound_of_mem hmem).permits_eq
  have haccount := h.account
  have hplaces := h.places
  have hbatched := h.batched
  have hreservation : archiveReservationBytes = 2113536 := rfl
  have hcapacity : queueByteCapacity = 67108864 := rfl
  have hqueue : queueCapacity = 4096 := rfl
  have hbatch : batchCapacity = 128 := rfl
  rw [hpermits, hreservation] at hbytes haccount
  omega

end Sound

end ArchiveNode

/-- **The memory of the archives.** In every state that calls and the writer reach, each event with
a share keeps to what its permit reserved exactly if its headers fit: the texts of the headers that
were handed over last take at most 16 KiB and what the two bodies leave of their limits. If so, all
events together keep to the capacity. An event without a share holds placeholders only. -/
theorem archives_within_budget {serde : SerdeJson} {labels : List ArchiveStep} {t : ArchiveNode}
    (hrun : Transition.run (ArchiveNode.step serde) .start labels = some t) :
    (t.WithinReservations ↔ t.HandedFits serde) ∧
      (t.HandedFits serde → t.bytes ≤ queueByteCapacity) ∧ t.PlainBare := by
  have hsound : t.Sound serde :=
    Transition.invariant_of_run (fun h hstep => ArchiveNode.sound_step h hstep) hrun
      (ArchiveNode.sound_start serde)
  exact ⟨hsound.withinReservations_iff, hsound.bytes_le_capacity, hsound.plainBare⟩

/-- The text of pairs that need no escapes. -/
def plainPairs (pairs : List (String × String)) : String :=
  "[" ++ ",".intercalate (pairs.map fun pair =>
    "[\"" ++ pair.1 ++ "\",\"" ++ pair.2 ++ "\"]") ++ "]"

/-- How `serde_json` prints such pairs. -/
def plainSerde : SerdeJson where
  fromSlice _ := none
  toString value := ((stringPairs value).map plainPairs).getD "null"

/-- The serializer of the tests prints pairs like `plainPairs`. -/
theorem pairsText_plainSerde (pairs : List (String × String)) :
    plainSerde.pairsText pairs = plainPairs pairs := by
  simp [SerdeJson.pairsText, plainSerde]

/-- A call with diagnostics: its request is archived, and the body of its response. -/
def archivedCall (headers : HeaderMap) (request response : List UInt8) : List ArchiveStep :=
  [.begin true secretIdentity secretCall 0, .perform 0 (.request headers request false),
    .perform 0 (.responseBody response false)]

/-- The state after the call. -/
def archivedNode (serde : SerdeJson) (headers : HeaderMap) (request response : List UInt8) :
    ArchiveNode :=
  Transition.after (ArchiveNode.step serde) .start (archivedCall headers request response)

section ArchivedCall

variable (serde : SerdeJson) (headers : HeaderMap) (request response : List UInt8)

/-- The archived call can run. -/
theorem run_archivedCall :
    Transition.run (ArchiveNode.step serde) .start (archivedCall headers request response) =
      some (archivedNode serde headers request response) := Transition.run_eq_some_after rfl

/-- The archived call ends with one reservation and its three payloads. -/
theorem calls_archivedNode : ∃ phase, phase.budget = some ⟨archiveReservationBytes⟩ ∧
    (archivedNode serde headers request response).calls =
      [⟨phase, ⟨⟨some headers, none, none, none⟩, request.length, response.length⟩⟩] :=
  ⟨_, rfl, rfl⟩

/-- The call keeps to its share exactly if what was handed over fits. -/
theorem fits_archivedNode :
    (archivedNode serde headers request response).HandedFits serde ↔
      Handed.Fits serde ⟨⟨some headers, none, none, none⟩, request.length, response.length⟩ := by
  obtain ⟨phase, hbudget, hcalls⟩ := calls_archivedNode serde headers request response
  rw [ArchiveNode.HandedFits, hcalls]
  constructor
  · intro hfits
    exact hfits _ List.mem_cons_self (by rw [hbudget]; rfl)
  · intro hfits call hmem _
    obtain rfl := List.mem_singleton.mp hmem
    exact hfits

end ArchivedCall

/-- The statement at a call with a JSON request: it stays within its reservation and the budget. -/
theorem archives_within_budget_jsonHeaders :
    (archivedNode plainSerde AuditTracker.jsonHeaders [1] [2, 3]).WithinReservations ∧
      (archivedNode plainSerde AuditTracker.jsonHeaders [1] [2, 3]).bytes ≤ queueByteCapacity := by
  obtain ⟨hiff, hcapacity, -⟩ :=
    archives_within_budget (run_archivedCall plainSerde AuditTracker.jsonHeaders [1] [2, 3])
  have hfits : (archivedNode plainSerde AuditTracker.jsonHeaders [1] [2, 3]).HandedFits
      plainSerde := by
    rw [fits_archivedNode]
    unfold Handed.Fits
    decide
  exact ⟨hiff.mpr hfits, hcapacity hfits⟩

/-- When both bodies reach their limit, the headers have 16 KiB. -/
theorem Handed.fits_iff_of_full {serde : SerdeJson} {handed : Handed}
    (hrequest : archiveBodyLimit ≤ handed.request)
    (hresponse : archiveBodyLimit ≤ handed.response) :
    handed.Fits serde ↔ handed.headerBytes serde ≤ 16 * 1024 := by
  unfold Fits
  rw [Nat.sub_eq_zero_of_le hrequest, Nat.sub_eq_zero_of_le hresponse]

/-- A request header of 20000 bytes. -/
def paddedHeaders : HeaderMap :=
  HeaderMap.new.insert "x-padding" ⟨List.replicate 20000 97⟩

/-- A text of ASCII letters has one byte for each of them. -/
theorem utf8ByteSize_replicate (n : ℕ) :
    (String.ofList (List.replicate n 'a')).utf8ByteSize = n := by
  induction n with
  | zero => rfl
  | succ n ih =>
    rw [List.replicate_succ, String.ofList_cons, String.utf8ByteSize_append,
      String.utf8ByteSize_singleton, ih, Nat.add_comm]
    rfl

/-- The archive prints the padding. -/
theorem archiveHeaders_padded : archiveHeaders plainSerde paddedHeaders =
    plainPairs [("x-padding", String.ofList (List.replicate 20000 'a'))] := by
  have hvalue : HeaderValue.toStr ⟨List.replicate 20000 97⟩ =
      some (String.ofList (List.replicate 20000 'a')) := by
    unfold HeaderValue.toStr
    rw [List.all_replicate, List.map_replicate]
    rfl
  have hpairs : archivedPairs paddedHeaders =
      [("x-padding", (HeaderValue.toStr ⟨List.replicate 20000 97⟩).getD
        "<non-UTF-8 header value>")] := rfl
  rw [archiveHeaders_eq, pairsText_plainSerde, hpairs, hvalue]
  rfl

/-- With two full bodies, a long header exceeds the share. -/
theorem not_withinReservations {serde : SerdeJson} {headers : HeaderMap}
    {request response : List UInt8} (hrequest : archiveBodyLimit ≤ request.length)
    (hresponse : archiveBodyLimit ≤ response.length)
    (hlong : 16 * 1024 < (archiveHeaders serde headers).utf8ByteSize) :
    ¬ (archivedNode serde headers request response).WithinReservations := by
  intro hwithin
  have hsound : ArchiveNode.Sound serde (archivedNode serde headers request response) :=
    Transition.invariant_of_run (fun h hstep => ArchiveNode.sound_step h hstep)
      (run_archivedCall serde headers request response) (ArchiveNode.sound_start serde)
  have hfits := (fits_archivedNode serde headers request response).mp
    (hsound.withinReservations_iff.mp hwithin)
  rw [Handed.fits_iff_of_full hrequest hresponse] at hfits
  have hheaders : (archiveHeaders serde headers).utf8ByteSize ≤ 16 * 1024 := by
    simpa [Handed.headerBytes] using hfits
  omega

/-- The padded headers alone take more than the reservation. -/
theorem length_paddedText : 20000 ≤ (archiveHeaders plainSerde paddedHeaders).utf8ByteSize := by
  rw [archiveHeaders_padded, plainPairs, List.map_singleton, String.intercalate_singleton]
  simp only [String.utf8ByteSize_append, utf8ByteSize_replicate]
  omega

/-- **The headers are not bounded.** A header of 20000 bytes and two bodies of 1 MiB take more than
the permit of the call has reserved. -/
theorem padded_call_exceeds_reservation :
    Transition.run (ArchiveNode.step plainSerde) .start (archivedCall paddedHeaders
        (List.replicate archiveBodyLimit 0) (List.replicate archiveBodyLimit 0)) =
      some (archivedNode plainSerde paddedHeaders (List.replicate archiveBodyLimit 0)
        (List.replicate archiveBodyLimit 0)) ∧
    ¬ (archivedNode plainSerde paddedHeaders (List.replicate archiveBodyLimit 0)
        (List.replicate archiveBodyLimit 0)).WithinReservations := by
  have hfull : archiveBodyLimit ≤ (List.replicate archiveBodyLimit (0 : UInt8)).length :=
    le_of_eq List.length_replicate.symm
  have hlong := length_paddedText
  exact ⟨run_archivedCall _ _ _ _, not_withinReservations hfull hfull (by omega)⟩

end OpenAiLb
