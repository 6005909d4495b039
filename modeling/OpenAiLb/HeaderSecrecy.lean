import OpenAiLb.AuditRecords
import OpenAiLb.TenantScope

/-!
# Secret headers do not reach a tenant

Four sets of headers are archived for a call: three by its tracker, and the headers of the
response to the client by the transport layer. They travel as JSON text through the event,
the queue and the table into the detail view, where a tenant sees the pairs that are not
sensitive.
-/

namespace OpenAiLb

/-- A setter of the tracker with its arguments. -/
inductive TrackerUpdate where
  | provider (id : String)
  | affinity (affinityHash : String → String) (key source : Option String)
  | reasoningEffort (effort : Option String)
  | request (headers : HeaderMap) (body : List UInt8) (truncated : Bool)
  | compressionHeaders (downstream : HeaderMap) (upstream : Option HeaderMap)
  | upstreamAcceptEncoding (headers : HeaderMap)
  | responseHeaders (headers : HeaderMap)
  | upstreamHttpVersion (version : Version)
  | upstreamRequestHeaders (headers : HeaderMap)
  | firstByte (now : ℕ)
  | requestSize (bytes : Int)
  | responseSize (bytes : Int)
  | responseBody (body : List UInt8) (truncated : Bool)

/-- Call a setter. -/
def AuditTracker.perform (serde : SerdeJson) (audit : AuditTracker) : TrackerUpdate → AuditTracker
  | .provider id => audit.setProvider id
  | .affinity affinityHash key source => audit.setAffinity affinityHash key source
  | .reasoningEffort effort => audit.setReasoningEffort effort
  | .request headers body truncated => audit.setRequest serde headers body truncated
  | .compressionHeaders downstream upstream => audit.setCompressionHeaders downstream upstream
  | .upstreamAcceptEncoding headers => audit.setUpstreamAcceptEncoding headers
  | .responseHeaders headers => audit.setResponseHeaders serde headers
  | .upstreamHttpVersion version => audit.setUpstreamHttpVersion version
  | .upstreamRequestHeaders headers => audit.setUpstreamRequestHeaders serde headers
  | .firstByte now => audit.markFirstByte now
  | .requestSize bytes => audit.setRequestSize bytes
  | .responseSize bytes => audit.setResponseSize bytes
  | .responseBody body truncated => audit.setResponseBody body truncated

/-- The headers of a call, as far as they were handed to the archive. -/
structure CallHeaders where
  request : Option HeaderMap
  upstreamRequest : Option HeaderMap
  response : Option HeaderMap
  downstreamResponse : Option HeaderMap

namespace CallHeaders

/-- Nothing was handed over. -/
def none : CallHeaders := ⟨Option.none, Option.none, Option.none, Option.none⟩

/-- What a setter hands over replaces what was handed over before. -/
def handOver (headers : CallHeaders) : TrackerUpdate → CallHeaders
  | .request map _ _ => { headers with request := some map }
  | .upstreamRequestHeaders map => { headers with upstreamRequest := some map }
  | .responseHeaders map => { headers with response := some map }
  | _ => headers

/-- All the maps. -/
def maps (headers : CallHeaders) : List HeaderMap :=
  headers.request.toList ++ headers.upstreamRequest.toList ++ headers.response.toList ++
    headers.downstreamResponse.toList

/-- Two calls have the same headers, up to the values of sensitive ones. -/
structure AlikeButSecrets (first second : CallHeaders) : Prop where
  request : Option.Rel OpenAiLb.AlikeButSecrets first.request second.request
  upstreamRequest :
    Option.Rel OpenAiLb.AlikeButSecrets first.upstreamRequest second.upstreamRequest
  response : Option.Rel OpenAiLb.AlikeButSecrets first.response second.response
  downstreamResponse :
    Option.Rel OpenAiLb.AlikeButSecrets first.downstreamResponse second.downstreamResponse

end CallHeaders

/-- The archived texts of an event are those of the headers that its tracker was handed. -/
structure AuditEvent.Carries (serde : SerdeJson) (headers : CallHeaders) (event : AuditEvent) :
    Prop where
  request : event.requestHeadersJson = (headers.request.map (archiveHeaders serde)).getD "[]"
  upstreamRequest :
    event.upstreamRequestHeadersJson = headers.upstreamRequest.map (archiveHeaders serde)
  response : event.responseHeadersJson = headers.response.map (archiveHeaders serde)

/-- An event that is archived carries the headers. -/
def AuditEvent.Archives (serde : SerdeJson) (headers : CallHeaders) (event : AuditEvent) : Prop :=
  event.requestArchive = true → event.Carries serde headers

section Tracker

variable {serde : SerdeJson} {headers : CallHeaders} {event : AuditEvent} {audit : AuditTracker}

/-- The event of a tracker, if there is one, archives the headers. -/
def AuditTracker.Archives (serde : SerdeJson) (headers : CallHeaders) (audit : AuditTracker) :
    Prop := ∀ event, audit.event = some event → event.Archives serde headers

/-- A tracker begins without headers. -/
theorem AuditTracker.archives_begin (serde : SerdeJson) (reservations : Reservations)
    (identity : ApiIdentity) (call : CallStart) (started : ℕ) :
    (AuditTracker.begin reservations identity call started).Archives serde .none := by
  intro event hevent _
  obtain ⟨_, -, rfl⟩ := Option.map_eq_some_iff.mp hevent
  exact ⟨rfl, rfl, rfl⟩

/-- A change of the event that leaves its archived headers alone. -/
theorem AuditTracker.Archives.update (h : audit.Archives serde headers)
    {f : AuditEvent → AuditEvent} {after : CallHeaders}
    (hf : ∀ event, event.Archives serde headers → (f event).Archives serde after) :
    (audit.update f).Archives serde after := by
  intro event hevent
  obtain ⟨old, hold, rfl⟩ := Option.map_eq_some_iff.mp hevent
  exact hf old (h old hold)

/-- The same for a change that is made to archived events only. -/
theorem AuditTracker.Archives.updateArchived (h : audit.Archives serde headers)
    {f : AuditEvent → AuditEvent} {after : CallHeaders}
    (hf : ∀ event, event.Carries serde headers → (f event).Carries serde after) :
    (audit.updateArchived f).Archives serde after := by
  refine h.update fun event hevent => ?_
  split
  · next harchive => exact fun _ => hf event (hevent harchive)
  · next hplain => exact fun harchive => absurd harchive hplain

/-- **Every setter** keeps the archived texts those of the headers that were handed over. -/
theorem AuditTracker.Archives.perform (h : audit.Archives serde headers) (update : TrackerUpdate) :
    (audit.perform serde update).Archives serde (headers.handOver update) := by
  cases update with
  | provider | affinity | reasoningEffort | compressionHeaders | upstreamAcceptEncoding
  | upstreamHttpVersion | firstByte | requestSize | responseSize =>
    exact h.update fun event hevent harchive =>
      ⟨(hevent harchive).request, (hevent harchive).upstreamRequest, (hevent harchive).response⟩
  | responseBody =>
    exact h.updateArchived fun event hevent =>
      ⟨hevent.request, hevent.upstreamRequest, hevent.response⟩
  | request =>
    exact h.updateArchived fun event hevent => ⟨rfl, hevent.upstreamRequest, hevent.response⟩
  | upstreamRequestHeaders =>
    exact h.updateArchived fun event hevent => ⟨hevent.request, rfl, hevent.response⟩
  | responseHeaders =>
    exact h.updateArchived fun event hevent => ⟨hevent.request, hevent.upstreamRequest, rfl⟩

/-- The same for any number of setters, in any order. -/
theorem AuditTracker.Archives.performAll (h : audit.Archives serde headers)
    (updates : List TrackerUpdate) :
    (updates.foldl (AuditTracker.perform serde) audit).Archives serde
      (updates.foldl CallHeaders.handOver headers) := by
  induction updates generalizing audit headers with
  | nil => exact h
  | cons update rest ih => exact ih (h.perform update)

/-- Settling an event leaves its headers alone. -/
theorem archives_of_settle (h : event.Archives serde headers) {status : Int}
    {model : Option String} {usage : Usage} {error : Option String} {elapsed : Int}
    {final : AuditEvent} (hsettle : settle event status model usage error elapsed = .ok final) :
    final.Archives serde headers := by
  unfold settle at hsettle
  cases hcost : model.elim (Except.ok none) fun model => costUsdNanos model usage with
  | error panic =>
    rw [hcost] at hsettle
    cases hsettle
  | ok cost =>
    rw [hcost] at hsettle
    cases hsettle
    exact fun harchive =>
      ⟨(h harchive).request, (h harchive).upstreamRequest, (h harchive).response⟩

/-- The event that is sent was settled before. -/
theorem Custody.event_of_conclude {custody : Custody}
    {settled : AuditEvent → Except Panic AuditEvent} {queued : QueuedEvent}
    (h : custody.conclude settled = .ok [queued]) :
    ∃ event, custody.event = some event ∧ settled event = .ok queued.event := by
  unfold Custody.conclude at h
  cases hevent : custody.event with
  | none =>
    rw [hevent] at h
    cases h
  | some event =>
    rw [hevent] at h
    dsimp only at h
    refine ⟨event, rfl, ?_⟩
    cases hsettled : settled event with
    | error panic =>
      rw [hsettled] at h
      cases h
    | ok final =>
      rw [hsettled] at h
      unfold Except.bind Custody.deliver at h
      cases hpermit : custody.permit with
      | none =>
        rw [hpermit] at h
        cases h
      | some permit =>
        rw [hpermit] at h
        cases h
        rfl

/-- The guard of a stream after the chunks that it saw. -/
def StreamCompletion.captureAll (serde : SerdeJson) (completion : StreamCompletion)
    (chunks : List (List UInt8)) : List UInt8 × StreamCompletion :=
  chunks.foldl (fun seen bytes => seen.2.captureSse serde seen.1 bytes) ([], completion)

/-- The chunks do not touch the event. -/
theorem StreamCompletion.event_captureAll (completion : StreamCompletion)
    (chunks : List (List UInt8)) :
    (completion.captureAll serde chunks).2.event = completion.event := by
  have hstep : ∀ (completion : StreamCompletion) (pending bytes : List UInt8),
      (completion.captureSse serde pending bytes).2.event = completion.event := by
    intro completion pending bytes
    unfold StreamCompletion.captureSse
    cases hevent : completion.event with
    | none => exact hevent
    | some event => exact hevent
  have hfold : ∀ seen : List UInt8 × StreamCompletion,
      (chunks.foldl (fun seen bytes => seen.2.captureSse serde seen.1 bytes) seen).2.event =
        seen.2.event := by
    induction chunks with
    | nil => exact fun _ => rfl
    | cons bytes rest ih => exact fun seen => (ih _).trans (hstep seen.2 seen.1 bytes)
  exact hfold ([], completion)

/-- How a tracker ends with an event: it finishes or is dropped, or the stream that took over
does. -/
inductive AuditTracker.Sends (serde : SerdeJson) (audit : AuditTracker) (queued : QueuedEvent) :
    Prop where
  | finished {event : AuditEvent} (hevent : audit.event = some event) {status : Int}
      {model : Option String} {usage : Usage} {error : Option String} {elapsed : Int}
      (hsettle : settle event status model usage error elapsed = .ok queued.event)
  | dropped {now : ℕ} (hdrop : audit.drop now = .ok [queued])
  | streamed {status : ℕ} {model : Option String} {chunks : List (List UInt8)} {failed : Bool}
      {now : ℕ} (hfinish : ((audit.takeStream status model).captureAll serde chunks).2.finish
        failed now = .ok [queued])
  | streamDropped {status : ℕ} {model : Option String} {chunks : List (List UInt8)} {now : ℕ}
      (hdrop : ((audit.takeStream status model).captureAll serde chunks).2.drop now =
        .ok [queued])

/-- The stream takes the event of the tracker over, with its headers. -/
theorem AuditTracker.Archives.takeStream (h : audit.Archives serde headers) (status : ℕ)
    (model : Option String) (chunks : List (List UInt8)) {event : AuditEvent}
    (hevent : ((audit.takeStream status model).captureAll serde chunks).2.event = some event) :
    event.Archives serde headers := by
  rw [StreamCompletion.event_captureAll] at hevent
  refine h.update (f := fun event => { event with status := status, model := model }) ?_ event
    hevent
  exact fun event hevent harchive =>
    ⟨(hevent harchive).request, (hevent harchive).upstreamRequest, (hevent harchive).response⟩

/-- **However a call ends**, its event archives the headers that the tracker was handed. -/
theorem AuditTracker.Archives.sends (h : audit.Archives serde headers) {queued : QueuedEvent}
    (hsends : audit.Sends serde queued) : queued.event.Archives serde headers := by
  have hsame : ∀ event : AuditEvent, event.Archives serde headers →
      ∀ (bytes : Int) (body : Option (List UInt8)) (truncated : Bool),
        AuditEvent.Archives serde headers { event with
          responseBody := body, responseBodyTruncated := truncated, responseBytes := bytes } :=
    fun event hevent _ _ _ harchive =>
      ⟨(hevent harchive).request, (hevent harchive).upstreamRequest, (hevent harchive).response⟩
  cases hsends with
  | finished hevent hsettle => exact archives_of_settle (h _ hevent) hsettle
  | dropped hdrop =>
    obtain ⟨event, hevent, hsettle⟩ := Custody.event_of_conclude hdrop
    exact archives_of_settle (hsame event (h event hevent) _ _ true) hsettle
  | streamed hfinish =>
    obtain ⟨event, hevent, hsettle⟩ := Custody.event_of_conclude hfinish
    exact archives_of_settle (hsame event (h.takeStream _ _ _ hevent) _ _ _) hsettle
  | streamDropped hdrop =>
    obtain ⟨event, hevent, hsettle⟩ := Custody.event_of_conclude hdrop
    exact archives_of_settle (hsame event (h.takeStream _ _ _ hevent) _ _ _) hsettle

end Tracker

namespace AuditDatabase

variable {start db db' : AuditDatabase} {messages : List QueuedAudit} {archive : RequestArchive}

/-- The header columns of an archive are those of an event that asked for it. -/
def ArchivedFrom (messages : List QueuedAudit) (archive : RequestArchive) : Prop :=
  ∃ event, .event event ∈ messages ∧ event.id = archive.apiCallId ∧ event.requestArchive = true ∧
    archive.requestHeadersJson = event.requestHeadersJson ∧
      archive.upstreamRequestHeadersJson = event.upstreamRequestHeadersJson ∧
        archive.responseHeadersJson = event.responseHeadersJson

/-- Every archive was there from the start, or is from an event. -/
def ArchivesFrom (start : AuditDatabase) (messages : List QueuedAudit) (db : AuditDatabase) :
    Prop :=
  ∀ archive ∈ db.requestArchives,
    archive.apiCallId ∈ start.requestArchives.keys ∨ ArchivedFrom messages archive

/-- More messages may have come. -/
theorem ArchivesFrom.more (h : ArchivesFrom start messages db) (more : List QueuedAudit) :
    ArchivesFrom start (messages ++ more) db := by
  intro archive harchive
  refine (h archive harchive).imp_right ?_
  rintro ⟨event, hmem, hrest⟩
  exact ⟨event, List.mem_append_left _ hmem, hrest⟩

/-- Archives may have gone. -/
theorem ArchivesFrom.fewer (h : ArchivesFrom start messages db)
    (hsub : ∀ archive ∈ db'.requestArchives, archive ∈ db.requestArchives) :
    ArchivesFrom start messages db' := fun archive harchive => h archive (hsub archive harchive)

/-- An event adds its own archive, if it asks for one. -/
theorem archives_of_insert {event : AuditEvent} (h : db.insert event = .ok db')
    (harchive : archive ∈ db'.requestArchives) :
    archive ∈ db.requestArchives ∨ archive = archiveOf event ∧ event.requestArchive = true := by
  unfold insert at h
  split at h
  · next mid hmid =>
    obtain ⟨-, -, harchives⟩ := tables_of_insertCall hmid
    split at h
    · next hflag =>
      obtain ⟨-, hadded⟩ := tables_of_insertArchive h
      rw [← harchives]
      exact (hadded archive harchive).imp_right fun heq => ⟨heq, hflag⟩
    · cases h
      exact Or.inl (harchives ▸ harchive)
  · cases h

/-- No statement adds an archive. -/
theorem archives_of_exec (stmt : AuditStatement)
    (harchive : archive ∈ (stmt.exec db).requestArchives) : archive ∈ db.requestArchives := by
  cases stmt with
  | upsertUser | insertProvider | revokeConsumer | deleteProvider => exact harchive
  | deleteConsumer gone userId =>
    rw [AuditStatement.exec, deleteConsumer] at harchive
    split at harchive
    · exact (Table.mem_filter.mp harchive).1
    · exact harchive
  | deleteExpired cutoff => exact (Table.mem_filter.mp harchive).1

/-- **Every change** leaves the header columns as the events wrote them. -/
theorem ArchivesFrom.execute (h : ArchivesFrom start messages db) {effect : AuditEffect}
    (hexecute : db.execute effect = .ok db') :
    ArchivesFrom start (messages ++ messagesOf [effect]) db' := by
  cases effect with
  | message queued =>
    cases queued with
    | event event =>
      intro archive harchive
      rcases archives_of_insert hexecute harchive with hold | ⟨rfl, hflag⟩
      · exact h.more _ archive hold
      · exact Or.inr ⟨event, by simp [messagesOf], rfl, hflag, rfl, rfl, rfl⟩
    | responseTransport id bytes encoding headers =>
      intro archive harchive
      obtain ⟨old, hold, rfl⟩ := (tables_of_responseTransport hexecute).2 archive harchive
      have hsame := h.more (messagesOf [.message (.responseTransport id bytes encoding headers)])
        old hold
      split
      · exact hsame
      · exact hsame
  | statement stmt =>
    cases hexecute
    exact (h.more _).fewer fun archive harchive => archives_of_exec stmt harchive
  | created row =>
    obtain ⟨-, harchives⟩ := tables_of_insertConsumer hexecute
    exact (h.more _).fewer fun archive harchive => harchives ▸ harchive
  | touched usedAt ids =>
    cases hexecute
    refine (h.more _).fewer fun archive harchive => ?_
    rwa [archives_touchConsumers db usedAt ids] at harchive

/-- The same for a whole history. -/
theorem ArchivesFrom.replay (h : ArchivesFrom start messages db) {history : List AuditEffect}
    (hreplay : db.replay history = .ok db') :
    ArchivesFrom start (messages ++ messagesOf history) db' :=
  @replay_keeps (ArchivesFrom start) (fun _ _ _ _ hkept hexecute => hkept.execute hexecute)
    _ _ _ _ h hreplay

end AuditDatabase

/-- A tenant reads the archive of a call: the tracker of the call, its event on the way through
the queue into the tables, the headers of the response to the client, and the detail view. -/
structure TenantRead (serde : SerdeJson) where
  reservations : Reservations
  identity : ApiIdentity
  call : CallStart
  started : ℕ
  updates : List TrackerUpdate
  queued : QueuedEvent
  sends : (updates.foldl (AuditTracker.perform serde)
    (.begin reservations identity call started)).Sends serde queued
  start : AuditDatabase
  history : List AuditEffect
  db : ConsoleDatabase
  replay : start.replay history = .ok db.records
  /-- The id of the event is new, and no other event has it. -/
  fresh : queued.event.id ∉ start.requestArchives.keys
  once : ∀ event, .event event ∈ messagesOf history → event.id = queued.event.id →
    event = queued.event
  /-- What the transport layer archived last for the call. -/
  downstream : Option HeaderMap
  record : TransportRecord
  recorded : auditJournal.record queued.event.id (messagesOf history) = some record
  recordHeaders : record.headers = downstream.map (archiveHeaders serde)
  user : UserIdentity
  tenant : isAdmin user = false
  fromUtf8Lossy : List UInt8 → String
  detail : AuditDetail
  read : db.auditDetail serde fromUtf8Lossy user queued.event.id = .ok detail
  available : detail.archiveAvailable = true

namespace TenantRead

variable {serde : SerdeJson}

/-- The headers of the call. -/
def headers (read : TenantRead serde) : CallHeaders :=
  { read.updates.foldl CallHeaders.handOver .none with downstreamResponse := read.downstream }

/-- The headers as a tenant sees them, given what is archived. -/
def shown (serde : SerdeJson) (headers : Option HeaderMap) : Option String :=
  visibleArchiveHeaders serde (headers.map (archiveHeaders serde)) false

/-- The archive of the detail view is the one of the call. -/
theorem archive_eq (read : TenantRead serde) :
    ∃ archive ∈ read.db.records.requestArchives, archive.apiCallId = read.queued.event.id ∧
      read.detail.requestHeaders =
        visibleArchiveHeaders serde (some archive.requestHeadersJson) false ∧
      read.detail.upstreamRequestHeaders =
        visibleArchiveHeaders serde archive.upstreamRequestHeadersJson false ∧
      read.detail.responseHeaders =
        visibleArchiveHeaders serde archive.responseHeadersJson false ∧
      read.detail.downstreamResponseHeaders =
        visibleArchiveHeaders serde archive.downstreamResponseHeadersJson false := by
  have hread := read.read
  have havailable := read.available
  unfold ConsoleDatabase.auditDetail at hread
  cases hrow : read.db.detailCall read.user read.queued.event.id with
  | none =>
    rw [hrow] at hread
    cases hread
  | some row =>
    rw [hrow] at hread
    dsimp only at hread
    have hid : row.call.id = read.queued.event.id := by
      obtain ⟨call, hcall, hjoin⟩ := Option.bind_eq_some_iff.mp hrow
      rw [ConsoleDatabase.call_of_join hjoin]
      exact Table.key_of_find? (Option.filter_eq_some_iff.mp hcall).1
    obtain hdetail := (Except.ok.inj hread).symm
    rw [hdetail] at havailable ⊢
    cases harchive : read.db.records.requestArchives.find? row.call.id with
    | none => simp [harchive] at havailable
    | some archive =>
      obtain ⟨hmem, hkey⟩ := Table.find?_eq_some_iff.mp harchive
      refine ⟨archive, hmem, hkey.trans hid, ?_⟩
      simp [read.tenant]

/-- **What the detail view shows** is determined by the headers of the call. -/
theorem detail_eq (read : TenantRead serde) :
    read.detail.requestHeaders =
        visibleArchiveHeaders serde
          (some ((read.headers.request.map (archiveHeaders serde)).getD "[]")) false ∧
      read.detail.upstreamRequestHeaders = shown serde read.headers.upstreamRequest ∧
      read.detail.responseHeaders = shown serde read.headers.response ∧
      read.detail.downstreamResponseHeaders = shown serde read.headers.downstreamResponse := by
  obtain ⟨archive, hmem, hid, hrequest, hupstream, hresponse, hdownstream⟩ := read.archive_eq
  -- The columns are those of the event, and the event is the one that the tracker sent.
  have hfrom : AuditDatabase.ArchivesFrom read.start (messagesOf read.history) read.db.records := by
    have hstart : AuditDatabase.ArchivesFrom read.start [] read.start :=
      fun archive harchive => Or.inl (Table.key_mem_keys harchive)
    simpa using hstart.replay read.replay
  obtain ⟨event, hevent, heventId, hflag, hrequest', hupstream', hresponse'⟩ :=
    (hfrom archive hmem).resolve_left (by rw [hid]; exact read.fresh)
  obtain rfl : event = read.queued.event := read.once event hevent (heventId.trans hid)
  have hcarries := ((AuditTracker.archives_begin serde read.reservations read.identity read.call
    read.started).performAll read.updates).sends read.sends hflag
  -- The headers of the response to the client are the ones in the journal.
  have hreflects : read.db.records.Reflects (messagesOf read.history) := by
    simpa using (AuditDatabase.reflects_nil read.start).replay read.replay
  have hlast := hreflects.archives archive hmem read.record (by rw [hid]; exact read.recorded)
  refine ⟨?_, ?_, ?_, ?_⟩
  · rw [hrequest, hrequest', hcarries.request]
    rfl
  · rw [hupstream, hupstream', hcarries.upstreamRequest]
    rfl
  · rw [hresponse, hresponse', hcarries.response]
    rfl
  · rw [hdownstream, hlast, read.recordHeaders]
    rfl

/-- `serde_json` reads back what it printed for the headers of the call. -/
def Restored (read : TenantRead serde) : Prop :=
  ∀ map ∈ read.headers.maps, serde.Restores (archivedPairs map)

/-- Each of the four sets can be read back. -/
theorem restored_iff (read : TenantRead serde) :
    read.Restored ↔
      (∀ map ∈ read.headers.request.toList, serde.Restores (archivedPairs map)) ∧
      (∀ map ∈ read.headers.upstreamRequest.toList, serde.Restores (archivedPairs map)) ∧
      (∀ map ∈ read.headers.response.toList, serde.Restores (archivedPairs map)) ∧
      ∀ map ∈ read.headers.downstreamResponse.toList, serde.Restores (archivedPairs map) := by
  simp only [Restored, CallHeaders.maps, List.mem_append, or_imp, forall_and, and_assoc]

/-- A set of headers that was archived shows its pairs that are not sensitive. -/
theorem shown_some {map : HeaderMap} (h : serde.Restores (archivedPairs map)) :
    shown serde (some map) = some (serde.pairsText (tenantPairs map)) :=
  visibleArchiveHeaders_archived h

/-- Two sets that differ in secrets only are shown alike. -/
theorem shown_congr {first second : Option HeaderMap} (h : Option.Rel AlikeButSecrets first second)
    (hfirst : ∀ map ∈ first.toList, serde.Restores (archivedPairs map))
    (hsecond : ∀ map ∈ second.toList, serde.Restores (archivedPairs map)) :
    shown serde first = shown serde second := by
  cases h with
  | none => rfl
  | @some map map' hmaps =>
    rw [shown_some (hfirst map (by simp)), shown_some (hsecond map' (by simp)),
      hmaps.tenantPairs_eq]

/-- The same for the headers of the request, which are an empty list until they are archived. -/
theorem requestShown_congr {first second : Option HeaderMap}
    (h : Option.Rel AlikeButSecrets first second)
    (hfirst : ∀ map ∈ first.toList, serde.Restores (archivedPairs map))
    (hsecond : ∀ map ∈ second.toList, serde.Restores (archivedPairs map)) :
    visibleArchiveHeaders serde (some ((first.map (archiveHeaders serde)).getD "[]")) false =
      visibleArchiveHeaders serde (some ((second.map (archiveHeaders serde)).getD "[]")) false := by
  cases h with
  | none => rfl
  | some hmaps => exact shown_congr (.some hmaps) hfirst hsecond

end TenantRead

/-- **Secret headers stay with the administrators**: for each archived set of headers the detail
view of a tenant shows the archived pairs whose name is not sensitive, in their order and as often
as they were archived. Two calls that differ in the values of sensitive headers only look alike. -/
theorem tenant_headers {serde : SerdeJson} (read : TenantRead serde) (hread : read.Restored) :
    ((∀ map, read.headers.request = some map →
        read.detail.requestHeaders = some (serde.pairsText (tenantPairs map))) ∧
      (∀ map, read.headers.upstreamRequest = some map →
        read.detail.upstreamRequestHeaders = some (serde.pairsText (tenantPairs map))) ∧
      (∀ map, read.headers.response = some map →
        read.detail.responseHeaders = some (serde.pairsText (tenantPairs map))) ∧
      ∀ map, read.headers.downstreamResponse = some map →
        read.detail.downstreamResponseHeaders = some (serde.pairsText (tenantPairs map))) ∧
    ∀ other : TenantRead serde, other.Restored → read.headers.AlikeButSecrets other.headers →
      read.detail.requestHeaders = other.detail.requestHeaders ∧
        read.detail.upstreamRequestHeaders = other.detail.upstreamRequestHeaders ∧
        read.detail.responseHeaders = other.detail.responseHeaders ∧
        read.detail.downstreamResponseHeaders = other.detail.downstreamResponseHeaders := by
  obtain ⟨hrequest, hupstream, hresponse, hdownstream⟩ := read.detail_eq
  obtain ⟨hread₁, hread₂, hread₃, hread₄⟩ := read.restored_iff.mp hread
  refine ⟨⟨?_, ?_, ?_, ?_⟩, ?_⟩
  · intro map hmap
    rw [hrequest, hmap]
    exact TenantRead.shown_some (hread₁ map (by simp [hmap]))
  · intro map hmap
    rw [hupstream, hmap]
    exact TenantRead.shown_some (hread₂ map (by simp [hmap]))
  · intro map hmap
    rw [hresponse, hmap]
    exact TenantRead.shown_some (hread₃ map (by simp [hmap]))
  · intro map hmap
    rw [hdownstream, hmap]
    exact TenantRead.shown_some (hread₄ map (by simp [hmap]))
  · intro other hother halike
    obtain ⟨hrequest', hupstream', hresponse', hdownstream'⟩ := other.detail_eq
    obtain ⟨hother₁, hother₂, hother₃, hother₄⟩ := other.restored_iff.mp hother
    refine ⟨?_, ?_, ?_, ?_⟩
    · rw [hrequest, hrequest']
      exact TenantRead.requestShown_congr halike.request hread₁ hother₁
    · rw [hupstream, hupstream']
      exact TenantRead.shown_congr halike.upstreamRequest hread₂ hother₂
    · rw [hresponse, hresponse']
      exact TenantRead.shown_congr halike.response hread₃ hother₃
    · rw [hdownstream, hdownstream']
      exact TenantRead.shown_congr halike.downstreamResponse hread₄ hother₄

/-- The headers of a call with a secret among them. -/
def secretHeaders : HeaderMap :=
  (HeaderMap.new.insert "authorization" (.fromStatic "Bearer secret")).insert "accept"
    (.fromStatic "text/plain")

/-- What `serde_json` does with the headers of the call. -/
def secretSerde : SerdeJson where
  fromSlice bytes :=
    if bytes = asBytes "[[\"authorization\",\"Bearer secret\"],[\"accept\",\"text/plain\"]]" then
      some (pairsValue (archivedPairs secretHeaders))
    else none
  toString value :=
    if stringPairs value = some (archivedPairs secretHeaders) then
      "[[\"authorization\",\"Bearer secret\"],[\"accept\",\"text/plain\"]]"
    else "[[\"accept\",\"text/plain\"]]"

/-- A call of the tenant `a` whose headers are archived at all four places. -/
def secretCall : CallStart :=
  ⟨"call-new", "request", none, "POST", "/v1/responses", "127.0.0.1", 7⟩

/-- The consumer of the call, with diagnostics. -/
def secretIdentity : ApiIdentity := ⟨"key-a", "a", true⟩

/-- The event of the call. -/
def secretEvent : AuditEvent :=
  { AuditEvent.begin secretCall secretIdentity true with
    requestHeadersJson := archiveHeaders secretSerde secretHeaders
    upstreamRequestHeadersJson := some (archiveHeaders secretSerde secretHeaders)
    responseHeadersJson := some (archiveHeaders secretSerde secretHeaders)
    responseBodyTruncated := true
    status := 499
    latencyMs := 1
    error := some "client_cancelled" }

/-- The event and the transport message of the call are committed. -/
def secretHistory : List AuditEffect :=
  [.message (.event secretEvent),
    .message (.responseTransport "call-new" 3 (some "identity")
      (some (archiveHeaders secretSerde secretHeaders)))]

/-- The tables afterwards. -/
def secretRecords : AuditDatabase :=
  (ConsoleDatabase.oneTenant.records.replay secretHistory).toOption.getD
    ConsoleDatabase.oneTenant.records

/-- The database afterwards. -/
def secretDatabase : ConsoleDatabase where
  users := ConsoleDatabase.oneTenant.users
  providers := ConsoleDatabase.oneTenant.providers
  records := secretRecords
  usersKnown := by decide
  providersKnown := by decide

/-- What the tenant `a` reads. -/
def secretDetail : Except AppError AuditDetail :=
  secretDatabase.auditDetail secretSerde (fun _ => "") ConsoleDatabase.tenantA "call-new"

/-- The tenant `a` reads the call. -/
def secretRead : TenantRead secretSerde where
  reservations := ⟨true, true⟩
  identity := secretIdentity
  call := secretCall
  started := 0
  updates := [.request secretHeaders [] false, .upstreamRequestHeaders secretHeaders,
    .responseHeaders secretHeaders]
  queued := ⟨secretEvent, some ⟨archiveReservationBytes⟩⟩
  sends := .dropped (show AuditTracker.drop _ 1 = _ from rfl)
  start := ConsoleDatabase.oneTenant.records
  history := secretHistory
  db := secretDatabase
  replay := rfl
  fresh := by decide
  once := by
    intro event hevent _
    rcases List.mem_cons.mp hevent with heq | hevent
    · exact QueuedAudit.event.inj heq
    · cases List.mem_singleton.mp hevent
  downstream := some secretHeaders
  record := ⟨3, some "identity", some (archiveHeaders secretSerde secretHeaders)⟩
  recorded := rfl
  recordHeaders := rfl
  user := ConsoleDatabase.tenantA
  tenant := by decide
  fromUtf8Lossy := fun _ => ""
  detail := secretDetail.toOption.get (by decide)
  read := rfl
  available := by decide

/-- The statement for a tenant who reads a call: what is shown of the request headers. -/
theorem tenant_headers_secretRead :
    secretRead.detail.upstreamRequestHeaders = some "[[\"accept\",\"text/plain\"]]" := by
  have hrestored : secretRead.Restored := by
    intro map hmap
    have hmap' : map ∈ [secretHeaders, secretHeaders, secretHeaders, secretHeaders] := hmap
    obtain rfl : map = secretHeaders := by simpa using hmap'
    rfl
  obtain ⟨⟨-, hupstream, -, -⟩, -⟩ := tenant_headers secretRead hrestored
  rw [hupstream secretHeaders rfl]
  rfl

end OpenAiLb
