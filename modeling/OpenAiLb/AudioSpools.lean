import OpenAiLb.Failover
import OpenAiLb.Library.Chunks
import OpenAiLb.Library.Tasks
import OpenAiLb.Library.Transition

/-!
# The upload spool

An audio upload is stored in a file while it comes in, and every attempt to send it reads that
file from its beginning. The audit keeps the beginning of the upload, as it keeps the beginning of
a body that is there at once and of a response that is streamed.
-/

namespace OpenAiLb

open Chunks

/-- `body_preview` is a cut. -/
theorem bodyPreview_cut (body : List UInt8) :
    Cut archiveBodyLimit (bodyPreview body).1 (bodyPreview body).2 body where
  kept_eq := rfl
  exceeds_iff := decide_eq_true_iff

/-- A streamed preview tells of the bytes that were captured. -/
def StreamingPreview.Sound (preview : StreamingPreview) (all : List UInt8) : Prop :=
  Cut archiveBodyLimit preview.body preview.truncated all ∧ preview.bytes = all.length

/-- The preview still holds the beginning of everything after one more chunk. -/
theorem StreamingPreview.Sound.capture {preview : StreamingPreview} {all : List UInt8}
    (chunk : List UInt8) (h : preview.Sound all) :
    (preview.capture chunk).Sound (all ++ chunk) := by
  rcases h with ⟨hcut, hbytes⟩
  refine ⟨hcut.append chunk rfl, ?_⟩
  rw [StreamingPreview.capture, hbytes, List.length_append, Int.natCast_add]

/-- The preview of a response tells of the whole response. -/
theorem StreamingPreview.sound_chunks (chunks : List (List UInt8)) :
    (chunks.foldl capture empty).Sound chunks.flatten :=
  sound_of_foldl (fun chunk h => Sound.capture chunk h) ⟨.nil, rfl⟩ chunks

namespace Failover

/-- What the data stream of a request body yields. -/
inductive BodyItem
  | chunk (bytes : List UInt8)
  | failed

namespace Spool

/-- The spool before its first chunk. -/
def empty : Spool := ⟨⟨[], false, 0⟩, []⟩

/-- One turn of the loop of `AudioSpool::create`: `contents` is the file. -/
def store (previewLimit : ℕ) (spool : Spool) (chunk : List UInt8) : Spool :=
  let copied := min (previewLimit - spool.preview.length) chunk.length
  { contents := spool.contents ++ chunk
    bytes := spool.bytes + chunk.length
    preview := spool.preview ++ chunk.take copied
    previewTruncated := spool.previewTruncated || copied < chunk.length }

/-- The loop of `AudioSpool::create`, where no operation on the file fails. -/
def storeBody (previewLimit : ℕ) : Spool → List BodyItem → Except AppError Spool
  | spool, [] => .ok spool
  | spool, .chunk bytes :: body => storeBody previewLimit (spool.store previewLimit bytes) body
  | _, .failed :: _ => .error (.badRequest "failed to read audio request body")

/-- `AudioSpool::create`. -/
def create (previewLimit : ℕ) (body : List BodyItem) : Except AppError Spool :=
  storeBody previewLimit empty body

end Spool

/-- A spool holds the bytes that were stored, and its preview is their cut. -/
def Spool.Sound (previewLimit : ℕ) (spool : Spool) (all : List UInt8) : Prop :=
  Cut previewLimit spool.preview spool.previewTruncated all ∧ spool.bytes = all.length ∧
    spool.contents = all

/-- The spool still holds everything after one more chunk. -/
theorem Spool.Sound.store {previewLimit : ℕ} {spool : Spool} {all : List UInt8}
    (chunk : List UInt8) (h : spool.Sound previewLimit all) :
    (spool.store previewLimit chunk).Sound previewLimit (all ++ chunk) := by
  rcases h with ⟨hcut, hbytes, hcontents⟩
  refine ⟨hcut.append chunk rfl, ?_, ?_⟩
  · rw [Spool.store, hbytes, List.length_append, Int.natCast_add]
  · rw [Spool.store, hcontents]

/-- A body whose stream does not fail is stored chunk by chunk. -/
theorem Spool.storeBody_chunks (previewLimit : ℕ) (spool : Spool)
    (chunks : List (List UInt8)) :
    storeBody previewLimit spool (chunks.map .chunk) =
      .ok (chunks.foldl (store previewLimit) spool) := by
  induction chunks generalizing spool with
  | nil => rfl
  | cons chunk chunks ih => exact ih (spool.store previewLimit chunk)

/-- A body whose stream fails is refused, whatever came before. -/
theorem Spool.storeBody_failed (previewLimit : ℕ) (spool : Spool) (chunks : List (List UInt8))
    (body : List BodyItem) :
    storeBody previewLimit spool (chunks.map .chunk ++ .failed :: body) =
      .error (.badRequest "failed to read audio request body") := by
  induction chunks generalizing spool with
  | nil => rfl
  | cons chunk chunks ih => exact ih (spool.store previewLimit chunk)

/-- The spool of a body tells of the whole body. -/
theorem Spool.sound_chunks (previewLimit : ℕ) (chunks : List (List UInt8)) :
    (chunks.foldl (store previewLimit) empty).Sound previewLimit chunks.flatten :=
  sound_of_foldl (fun chunk h => Sound.store chunk h) ⟨.nil, rfl, rfl⟩ chunks

/-- `READ_BUFFER_SIZE`. -/
def readBufferSize : ℕ := 64 * 1024

/-- A stream of `AudioSpool::body`: its place in the file, and what it has yielded. -/
structure SpoolStream where
  position : ℕ
  buffer : List UInt8
  ended : Bool
  yielded : List (List UInt8)

namespace SpoolStream

/-- The file is opened at its beginning. -/
def opened : SpoolStream := ⟨0, List.replicate readBufferSize 0, false, []⟩

/-- `file.read` may answer this count. It answers zero at the end of the file only. -/
def MayRead (contents : List UInt8) (stream : SpoolStream) (count : ℕ) : Prop :=
  count ≤ readBufferSize ∧ stream.position + count ≤ contents.length ∧
    (count = 0 → stream.position = contents.length)

instance (contents : List UInt8) (stream : SpoolStream) (count : ℕ) :
    Decidable (stream.MayRead contents count) :=
  inferInstanceAs (Decidable (_ ∧ _ ∧ _))

/-- One turn of the loop of `AudioSpool::body`. -/
def turn (contents : List UInt8) (stream : SpoolStream) (count : ℕ) : Option SpoolStream :=
  if stream.ended = true ∨ ¬ stream.MayRead contents count then none
  else if count = 0 then some { stream with ended := true }
  else
    let buffer := (contents.drop stream.position).take count ++ stream.buffer.drop count
    some
      { stream with
        position := stream.position + count
        buffer := buffer
        yielded := stream.yielded ++ [buffer.take count] }

/-- A stream has yielded what stands before its position, and ends at the end of the file. -/
structure Faithful (contents : List UInt8) (stream : SpoolStream) : Prop where
  reads : Chunks.Reads contents stream.position stream.yielded
  at_end : stream.ended = true → stream.position = contents.length

variable {contents : List UInt8} {stream next : SpoolStream} {count : ℕ}

/-- A spool that was just opened can be read from the beginning. -/
theorem opened_faithful (contents : List UInt8) : opened.Faithful contents where
  reads := .nil contents
  at_end := by simp [opened]

/-- What a turn does. -/
theorem turn_cases (h : stream.turn contents count = some next) :
    stream.ended = false ∧ stream.MayRead contents count ∧
      ((count = 0 ∧ next = { stream with ended := true }) ∨
        (0 < count ∧ next.ended = false ∧ next.position = stream.position + count ∧
          next.yielded =
            stream.yielded ++ [(contents.drop stream.position).take count])) := by
  unfold turn at h
  split at h
  · cases h
  · next hgoes =>
    rw [not_or, not_not, Bool.not_eq_true] at hgoes
    rcases hgoes with ⟨hended, hmay⟩
    refine ⟨hended, hmay, ?_⟩
    split at h
    · next hzero => exact .inl ⟨hzero, (Option.some.inj h).symm⟩
    · next hpos =>
      have hlength : ((contents.drop stream.position).take count).length = count := by
        rw [List.length_take, List.length_drop]
        have hfits := hmay.2.1
        omega
      obtain rfl := Option.some.inj h
      refine .inr ⟨Nat.pos_of_ne_zero hpos, hended, rfl, ?_⟩
      rw [List.take_left' hlength]

/-- A turn of the reader goes on in the contents, without a gap. -/
theorem Faithful.turn (hstream : stream.Faithful contents)
    (h : stream.turn contents count = some next) : next.Faithful contents := by
  rcases turn_cases h with ⟨hended, hmay, ⟨hzero, rfl⟩ | ⟨hpos, hgoes, hposition, hyielded⟩⟩
  · exact ⟨hstream.reads, fun _ => hmay.2.2 hzero⟩
  · refine ⟨?_, ?_⟩
    · rw [hposition, hyielded]
      exact hstream.reads.next hpos hmay.2.1
    · intro hend
      rw [hgoes] at hend
      cases hend

/-- A stream that has not ended goes on with whatever `file.read` answers. -/
theorem exists_turn (hended : stream.ended = false) (hmay : stream.MayRead contents count) :
    ∃ next, stream.turn contents count = some next := by
  have hgoes : ¬ (stream.ended = true ∨ ¬ stream.MayRead contents count) := by
    rw [not_or, not_not, hended]
    exact ⟨Bool.false_ne_true, hmay⟩
  unfold SpoolStream.turn
  rw [if_neg hgoes]
  split
  · exact ⟨_, rfl⟩
  · exact ⟨_, rfl⟩

/-- There is always something that `file.read` may answer. -/
theorem Faithful.exists_mayRead (hstream : stream.Faithful contents) :
    ∃ count, stream.MayRead contents count := by
  have hposition := hstream.reads.position_le
  refine ⟨min 1 (contents.length - stream.position), ?_, ?_, ?_⟩
  · unfold readBufferSize
    omega
  · omega
  · intro hzero
    omega

/-- The turns that the stream has taken: one for each piece, and one for its end. -/
def turns (stream : SpoolStream) : ℕ := stream.yielded.length + stream.ended.toNat

/-- Every turn counts. -/
theorem turns_turn (h : stream.turn contents count = some next) :
    next.turns = stream.turns + 1 := by
  unfold turns
  rcases turn_cases h with ⟨hended, -, ⟨-, rfl⟩ | ⟨-, hgoes, -, hyielded⟩⟩
  · rw [hended]
    rfl
  · rw [hended, hgoes, hyielded, List.length_append, List.length_singleton]
    rfl

/-- A stream that took more turns than the file has bytes has ended. -/
theorem Faithful.ended_of_lt_turns (hstream : stream.Faithful contents)
    (hturns : contents.length < stream.turns) : stream.ended = true := by
  have hpieces := hstream.reads.length_le
  cases hended : stream.ended with
  | true => rfl
  | false =>
    rw [turns, hended, Bool.toNat_false] at hturns
    omega

/-- A stream that has ended has yielded the file. -/
theorem Faithful.flatten_of_ended (hstream : stream.Faithful contents)
    (hended : stream.ended = true) : stream.yielded.flatten = contents := by
  have hreads := hstream.reads
  rw [hstream.at_end hended] at hreads
  exact hreads.complete

end SpoolStream

/-- What is done with a spool. -/
inductive SpoolLabel
  | body
  | read (index count : ℕ)

/-- The stream of this index is read. -/
def SpoolLabel.reads (index : ℕ) : SpoolLabel → Bool
  | .body => false
  | .read other _ => other = index

/-- Streams are made one after the other, and each is read at any time. -/
def spoolStep (spool : Spool) (streams : List SpoolStream) : SpoolLabel → Option (List SpoolStream)
  | .body => some (streams ++ [.opened])
  | .read index count => do
    let stream ← streams[index]?
    let next ← stream.turn spool.contents count
    return streams.set index next

/-- All streams are faithful. -/
def AllFaithful (spool : Spool) (streams : List SpoolStream) : Prop :=
  ∀ (index : ℕ) stream, streams[index]? = some stream → stream.Faithful spool.contents

/-- A step on one stream leaves the others as they are. -/
theorem AllFaithful.step {spool : Spool} {streams next : List SpoolStream} {label : SpoolLabel}
    (hstreams : AllFaithful spool streams) (h : spoolStep spool streams label = some next) :
    AllFaithful spool next := by
  cases label with
  | body =>
    obtain rfl := Option.some.inj h
    exact Tasks.forall_start hstreams (SpoolStream.opened_faithful spool.contents)
  | read index count =>
    obtain ⟨stream, hstream, hturned⟩ := Option.bind_eq_some_iff.mp h
    obtain ⟨turned, hturn, heq⟩ := Option.bind_eq_some_iff.mp hturned
    obtain rfl := Option.some.inj heq
    exact Tasks.forall_set hstreams hstream ((hstreams index stream hstream).turn hturn)

/-- In any run every stream is faithful. -/
theorem AllFaithful.of_run {spool : Spool} {labels : List SpoolLabel}
    {streams : List SpoolStream}
    (h : Transition.run (spoolStep spool) [] labels = some streams) : AllFaithful spool streams :=
  Transition.invariant_of_run AllFaithful.step h (by simp [AllFaithful])

/-- The turns of the stream of an index, which are none before it is made. -/
def turnsAt (streams : List SpoolStream) (index : ℕ) : ℕ :=
  (streams[index]?).elim 0 SpoolStream.turns

/-- A step is a turn of the stream that it reads. -/
theorem turnsAt_step {spool : Spool} {streams next : List SpoolStream} {label : SpoolLabel}
    (h : spoolStep spool streams label = some next) (index : ℕ) :
    turnsAt next index = turnsAt streams index + if label.reads index = true then 1 else 0 := by
  unfold turnsAt
  cases label with
  | body =>
    obtain rfl := Option.some.inj h
    rw [List.getElem?_append]
    split
    · rfl
    · next hlate =>
      have hnone : streams[index]? = none := List.getElem?_eq_none (by omega)
      rw [hnone]
      cases index - streams.length with
      | zero => rfl
      | succ n => rfl
  | read other count =>
    obtain ⟨stream, hstream, hturned⟩ := Option.bind_eq_some_iff.mp h
    obtain ⟨turned, hturn, heq⟩ := Option.bind_eq_some_iff.mp hturned
    obtain rfl := Option.some.inj heq
    by_cases hindex : other = index
    · subst hindex
      rw [Tasks.set_self hstream, hstream]
      simpa [SpoolLabel.reads] using SpoolStream.turns_turn hturn
    · simp [SpoolLabel.reads, hindex, List.getElem?_set_ne hindex]

/-- In any run a stream took one turn for each time that it was read. -/
theorem countP_reads_of_run {spool : Spool} {labels : List SpoolLabel}
    {streams : List SpoolStream}
    (h : Transition.run (spoolStep spool) [] labels = some streams) (index : ℕ) :
    labels.countP (SpoolLabel.reads index) = turnsAt streams index := by
  refine Transition.history_of_run
    (p := fun labels streams =>
      labels.countP (SpoolLabel.reads index) = turnsAt streams index) ?_ h rfl
  intro before streams label next hbefore hstep
  rw [List.countP_append, hbefore, turnsAt_step hstep, List.countP_singleton]

/-- The three previews of a body agree however it comes in, and every stream of its spool yields
the body: a part of it until it ends, after at most as many pieces as bytes, and all of it then.
Until then it goes on with whatever `file.read` answers, and one read more than the body has bytes
ends it. -/
theorem upload_spool_faithful (chunks : List (List UInt8)) :
    bodyPreview chunks.flatten =
        (chunks.flatten.take (min archiveBodyLimit chunks.flatten.length),
          decide (archiveBodyLimit < chunks.flatten.length)) ∧
      chunks.foldl StreamingPreview.capture .empty =
        ⟨(bodyPreview chunks.flatten).1, (bodyPreview chunks.flatten).2, chunks.flatten.length⟩ ∧
      ∀ previewLimit, ∃ spool, Spool.create previewLimit (chunks.map .chunk) = .ok spool ∧
        spool.preview = chunks.flatten.take (min previewLimit chunks.flatten.length) ∧
        spool.previewTruncated = decide (previewLimit < chunks.flatten.length) ∧
        spool.bytes = chunks.flatten.length ∧
        ∀ labels streams, Transition.run (spoolStep spool) [] labels = some streams →
          ∀ (index : ℕ) stream, streams[index]? = some stream →
            stream.yielded.flatten <+: chunks.flatten ∧
              stream.yielded.length ≤ chunks.flatten.length ∧
              (stream.ended = true → stream.yielded.flatten = chunks.flatten) ∧
              (stream.ended = false →
                (∃ count, stream.MayRead chunks.flatten count) ∧
                ∀ count, stream.MayRead chunks.flatten count →
                  ∃ next, spoolStep spool streams (.read index count) = some next) ∧
              (chunks.flatten.length < labels.countP (SpoolLabel.reads index) →
                stream.ended = true ∧ stream.yielded.flatten = chunks.flatten) := by
  refine ⟨?_, ?_, ?_⟩
  · rw [← List.take_eq_take_min]
    rfl
  · rcases StreamingPreview.sound_chunks chunks with ⟨hcut, hbytes⟩
    generalize chunks.foldl StreamingPreview.capture .empty = preview at hcut hbytes
    rcases preview with ⟨kept, truncated, bytes⟩
    have hwhole := bodyPreview_cut chunks.flatten
    have hkept : kept = (bodyPreview chunks.flatten).1 :=
      hcut.kept_eq.trans hwhole.kept_eq.symm
    have htruncated : truncated = (bodyPreview chunks.flatten).2 :=
      hcut.exceeds_eq.trans hwhole.exceeds_eq.symm
    have hcount : bytes = chunks.flatten.length := hbytes
    rw [hkept, htruncated, hcount]
  · intro previewLimit
    rcases Spool.sound_chunks previewLimit chunks with ⟨hcut, hbytes, hcontents⟩
    refine ⟨_, Spool.storeBody_chunks previewLimit .empty chunks, ?_, hcut.exceeds_eq, hbytes, ?_⟩
    · rw [← List.take_eq_take_min]
      exact hcut.kept_eq
    · intro labels streams hrun index stream hstream
      have hfaithful := AllFaithful.of_run hrun index stream hstream
      rw [hcontents] at hfaithful
      refine ⟨?_, hfaithful.reads.length_le, hfaithful.flatten_of_ended, ?_, ?_⟩
      · rw [hfaithful.reads.flatten_eq]
        exact List.take_prefix _ _
      · refine fun hended => ⟨hfaithful.exists_mayRead, fun count hmay => ?_⟩
        obtain ⟨next, hturn⟩ := SpoolStream.exists_turn hended hmay
        refine ⟨streams.set index next, ?_⟩
        simp [spoolStep, hstream, hcontents, hturn]
      · intro hmany
        rw [countP_reads_of_run hrun, turnsAt, hstream] at hmany
        have hended := hfaithful.ended_of_lt_turns hmany
        exact ⟨hended, hfaithful.flatten_of_ended hended⟩

/-- A retry reads what the first attempt read in part, and four reads end it. -/
theorem upload_spool_faithful_retry :
    ∃ spool, Spool.create 2 [.chunk [1, 2], .chunk [], .chunk [3]] = .ok spool ∧
      spool.preview = [1, 2] ∧ spool.previewTruncated = true ∧
      ∃ first second,
        Transition.run (spoolStep spool) []
          [.body, .read 0 2, .body, .read 1 1, .read 1 1, .read 1 1, .read 1 0] =
            some [first, second] ∧
        first.yielded.flatten <+: [1, 2, 3] ∧ second.yielded = [[1], [2], [3]] ∧
          second.ended = true ∧ second.yielded.flatten = [1, 2, 3] := by
  obtain ⟨spool, hcreate, hpreview, htruncated, -, hstreams⟩ :=
    (upload_spool_faithful [[1, 2], [], [3]]).2.2 2
  obtain rfl := Except.ok.inj hcreate
  have hrun := hstreams
    [.body, .read 0 2, .body, .read 1 1, .read 1 1, .read 1 1, .read 1 0] _ rfl
  exact ⟨_, rfl, hpreview, htruncated, _, _, rfl, (hrun 0 _ rfl).1, rfl,
    (hrun 1 _ rfl).2.2.2.2 (by decide)⟩

end Failover

end OpenAiLb
