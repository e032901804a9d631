import OtelDatalake.Parquet.Uploader

open OtelDatalake.Foundation

namespace OtelDatalake.Parquet

def payload (messages : List UploaderMessage) : Chunk :=
  messages.flatMap fun
    | .chunk bytes => bytes
    | .finish => []

@[simp] theorem payload_nil : payload [] = [] := rfl

@[simp] theorem payload_append (left right : List UploaderMessage) :
    payload (left ++ right) = payload left ++ payload right := by
  simp [payload]

@[simp] theorem payload_chunk (bytes : Chunk) : payload [.chunk bytes] = bytes := by
  simp [payload]

@[simp] theorem payload_finish : payload [.finish] = [] := rfl

def Unfinished (sent : List UploaderMessage) : Prop := .finish ∉ sent

theorem Unfinished.chunk {sent : List UploaderMessage} (unfinished : Unfinished sent) (bytes : Chunk) :
    Unfinished (sent ++ [.chunk bytes]) := by
  simpa [Unfinished] using unfinished

def Finished (content : Chunk) (sent : List UploaderMessage) : Prop :=
  ∃ front, sent = front ++ [.finish] ∧ Unfinished front ∧ payload front = content

/-- A writer that still has its sender: what was sent and what is buffered are together the content. -/
structure ChannelWriter.Holds (content : Chunk) (writer : ChannelWriter) (sent : List UploaderMessage) : Prop where
  sender : writer.sender = true
  unfinished : Unfinished sent
  total : payload sent ++ writer.buffer = content

namespace ChannelWriter

/-- A failed call leaves the stream unfinished; a call that works leaves what `kept` says. -/
def Outcome {Error Value : Type} (kept : ChannelWriter → List UploaderMessage → Prop)
    (result : Except Error Value × ChannelWriter) (sent : List UploaderMessage) : Prop :=
  match result.1 with
  | .ok _ => kept result.2 sent
  | .error _ => Unfinished sent

variable {writer : ChannelWriter} {sent : List UploaderMessage} {content : Chunk}

theorem sendChunk_meets {chunk : Chunk} (sender : writer.sender = true) (unfinished : Unfinished sent) :
    (writer.sendChunk chunk).Meets Unfinished
      (fun result after => match result with
        | .ok _ => after = sent ++ [.chunk chunk]
        | .error _ => after = sent) sent := by
  rw [sendChunk, if_pos sender]
  exact ⟨unfinished, rfl, fun error => rfl⟩

theorem flushBuffer_meets (holds : writer.Holds content sent) :
    writer.flushBuffer.Meets Unfinished
      (Outcome fun flushed sent => flushed.Holds content sent ∧ flushed.buffer = []) sent := by
  obtain ⟨sender, unfinished, total⟩ := holds
  rw [flushBuffer]
  by_cases empty : writer.buffer.isEmpty = true
  · rw [if_pos empty]
    exact ⟨⟨sender, unfinished, total⟩, List.isEmpty_iff.mp empty⟩
  · rw [if_neg empty]
    have cleared : ({ writer with buffer := [] } : ChannelWriter).sender = true := sender
    refine Sending.Meets.bind (sendChunk_meets cleared unfinished) ?_
    rintro (error | _) after rfl
    · exact unfinished
    · refine ⟨⟨sender, unfinished.chunk _, ?_⟩, rfl⟩
      simpa using total

theorem writeThrough_meets {slice : Chunk} (holds : writer.Holds content sent) (empty : writer.buffer = []) :
    (writer.writeThrough slice).Meets Unfinished (Outcome fun after sent => after.Holds (content ++ slice) sent) sent := by
  obtain ⟨sender, unfinished, total⟩ := holds
  rw [writeThrough]
  refine Sending.Meets.bind (sendChunk_meets sender unfinished) ?_
  rintro (error | _) after rfl
  · exact unfinished
  · refine ⟨sender, unfinished.chunk _, ?_⟩
    rw [empty, List.append_nil] at total
    simp [empty, total]

theorem writeBuffered_meets {slice : Chunk} (holds : writer.Holds content sent) :
    (writer.writeBuffered slice).Meets Unfinished
      (Outcome fun after sent => after.Holds (content ++ slice) sent) sent := by
  obtain ⟨sender, unfinished, total⟩ := holds
  have extended : ({ writer with buffer := writer.buffer ++ slice, bytesWritten := writer.bytesWritten + slice.length } :
      ChannelWriter).Holds (content ++ slice) sent := by
    refine ⟨sender, unfinished, ?_⟩
    rw [← List.append_assoc, total]
  simp only [writeBuffered]
  split
  · refine Sending.Meets.bind (flushBuffer_meets extended) ?_
    rintro ⟨result, flushed⟩ sent outcome
    cases result with
    | ok _ => exact outcome.1
    | error _ => exact outcome
  · exact extended

theorem makeRoom_meets {slice : Chunk} (holds : writer.Holds content sent) :
    (writer.makeRoom slice).Meets Unfinished
      (Outcome fun flushed sent => flushed.Holds content sent ∧
        (flushed.bufferCapacity ≤ slice.length → flushed.buffer = [])) sent := by
  rw [makeRoom]
  split
  · refine (flushBuffer_meets holds).imp ?_
    rintro ⟨result, flushed⟩ sent outcome
    cases result with
    | ok _ => exact ⟨outcome.1, fun _ => outcome.2⟩
    | error _ => exact outcome
  · rename_i fits
    refine ⟨holds, fun large => ?_⟩
    change writer.bufferCapacity ≤ slice.length at large
    by_contra buffered
    have positive : 0 < writer.buffer.length := List.length_pos_iff.mpr buffered
    simp only [Bool.and_eq_true, Bool.not_eq_true', decide_eq_true_eq, List.isEmpty_eq_false_iff] at fits
    exact fits ⟨buffered, by omega⟩

theorem write_meets {slice : Chunk} (holds : writer.Holds content sent) :
    (writer.write slice).Meets Unfinished (Outcome fun after sent => after.Holds (content ++ slice) sent) sent := by
  rw [write]
  by_cases nothing : slice.isEmpty = true
  · rw [if_pos nothing, List.isEmpty_iff.mp nothing, List.append_nil]
    exact holds
  · rw [if_neg nothing]
    refine Sending.Meets.bind (makeRoom_meets holds) ?_
    rintro ⟨result, flushed⟩ sent outcome
    cases result with
    | error _ => exact outcome
    | ok _ =>
      by_cases large : flushed.bufferCapacity ≤ slice.length
      · simp only [if_pos large]
        exact writeThrough_meets outcome.1 (outcome.2 large)
      · simp only [if_neg large]
        exact writeBuffered_meets outcome.1

theorem finish_meets (holds : writer.Holds content sent) :
    writer.finish.Meets Unfinished
      (Outcome fun after sent => after.sender = false ∧ Finished content sent) sent := by
  rw [finish]
  refine Sending.Meets.bind (flushBuffer_meets holds) ?_
  rintro ⟨result, flushed⟩ sent outcome
  cases result with
  | error _ => exact outcome
  | ok _ =>
    obtain ⟨⟨sender, unfinished, total⟩, empty⟩ := outcome
    change flushed.sender = true at sender
    change payload sent ++ flushed.buffer = content at total
    change flushed.buffer = [] at empty
    rw [empty, List.append_nil] at total
    simp only [if_pos sender]
    exact ⟨unfinished, ⟨rfl, sent, rfl, unfinished, total⟩, fun error => unfinished⟩

section Without

variable (gone : writer.sender = false)
include gone

def Without {Value : Type} (result : Value × ChannelWriter) (_ : List UploaderMessage) : Prop :=
  result.2.sender = false

theorem sendChunk_without (chunk : Chunk) :
    (writer.sendChunk chunk).Meets (fun _ => False) (fun result _ => result.isOk = false) sent := by
  rw [sendChunk, gone]
  exact rfl

theorem flushBuffer_without : writer.flushBuffer.Meets (fun _ => False) Without sent := by
  rw [flushBuffer]
  split
  · exact gone
  · exact Sending.Meets.bind (sendChunk_without gone _) fun _ _ _ => gone

theorem writeBuffered_without (slice : Chunk) :
    (writer.writeBuffered slice).Meets (fun _ => False) Without sent := by
  simp only [writeBuffered]
  split
  · have kept : ({ writer with buffer := writer.buffer ++ slice, bytesWritten := writer.bytesWritten + slice.length } :
        ChannelWriter).sender = false := gone
    refine Sending.Meets.bind (flushBuffer_without kept) ?_
    rintro ⟨result, flushed⟩ sent outcome
    cases result <;> exact outcome
  · exact gone

theorem writeThrough_without (slice : Chunk) :
    (writer.writeThrough slice).Meets (fun _ => False) Without sent := by
  refine Sending.Meets.bind (sendChunk_without gone slice) ?_
  rintro (error | _) sent failed
  · exact gone
  · cases failed

theorem makeRoom_without (slice : Chunk) : (writer.makeRoom slice).Meets (fun _ => False) Without sent := by
  rw [makeRoom]
  split
  · exact flushBuffer_without gone
  · exact gone

theorem write_without (slice : Chunk) : (writer.write slice).Meets (fun _ => False) Without sent := by
  rw [write]
  split
  · exact gone
  · refine Sending.Meets.bind (makeRoom_without gone slice) ?_
    rintro ⟨result, flushed⟩ sent outcome
    cases result with
    | error _ => exact outcome
    | ok _ =>
      by_cases large : flushed.bufferCapacity ≤ slice.length
      · simp only [if_pos large]
        exact writeThrough_without outcome slice
      · simp only [if_neg large]
        exact writeBuffered_without outcome slice

theorem finish_without : writer.finish.Meets (fun _ => False) Without sent := by
  rw [finish]
  refine Sending.Meets.bind (flushBuffer_without gone) ?_
  rintro ⟨result, flushed⟩ sent outcome
  change flushed.sender = false at outcome
  cases result with
  | error _ => exact outcome
  | ok _ =>
    simp only [outcome, Bool.false_eq_true, if_false]
    exact outcome

theorem start_without (call : WriterCall) :
    ∃ succeeded after, call.start writer = .done (succeeded, after) ∧ after.sender = false := by
  have silent : (call.start writer).Meets (fun _ => False) Without [] := by
    cases call with
    | write slice => exact Sending.Meets.bind (write_without gone slice) fun _ _ outcome => outcome
    | flush => exact Sending.Meets.bind (flushBuffer_without gone) fun _ _ outcome => outcome
    | finish => exact Sending.Meets.bind (finish_without gone) fun _ _ outcome => outcome
  obtain ⟨⟨succeeded, after⟩, same, without⟩ := silent.silent
  exact ⟨succeeded, after, same, without⟩

end Without

end ChannelWriter

def WriterCall.content (call : WriterCall) (accepted : List Chunk) : Chunk :=
  match call with
  | .write slice => accepted.flatten ++ slice
  | _ => accepted.flatten

def WriterCall.Leaves (call : WriterCall) (accepted : List Chunk) (result : Bool × ChannelWriter)
    (sent : List UploaderMessage) : Prop :=
  if result.1 then
    match call with
    | .finish => result.2.sender = false ∧ Finished accepted.flatten sent
    | _ => result.2.Holds (call.content accepted) sent
  else Unfinished sent

theorem WriterCall.start_meets {call : WriterCall} {accepted : List Chunk} {writer : ChannelWriter}
    {sent : List UploaderMessage} (holds : writer.Holds accepted.flatten sent) :
    (call.start writer).Meets Unfinished (call.Leaves accepted) sent := by
  cases call with
  | write slice =>
    refine Sending.Meets.bind (ChannelWriter.write_meets holds) ?_
    rintro ⟨result, after⟩ sent outcome
    cases result <;> exact outcome
  | flush =>
    refine Sending.Meets.bind (ChannelWriter.flushBuffer_meets holds) ?_
    rintro ⟨result, after⟩ sent outcome
    cases result with
    | error _ => exact outcome
    | ok _ => exact outcome.1
  | finish =>
    refine Sending.Meets.bind (ChannelWriter.finish_meets holds) ?_
    rintro ⟨result, after⟩ sent outcome
    cases result <;> exact outcome

def WriterSide.Sound (accepted : List Chunk) (sent : List UploaderMessage) : WriterSide → Prop
  | .idle writer =>
    if writer.sender then writer.Holds accepted.flatten sent else Finished accepted.flatten sent
  | .calling call rest => Unfinished sent ∧ rest.Meets Unfinished (call.Leaves accepted) sent
  | .gone => Unfinished sent ∨ Finished accepted.flatten sent

def UploadTask.Sound (received : List UploaderMessage) (storage : Storage) : UploadTask → Prop
  | .opening => received = [] ∧ storage.written = []
  | .receiving => Unfinished received ∧ storage.written = payload received
  | .acquiring bytes | .writing bytes => Unfinished received ∧ storage.written ++ bytes = payload received
  | .acquiringToClose | .closing => .finish ∈ received ∧ storage.written = payload received
  | .aborting _ => True
  | .ended result => result = some (.ok ()) → storage.closeSucceeded = true

/-- An object and an attempt to close only exist behind the end of the stream. -/
structure Storage.Sound (storage : Storage) (received : List UploaderMessage) : Prop where
  attempted : storage.closeAttempted = true → .finish ∈ received
  object : ∀ content, storage.object = some content → .finish ∈ received ∧ content = payload received
  succeeded : storage.closeSucceeded = true → storage.object.isSome = true

/-- The background of an upload: the task with its storage, and the handle. -/
structure Upload.Background (upload : Upload) : Prop where
  task : upload.task.Sound upload.received upload.storage
  storage : upload.storage.Sound upload.received
  handle : upload.handle = .returned (.ok ()) → upload.storage.closeSucceeded = true

structure Upload.Sound (upload : Upload) : Prop extends upload.Background where
  side : upload.side.Sound upload.accepted upload.sent

theorem Storage.Sound.receive {storage : Storage} {received : List UploaderMessage} {message : UploaderMessage}
    (sound : storage.Sound received) (unfinished : Unfinished received) : storage.Sound (received ++ [message]) :=
  ⟨fun attempted => (unfinished (sound.attempted attempted)).elim,
    fun content made => (unfinished (sound.object content made).1).elim, sound.succeeded⟩

namespace Upload

variable {setting : UploadSetting} {upload after : Upload}

theorem Sound.finished (sound : upload.Sound) (ended : .finish ∈ upload.sent) :
    Finished upload.accepted.flatten upload.sent := by
  have side := sound.side
  unfold WriterSide.Sound at side
  split at side
  · split at side
    · exact (side.unfinished ended).elim
    · exact side
  · exact (side.1 ended).elim
  · exact side.resolve_left fun unfinished => unfinished ended

theorem Sound.complete (sound : upload.Sound) (ended : .finish ∈ upload.received) :
    payload upload.received = upload.accepted.flatten := by
  obtain ⟨front, whole, unfinished, total⟩ := sound.finished (List.mem_append_left _ ended)
  -- the first end of the stream is the last message, so nothing is left in the queue
  have drained : upload.queue = [] := by
    cases queued : upload.queue.reverse with
    | nil => exact List.reverse_eq_nil_iff.mp queued
    | cons last rest =>
      have split : upload.queue = rest.reverse ++ [last] := by
        rw [← List.reverse_reverse upload.queue, queued, List.reverse_cons]
      rw [sent, split, ← List.append_assoc] at whole
      have same := List.append_inj_left' whole rfl
      exact (unfinished (same ▸ List.mem_append_left _ ended)).elim
  rw [sent, drained, List.append_nil] at whole
  rw [whole, payload_append, payload_finish, List.append_nil, total]

theorem Background.returned {call : WriterCall} {succeeded : Bool} {writer : ChannelWriter}
    (background : upload.Background) (leaves : call.Leaves upload.accepted (succeeded, writer) upload.sent) :
    (upload.returned call succeeded writer).Sound := by
  obtain ⟨task, storage, handle⟩ := background
  cases succeeded with
  | false => exact ⟨⟨task, storage, handle⟩, Or.inl leaves⟩
  | true =>
    cases call with
    | write slice =>
      have holds : writer.Holds (upload.accepted.flatten ++ slice) upload.sent := leaves
      simp only [Upload.returned, if_true, if_pos holds.sender]
      refine ⟨⟨task, storage, handle⟩, ?_⟩
      simp only [WriterSide.Sound, if_pos holds.sender, List.flatten_append, List.flatten_singleton]
      exact holds
    | flush =>
      have holds : writer.Holds upload.accepted.flatten upload.sent := leaves
      refine ⟨⟨task, storage, handle⟩, ?_⟩
      simp only [Upload.returned, if_true, WriterSide.Sound, if_pos holds.sender]
      exact holds
    | finish =>
      have finished : writer.sender = false ∧ Finished upload.accepted.flatten upload.sent := leaves
      refine ⟨⟨task, storage, handle⟩, ?_⟩
      simp only [Upload.returned, if_true, WriterSide.Sound, finished.1, Bool.false_eq_true, if_false]
      exact finished.2

theorem Background.proceed {call : WriterCall} {rest : Call (Bool × ChannelWriter)} (background : upload.Background)
    (meets : rest.Meets Unfinished (call.Leaves upload.accepted) upload.sent) : (upload.proceed call rest).Sound := by
  cases rest with
  | done result => exact background.returned meets
  | send message resume => exact ⟨⟨background.task, background.storage, background.handle⟩, meets.1, meets⟩

theorem Sound.later {call : WriterCall} {writer : ChannelWriter} (sound : upload.Sound)
    (idle : upload.side = .idle writer) (gone : writer.sender = false) :
    (upload.proceed call (call.start writer)).Sound := by
  obtain ⟨⟨task, storage, handle⟩, side⟩ := sound
  simp only [idle, WriterSide.Sound, gone, Bool.false_eq_true, if_false] at side
  obtain ⟨succeeded, left, same, without⟩ := ChannelWriter.start_without gone call
  have kept : (WriterSide.idle left).Sound upload.accepted upload.sent := by
    simp only [WriterSide.Sound, without, Bool.false_eq_true, if_false]
    exact side
  rw [same]
  cases succeeded with
  | false => exact ⟨⟨task, storage, handle⟩, Or.inr side⟩
  | true =>
    cases call with
    | write slice =>
      simp only [Upload.proceed, Upload.returned, if_true, without, Bool.false_eq_true, if_false]
      exact ⟨⟨task, storage, handle⟩, kept⟩
    | flush | finish => exact ⟨⟨task, storage, handle⟩, kept⟩

theorem Sound.writerStep {action : WriterAction} (sound : upload.Sound)
    (stepped : upload.writerStep setting action = some after) : after.Sound := by
  obtain ⟨background, side⟩ := sound
  unfold Upload.writerStep at stepped
  split at stepped
  · rename_i writer call idle
    cases stepped
    cases held : writer.sender with
    | false => exact Sound.later ⟨background, side⟩ idle held
    | true =>
      rw [idle, WriterSide.Sound, if_pos held] at side
      exact background.proceed (WriterCall.start_meets side)
  · rename_i writer idle
    cases stepped
    refine ⟨⟨background.task, background.storage, background.handle⟩, ?_⟩
    rw [idle, WriterSide.Sound] at side
    split at side
    · exact Or.inl side.unfinished
    · exact Or.inr side
  · rename_i call message resume calling
    split at stepped
    · cases stepped
    · cases stepped
      rw [calling] at side
      have queued : (upload.received ++ (upload.queue ++ [message])) = upload.sent ++ [message] :=
        (List.append_assoc _ _ _).symm
      refine Background.proceed ⟨background.task, background.storage, background.handle⟩ ?_
      rw [sent, queued]
      exact side.2.2.1
  · rename_i call message resume blocked calling
    obtain ⟨error, -, rfl⟩ := Option.map_eq_some_iff.mp stepped
    rw [calling] at side
    exact background.proceed (side.2.2.2 error)
  · cases stepped

theorem Sound.background (sound : upload.Sound) (moved : after.Background) (side : after.side = upload.side)
    (same : after.sent = upload.sent) (accepted : after.accepted = upload.accepted) : after.Sound := by
  refine ⟨moved, ?_⟩
  rw [side, same, accepted]
  exact sound.side

theorem Background.ended {result : Option (Except ParquetSinkError Unit)} (background : upload.Background)
    (failed : result ≠ some (.ok ())) : ({ upload with task := .ended result }).Background :=
  ⟨fun worked => (failed worked).elim, background.storage, background.handle⟩

theorem Background.abortWith {error : ParquetSinkError} (background : upload.Background) :
    (upload.abortWith error).Background :=
  ⟨trivial, background.storage, background.handle⟩

theorem Sound.take (sound : upload.Sound) (receiving : upload.task = .receiving)
    (taken : upload.take setting = some after) : after.Sound := by
  have task := sound.task
  have storage := sound.storage
  rw [receiving] at task
  obtain ⟨unfinished, written⟩ := task
  unfold Upload.take at taken
  split at taken
  · rename_i bytes rest queued
    cases taken
    refine sound.background ⟨?_, storage.receive unfinished, sound.handle⟩ rfl ?_ rfl
    · refine ⟨unfinished.chunk bytes, ?_⟩
      rw [payload_append, payload_chunk, written]
    · simp [sent, queued]
  · rename_i rest queued
    cases taken
    refine sound.background ⟨?_, storage.receive unfinished, sound.handle⟩ rfl ?_ rfl
    · refine ⟨List.mem_append_right _ (List.mem_singleton_self _), ?_⟩
      rw [payload_append, payload_finish, List.append_nil, written]
    · simp [sent, queued]
  · split at taken
    · cases taken
      exact ⟨⟨trivial, storage, sound.handle⟩, sound.side⟩
    · cases taken

theorem Background.writeReply {bytes torn : Chunk} {reply : Except String Unit} (background : upload.Background)
    (writing : upload.task = .writing bytes) : (upload.writeReply bytes torn reply).Background := by
  obtain ⟨task, storage, handle⟩ := background
  rw [writing] at task
  have unopened : ∀ storage' : Storage, storage'.closeAttempted = upload.storage.closeAttempted →
      storage'.object = upload.storage.object → storage'.closeSucceeded = upload.storage.closeSucceeded →
      storage'.Sound upload.received := by
    intro storage' attempted object succeeded
    refine ⟨attempted ▸ storage.attempted, object ▸ storage.object, ?_⟩
    rw [succeeded, object]
    exact storage.succeeded
  cases reply with
  | ok _ => exact ⟨task, unopened _ rfl rfl rfl, handle⟩
  | error _ => exact ⟨trivial, unopened _ rfl rfl rfl, handle⟩

theorem Background.startClose (background : upload.Background) (permitted : upload.task = .acquiringToClose) :
    upload.startClose.Background := by
  obtain ⟨task, storage, handle⟩ := background
  rw [permitted] at task
  exact ⟨task, ⟨fun _ => task.1, storage.object, storage.succeeded⟩, handle⟩

theorem Background.commit (background : upload.Background) (closing : upload.task = .closing) :
    upload.commit.Background := by
  obtain ⟨task, storage, handle⟩ := background
  have standing := task
  rw [closing] at standing
  refine ⟨?_, ⟨storage.attempted, ?_, fun _ => rfl⟩, handle⟩
  · simp only [Upload.commit, closing]
    exact standing
  · intro content made
    cases made
    exact standing

theorem Background.closeReply {reply : Except String Unit} (background : upload.Background)
    (replied : upload.closeReply reply = some after) : after.Background := by
  obtain ⟨task, storage, handle⟩ := background
  cases reply with
  | ok _ =>
    simp only [Upload.closeReply, Option.ite_none_right_eq_some, Option.some.injEq] at replied
    obtain ⟨made, rfl⟩ := replied
    exact ⟨fun _ => rfl, ⟨storage.attempted, storage.object, fun _ => made⟩, fun _ => rfl⟩
  | error cause =>
    cases replied
    exact ⟨trivial, storage, handle⟩

theorem Sound.taskStep {action : TaskAction} (sound : upload.Sound)
    (stepped : upload.taskStep setting action = some after) : after.Sound := by
  have task := sound.task
  have background := sound.toBackground
  unfold Upload.taskStep at stepped
  split at stepped
  · cases stepped
  · cases stepped
    exact sound.background (background.ended (by simp)) rfl rfl rfl
  · rename_i opening
    cases stepped
    rw [opening] at task
    obtain ⟨nothing, unwritten⟩ := task
    refine sound.background ⟨⟨?_, ?_⟩, sound.storage, sound.handle⟩ rfl rfl rfl
    · rw [nothing]
      exact List.not_mem_nil
    · rw [nothing, unwritten, payload_nil]
  · cases stepped
    exact sound.background (background.ended (by simp)) rfl rfl rfl
  · rename_i receiving
    exact sound.take receiving stepped
  iterate 3
    · simp only [Option.ite_none_right_eq_some, Option.some.injEq] at stepped
      obtain ⟨-, rfl⟩ := stepped
      exact sound.background background.abortWith rfl rfl rfl
  · rename_i bytes reply acquiring
    rw [acquiring] at task
    obtain ⟨permit, -, rfl⟩ := Option.map_eq_some_iff.mp stepped
    cases permit with
    | ok _ => exact sound.background ⟨task, sound.storage, sound.handle⟩ rfl rfl rfl
    | error error => exact sound.background background.abortWith rfl rfl rfl
  · rename_i bytes reply torn writing
    cases stepped
    refine sound.background (background.writeReply writing) ?_ ?_ ?_
    all_goals cases reply <;> rfl
  · rename_i reply acquiring
    obtain ⟨permit, -, rfl⟩ := Option.map_eq_some_iff.mp stepped
    cases permit with
    | ok _ => exact sound.background (background.startClose acquiring) rfl rfl rfl
    | error error => exact sound.background background.abortWith rfl rfl rfl
  · rename_i closing
    cases stepped
    exact sound.background (background.commit closing) rfl rfl rfl
  · rename_i reply closing
    have moved := background.closeReply stepped
    cases reply with
    | ok _ =>
      simp only [Upload.closeReply, Option.ite_none_right_eq_some, Option.some.injEq] at stepped
      obtain ⟨-, rfl⟩ := stepped
      exact sound.background moved rfl rfl rfl
    | error cause =>
      cases stepped
      exact sound.background moved rfl rfl rfl
  · cases stepped
    exact sound.background (background.ended (by simp)) rfl rfl rfl
  · cases stepped

theorem Sound.handleStep {action : HandleAction} (sound : upload.Sound)
    (stepped : upload.handleStep action = some after) : after.Sound := by
  have task := sound.task
  unfold Upload.handleStep at stepped
  split at stepped
  · cases stepped
    exact ⟨⟨task, sound.storage, (nomatch ·)⟩, sound.side⟩
  iterate 2
    · cases stepped
      exact ⟨⟨task, sound.storage, (nomatch ·)⟩, sound.side⟩
  · split at stepped
    · rename_i result ended
      cases stepped
      refine ⟨⟨task, sound.storage, ?_⟩, sound.side⟩
      -- only a task that ended after a successful close is joined with a success
      rw [ended] at task
      intro worked
      simp only [UploaderHandle.returned.injEq] at worked
      cases result with
      | none => cases worked
      | some result => exact task (congrArg some worked)
    · cases stepped
  · cases stepped

theorem Sound.step {action : UploadAction} (sound : upload.Sound) (stepped : upload.step setting action = some after) :
    after.Sound := by
  cases action with
  | writer action => exact sound.writerStep stepped
  | task action => exact sound.taskStep stepped
  | handle action => exact sound.handleStep stepped

theorem started_sound (bufferCapacity : Nat) : (started bufferCapacity).Sound := by
  refine ⟨⟨⟨rfl, rfl⟩, ⟨(nomatch ·), fun content made => (nomatch made), (nomatch ·)⟩, (nomatch ·)⟩, ?_⟩
  exact ⟨rfl, List.not_mem_nil, rfl⟩

end Upload

abbrev Uploads (setting : UploadSetting) : Upload → Upload → Prop :=
  Run (Upload.step setting) fun _ _ => True

/-- A close that was performed made an object of all that was accepted before the finish; without the finish no close is
    attempted; and a completed upload was closed. -/
theorem upload_never_truncated (setting : UploadSetting) (bufferCapacity : Nat) (upload : Upload)
    (run : Uploads setting (Upload.started bufferCapacity) upload) :
    (upload.storage.closeSucceeded = true → upload.storage.object.isSome = true) ∧
    (∀ content, upload.storage.object = some content →
      .finish ∈ upload.received ∧ content = upload.accepted.flatten) ∧
    (upload.senderDropped = true → .finish ∉ upload.sent → upload.storage.closeAttempted = false) ∧
    (upload.handle = .returned (.ok ()) → upload.storage.closeSucceeded = true) := by
  have sound : upload.Sound :=
    Run.invariant Upload.Sound (Upload.started_sound bufferCapacity) (fun _ _ _ sound _ stepped => sound.step stepped) run
  refine ⟨sound.storage.succeeded, ?_, ?_, sound.handle⟩
  · intro content made
    obtain ⟨ended, rfl⟩ := sound.storage.object content made
    exact ⟨ended, sound.complete ended⟩
  · intro _ unfinished
    by_contra attempted
    have ended := sound.storage.attempted (Bool.of_not_eq_false attempted)
    exact unfinished (List.mem_append_left _ ended)

def localSetting : UploadSetting := ⟨"test/zero_cap.bin", .multiThread, false⟩

/-- Seven bytes through a buffer of four, three of them behind the finish. -/
def lateWrite : List UploadAction :=
  [.task (.opened (.ok ())), .writer (.call (.write [1, 2])), .writer (.call (.write [3, 4, 5])), .writer .enqueue,
   .writer (.call (.write [6])), .writer .enqueue, .writer (.call .finish), .writer .enqueue,
   .writer (.call (.write [7, 8, 9])), .task .receive, .task (.permit (.ok ())), .task (.wrote (.ok ()) []),
   .handle .wait, .task .receive, .task (.permit (.ok ())), .task (.wrote (.ok ()) []), .task .receive,
   .task (.permit (.ok ())), .task .commitObject, .task (.closed (.ok ())), .handle .join]

theorem lateWrite_executed :
    (execute (Upload.step localSetting) (Upload.started 4) lateWrite).map
      (fun upload => (upload.storage.object, upload.accepted, upload.acceptedLater)) =
      some (some [1, 2, 3, 4, 5, 6], [[1, 2], [3, 4, 5], [6]], [[7, 8, 9]]) := by
  decide

theorem upload_six_bytes :
    ∃ upload, Uploads localSetting (Upload.started 4) upload ∧ upload.storage.object = some [1, 2, 3, 4, 5, 6] ∧
      .finish ∈ upload.received ∧ upload.accepted.flatten = [1, 2, 3, 4, 5, 6] := by
  obtain ⟨upload, reached, seen⟩ := Option.map_eq_some_iff.mp lateWrite_executed
  simp only [Prod.mk.injEq] at seen
  have run : Uploads localSetting (Upload.started 4) upload := execute_run (fun _ _ => trivial) lateWrite reached
  have whole := (upload_never_truncated localSetting 4 upload run).2.1 _ seen.1
  exact ⟨upload, run, seen.1, whole.1, whole.2.symm⟩

/-- A small slice behind the finish is accepted and stays in the buffer. -/
theorem upload_late_slice :
    ¬∀ (setting : UploadSetting) (bufferCapacity : Nat) (upload : Upload),
      Uploads setting (Upload.started bufferCapacity) upload → ∀ content, upload.storage.object = some content →
        .finish ∈ upload.received ∧ content = (upload.accepted ++ upload.acceptedLater).flatten := by
  intro claimed
  obtain ⟨upload, reached, seen⟩ := Option.map_eq_some_iff.mp lateWrite_executed
  simp only [Prod.mk.injEq] at seen
  have run : Uploads localSetting (Upload.started 4) upload := execute_run (fun _ _ => trivial) lateWrite reached
  have whole := (claimed localSetting 4 upload run _ seen.1).2
  rw [seen.2.1, seen.2.2] at whole
  simp at whole

end OtelDatalake.Parquet
