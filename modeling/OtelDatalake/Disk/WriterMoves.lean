import OtelDatalake.Disk.Writer

open Std OtelDatalake.Foundation OtelDatalake.Buffer

namespace OtelDatalake.Disk

variable {Batch : Type} [RecordBatch Batch] {codec : Codec Batch}

def WriterPhase.pending : WriterPhase codec → List (AppendReply codec)
  | .processing _ progress => progress.appendReplies
  | .replying replies _ _ _ => replies
  | _ => []

/-- What holds of every append that was stored successfully. -/
def Granted (property : AppendRequest codec → WrittenFrame → Prop) (replies : List (AppendReply codec)) : Prop :=
  ∀ reply ∈ replies, ∀ written, reply.2 = .ok written → property reply.1 written

section Granted

variable {property weaker : AppendRequest codec → WrittenFrame → Prop} {replies more : List (AppendReply codec)}

theorem Granted.mono (granted : Granted property replies)
    (implied : ∀ request written, property request written → weaker request written) : Granted weaker replies :=
  fun reply member written ok => implied reply.1 written (granted reply member written ok)

theorem Granted.subset (granted : Granted property replies) (subset : ∀ reply ∈ more, reply ∈ replies) :
    Granted property more :=
  fun reply member => granted reply (subset reply member)

theorem granted_append : Granted property (replies ++ more) ↔ Granted property replies ∧ Granted property more := by
  simp only [Granted, List.mem_append, or_imp, forall_and]

theorem granted_singleton {reply : AppendReply codec} :
    Granted property [reply] ↔ ∀ written, reply.2 = .ok written → property reply.1 written := by
  simp only [Granted, List.mem_singleton, forall_eq]

theorem granted_nil : Granted property ([] : List (AppendReply codec)) := fun _ member => absurd member List.not_mem_nil

end Granted

def WriterPhase.todo : WriterPhase codec → List (WriterCommand codec)
  | .processing todo _ => todo
  | _ => []

def WriterCommand.watermark? : WriterCommand codec → Option DiskWatermark
  | .updateWatermark watermark | .flushWatermark watermark => some watermark
  | _ => none

def WriterCommand.request? : WriterCommand codec → Option (AppendRequest codec)
  | .appendEncoded request => some request
  | _ => none

namespace Writer

variable {config : WriterConfig} {writer next : Writer codec} {action : WriterAction codec} {ops : List FsOp}

/-- The answers to the appends that the writer has processed. -/
def replies (writer : Writer codec) : List (AppendReply codec) := writer.phase.pending ++ writer.answers

def commands (writer : Writer codec) : List (WriterCommand codec) := writer.phase.todo ++ writer.channel

theorem processCommand_kept (config : WriterConfig) (writer : Writer codec) (faults : WriteFaults)
    (todo : List (WriterCommand codec)) (progress : BatchProgress codec) (command : WriterCommand codec) :
    let moved := (writer.processCommand config faults todo progress command).1
    moved.phase.todo = todo ∧ moved.channel = writer.channel ∧
      moved.persistedWatermark = writer.persistedWatermark ∧ ∃ more, moved.log = writer.log ++ more := by
  cases command with
  | appendEncoded request => exact ⟨rfl, rfl, rfl, _, rfl⟩
  | updateWatermark watermark => exact ⟨rfl, rfl, rfl, [], (List.append_nil _).symm⟩
  | flushWatermark watermark => exact ⟨rfl, rfl, rfl, [], (List.append_nil _).symm⟩
  | shutdown => exact ⟨rfl, rfl, rfl, [], (List.append_nil _).symm⟩

theorem persistWatermark_kept (writer : Writer codec) (syncErr fault : Option String) (unlinks : Nat → Bool) :
    let moved := (writer.persistWatermark syncErr fault unlinks).1
    moved.channel = writer.channel ∧ moved.log = writer.log ∧ moved.answers = writer.answers ∧
      moved.segments.active = writer.segments.active := by
  simp only [persistWatermark]
  split <;> exact ⟨rfl, rfl, rfl, rfl⟩

theorem Moves.commands (moves : Moves config writer action next ops) {command : WriterCommand codec}
    (member : command ∈ next.commands) : command ∈ writer.commands ∨ action = .submit command := by
  cases moves with
  | submit added =>
    rcases List.mem_append.mp member with todo | queued
    · exact Or.inl (List.mem_append_left _ todo)
    · rcases List.mem_append.mp queued with old | new
      · exact Or.inl (List.mem_append_right _ old)
      · rw [List.mem_singleton.mp new]
        exact Or.inr rfl
  | receive phase =>
    refine Or.inl (List.mem_append_right _ ?_)
    have split : writer.channel.take 64 ++ writer.channel.drop 64 = writer.channel := List.take_append_drop _ _
    rw [← split]
    exact member
  | @process faults head todo progress phase _ =>
    obtain ⟨left, channel, _, _⟩ := writer.processCommand_kept config faults todo progress head
    simp only [Writer.commands, left, channel] at member
    simp only [Writer.commands, phase, WriterPhase.todo]
    exact Or.inl (List.mem_cons_of_mem _ member)
  | unsynced phase due => exact Or.inl (List.mem_append_right _ member)
  | synced phase due => exact Or.inl (List.mem_append_right _ member)
  | syncFailed phase => exact Or.inl (List.mem_append_right _ member)
  | reply phase => exact Or.inl (List.mem_append_right _ member)
  | @persist fault unlinks syncErr shutdown phase =>
    refine Or.inl (List.mem_append_right _ ?_)
    simp only [Writer.commands, (writer.persistWatermark_kept syncErr fault unlinks).1] at member
    cases shutdown <;> exact member
  | @clean _ _ _ shutdown phase =>
    refine Or.inl (List.mem_append_right _ ?_)
    cases shutdown <;> exact member
  | leave phase sync => exact Or.inl (List.mem_append_right _ member)
  | abandon phase channel =>
    left
    simp only [Writer.commands, channel]
    rcases List.mem_append.mp member with todo | queued
    · exact List.mem_append_left _ todo
    · exact List.mem_append_right _ (List.mem_cons_of_mem _ queued)

def requests (writer : Writer codec) : List (AppendRequest codec) := writer.commands.filterMap (·.request?)

theorem requests_submit (command : WriterCommand codec) :
    { writer with channel := writer.channel ++ [command] }.requests = writer.requests ++ command.request?.toList := by
  simp only [requests, commands, ← List.append_assoc, List.filterMap_append]
  cases found : command.request? with
  | none => simp [found]
  | some request => simp [found]

theorem requests_processing {command : WriterCommand codec} {todo : List (WriterCommand codec)}
    {progress : BatchProgress codec} (phase : writer.phase = .processing (command :: todo) progress) :
    writer.requests = command.request?.toList ++ (todo ++ writer.channel).filterMap (·.request?) := by
  simp only [requests, commands, phase, WriterPhase.todo, List.cons_append]
  cases found : command.request? with
  | none => simp [found]
  | some request => simp [found]

theorem requests_process (faults : WriteFaults) (todo : List (WriterCommand codec)) (progress : BatchProgress codec)
    (command : WriterCommand codec) :
    (writer.processCommand config faults todo progress command).1.requests =
      (todo ++ writer.channel).filterMap (·.request?) := by
  obtain ⟨left, channel, _, _⟩ := writer.processCommand_kept config faults todo progress command
  simp only [requests, commands, left, channel]

/-- Appends leave the queue in their order, and only a submission adds one. -/
theorem Moves.requests (moves : Moves config writer action next ops)
    (quiet : ∀ command, action = .submit command → command.request? = none) :
    next.requests.Sublist writer.requests := by
  have channel : (writer.channel.filterMap (·.request?)).Sublist writer.requests :=
    (List.sublist_append_right writer.phase.todo writer.channel).filterMap _
  cases moves with
  | submit command =>
    rw [requests_submit, quiet command rfl, Option.toList_none, List.append_nil]
  | receive phase =>
    simp only [Writer.requests, Writer.commands, WriterPhase.todo, List.take_append_drop]
    exact channel
  | process phase _ =>
    rw [requests_process, requests_processing phase]
    exact List.sublist_append_right _ _
  | @persist fault unlinks syncErr shutdown phase =>
    simp only [Writer.requests, Writer.commands, (writer.persistWatermark_kept syncErr fault unlinks).1]
    cases shutdown <;> exact channel
  | @clean _ _ _ shutdown phase => cases shutdown <;> exact channel
  | abandon phase queued =>
    simp only [Writer.requests, Writer.commands, queued, List.filterMap_append]
    exact List.Sublist.append_left ((List.sublist_cons_self _ _).filterMap _) _
  | unsynced phase due => exact channel
  | synced phase due => exact channel
  | syncFailed phase => exact channel
  | reply phase => exact channel
  | leave phase sync => exact channel

/-- The log gets the frames that the step writes. -/
theorem Moves.log_eq (moves : Moves config writer action next ops) :
    next.log = writer.log ++ writer.written ops := by
  have silent : writer.written [] = [] := by
    unfold written
    split <;> rfl
  cases moves with
  | @process faults command todo progress phase _ =>
    cases command with
    | appendEncoded request => simp [processCommand, written, phase]
    | updateWatermark watermark => simp [processCommand, written, phase]
    | flushWatermark watermark => simp [processCommand, written, phase]
    | shutdown => simp [processCommand, written, phase]
  | @persist fault unlinks syncErr shutdown phase =>
    simp [(writer.persistWatermark_kept syncErr fault unlinks).2.1, written, phase]
  | synced phase due => simp [written, phase]
  | leave phase sync => rcases phase with phase | phase <;> simp [written, phase]
  | _ => simp [silent]

/-- Only an append writes. -/
theorem Moves.unwritten (moves : Moves config writer action next ops)
    (idle : ∀ request todo progress, writer.phase ≠ .processing (.appendEncoded request :: todo) progress)
    {segmentId : Nat} {bytes : Bytes} : FsOp.write segmentId bytes ∉ ops := by
  cases moves with
  | @process faults command todo progress phase _ =>
    cases command with
    | appendEncoded request => exact absurd phase (idle request todo progress)
    | updateWatermark watermark => exact List.not_mem_nil
    | flushWatermark watermark => exact List.not_mem_nil
    | shutdown => exact List.not_mem_nil
  | synced phase due => simp
  | @persist fault unlinks syncErr shutdown phase =>
    simp only [persistWatermark]
    split
    · exact List.not_mem_nil
    · simp [gcSealedSegments]
  | leave phase sync => rcases sync with rfl | ⟨segment, _, rfl⟩ <;> simp
  | _ => exact List.not_mem_nil

theorem Moves.log (moves : Moves config writer action next ops) {entry : LoggedFrame}
    (member : entry ∈ writer.log) : entry ∈ next.log := by
  cases moves with
  | @process faults head todo progress phase _ =>
    obtain ⟨_, _, _, more, log⟩ := writer.processCommand_kept config faults todo progress head
    rw [log]
    exact List.mem_append_left _ member
  | @persist fault unlinks syncErr shutdown phase =>
    simp only [(writer.persistWatermark_kept syncErr fault unlinks).2.1]
    exact member
  | _ => exact member

theorem Moves.staged (moves : Moves config writer action next ops) {bound : SignalKind → Nat}
    (before : ∀ signal, writer.stagedWatermark.forSignal signal ≤ bound signal)
    (smaller : ∀ signal, writer.persistedWatermark.forSignal signal ≤ bound signal)
    (carried : ∀ command ∈ writer.commands, ∀ watermark ∈ command.watermark?,
      ∀ signal, watermark.forSignal signal ≤ bound signal) (signal : SignalKind) :
    next.stagedWatermark.forSignal signal ≤ bound signal := by
  cases moves with
  | @process faults head todo progress phase _ =>
    have first := carried head (by simp [Writer.commands, phase, WriterPhase.todo])
    cases head with
    | appendEncoded request => exact before signal
    | updateWatermark watermark =>
      simp only [processCommand, DiskWatermark.mergeMonotonic_forSignal]
      exact max_le (before signal) (first watermark rfl signal)
    | flushWatermark watermark =>
      simp only [processCommand, DiskWatermark.mergeMonotonic_forSignal]
      exact max_le (before signal) (first watermark rfl signal)
    | shutdown => exact before signal
  | @persist fault unlinks syncErr shutdown phase =>
    simp only [persistWatermark]
    split
    · exact smaller signal
    · exact before signal
  | _ => exact before signal

theorem Moves.staged_le (moves : Moves config writer action next ops)
    (before : ∀ signal, writer.persistedWatermark.forSignal signal ≤ writer.stagedWatermark.forSignal signal)
    (signal : SignalKind) : next.persistedWatermark.forSignal signal ≤ next.stagedWatermark.forSignal signal := by
  cases moves with
  | @process faults command todo progress phase _ =>
    cases command with
    | appendEncoded request => exact before signal
    | updateWatermark watermark =>
      simp only [processCommand, DiskWatermark.mergeMonotonic_forSignal]
      exact (before signal).trans (Nat.le_max_left _ _)
    | flushWatermark watermark =>
      simp only [processCommand, DiskWatermark.mergeMonotonic_forSignal]
      exact (before signal).trans (Nat.le_max_left _ _)
    | shutdown => exact before signal
  | @persist fault unlinks syncErr shutdown phase =>
    simp only [persistWatermark]
    split <;> exact le_rfl
  | _ => exact before signal

theorem Moves.persisted (moves : Moves config writer action next ops) :
    next.persistedWatermark = writer.persistedWatermark ∨ next.persistedWatermark = writer.stagedWatermark := by
  cases moves with
  | @process faults head todo progress phase _ =>
    exact Or.inl (writer.processCommand_kept config faults todo progress head).2.2.1
  | @persist fault unlinks syncErr shutdown phase =>
    simp only [persistWatermark]
    split
    · exact Or.inl rfl
    · exact Or.inr rfl
  | _ => exact Or.inl rfl

/-- A failed sync turns every answer into an error. -/
theorem finalAnswer_ok {syncErr : Option String} {result : Except String WrittenFrame}
    {written : WrittenFrame} (ok : finalAnswer syncErr result = .ok written) : syncErr = none ∧ result = .ok written := by
  cases syncErr with
  | none => exact ⟨rfl, ok⟩
  | some reason => cases ok

/-- Only an append that is processed adds to the successful answers. -/
theorem Moves.granted {property : AppendRequest codec → WrittenFrame → Prop}
    (moves : Moves config writer action next ops) (before : Granted property writer.replies)
    (fresh : ∀ faults request todo progress, action = .process faults →
      writer.phase = .processing (.appendEncoded request :: todo) progress → ∀ written,
      (writeEncodedFrame config writer.persistedWatermark faults codec request.signal request.seqId
        request.frame.header.rowCount request.frame.bytes writer.segments).1 = .ok written →
      property request written) : Granted property next.replies := by
  obtain ⟨pending, answers⟩ := granted_append.mp before
  cases moves with
  | submit command => exact before
  | receive phase => exact answers
  | @process faults command todo progress phase _ =>
    rw [phase] at pending
    cases command with
    | appendEncoded request =>
      exact granted_append.mpr ⟨granted_append.mpr ⟨pending,
        granted_singleton.mpr (fresh faults request todo progress rfl phase)⟩, answers⟩
    | updateWatermark watermark => exact granted_append.mpr ⟨pending, answers⟩
    | flushWatermark watermark => exact granted_append.mpr ⟨pending, answers⟩
    | shutdown => exact granted_append.mpr ⟨pending, answers⟩
  | unsynced phase due =>
    rw [phase] at pending
    exact granted_append.mpr ⟨pending, answers⟩
  | synced phase due =>
    rw [phase] at pending
    exact granted_append.mpr ⟨pending, answers⟩
  | syncFailed phase =>
    rw [phase] at pending
    exact granted_append.mpr ⟨pending, answers⟩
  | @reply reply replies syncErr dirty shutdown phase =>
    rw [phase] at pending
    refine granted_append.mpr ⟨pending.subset fun _ => List.mem_cons_of_mem _,
      granted_append.mpr ⟨answers, granted_singleton.mpr fun written ok => ?_⟩⟩
    exact pending reply List.mem_cons_self written (finalAnswer_ok ok).2
  | @persist fault unlinks syncErr shutdown phase =>
    simp only [replies, (writer.persistWatermark_kept syncErr fault unlinks).2.2.1]
    cases shutdown <;> exact answers
  | @clean _ _ _ shutdown phase => cases shutdown <;> exact answers
  | leave phase sync => exact answers
  | @abandon command rest phase channel =>
    refine granted_append.mpr ⟨pending, granted_append.mpr ⟨answers, fun reply member written ok => ?_⟩⟩
    cases command with
    | appendEncoded request =>
      rw [List.mem_singleton.mp member] at ok
      cases ok
    | updateWatermark watermark => cases member
    | flushWatermark watermark => cases member
    | shutdown => cases member

end Writer

end OtelDatalake.Disk
