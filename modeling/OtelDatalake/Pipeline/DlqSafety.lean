import OtelDatalake.Buffer.DeadLetterSafety
import OtelDatalake.Foundation.Interleaving
import OtelDatalake.Pipeline.DlqSink

open OtelDatalake.Foundation OtelDatalake.Core OtelDatalake.Codec OtelDatalake.Buffer

namespace OtelDatalake.Pipeline

section Names

theorem underscore_not_mem_arrow (n : Nat) : '_' ∉ Nat.toDigits 10 n ++ ".arrow".toList := by
  rw [List.mem_append, not_or]
  exact ⟨Nat.underscore_not_in_toDigits, by decide⟩

theorem fileName_split (signal : SignalKind) (stamp : DlqStamp) : fileName signal stamp =
    (signal.asStr ++ '_' :: Nat.toDigits 10 stamp.millis) ++ '_' :: (Nat.toDigits 10 stamp.seq ++ ".arrow".toList) :=
  (List.append_assoc signal.asStr ('_' :: Nat.toDigits 10 stamp.millis) _).symm

theorem fileName_seq {signal other : SignalKind} {stamp another : DlqStamp}
    (same : fileName signal stamp = fileName other another) : stamp.seq = another.seq := by
  rw [fileName_split, fileName_split] at same
  have ends := (append_separator_inj (underscore_not_mem_arrow _) (underscore_not_mem_arrow _) same).2
  exact toDigits_ten_inj (List.append_cancel_right ends)

theorem fileName_millis {signal other : SignalKind} {stamp another : DlqStamp}
    (same : fileName signal stamp = fileName other another) : stamp.millis = another.millis := by
  rw [fileName_split, fileName_split] at same
  have begins := (append_separator_inj (underscore_not_mem_arrow _) (underscore_not_mem_arrow _) same).1
  exact toDigits_ten_inj
    (append_separator_inj Nat.underscore_not_in_toDigits Nat.underscore_not_in_toDigits begins).2

theorem tempName_tmp {signal other : SignalKind} {stamp another : DlqStamp} {pid otherPid tmp number : Nat}
    (same : tempName signal stamp pid tmp = tempName other another otherPid number) : tmp = number := by
  have split (kind : SignalKind) (mark : DlqStamp) (process serial : Nat) : tempName kind mark process serial =
      (".tmp_".toList ++ kind.asStr ++ '_' :: (Nat.toDigits 10 mark.millis ++ '_' :: (Nat.toDigits 10 mark.seq ++
        '_' :: Nat.toDigits 10 process))) ++ '_' :: (Nat.toDigits 10 serial ++ ".arrow".toList) := by
    unfold tempName
    generalize Nat.toDigits 10 = digits
    simp only [List.append_assoc, List.cons_append]
  rw [split signal, split other] at same
  have ends := (append_separator_inj (underscore_not_mem_arrow _) (underscore_not_mem_arrow _) same).2
  exact toDigits_ten_inj (List.append_cancel_right ends)

def DlqPath.isTemp (path : DlqPath) : Bool := path.name.head? = some '.'

end Names

namespace DlqCall

variable {Batch : Type} {call : DlqCall Batch} {stamp : DlqStamp}

@[simp] theorem filePath_isTemp : (call.filePath stamp).isTemp = false := by
  have letter (rest : Text) : ∃ c text, call.signal.asStr ++ rest = c :: text ∧ c ≠ '.' := by
    cases call.signal with
    | logs => exact ⟨'l', _, rfl, by decide⟩
    | metrics => exact ⟨'m', _, rfl, by decide⟩
    | traces => exact ⟨'t', _, rfl, by decide⟩
  obtain ⟨c, text, named, apart⟩ := letter ('_' :: (Nat.toDigits 10 stamp.millis ++
    '_' :: (Nat.toDigits 10 stamp.seq ++ ".arrow".toList)))
  have file : (call.filePath stamp).name = c :: text := named
  rw [DlqPath.isTemp, file, List.head?_cons]
  exact decide_eq_false fun same => apart (Option.some.inj same)

@[simp] theorem tempFilePath_isTemp {pid tmp : Nat} : (call.tempFilePath stamp pid tmp).isTemp = true := by
  rfl

theorem filePath_ne_temp {other : DlqCall Batch} {another : DlqStamp} {pid tmp : Nat} :
    call.filePath stamp ≠ other.tempFilePath another pid tmp := by
  intro same
  have kinds := congrArg DlqPath.isTemp same
  rw [filePath_isTemp, tempFilePath_isTemp] at kinds
  cases kinds

def tmp? (call : DlqCall Batch) : Option Nat :=
  match call.phase with
  | .create _ tmp | .write _ tmp _ | .sync _ tmp _ | .rename _ tmp | .remove tmp _ => some tmp
  | _ => none

def writes? (call : DlqCall Batch) : Option Nat :=
  match call.phase with
  | .write _ _ inode | .sync _ _ inode => some inode
  | _ => none

end DlqCall

/-- No other send of the same process has taken the number. -/
def SeqApart {Batch : Type} (call other : DlqCall Batch) : Prop :=
  ∀ stamp ∈ call.stamp, ∀ another ∈ other.stamp, stamp.boot = another.boot → stamp.seq ≠ another.seq

/-- No two sends use a temporary file of one number, or write to one inode. -/
def TmpApart {Batch : Type} (call other : DlqCall Batch) : Prop :=
  (∀ tmp ∈ call.tmp?, ∀ number ∈ other.tmp?, tmp ≠ number) ∧
    ∀ inode ∈ call.writes?, ∀ target ∈ other.writes?, inode ≠ target

theorem SeqApart.symm {Batch : Type} {call other : DlqCall Batch} (apart : SeqApart call other) : SeqApart other call :=
  fun stamp stamped another also boot => (apart another also stamp stamped boot.symm).symm

theorem TmpApart.symm {Batch : Type} {call other : DlqCall Batch} (apart : TmpApart call other) : TmpApart other call :=
  ⟨fun tmp used number also => (apart.1 number also tmp used).symm,
    fun inode writes target also => (apart.2 target also inode writes).symm⟩

/-- No send of another process has taken the name of a send's file. -/
def Alone {Batch : Type} (calls : List (DlqCall Batch)) (call : DlqCall Batch) (stamp : DlqStamp) : Prop :=
  ∀ other ∈ calls, ∀ another ∈ other.stamp, another.boot ≠ stamp.boot → other.filePath another ≠ call.filePath stamp

variable {Batch : Type} (encode : Batch → Except Text (List UInt8))

/-- What a send has of the volume in each of its phases. -/
def Holding (host : DlqHost) (calls : List (DlqCall Batch)) (call : DlqCall Batch) : Prop :=
  match call.phase with
  | .createDir | .fetchSeq => call.stamp = none
  | .encode | .remove .. => ∃ stamp ∈ call.stamp, stamp.boot = host.boot
  | .fetchTmp buf | .create buf _ => ∃ stamp ∈ call.stamp, stamp.boot = host.boot ∧ encode call.batch = .ok buf
  | .write buf tmp inode => ∃ stamp ∈ call.stamp, stamp.boot = host.boot ∧ encode call.batch = .ok buf ∧
      host.volume.inode (call.tempFilePath stamp host.pid tmp) = some inode ∧ host.volume.content inode = []
  | .sync buf tmp inode => ∃ stamp ∈ call.stamp, stamp.boot = host.boot ∧ encode call.batch = .ok buf ∧
      host.volume.inode (call.tempFilePath stamp host.pid tmp) = some inode ∧ host.volume.content inode = buf
  | .rename buf tmp => ∃ stamp ∈ call.stamp, stamp.boot = host.boot ∧ encode call.batch = .ok buf ∧ ∃ inode,
      host.volume.inode (call.tempFilePath stamp host.pid tmp) = some inode ∧ host.volume.Sealed inode buf ∧
      ∀ other ∈ calls, other.writes? ≠ some inode
  | .openDir | .syncDir => ∃ stamp ∈ call.stamp, stamp.boot = host.boot ∧ ∃ inode buf,
      host.volume.inode (call.filePath stamp) = some inode ∧ host.volume.Sealed inode buf ∧ encode call.batch = .ok buf
  | .succeeded => ∃ stamp ∈ call.stamp, host.volume.lasting (call.filePath stamp) = true → Alone calls call stamp →
    ∃ inode buf,
      host.volume.entries (call.filePath stamp) = [some inode] ∧ host.volume.Sealed inode buf ∧
      encode call.batch = .ok buf
  | .failed _ | .aborted => True

/-- A file that is not temporary is the whole batch of a send that has its name, and nobody writes to it. -/
def Whole (host : DlqHost) (calls : List (DlqCall Batch)) (path : DlqPath) (inode : Nat) : Prop :=
  (∀ other ∈ calls, other.writes? ≠ some inode) ∧ ∃ bytes, host.volume.Sealed inode bytes ∧
    ∃ call ∈ calls, ∃ stamp ∈ call.stamp, path = call.filePath stamp ∧ encode call.batch = .ok bytes

structure DlqSound (host : DlqHost) (calls : List (DlqCall Batch)) : Prop where
  bounded : ∀ path inode, some inode ∈ host.volume.entries path → inode < host.volume.nextInode
  listed : ∀ path, host.volume.entries path ≠ []
  writers : ∀ call ∈ calls, ∀ inode ∈ call.writes?, inode < host.volume.nextInode
  stamps : ∀ call ∈ calls, ∀ stamp ∈ call.stamp, stamp.boot ≤ host.boot ∧
    (stamp.boot = host.boot → stamp.seq < host.dlqSeq)
  temps : ∀ call ∈ calls, ∀ tmp ∈ call.tmp?, tmp < host.tmpCounter
  seqApart : calls.Pairwise SeqApart
  tmpApart : calls.Pairwise TmpApart
  whole : ∀ path, path.isTemp = false → ∀ inode, some inode ∈ host.volume.entries path →
    Whole encode host calls path inode
  holding : ∀ call ∈ calls, Holding encode host calls call

variable {encode} {host next : DlqHost} {calls left right : List (DlqCall Batch)} {call moved other : DlqCall Batch}

/-- The paths that a send may change are its file and its temporary file. -/
def Elsewhere (host : DlqHost) (call : DlqCall Batch) (path : DlqPath) : Prop :=
  ∀ stamp ∈ call.stamp, path ≠ call.filePath stamp ∧ ∀ tmp ∈ call.tmp?, path ≠ call.tempFilePath stamp host.pid tmp

/-- One step of a send of the present process, with what it does to the volume and to the counters. -/
structure Moves (encode : Batch → Except Text (List UInt8)) (host : DlqHost) (call : DlqCall Batch) (next : DlqHost)
    (moved : DlqCall Batch) : Prop where
  same : moved.sink = call.sink ∧ moved.signal = call.signal ∧ moved.batch = call.batch
  process : next.boot = host.boot ∧ next.pid = host.pid
  current : ∀ stamp ∈ call.stamp, stamp.boot = host.boot
  grows : host.dlqSeq ≤ next.dlqSeq ∧ host.tmpCounter ≤ next.tmpCounter ∧ host.volume.nextInode ≤ next.volume.nextInode
  stamp : moved.stamp = call.stamp ∨ call.stamp = none ∧ ∃ millis, moved.stamp = some ⟨host.boot, millis, host.dlqSeq⟩ ∧
    host.dlqSeq < next.dlqSeq
  tmp : moved.tmp? = none ∨ moved.tmp? = call.tmp? ∨
    moved.tmp? = some host.tmpCounter ∧ host.tmpCounter < next.tmpCounter
  writes : moved.writes? = none ∨ moved.writes? = call.writes? ∨
    moved.writes? = some host.volume.nextInode ∧ host.volume.nextInode < next.volume.nextInode
  frame : host.volume.Frame next.volume (Elsewhere host call)
    fun inode => call.writes? ≠ some inode ∧ inode < host.volume.nextInode

theorem Moves.filePath (moves : Moves encode host call next moved) (stamp : DlqStamp) :
    moved.filePath stamp = call.filePath stamp := by
  obtain ⟨sink, signal, _⟩ := moves.same
  rw [DlqCall.filePath, DlqCall.filePath, sink, signal]

theorem Moves.keeps (moves : Moves encode host call next moved) {stamp : DlqStamp} (stamped : stamp ∈ call.stamp) :
    stamp ∈ moved.stamp := by
  rcases moves.stamp with same | ⟨unstamped, _⟩
  · rw [same]
    exact stamped
  · rw [unstamped] at stamped
    cases stamped

theorem Moves.apart (moves : Moves encode host call next moved) (left right : List (DlqCall Batch))
    (seqs : SeqApart call other) {stamp : DlqStamp} (stamped : stamp ∈ other.stamp)
    (alone : stamp.boot = host.boot ∨ Alone (left ++ moved :: right) other stamp) :
    Elsewhere host call (other.filePath stamp) := by
  intro own ownStamp
  refine ⟨fun same => ?_, fun _ _ => DlqCall.filePath_ne_temp⟩
  have boot := moves.current own ownStamp
  have numbers : own.seq = stamp.seq := fileName_seq (congrArg DlqPath.name same).symm
  by_cases process : stamp.boot = host.boot
  · exact seqs own ownStamp stamp stamped (boot.trans process.symm) numbers
  · have taken := alone.resolve_left process moved (by simp) own (moves.keeps ownStamp)
    rw [boot] at taken
    exact taken (Ne.symm process) ((moves.filePath own).trans same.symm)

theorem Moves.unwritten (moves : Moves encode host call next moved) {inode : Nat}
    (below : inode < host.volume.nextInode) (free : ∀ other ∈ left ++ call :: right, other.writes? ≠ some inode) :
    ∀ other ∈ left ++ moved :: right, other.writes? ≠ some inode := by
  refine Interleaved.forall_moved free fun writes => ?_
  rcases moves.writes with none | same | ⟨fresh, _⟩
  · rw [none] at writes
    cases writes
  · rw [same] at writes
    exact free call (by simp) writes
  · rw [fresh, Option.some.injEq] at writes
    omega

theorem Moves.alone (moves : Moves encode host call next moved) {stamp : DlqStamp}
    (alone : Alone (left ++ moved :: right) other stamp) : Alone (left ++ call :: right) other stamp := by
  refine Interleaved.forall_moved alone fun another stamped apart => ?_
  rw [← moves.filePath]
  exact alone moved (by simp) another (moves.keeps stamped) apart

theorem Holding.others (moves : Moves encode host call next moved)
    (sound : DlqSound encode host (left ++ call :: right)) (member : other ∈ left ++ right) :
    Holding encode next (left ++ moved :: right) other := by
  have listed : other ∈ left ++ call :: right := Interleaved.mem_of_mem_others call member
  have seqs := Interleaved.pairwise_others SeqApart.symm sound.seqApart other member
  have tmps := Interleaved.pairwise_others TmpApart.symm sound.tmpApart other member
  have holding := sound.holding other listed
  -- Its temporary file is not that of the other send, and is not a file that is renamed to.
  have hidden : ∀ stamp ∈ other.stamp, ∀ tmp ∈ other.tmp?,
      Elsewhere host call (other.tempFilePath stamp host.pid tmp) := by
    intro stamp stamped tmp used own ownStamp
    refine ⟨fun same => DlqCall.filePath_ne_temp same.symm, fun number taken same => ?_⟩
    exact tmps.1 number taken tmp used (tempName_tmp (congrArg DlqPath.name same)).symm
  have settled : ∀ {path : DlqPath} {inode : Nat}, path.isTemp = false → host.volume.inode path = some inode →
      call.writes? ≠ some inode ∧ inode < host.volume.nextInode := by
    intro path inode file found
    have entry := Volume.mem_of_inode found
    exact ⟨(sound.whole path file inode entry).1 call (by simp), sound.bounded path inode entry⟩
  unfold Holding at holding ⊢
  cases phase : other.phase with
  | createDir | fetchSeq | failed | aborted =>
    rw [phase] at holding
    exact holding
  | encode | remove | fetchTmp | create =>
    rw [phase] at holding
    simp only [moves.process.1]
    exact holding
  | write buf tmp inode =>
    rw [phase] at holding
    obtain ⟨stamp, stamped, boot, encoded, entry, content⟩ := holding
    have used : other.tmp? = some tmp := by rw [DlqCall.tmp?, phase]
    have writes : other.writes? = some inode := by rw [DlqCall.writes?, phase]
    have apart : call.writes? ≠ some inode := fun own => tmps.2 inode own inode writes rfl
    refine ⟨stamp, stamped, boot.trans moves.process.1.symm, encoded, ?_, ?_⟩
    · rw [moves.process.2, moves.frame.inode (hidden stamp stamped tmp used), entry]
    · rw [moves.frame.content inode ⟨apart, sound.writers other listed inode writes⟩, content]
  | sync buf tmp inode =>
    rw [phase] at holding
    obtain ⟨stamp, stamped, boot, encoded, entry, content⟩ := holding
    have used : other.tmp? = some tmp := by rw [DlqCall.tmp?, phase]
    have writes : other.writes? = some inode := by rw [DlqCall.writes?, phase]
    have apart : call.writes? ≠ some inode := fun own => tmps.2 inode own inode writes rfl
    refine ⟨stamp, stamped, boot.trans moves.process.1.symm, encoded, ?_, ?_⟩
    · rw [moves.process.2, moves.frame.inode (hidden stamp stamped tmp used), entry]
    · rw [moves.frame.content inode ⟨apart, sound.writers other listed inode writes⟩, content]
  | rename buf tmp =>
    rw [phase] at holding
    obtain ⟨stamp, stamped, boot, encoded, inode, entry, whole, free⟩ := holding
    have used : other.tmp? = some tmp := by rw [DlqCall.tmp?, phase]
    have below := sound.bounded _ inode (Volume.mem_of_inode entry)
    refine ⟨stamp, stamped, boot.trans moves.process.1.symm, encoded, inode, ?_, ?_, moves.unwritten below free⟩
    · rw [moves.process.2, moves.frame.inode (hidden stamp stamped tmp used), entry]
    · exact moves.frame.sealed ⟨free call (by simp), below⟩ whole
  | openDir | syncDir =>
    rw [phase] at holding
    obtain ⟨stamp, stamped, boot, inode, buf, entry, whole, encoded⟩ := holding
    refine ⟨stamp, stamped, boot.trans moves.process.1.symm, inode, buf, ?_, ?_, encoded⟩
    · rw [moves.frame.inode (moves.apart left right seqs stamped (.inl boot)), entry]
    · exact moves.frame.sealed (settled DlqCall.filePath_isTemp entry) whole
  | succeeded =>
    rw [phase] at holding
    obtain ⟨stamp, stamped, durable⟩ := holding
    refine ⟨stamp, stamped, fun lasting alone => ?_⟩
    obtain ⟨inode, buf, entry, whole, encoded⟩ := durable (moves.frame.lasting ▸ lasting) (moves.alone alone)
    have found : host.volume.inode (other.filePath stamp) = some inode := by rw [Volume.inode, entry]; rfl
    exact ⟨inode, buf, moves.frame.settled (moves.apart left right seqs stamped (.inr alone)) entry,
      moves.frame.sealed (settled DlqCall.filePath_isTemp found) whole, encoded⟩

theorem DlqSound.step_moved (sound : DlqSound encode host (left ++ call :: right))
    (moves : Moves encode host call next moved)
    (bounded : ∀ path inode, some inode ∈ next.volume.entries path → inode < next.volume.nextInode)
    (listed : ∀ path, next.volume.entries path ≠ [])
    (whole : ∀ path, path.isTemp = false → ∀ inode, some inode ∈ next.volume.entries path →
      some inode ∈ host.volume.entries path ∨ Whole encode next (left ++ moved :: right) path inode)
    (own : Holding encode next (left ++ moved :: right) moved) : DlqSound encode next (left ++ moved :: right) where
  bounded := bounded
  listed := listed
  writers := by
    refine Interleaved.forall_moved
      (fun other member inode writes => Nat.lt_of_lt_of_le (sound.writers other member inode writes) moves.grows.2.2) ?_
    intro inode writes
    rcases moves.writes with none | same | ⟨fresh, more⟩
    · rw [none] at writes
      cases writes
    · rw [same] at writes
      exact Nat.lt_of_lt_of_le (sound.writers call (by simp) inode writes) moves.grows.2.2
    · rw [fresh, Option.mem_some_iff] at writes
      omega
  stamps := by
    have kept : ∀ other ∈ left ++ call :: right, ∀ stamp ∈ other.stamp, stamp.boot ≤ next.boot ∧
        (stamp.boot = next.boot → stamp.seq < next.dlqSeq) := by
      intro other member stamp stamped
      obtain ⟨past, below⟩ := sound.stamps other member stamp stamped
      rw [moves.process.1]
      exact ⟨past, fun process => Nat.lt_of_lt_of_le (below process) moves.grows.1⟩
    refine Interleaved.forall_moved kept fun stamp stamped => ?_
    rcases moves.stamp with same | ⟨_, millis, taken, more⟩
    · rw [same] at stamped
      exact kept call (by simp) stamp stamped
    · rw [taken, Option.mem_some_iff] at stamped
      subst stamped
      exact ⟨Nat.le_of_eq moves.process.1.symm, fun _ => more⟩
  temps := by
    refine Interleaved.forall_moved
      (fun other member tmp used => Nat.lt_of_lt_of_le (sound.temps other member tmp used) moves.grows.2.1) ?_
    intro tmp used
    rcases moves.tmp with none | same | ⟨fresh, more⟩
    · rw [none] at used
      cases used
    · rw [same] at used
      exact Nat.lt_of_lt_of_le (sound.temps call (by simp) tmp used) moves.grows.2.1
    · rw [fresh, Option.mem_some_iff] at used
      omega
  seqApart := by
    refine Interleaved.pairwise_moved SeqApart.symm sound.seqApart ?_
    intro other member apart stamp stamped another also boot
    rcases moves.stamp with same | ⟨_, millis, taken, _⟩
    · rw [same] at stamped
      exact apart stamp stamped another also boot
    · rw [taken, Option.mem_some_iff] at stamped
      subst stamped
      exact Nat.ne_of_gt ((sound.stamps other (Interleaved.mem_of_mem_others call member) another also).2 boot.symm)
  tmpApart := by
    refine Interleaved.pairwise_moved TmpApart.symm sound.tmpApart ?_
    intro other member apart
    have listed := Interleaved.mem_of_mem_others call member
    refine ⟨fun tmp used number also => ?_, fun inode writes target also => ?_⟩
    · rcases moves.tmp with none | same | ⟨fresh, _⟩
      · rw [none] at used
        cases used
      · rw [same] at used
        exact apart.1 tmp used number also
      · rw [fresh, Option.mem_some_iff] at used
        subst used
        exact Nat.ne_of_gt (sound.temps other listed number also)
    · rcases moves.writes with none | same | ⟨fresh, _⟩
      · rw [none] at writes
        cases writes
      · rw [same] at writes
        exact apart.2 inode writes target also
      · rw [fresh, Option.mem_some_iff] at writes
        subst writes
        exact Nat.ne_of_gt (sound.writers other listed target also)
  whole := by
    intro path file inode entry
    rcases whole path file inode entry with before | new
    · have below := sound.bounded path inode before
      obtain ⟨free, bytes, whole, witness, member, stamp, stamped, named, encoded⟩ := sound.whole path file inode before
      refine ⟨moves.unwritten below free, bytes, moves.frame.sealed ⟨free call (by simp), below⟩ whole, ?_⟩
      by_cases same : witness = call
      · subst same
        refine ⟨moved, by simp, stamp, moves.keeps stamped, named.trans (moves.filePath stamp).symm, ?_⟩
        rw [moves.same.2.2]
        exact encoded
      · refine ⟨witness, ?_, stamp, stamped, named, encoded⟩
        simp only [List.mem_append, List.mem_cons] at member ⊢
        rcases member with place | place | place
        · exact .inl place
        · exact absurd place same
        · exact .inr (.inr place)
    · exact new
  holding := by
    intro other member
    rw [List.mem_append, List.mem_cons] at member
    rcases member with place | rfl | place
    · exact Holding.others moves sound (List.mem_append_left _ place)
    · exact own
    · exact Holding.others moves sound (List.mem_append_right _ place)

theorem DlqSound.enter {phase : DlqPhase} (sound : DlqSound encode host (left ++ call :: right))
    (current : ∀ stamp ∈ call.stamp, stamp.boot = host.boot)
    (tmp : (call.enter phase).tmp? = none ∨ (call.enter phase).tmp? = call.tmp?)
    (writes : (call.enter phase).writes? = none)
    (own : Holding encode host (left ++ call.enter phase :: right) (call.enter phase)) :
    DlqSound encode host (left ++ call.enter phase :: right) :=
  sound.step_moved ⟨⟨rfl, rfl, rfl⟩, ⟨rfl, rfl⟩, current, ⟨Nat.le_refl _, Nat.le_refl _, Nat.le_refl _⟩, .inl rfl,
    tmp.imp_right .inl, .inl writes, .refl _⟩ sound.bounded sound.listed (fun _ _ _ entry => .inl entry) own

theorem DlqSound.touch {phase : DlqPhase} {volume : Volume DlqPath}
    (sound : DlqSound encode host (left ++ call :: right))
    (current : ∀ stamp ∈ call.stamp, stamp.boot = host.boot)
    (tmp : (call.enter phase).tmp? = none ∨ (call.enter phase).tmp? = call.tmp?)
    (writes : (call.enter phase).writes? = none ∨ (call.enter phase).writes? = call.writes?)
    (inodes : volume.nextInode = host.volume.nextInode)
    (frame : host.volume.Frame volume (Elsewhere host call)
      fun inode => call.writes? ≠ some inode ∧ inode < host.volume.nextInode)
    (entries : ∀ path inode, some inode ∈ volume.entries path → some inode ∈ host.volume.entries path)
    (listed : ∀ path, volume.entries path ≠ [])
    (own : Holding encode { host with volume := volume } (left ++ call.enter phase :: right) (call.enter phase)) :
    DlqSound encode { host with volume := volume } (left ++ call.enter phase :: right) :=
  sound.step_moved ⟨⟨rfl, rfl, rfl⟩, ⟨rfl, rfl⟩, current, ⟨Nat.le_refl _, Nat.le_refl _, Nat.le_of_eq inodes.symm⟩,
    .inl rfl, tmp.imp_right .inl, writes.imp_right .inl, frame⟩
    (fun path inode entry => inodes ▸ sound.bounded path inode (entries path inode entry)) listed
    (fun path _ inode entry => .inl (entries path inode entry)) own

theorem DlqSound.created {buf : List UInt8} {tmp inode : Nat} {stamp : DlqStamp} {volume : Volume DlqPath}
    (sound : DlqSound encode host (left ++ call :: right)) (phase : call.phase = .create buf tmp)
    (stamped : call.stamp = some stamp) (boot : stamp.boot = host.boot) (encoded : encode call.batch = .ok buf)
    (created : host.volume.createNew (call.tempFilePath stamp host.pid tmp) = some (volume, inode)) :
    DlqSound encode { host with volume := volume } (left ++ call.enter (.write buf tmp inode) :: right) := by
  obtain ⟨rfl, entry, content, more, frame⟩ := Volume.createNew_eq_some created
  have used : call.tmp? = some tmp := by rw [DlqCall.tmp?, phase]
  have writes : call.writes? = none := by rw [DlqCall.writes?, phase]
  have moves : Moves encode host call { host with volume := volume }
      (call.enter (.write buf tmp host.volume.nextInode)) :=
    { same := ⟨rfl, rfl, rfl⟩
      process := ⟨rfl, rfl⟩
      current := fun own also => by
        rw [stamped, Option.mem_some_iff] at also
        rw [← also, boot]
      grows := ⟨Nat.le_refl _, Nat.le_refl _, more ▸ Nat.le_succ _⟩
      stamp := .inl rfl
      tmp := .inr (.inl used.symm)
      writes := .inr (.inr ⟨rfl, more ▸ Nat.lt_succ_self _⟩)
      frame :=
        ⟨fun path apart => frame.entries path ((apart stamp stamped).2 tmp used),
          fun other apart => frame.content other apart.2, fun other apart => frame.synced other apart.2, frame.lasting⟩ }
  have kept : ∀ path, path ≠ call.tempFilePath stamp host.pid tmp → ∀ other, some other ∈ volume.entries path →
      some other ∈ host.volume.entries path := by
    intro path apart other member
    rw [Volume.createNew_entries created apart] at member
    exact member
  refine sound.step_moved moves (fun path other member => ?_) (fun path => ?_) (fun path file other member => ?_) ?_
  · rw [more]
    by_cases same : path = call.tempFilePath stamp host.pid tmp
    · rw [same, entry, List.mem_cons, Option.some.injEq] at member
      rcases member with rfl | member
      · exact Nat.lt_succ_self _
      · exact Nat.lt_succ_of_lt (sound.bounded _ other member)
    · exact Nat.lt_succ_of_lt (sound.bounded path other (kept path same other member))
  · by_cases same : path = call.tempFilePath stamp host.pid tmp
    · rw [same, entry]
      exact List.cons_ne_nil _ _
    · rw [Volume.createNew_entries created same]
      exact sound.listed path
  · refine .inl (kept path (fun same => ?_) other member)
    rw [same, DlqCall.tempFilePath_isTemp] at file
    cases file
  · have head : volume.inode (call.tempFilePath stamp host.pid tmp) = some host.volume.nextInode := by
      rw [Volume.inode, entry]
      rfl
    exact ⟨stamp, stamped, boot, encoded, head, content⟩

theorem DlqSound.renamed {buf : List UInt8} {tmp : Nat} {stamp : DlqStamp} {volume : Volume DlqPath}
    (sound : DlqSound encode host (left ++ call :: right)) (phase : call.phase = .rename buf tmp)
    (stamped : call.stamp = some stamp)
    (renamed : host.volume.rename (call.tempFilePath stamp host.pid tmp) (call.filePath stamp) = some volume) :
    DlqSound encode { host with volume := volume } (left ++ call.enter .openDir :: right) := by
  have holding := sound.holding call (by simp)
  simp only [Holding, phase] at holding
  obtain ⟨own, ownStamp, boot, encoded, inode, entry, whole, free⟩ := holding
  rw [stamped, Option.mem_some_iff] at ownStamp
  subst ownStamp
  obtain ⟨_, found, target, source, others, content, synced, inodes, lasting⟩ :=
    Volume.rename_eq_some renamed DlqCall.filePath_ne_temp
  rw [entry, Option.some.injEq] at found
  subst found
  have used : call.tmp? = some tmp := by rw [DlqCall.tmp?, phase]
  have moves : Moves encode host call { host with volume := volume } (call.enter .openDir) :=
    { same := ⟨rfl, rfl, rfl⟩
      process := ⟨rfl, rfl⟩
      current := fun other also => by
        rw [stamped, Option.mem_some_iff] at also
        rw [← also, boot]
      grows := ⟨Nat.le_refl _, Nat.le_refl _, Nat.le_of_eq inodes.symm⟩
      stamp := .inl rfl
      tmp := .inl rfl
      writes := .inl rfl
      frame :=
        ⟨fun path apart => .inl (others path ((apart stamp stamped).2 tmp used) (apart stamp stamped).1),
          fun other _ => congrFun content other, fun other _ => congrFun synced other, lasting⟩ }
  have below := sound.bounded _ inode (Volume.mem_of_inode entry)
  have sealed' : volume.Sealed inode buf :=
    ⟨(congrFun synced inode).trans whole.1, (congrFun content inode).trans whole.2⟩
  have arrived : ∀ path other, some other ∈ volume.entries path →
      some other ∈ host.volume.entries path ∨ path = call.filePath stamp ∧ other = inode := by
    intro path other member
    by_cases temp : path = call.tempFilePath stamp host.pid tmp
    · rw [temp, source, List.mem_cons] at member
      rw [temp]
      exact .inl (member.resolve_left (by simp))
    · by_cases file : path = call.filePath stamp
      · rw [file, target, List.mem_cons, Option.some.injEq] at member
        rw [file]
        exact member.elim (fun same => .inr ⟨rfl, same⟩) .inl
      · rw [others path temp file] at member
        exact .inl member
  refine sound.step_moved moves (fun path other member => ?_) (fun path => ?_) (fun path file other member => ?_) ?_
  · rw [inodes]
    rcases arrived path other member with before | ⟨_, rfl⟩
    · exact sound.bounded path other before
    · exact below
  · by_cases temp : path = call.tempFilePath stamp host.pid tmp
    · rw [temp, source]
      exact List.cons_ne_nil _ _
    · by_cases file : path = call.filePath stamp
      · rw [file, target]
        exact List.cons_ne_nil _ _
      · rw [others path temp file]
        exact sound.listed path
  · rcases arrived path other member with before | ⟨rfl, rfl⟩
    · exact .inl before
    · exact .inr ⟨moves.unwritten below free, buf, sealed', call.enter .openDir, by simp, stamp, stamped, rfl, encoded⟩
  · have head : volume.inode (call.filePath stamp) = some inode := by
      rw [Volume.inode, target]
      rfl
    exact ⟨stamp, stamped, boot, inode, buf, head, sealed', encoded⟩

section Operations

variable {buf : List UInt8} {tmp inode : Nat} {stamp : DlqStamp} {choice : DlqChoice}

theorem exists_mem_stamp {property : DlqStamp → Prop} (stamped : call.stamp = some stamp) :
    (∃ own ∈ call.stamp, property own) ↔ property stamp := by
  simp [stamped]

theorem current_of_stamp (stamped : call.stamp = some stamp) (boot : stamp.boot = host.boot) :
    ∀ own ∈ call.stamp, own.boot = host.boot := by
  simp [stamped, boot]

theorem DlqSound.failPersist (sound : DlqSound encode host (left ++ call :: right)) (stamped : call.stamp = some stamp)
    (boot : stamp.boot = host.boot) (error : Text) :
    DlqSound encode host (left ++ call.failPersist stamp error :: right) :=
  sound.enter (current_of_stamp stamped boot) (.inl rfl) rfl trivial

theorem DlqSound.persist_create (sound : DlqSound encode host (left ++ call :: right))
    (stamped : call.stamp = some stamp) (phase : call.phase = .create buf tmp)
    (acted : call.persist host stamp choice = some (next, moved)) : DlqSound encode next (left ++ moved :: right) := by
  have holding := sound.holding call (by simp)
  simp only [Holding, phase, exists_mem_stamp stamped] at holding
  obtain ⟨boot, encoded⟩ := holding
  simp only [DlqCall.persist, phase] at acted
  cases outcome : choice.outcome with
  | error error =>
    rw [outcome] at acted
    cases acted
    exact sound.failPersist stamped boot _
  | ok =>
    rw [outcome] at acted
    cases created : host.volume.createNew (call.tempFilePath stamp host.pid tmp) with
    | none =>
      simp only [created] at acted
      cases acted
      exact sound.failPersist stamped boot _
    | some made =>
      simp only [created] at acted
      cases acted
      exact sound.created phase stamped boot encoded created

/-- A write whose failure is reported leaves the whole batch or a file that is removed. -/
theorem DlqSound.persist_write (sound : DlqSound encode host (left ++ call :: right)) (stamped : call.stamp = some stamp)
    (phase : call.phase = .write buf tmp inode) (reported : choice.outcome = .ok () → choice.written = none)
    (acted : call.persist host stamp choice = some (next, moved)) : DlqSound encode next (left ++ moved :: right) := by
  have holding := sound.holding call (by simp)
  simp only [Holding, phase, exists_mem_stamp stamped] at holding
  obtain ⟨boot, encoded, entry, content⟩ := holding
  have current : ∀ own ∈ call.stamp, own.boot = host.boot := current_of_stamp stamped boot
  have used : call.tmp? = some tmp := by rw [DlqCall.tmp?, phase]
  have writes : call.writes? = some inode := by rw [DlqCall.writes?, phase]
  have frame (bytes : List UInt8) : host.volume.Frame (host.volume.append inode bytes) (Elsewhere host call)
      fun other => call.writes? ≠ some other ∧ other < host.volume.nextInode :=
    (Volume.append_frame inode bytes).mono (fun _ apart => apart) fun other apart same => apart.1 (same ▸ writes)
  simp only [DlqCall.persist, phase] at acted
  cases outcome : choice.outcome with
  | error error =>
    rw [outcome] at acted
    cases acted
    exact sound.touch current (.inr used.symm) (.inl rfl) rfl (frame _) (fun _ _ entry => entry) sound.listed
      ⟨stamp, stamped, boot⟩
  | ok =>
    rw [outcome] at acted
    cases acted
    have whole : (host.volume.append inode (choice.reached buf)).content inode = buf := by
      rw [Volume.append_content, content, List.nil_append, DlqChoice.reached, reported outcome]
    exact sound.touch current (.inr used.symm) (.inr writes.symm) rfl (frame _) (fun _ _ entry => entry) sound.listed
      ⟨stamp, stamped, boot, encoded, entry, whole⟩

theorem DlqSound.persist_sync (sound : DlqSound encode host (left ++ call :: right)) (stamped : call.stamp = some stamp)
    (phase : call.phase = .sync buf tmp inode) (acted : call.persist host stamp choice = some (next, moved)) :
    DlqSound encode next (left ++ moved :: right) := by
  have holding := sound.holding call (by simp)
  simp only [Holding, phase, exists_mem_stamp stamped] at holding
  obtain ⟨boot, encoded, entry, content⟩ := holding
  have current : ∀ own ∈ call.stamp, own.boot = host.boot := current_of_stamp stamped boot
  have used : call.tmp? = some tmp := by rw [DlqCall.tmp?, phase]
  have writes : call.writes? = some inode := by rw [DlqCall.writes?, phase]
  simp only [DlqCall.persist, phase] at acted
  cases outcome : choice.outcome with
  | error error =>
    rw [outcome] at acted
    cases acted
    exact sound.enter current (.inr used.symm) rfl ⟨stamp, stamped, boot⟩
  | ok =>
    rw [outcome] at acted
    cases acted
    have frame : host.volume.Frame (host.volume.syncFile inode) (Elsewhere host call)
        fun other => call.writes? ≠ some other ∧ other < host.volume.nextInode :=
      (Volume.syncFile_frame inode).mono (fun _ apart => apart) fun other apart same => apart.1 (same ▸ writes)
    have whole : (host.volume.syncFile inode).Sealed inode buf := ⟨Function.update_self .., content⟩
    have free : ∀ other ∈ left ++ call.enter (.rename buf tmp) :: right, other.writes? ≠ some inode := by
      intro other listed
      rw [List.mem_append, List.mem_cons, or_left_comm] at listed
      rcases listed with rfl | elsewhere
      · simp [DlqCall.writes?, DlqCall.enter]
      · have apart : TmpApart call other := Interleaved.pairwise_others TmpApart.symm sound.tmpApart other
          (List.mem_append.mpr elsewhere)
        exact fun also => apart.2 inode writes inode also rfl
    exact sound.touch current (.inr used.symm) (.inl rfl) rfl frame (fun _ _ entry => entry) sound.listed
      ⟨stamp, stamped, boot, encoded, inode, entry, whole, free⟩

theorem DlqSound.persist_rename (sound : DlqSound encode host (left ++ call :: right))
    (stamped : call.stamp = some stamp) (phase : call.phase = .rename buf tmp)
    (acted : call.persist host stamp choice = some (next, moved)) : DlqSound encode next (left ++ moved :: right) := by
  have holding := sound.holding call (by simp)
  simp only [Holding, phase, exists_mem_stamp stamped] at holding
  have boot := holding.1
  have used : call.tmp? = some tmp := by rw [DlqCall.tmp?, phase]
  have removes : ∀ error, DlqSound encode host (left ++ call.enter (.remove tmp error) :: right) := fun _ =>
    sound.enter (current_of_stamp stamped boot) (.inr used.symm) rfl ⟨stamp, stamped, boot⟩
  simp only [DlqCall.persist, phase] at acted
  cases outcome : choice.outcome with
  | error error =>
    rw [outcome] at acted
    cases acted
    exact removes _
  | ok =>
    rw [outcome] at acted
    cases renamed : host.volume.rename (call.tempFilePath stamp host.pid tmp) (call.filePath stamp) with
    | none =>
      simp only [renamed] at acted
      cases acted
      exact removes _
    | some volume =>
      simp only [renamed] at acted
      cases acted
      exact sound.renamed phase stamped renamed

theorem DlqSound.persist_remove {error : Text} (sound : DlqSound encode host (left ++ call :: right))
    (stamped : call.stamp = some stamp) (phase : call.phase = .remove tmp error)
    (acted : call.persist host stamp choice = some (next, moved)) : DlqSound encode next (left ++ moved :: right) := by
  have holding := sound.holding call (by simp)
  simp only [Holding, phase, exists_mem_stamp stamped] at holding
  have used : call.tmp? = some tmp := by rw [DlqCall.tmp?, phase]
  simp only [DlqCall.persist, phase] at acted
  cases outcome : choice.outcome with
  | error error =>
    rw [outcome] at acted
    cases acted
    exact sound.failPersist stamped holding _
  | ok =>
    rw [outcome] at acted
    cases acted
    have frame : host.volume.Frame ((host.volume.remove (call.tempFilePath stamp host.pid tmp)).getD host.volume)
        (Elsewhere host call) fun other => call.writes? ≠ some other ∧ other < host.volume.nextInode :=
      Volume.remove_frame.mono (fun path apart => (apart stamp stamped).2 tmp used) fun _ apart => apart
    exact sound.touch (current_of_stamp stamped holding) (.inl rfl) (.inl rfl) Volume.remove_nextInode frame
      (fun _ _ => Volume.remove_mem) (fun path => Volume.remove_listed path (sound.listed path)) trivial

theorem DlqSound.persist_openDir (sound : DlqSound encode host (left ++ call :: right))
    (stamped : call.stamp = some stamp) (phase : call.phase = .openDir)
    (acted : call.persist host stamp choice = some (next, moved)) : DlqSound encode next (left ++ moved :: right) := by
  have holding := sound.holding call (by simp)
  simp only [Holding, phase] at holding
  have boot := ((exists_mem_stamp stamped).mp holding).1
  simp only [DlqCall.persist, phase] at acted
  cases outcome : choice.outcome with
  | error error =>
    rw [outcome] at acted
    cases acted
    exact sound.failPersist stamped boot _
  | ok =>
    rw [outcome] at acted
    cases acted
    exact sound.enter (current_of_stamp stamped boot) (.inl rfl) rfl holding

theorem DlqSound.persist_syncDir (sound : DlqSound encode host (left ++ call :: right))
    (stamped : call.stamp = some stamp) (phase : call.phase = .syncDir)
    (acted : call.persist host stamp choice = some (next, moved)) : DlqSound encode next (left ++ moved :: right) := by
  have holding := sound.holding call (by simp)
  simp only [Holding, phase, exists_mem_stamp stamped] at holding
  obtain ⟨boot, inode, buf, entry, whole, encoded⟩ := holding
  simp only [DlqCall.persist, phase] at acted
  cases outcome : choice.outcome with
  | error error =>
    rw [outcome] at acted
    cases acted
    exact sound.failPersist stamped boot _
  | ok =>
    rw [outcome] at acted
    cases acted
    have settled : (host.volume.syncDir fun path => path.dir == call.sink.dlqDir).entries (call.filePath stamp) =
        [some inode] := by
      have inside : ((call.filePath stamp).dir == call.sink.dlqDir) = true := beq_self_eq_true _
      exact (Volume.syncDir_entries (fun path : DlqPath => path.dir == call.sink.dlqDir) inside).trans (by rw [entry])
    exact sound.touch (current_of_stamp stamped boot) (.inl rfl) (.inl rfl) rfl (Volume.syncDir_frame _)
      (fun path _ => Volume.syncDir_mem (sound.listed path)) (fun path => Volume.syncDir_listed (sound.listed path))
      ⟨stamp, stamped, fun _ _ => ⟨inode, buf, settled, whole, encoded⟩⟩

theorem DlqSound.persist (sound : DlqSound encode host (left ++ call :: right)) (stamped : call.stamp = some stamp)
    (reported : ∀ buf tmp inode, call.phase = .write buf tmp inode → choice.outcome = .ok () → choice.written = none)
    (acted : call.persist host stamp choice = some (next, moved)) : DlqSound encode next (left ++ moved :: right) := by
  cases phase : call.phase with
  | create buf tmp => exact sound.persist_create stamped phase acted
  | write buf tmp inode => exact sound.persist_write stamped phase (reported buf tmp inode phase) acted
  | sync buf tmp inode => exact sound.persist_sync stamped phase acted
  | rename buf tmp => exact sound.persist_rename stamped phase acted
  | remove tmp error => exact sound.persist_remove stamped phase acted
  | openDir => exact sound.persist_openDir stamped phase acted
  | syncDir => exact sound.persist_syncDir stamped phase acted
  | _ =>
    simp only [DlqCall.persist, phase] at acted
    cases acted

end Operations

theorem DlqSound.act {choice : DlqChoice} (sound : DlqSound encode host (left ++ call :: right))
    (reported : ∀ buf tmp inode, call.phase = .write buf tmp inode → choice.outcome = .ok () → choice.written = none)
    (acted : call.act encode host choice = some (next, moved)) : DlqSound encode next (left ++ moved :: right) := by
  have holding := sound.holding call (by simp)
  unfold Holding at holding
  unfold DlqCall.act at acted
  cases phase : call.phase with
  | createDir =>
    rw [phase] at holding acted
    have current : ∀ own ∈ call.stamp, own.boot = host.boot := by simp [holding]
    cases outcome : choice.outcome with
    | error error =>
      simp only [outcome] at acted
      cases acted
      exact sound.enter current (.inl rfl) rfl trivial
    | ok =>
      simp only [outcome] at acted
      cases acted
      exact sound.enter current (.inl rfl) rfl holding
  | fetchSeq =>
    rw [phase] at holding acted
    cases acted
    have current : ∀ own ∈ call.stamp, own.boot = host.boot := by simp [holding]
    refine sound.step_moved ⟨⟨rfl, rfl, rfl⟩, ⟨rfl, rfl⟩, current, ⟨Nat.le_succ _, Nat.le_refl _, Nat.le_refl _⟩,
      .inr ⟨holding, choice.millis, rfl, Nat.lt_succ_self _⟩, .inl rfl, .inl rfl, .refl _⟩ sound.bounded sound.listed
      (fun _ _ _ entry => .inl entry) ⟨_, rfl, rfl⟩
  | encode =>
    rw [phase] at holding acted
    obtain ⟨stamp, stamped, boot⟩ := holding
    have current : ∀ own ∈ call.stamp, own.boot = host.boot := by simp [Option.mem_def.mp stamped, boot]
    cases outcome : choice.outcome with
    | error error =>
      simp only [outcome] at acted
      cases acted
      exact sound.enter current (.inl rfl) rfl trivial
    | ok =>
      cases encoded : encode call.batch with
      | error error =>
        simp only [outcome, encoded] at acted
        cases acted
        exact sound.enter current (.inl rfl) rfl trivial
      | ok buf =>
        simp only [outcome, encoded] at acted
        cases acted
        exact sound.enter current (.inl rfl) rfl ⟨stamp, stamped, boot, encoded⟩
  | fetchTmp buf =>
    rw [phase] at holding acted
    obtain ⟨stamp, stamped, boot, encoded⟩ := holding
    have current : ∀ own ∈ call.stamp, own.boot = host.boot := by simp [Option.mem_def.mp stamped, boot]
    cases acted
    exact sound.step_moved ⟨⟨rfl, rfl, rfl⟩, ⟨rfl, rfl⟩, current, ⟨Nat.le_refl _, Nat.le_succ _, Nat.le_refl _⟩,
      .inl rfl, .inr (.inr ⟨rfl, Nat.lt_succ_self _⟩), .inl rfl, .refl _⟩ sound.bounded sound.listed
      (fun _ _ _ entry => .inl entry) ⟨stamp, stamped, boot, encoded⟩
  | _ =>
    rw [phase] at acted
    obtain ⟨stamp, stamped, persisted⟩ := Option.bind_eq_some_iff.mp acted
    exact sound.persist stamped reported persisted

theorem DlqSound.send (sound : DlqSound encode host calls) (unstamped : call.stamp = none)
    (fresh : call.phase = .createDir) : DlqSound encode host (calls ++ [call]) := by
  have unused : call.tmp? = none := by rw [DlqCall.tmp?, fresh]
  have writes : call.writes? = none := by rw [DlqCall.writes?, fresh]
  have joins {property : DlqCall Batch → Prop} (before : ∀ other ∈ calls, property other) (own : property call) :
      ∀ other ∈ calls ++ [call], property other := by
    intro other member
    rcases List.mem_append.mp member with place | place
    · exact before other place
    · rw [List.mem_singleton.mp place]
      exact own
  refine ⟨sound.bounded, sound.listed, joins sound.writers (by simp [writes]), joins sound.stamps (by simp [unstamped]),
    joins sound.temps (by simp [unused]), Interleaved.pairwise_started sound.seqApart ?_,
    Interleaved.pairwise_started sound.tmpApart ?_, fun path file inode entry => ?_, ?_⟩
  · intro other _ stamp _ another also
    rw [unstamped] at also
    cases also
  · intro other _
    refine ⟨fun tmp _ number also => ?_, fun inode _ target also => ?_⟩
    · rw [unused] at also
      cases also
    · rw [writes] at also
      cases also
  · obtain ⟨free, bytes, whole, witness, member, named⟩ := sound.whole path file inode entry
    exact ⟨joins free (by simp [writes]), bytes, whole, witness, List.mem_append_left _ member, named⟩
  · refine joins (fun other member => ?_) (by rw [Holding, fresh]; exact unstamped)
    have holding := sound.holding other member
    unfold Holding at holding ⊢
    cases phase : other.phase with
    | rename buf tmp =>
      rw [phase] at holding
      obtain ⟨stamp, stamped, boot, encoded, inode, entry, whole, free⟩ := holding
      exact ⟨stamp, stamped, boot, encoded, inode, entry, whole, joins free (by simp [writes])⟩
    | succeeded =>
      rw [phase] at holding
      obtain ⟨stamp, stamped, durable⟩ := holding
      exact ⟨stamp, stamped, fun lasting alone => durable lasting fun third listed =>
        alone third (List.mem_append_left _ listed)⟩
    | _ =>
      rw [phase] at holding
      exact holding

@[simp] theorem DlqCall.abort_stamp (call : DlqCall Batch) : call.abort.stamp = call.stamp := by
  rw [DlqCall.abort]
  split <;> rfl

theorem DlqCall.abort_filePath (call : DlqCall Batch) (stamp : DlqStamp) :
    call.abort.filePath stamp = call.filePath stamp := by
  rw [DlqCall.abort]
  split <;> rfl

theorem DlqCall.abort_batch (call : DlqCall Batch) : call.abort.batch = call.batch := by
  rw [DlqCall.abort]
  split <;> rfl

theorem DlqCall.abort_idle (call : DlqCall Batch) : call.abort.tmp? = none ∧ call.abort.writes? = none := by
  cases phase : call.phase <;> simp [DlqCall.abort, DlqCall.tmp?, DlqCall.writes?, DlqCall.enter, phase]

theorem DlqSound.restart {survivor : Volume DlqPath} {pid : Nat} (sound : DlqSound encode host calls)
    (entries : ∀ path inode, some inode ∈ survivor.entries path → some inode ∈ host.volume.entries path)
    (listed : ∀ path, survivor.entries path ≠ [])
    (settled : ∀ path entry, host.volume.lasting path = true → host.volume.entries path = [entry] →
      survivor.entries path = [entry])
    (kept : ∀ inode bytes, host.volume.Sealed inode bytes → survivor.Sealed inode bytes)
    (inodes : survivor.nextInode = host.volume.nextInode) (lasts : survivor.lasting = host.volume.lasting) :
    DlqSound encode { volume := survivor, pid := pid, boot := host.boot + 1 } (calls.map DlqCall.abort) := by
  refine ⟨fun path inode entry => inodes ▸ sound.bounded path inode (entries path inode entry), listed, ?_, ?_, ?_, ?_,
    ?_, fun path file inode entry => ?_, ?_⟩
  · simp [DlqCall.abort_idle]
  · simp only [List.forall_mem_map, DlqCall.abort_stamp]
    intro call member stamp stamped
    have past := (sound.stamps call member stamp stamped).1
    exact ⟨Nat.le_succ_of_le past, fun present => absurd present (by omega)⟩
  · simp [DlqCall.abort_idle]
  · refine List.pairwise_map.mpr (sound.seqApart.imp fun apart => ?_)
    simpa only [SeqApart, DlqCall.abort_stamp] using apart
  · refine List.pairwise_map.mpr (sound.tmpApart.imp fun _ => ?_)
    simp [TmpApart, DlqCall.abort_idle]
  · obtain ⟨free, bytes, whole, witness, member, stamp, stamped, named, encoded⟩ :=
      sound.whole path file inode (entries path inode entry)
    refine ⟨by simp [DlqCall.abort_idle], bytes, kept inode bytes whole, witness.abort, List.mem_map_of_mem member, stamp,
      ?_, named.trans (witness.abort_filePath stamp).symm, ?_⟩
    · rw [DlqCall.abort_stamp]
      exact stamped
    · rw [DlqCall.abort_batch]
      exact encoded
  · simp only [List.forall_mem_map]
    intro call member
    have holding := sound.holding call member
    unfold Holding at holding ⊢
    cases phase : call.phase with
    | succeeded =>
      have same : call.abort = call := by rw [DlqCall.abort, phase]
      rw [same]
      rw [phase] at holding ⊢
      obtain ⟨stamp, stamped, durable⟩ := holding
      refine ⟨stamp, stamped, fun lasting alone => ?_⟩
      have lasted : host.volume.lasting (call.filePath stamp) = true := lasts ▸ lasting
      obtain ⟨inode, buf, entry, whole, encoded⟩ := durable lasted fun other listed another also apart => by
        have kept : another ∈ other.abort.stamp := by rwa [DlqCall.abort_stamp]
        have path := alone other.abort (List.mem_map_of_mem listed) another kept apart
        rwa [DlqCall.abort_filePath] at path
      exact ⟨inode, buf, settled _ _ lasted entry, kept inode buf whole, encoded⟩
    | failed error =>
      have same : call.abort = call := by rw [DlqCall.abort, phase]
      rw [same, phase]
      trivial
    | _ =>
      have aborted : call.abort.phase = .aborted := by simp only [DlqCall.abort, phase, DlqCall.enter]
      rw [aborted]
      trivial

theorem DlqSound.booted (encode : Batch → Except Text (List UInt8)) (lasting : Text → Bool) (pid : Nat) :
    DlqSound encode (DlqWorld.booted lasting pid : DlqWorld Batch).host
      (DlqWorld.booted lasting pid : DlqWorld Batch).calls where
  bounded path inode entry := by simp [DlqWorld.booted] at entry
  listed _ := List.cons_ne_nil _ _
  writers _ member := nomatch member
  stamps _ member := nomatch member
  temps _ member := nomatch member
  seqApart := .nil
  tmpApart := .nil
  whole path _ inode entry := by simp [DlqWorld.booted] at entry
  holding _ member := nomatch member

namespace DlqWorld

variable {world after : DlqWorld Batch} {sent : DlqWorld (List UInt8)} {action : DlqAction Batch}
  {lasting : Text → Bool} {pid : Nat}

/-- A crash leaves what it may leave, and no write fails unnoticed. -/
def Permitted (world : DlqWorld Batch) (action : DlqAction Batch) : Prop := world.Possible action ∧ world.Reported action

theorem sound_step (sound : DlqSound encode world.host world.calls) (permitted : world.Permitted action)
    (stepped : world.step encode action = some after) : DlqSound encode after.host after.calls := by
  cases action with
  | send sink signal batch =>
    cases stepped
    exact sound.send rfl rfl
  | act index choice =>
    obtain ⟨call, found, acted⟩ := Option.bind_eq_some_iff.mp stepped
    obtain ⟨⟨host, moved⟩, went, rfl⟩ := Option.map_eq_some_iff.mp acted
    have reported := permitted.2 call found
    obtain ⟨left, right, split, rfl⟩ := Interleaved.getElem?_split found
    rw [split] at sound
    simp only [split, Interleaved.set_split]
    exact sound.act reported went
  | restart survivor pid =>
    cases stepped
    cases survivor with
    | none =>
      exact sound.restart (fun _ _ entry => entry) sound.listed (fun _ _ _ settled => settled) (fun _ _ whole => whole)
        rfl rfl
    | some survivor =>
      have crashed : world.host.volume.Crashed survivor := permitted.1
      exact sound.restart (fun _ _ => crashed.mem) crashed.listed (fun _ _ => crashed.settled) crashed.kept
        crashed.nextInode crashed.lasting

/-- No operation makes the entry of a directory durable. -/
theorem persist_lasting {call moved : DlqCall Batch} {host next : DlqHost} {stamp : DlqStamp} {choice : DlqChoice}
    (acted : call.persist host stamp choice = some (next, moved)) : next.volume.lasting = host.volume.lasting := by
  unfold DlqCall.persist at acted
  dsimp only at acted
  split at acted
  case h_1 =>
    split at acted <;> cases acted
    · exact (Volume.createNew_eq_some ‹_›).2.2.2.2.lasting
    · rfl
  case h_7 =>
    split at acted <;> cases acted
    · exact (Volume.rename_eq_some ‹_› DlqCall.filePath_ne_temp).choose_spec.2.2.2.2.2.2.2
    · rfl
  case h_9 =>
    cases acted
    exact Volume.remove_lasting
  all_goals
    cases acted
    try rfl

theorem act_lasting {call moved : DlqCall Batch} {host next : DlqHost} {choice : DlqChoice}
    (acted : call.act encode host choice = some (next, moved)) : next.volume.lasting = host.volume.lasting := by
  unfold DlqCall.act at acted
  split at acted
  case h_1 => split at acted <;> cases acted <;> rfl
  case h_2 | h_4 =>
    cases acted
    rfl
  case h_3 => split at acted <;> cases acted <;> rfl
  case h_5 =>
    obtain ⟨stamp, _, persisted⟩ := Option.bind_eq_some_iff.mp acted
    exact persist_lasting persisted

theorem lasting_of_run (run : Run (step encode) Permitted (booted lasting pid) world) :
    world.host.volume.lasting = fun path => lasting path.dir := by
  refine run.invariant (fun world => world.host.volume.lasting = fun path => lasting path.dir) rfl ?_
  intro before action after lasts permitted stepped
  cases action with
  | send sink signal batch =>
    cases stepped
    exact lasts
  | act index choice =>
    obtain ⟨call, _, acted⟩ := Option.bind_eq_some_iff.mp stepped
    obtain ⟨⟨host, moved⟩, went, rfl⟩ := Option.map_eq_some_iff.mp acted
    exact (act_lasting went).trans lasts
  | restart survivor pid =>
    cases stepped
    cases survivor with
    | none => exact lasts
    | some survivor =>
      have crashed : before.host.volume.Crashed survivor := permitted.1
      exact crashed.lasting.trans lasts

theorem sound_of_run (run : Run (step encode) Permitted (booted lasting pid) world) :
    DlqSound encode world.host world.calls :=
  run.invariant (fun world => DlqSound encode world.host world.calls) (.booted encode lasting pid)
    fun _ _ _ sound permitted stepped => sound_step sound permitted stepped

/-- A batch that `send` has accepted is on the volume, whole and under the name of its send, and stays there whatever
    other sends and processes do and whenever the machine crashes, if the entry of its directory is durable: `send` does
    not sync the parents of a directory that it makes. `DLQ_SEQ` begins at zero in each process, so a clock that goes
    back can have another process give the name to a file of its own, which replaces this one. -/
theorem send_durable (encode : Batch → Except Text (List UInt8)) (lasting : Text → Bool) (pid : Nat)
    (run : Run (step encode) Permitted (booted lasting pid) world) {call : DlqCall Batch} {stamp : DlqStamp}
    (member : call ∈ world.calls) (succeeded : call.phase = .succeeded) (stamped : call.stamp = some stamp)
    (directory : lasting call.sink.dlqDir = true) (alone : Alone world.calls call stamp) :
    ∃ buf, encode call.batch = .ok buf ∧ world.host.volume.read (call.filePath stamp) = some buf ∧
      ∀ survivor, world.host.volume.Crashed survivor → survivor.read (call.filePath stamp) = some buf := by
  have holding := (sound_of_run run).holding call member
  simp only [Holding, succeeded, exists_mem_stamp stamped] at holding
  have lasts : world.host.volume.lasting (call.filePath stamp) = true := by
    rw [lasting_of_run run]
    exact directory
  obtain ⟨inode, buf, settled, whole, encoded⟩ := holding lasts alone
  refine ⟨buf, encoded, ?_, fun survivor crashed => crashed.read lasts settled whole⟩
  rw [Volume.read, Volume.inode, settled]
  exact congrArg some whole.2

theorem geoLogs_safe : isSafePathComponent "geo".toList ∧ isSafePathComponent "logs".toList ∧
    isSafePathComponent "accept".toList := by
  decide

def geoLogs : FileDlqSink := ⟨"geo".toList, "logs".toList, "accept".toList, geoLogs_safe⟩

/-- One send has gone through, and another one has renamed its file but not synced the directory. -/
def interrupted : List (DlqAction (List UInt8)) :=
  [.send geoLogs .logs [1, 2, 3], .send geoLogs .logs [4, 5], .act 0 {}, .act 0 { millis := 1000 }] ++
    List.replicate 8 (.act 0 {}) ++ List.replicate 8 (.act 1 {})

def geoSent : DlqCall (List UInt8) :=
  { sink := geoLogs, signal := .logs, batch := [1, 2, 3], stamp := some ⟨0, 1000, 0⟩, phase := .succeeded }

theorem run_interrupted (executed : execute (step .ok) (booted lasting 7) interrupted = some sent) :
    Run (step .ok) Permitted (booted lasting 7) sent :=
  execute_run_of_mem interrupted (by simp [interrupted, Permitted, Possible, Reported]) executed

theorem send_durable_interrupted : ∃ world, execute (step .ok) (booted (fun _ => true) 7) interrupted = some world ∧
    world.host.volume.lost.read (geoSent.filePath ⟨0, 1000, 0⟩) = some [1, 2, 3] := by
  obtain ⟨world, executed, member, stamps⟩ :
    ∃ world, execute (step .ok) (booted (fun _ => true) 7) interrupted = some world ∧
      geoSent ∈ world.calls ∧ world.calls.map DlqCall.stamp = [some ⟨0, 1000, 0⟩, some ⟨0, 0, 1⟩] :=
    ⟨_, rfl, List.mem_cons_self, rfl⟩
  have alone : Alone world.calls geoSent ⟨0, 1000, 0⟩ := by
    intro other listed another stamped boots
    have taken : some another ∈ world.calls.map DlqCall.stamp := List.mem_map.mpr ⟨other, listed, stamped⟩
    rw [stamps, List.mem_cons, List.mem_singleton, Option.some_inj, Option.some_inj] at taken
    rcases taken with rfl | rfl <;> exact absurd rfl boots
  have run := run_interrupted executed
  obtain ⟨buf, encoded, _, kept⟩ := send_durable .ok (fun _ => true) 7 run member rfl rfl rfl alone
  cases encoded
  exact ⟨world, executed, kept _ (Volume.crashed_lost (sound_of_run run).listed)⟩

/-- Where no two processes read the same millisecond from the clock, every send is alone with its name. -/
theorem alone_of_millis {calls : List (DlqCall Batch)} {call : DlqCall Batch} {stamp : DlqStamp}
    (apart : ∀ other ∈ calls, ∀ another ∈ other.stamp, another.boot ≠ stamp.boot → another.millis ≠ stamp.millis) :
    Alone calls call stamp := by
  intro other member another stamped boots same
  exact apart other member another stamped boots (fileName_millis (congrArg DlqPath.name same))

/-- Whatever a crash interrupts, a file that is not a temporary one is the whole batch of the send that it is named
    after. -/
theorem dlqFiles_whole (encode : Batch → Except Text (List UInt8)) (lasting : Text → Bool) (pid : Nat)
    (run : Run (step encode) Permitted (booted lasting pid) world) {survivor : Volume DlqPath}
    (left : survivor = world.host.volume ∨ world.host.volume.Crashed survivor) {path : DlqPath} {bytes : List UInt8}
    (file : path.isTemp = false) (found : survivor.read path = some bytes) :
    ∃ call ∈ world.calls, ∃ stamp, call.stamp = some stamp ∧ path = call.filePath stamp ∧
      encode call.batch = .ok bytes := by
  have sound := sound_of_run run
  obtain ⟨inode, entry, rfl⟩ := Option.map_eq_some_iff.mp found
  have listed : some inode ∈ world.host.volume.entries path ∧
      ∀ bytes, world.host.volume.Sealed inode bytes → survivor.content inode = bytes := by
    rcases left with rfl | crashed
    · exact ⟨Volume.mem_of_inode entry, fun _ whole => whole.2⟩
    · exact ⟨crashed.mem (Volume.mem_of_inode entry), fun bytes whole => (crashed.kept inode bytes whole).2⟩
  obtain ⟨_, bytes, whole, call, member, stamp, stamped, named, encoded⟩ := sound.whole path file inode listed.1
  rw [listed.2 bytes whole]
  exact ⟨call, member, stamp, stamped, named, encoded⟩

theorem dlqFiles_whole_interrupted : ∃ world, execute (step .ok) (booted (fun _ => true) 7) interrupted = some world ∧
    ∃ call ∈ world.calls, ∃ stamp, call.stamp = some stamp ∧
      geoSent.filePath ⟨0, 1000, 0⟩ = call.filePath stamp ∧ call.batch = [1, 2, 3] := by
  obtain ⟨world, executed, found⟩ : ∃ world, execute (step .ok) (booted (fun _ => true) 7) interrupted = some world ∧
      world.host.volume.lost.read (geoSent.filePath ⟨0, 1000, 0⟩) = some [1, 2, 3] :=
    ⟨_, rfl, rfl⟩
  have run := run_interrupted executed
  have crashed := Volume.crashed_lost (sound_of_run run).listed
  obtain ⟨call, member, stamp, stamped, named, encoded⟩ :=
    dlqFiles_whole .ok (fun _ => true) 7 run (.inr crashed) DlqCall.filePath_isTemp found
  exact ⟨world, executed, call, member, stamp, stamped, named, Except.ok.inj encoded⟩

/-- A disk is full at the last write of a send, which tokio does not report. -/
def truncating : List (DlqAction (List UInt8)) :=
  [.send geoLogs .logs [1, 2, 3], .act 0 {}, .act 0 { millis := 1000 }, .act 0 {}, .act 0 {}, .act 0 {},
    .act 0 { written := some 1 }] ++ List.replicate 4 (.act 0 {})

/-- Without the report the send succeeds with a file that is cut. -/
theorem truncating_succeeds : ∃ world, execute (step .ok) (booted (fun _ => true) 7) truncating = some world ∧
    world.calls = [geoSent] ∧ world.host.volume.read (geoSent.filePath ⟨0, 1000, 0⟩) = some [1] :=
  ⟨_, rfl, rfl, rfl⟩

end DlqWorld

end OtelDatalake.Pipeline
