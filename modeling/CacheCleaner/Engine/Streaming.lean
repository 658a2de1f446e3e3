import CacheCleaner.Engine.Walk
import CacheCleaner.Stream.Chunks

namespace CacheCleaner.CandidateScanner

open Effect Effect.Program Stream

/-- `on_chunk`, as the answer to the last of the chunks it was called with. -/
abbrev OnChunk := Receiver CleanerError Candidate

structure Streamed where
  feed : Feed Candidate
  nextId : Nat

def Streamed.push (streamed : Streamed) (chunkSize : Nat) (onChunk : OnChunk)
    (target : TargetDescriptor) (path : RelativePath) (entry : SafeDirEntry)
    (size : ByteCount) : Result Bool × Streamed :=
  let pushed := streamed.feed.push chunkSize onChunk {
    candidateId := ⟨streamed.nextId⟩
    targetId := target.targetId
    relPath := path
    identity := entry.identity
    sizeBytes := size
    mtime := entry.mtimeSecs
    isDir := entry.isDir && !entry.isSymlink
    isSymlink := entry.isSymlink }
  (pushed.1, ⟨pushed.2, streamed.nextId + 1⟩)

section

variable (target : TargetDescriptor) (chunkSize : Nat) (onChunk : OnChunk)

/-- One entry.  It is handed over before its directory is entered, and an answer
other than yes goes all the way up. -/
def scanEntryStreaming
    (descend : FileIdentity → RelativePath → Streamed → Act (Result Bool × Streamed))
    (directory : FileIdentity) (relPrefix : RelativePath) (entry : SafeDirEntry)
    (streamed : Streamed) : Act (Result Bool × Streamed) :=
  match relPrefix.join entry.name with
  | none => pure (.ok true, streamed)
  | some path =>
    let isDir := entry.isDir && !entry.isSymlink
    match if isDir then some 0 else ByteCount.new? entry.sizeBytes with
    | none => .abort
    | some size =>
      match streamed.push chunkSize onChunk target path entry size with
      | (.ok true, streamed) =>
        if isDir then do
          if ← ask .acquireFdPermit then
            match ← ask (.openChild .scanner directory entry.name) with
            | .error _ => pure (.ok true, streamed)
            | .ok child => descend child path streamed
          else pure (.ok true, streamed)
        else pure (.ok true, streamed)
      | stopped => pure stopped

def scanEntriesStreaming
    (descend : FileIdentity → RelativePath → Streamed → Act (Result Bool × Streamed))
    (directory : FileIdentity) (relPrefix : RelativePath) :
    List SafeDirEntry → Streamed → Act (Result Bool × Streamed)
  | [], streamed => pure (.ok true, streamed)
  | entry :: rest, streamed => do
    match ← scanEntryStreaming target chunkSize onChunk descend directory relPrefix entry
      streamed with
    | (.ok true, streamed) =>
      scanEntriesStreaming descend directory relPrefix rest streamed
    | stopped => pure stopped

/-- `scan_safe_recursive_streaming`, with the number of levels left. -/
def scanSafeRecursiveStreaming :
    Nat → FileIdentity → RelativePath → Streamed → Act (Result Bool × Streamed)
  | 0, _, _, streamed => pure (.ok true, streamed)
  | levels + 1, directory, relPrefix, streamed => do
    match ← ask (.readEntries directory) with
    | .error _ => pure (.ok true, streamed)
    | .ok entries =>
      scanEntriesStreaming target chunkSize onChunk (scanSafeRecursiveStreaming levels)
        directory relPrefix entries streamed

def scanTargetStreaming (nextId : Nat) : Act (Result Unit × Streamed) := do
  match ← SafeDirHandle.openRootWithPermit .scanner target.basePath with
  | .error _ => pure (.ok (), ⟨.start, nextId⟩)
  | .ok root =>
    match ← scanSafeRecursiveStreaming target chunkSize onChunk maxDepth root
      RelativePath.empty ⟨.start, nextId⟩ with
    | (.error error, streamed) => pure (.error error, streamed)
    | (.ok _, streamed) =>
      let flushed := streamed.feed.flush onChunk
      pure (flushed.1, ⟨flushed.2, streamed.nextId⟩)

end

def number (target : TargetDescriptor) : Nat → List Found → List Candidate
  | _, [] => []
  | nextId, found :: rest =>
    { found.candidate target with candidateId := ⟨nextId⟩ } :: number target (nextId + 1) rest

theorem number_append (target : TargetDescriptor) : number target nextId (front ++ back) =
      number target nextId front ++ number target (nextId + front.length) back := by
  induction front generalizing nextId with
  | nil => rfl
  | cons found rest ih =>
    simp only [List.cons_append, number, ih, List.length_cons]
    rw [Nat.add_assoc, Nat.add_comm 1]

theorem map_unnumbered_number (target : TargetDescriptor) (nextId : Nat) :
    (number target nextId walked).map Candidate.unnumbered =
      walked.map (Found.candidate target) := by
  induction walked generalizing nextId with
  | nil => rfl
  | cons found rest ih =>
    rw [number, List.map_cons, List.map_cons, ih]
    rfl

structure Fed (target : TargetDescriptor) (chunkSize : Nat) (onChunk : OnChunk)
    (before : Streamed) (walked : List Found) (reply : Result Bool × Streamed) : Prop where
  feed : (reply.1, reply.2.feed) =
    before.feed.pushAll chunkSize onChunk (number target before.nextId walked)
  counted : reply.1 = .ok true → reply.2.nextId = before.nextId + walked.length

section

variable {target : TargetDescriptor} {chunkSize : Nat} {onChunk : OnChunk}
  {before middle : Streamed} {reply : Result Bool × Streamed} {front : List Found}

theorem Fed.nothing : Fed target chunkSize onChunk before [] (.ok true, before) where
  feed := rfl
  counted _ := rfl

theorem Fed.append (first : Fed target chunkSize onChunk before front (.ok true, middle))
    (second : Fed target chunkSize onChunk middle back reply) :
    Fed target chunkSize onChunk before (front ++ back) reply := by
  have count : middle.nextId = before.nextId + front.length := first.counted rfl
  constructor
  · rw [number_append, Feed.pushAll_append, ← first.feed, ← count]
    exact second.feed
  · intro goesOn
    rw [second.counted goesOn, count, List.length_append, Nat.add_assoc]

theorem Fed.stopped (first : Fed target chunkSize onChunk before front reply)
    (stops : reply.1 ≠ .ok true) (back : List Found) :
    Fed target chunkSize onChunk before (front ++ back) reply := by
  obtain ⟨answer, after⟩ := reply
  constructor
  · rw [number_append, Feed.pushAll_append, ← first.feed]
    cases answer with
    | error error => rfl
    | ok more =>
      cases more with
      | false => rfl
      | true => exact absurd rfl stops
  · intro goesOn
    exact absurd goesOn stops

theorem fed_push
    (same : size = (Found.mk path entry).size) : Fed target chunkSize onChunk before [⟨path, entry⟩]
      (before.push chunkSize onChunk target path entry size) := by
  constructor
  · rw [same, number, number, Feed.pushAll_singleton]
    rfl
  · intro _
    rfl

end

section

variable {env : Env} {target : TargetDescriptor} {chunkSize : Nat} {onChunk : OnChunk}
  {world : World}

def Streams (env : Env) (target : TargetDescriptor) (chunkSize : Nat) (onChunk : OnChunk)
    (world : World) (streamed : Streamed) (walked : List Found)
    (program : Act (Result Bool × Streamed)) : Prop :=
  Returns env.handler (fun reply final => final.fs = world.fs ∧
      Fed target chunkSize onChunk streamed walked reply) program world

section

variable {descend : FileIdentity → RelativePath → Streamed → Act (Result Bool × Streamed)}
  {deeper : FileIdentity → RelativePath → List Found} (clear : env.Clear)
  (streams : ∀ child path streamed (world' : World), world'.fs = world.fs →
    Fit (deeper child path) →
    Streams env target chunkSize onChunk world' streamed (deeper child path)
      (descend child path streamed))
include clear streams

theorem scanEntryStreaming_streams (directory : FileIdentity) (relPrefix : RelativePath)
    (entry : SafeDirEntry) (streamed : Streamed)
    (fit : Fit (world.fs.reachEntry env.openat2 deeper directory relPrefix entry)) :
    Streams env target chunkSize onChunk world streamed
      (world.fs.reachEntry env.openat2 deeper directory relPrefix entry)
      (scanEntryStreaming target chunkSize onChunk descend directory relPrefix entry streamed) := by
  cases joined : relPrefix.join entry.name with
  | none =>
    simp only [scanEntryStreaming, Fs.reachEntry, joined]
    exact Returns.done ⟨rfl, .nothing⟩
  | some path =>
    have size : (if entry.isDir && !entry.isSymlink then some 0
        else ByteCount.new? entry.sizeBytes) = some (Found.mk path entry).size := by
      have small : (Found.mk path entry).size ≤ ByteCount.maxSafe := by
        apply fit
        simp [Fs.reachEntry, joined]
      by_cases isDir : (entry.isDir && !entry.isSymlink) = true
      · simp [Found.size, Found.isDirectory, isDir]
      · simp only [Found.size, Found.isDirectory, isDir, Bool.false_eq_true, if_false]
          at small ⊢
        rw [ByteCount.new?, if_pos small]
    have pushed : Fed target chunkSize onChunk streamed [⟨path, entry⟩]
        (streamed.push chunkSize onChunk target path entry (Found.mk path entry).size) :=
      fed_push rfl
    simp only [scanEntryStreaming, Fs.reachEntry, joined, size] at fit ⊢
    generalize streamed.push chunkSize onChunk target path entry (Found.mk path entry).size =
      reply at pushed ⊢
    obtain ⟨answer, after⟩ := reply
    cases answer with
    | error error =>
      have stops : (Except.error error : Result Bool) ≠ .ok true := by simp
      exact Returns.done ⟨rfl, pushed.stopped stops _⟩
    | ok more =>
      cases more with
      | false =>
        have stops : (Except.ok false : Result Bool) ≠ .ok true := by simp
        exact Returns.done ⟨rfl, pushed.stopped stops _⟩
      | true =>
        by_cases isDir : (entry.isDir && !entry.isSymlink) = true
        · simp only [isDir, if_true] at fit ⊢
          apply Rules.quiet_returns rfl
          intro permit given
          rw [given.trans (clear.permits world.tick)]
          apply Rules.quiet_returns rfl
          intro reply replied
          change reply = Env.guarded (env.openFault _)
            (world.fs.openChild env.openat2 directory entry.name) at replied
          rw [clear.opens] at replied
          change reply = world.fs.openChild env.openat2 directory entry.name at replied
          rw [← replied] at fit ⊢
          cases reply with
          | error errno => exact Returns.done ⟨rfl, pushed⟩
          | ok child =>
            have below := streams child path after world.advance.advance rfl
              fun found mem => fit found (List.mem_cons_of_mem _ mem)
            obtain ⟨reply, final, ran, fs, fed⟩ := below
            exact ⟨reply, final, ran, fs, pushed.append fed⟩
        · simp only [isDir, Bool.false_eq_true, if_false]
          exact Returns.done ⟨rfl, pushed⟩

theorem scanEntriesStreaming_streams (directory : FileIdentity) (relPrefix : RelativePath)
    (streamed : Streamed) (fit : Fit (entries.flatMap
      (world.fs.reachEntry env.openat2 deeper directory relPrefix))) :
    Streams env target chunkSize onChunk world streamed
      (entries.flatMap (world.fs.reachEntry env.openat2 deeper directory relPrefix))
      (scanEntriesStreaming target chunkSize onChunk descend directory relPrefix entries
        streamed) := by
  induction entries generalizing streamed world with
  | nil => exact Returns.done ⟨rfl, .nothing⟩
  | cons entry rest ih =>
    rw [List.flatMap_cons] at fit ⊢
    obtain ⟨front, back⟩ := List.forall_mem_append.mp fit
    apply Returns.bind
      (scanEntryStreaming_streams clear streams directory relPrefix entry streamed front)
    intro reply state first
    obtain ⟨fs, fed⟩ := first
    obtain ⟨answer, middle⟩ := reply
    cases answer with
    | error error =>
      have stops : (Except.error error : Result Bool) ≠ .ok true := by simp
      exact Returns.done ⟨fs, fed.stopped stops _⟩
    | ok more =>
      cases more with
      | false =>
        have stops : (Except.ok false : Result Bool) ≠ .ok true := by simp
        exact Returns.done ⟨fs, fed.stopped stops _⟩
      | true =>
        rw [← fs] at streams back fed ⊢
        obtain ⟨reply, final, ran, same, later⟩ := ih streams middle back
        exact ⟨reply, final, ran, same, fed.append later⟩

end

theorem scanSafeRecursiveStreaming_streams (clear : env.Clear) (levels : Nat)
    (directory : FileIdentity) (relPrefix : RelativePath) (streamed : Streamed)
    (fit : Fit (world.fs.reach env.openat2 levels directory relPrefix)) :
    Streams env target chunkSize onChunk world streamed
      (world.fs.reach env.openat2 levels directory relPrefix)
      (scanSafeRecursiveStreaming target chunkSize onChunk levels directory relPrefix
        streamed) := by
  induction levels generalizing directory relPrefix streamed world with
  | zero => exact Returns.done ⟨rfl, .nothing⟩
  | succ levels ih =>
    apply Rules.quiet_returns rfl
    intro reply replied
    change reply = Env.guarded (env.readFault world.tick)
      (.ok (world.fs.safeEntries (env.hidden world.tick) directory)) at replied
    rw [clear.reads, funext (clear.shows world.tick)] at replied
    rw [replied]
    have below : ∀ child path streamed (world' : World), world'.fs = world.advance.fs →
        Fit (world.fs.reach env.openat2 levels child path) →
        Streams env target chunkSize onChunk world' streamed
          (world.fs.reach env.openat2 levels child path)
          (scanSafeRecursiveStreaming target chunkSize onChunk levels child path streamed) := by
      intro child path streamed world' same fit
      have deeper := @ih world' child path streamed
      rw [same] at deeper
      exact deeper fit
    exact scanEntriesStreaming_streams clear below directory relPrefix streamed fit

theorem scanTargetStreaming_returns (clear : env.Clear)
    (opened : world.fs.openRoot target.basePath = .ok root)
    (fit : Fit (world.fs.reachTarget env.openat2 target)) (nextId : Nat) : Returns env.handler
      (fun reply _ => (reply.1, reply.2.feed) = Feed.start.stream chunkSize onChunk
        (number target nextId (world.fs.reachTarget env.openat2 target)))
      (scanTargetStreaming target chunkSize onChunk nextId) world := by
  apply Rules.quiet_returns rfl
  intro _ _
  apply Rules.quiet_returns rfl
  intro reply replied
  change reply = Env.guarded (env.openFault _) (world.fs.openRoot target.basePath) at replied
  rw [clear.opens, opened] at replied
  rw [replied]
  have walk : world.fs.reachTarget env.openat2 target =
      world.fs.reach env.openat2 maxDepth root RelativePath.empty := by
    simp only [Fs.reachTarget, opened]
  rw [walk] at fit ⊢
  have streams : Streams env target chunkSize onChunk world.advance.advance ⟨.start, nextId⟩ _ _ :=
    scanSafeRecursiveStreaming_streams clear maxDepth root RelativePath.empty _ fit
  apply Returns.bind streams
  intro reply final ended
  obtain ⟨-, fed⟩ := ended
  obtain ⟨answer, after⟩ := reply
  have through : (answer, after.feed) = Feed.start.pushAll chunkSize onChunk
      (number target nextId (world.fs.reach env.openat2 maxDepth root RelativePath.empty)) :=
    fed.feed
  unfold Feed.stream
  rw [← through]
  cases answer with
  | error error => exact Returns.done rfl
  | ok more => exact Returns.done rfl

end

end CacheCleaner.CandidateScanner
