import CacheCleaner.Executor.Record
import CacheCleaner.Pipeline.Program

namespace CacheCleaner

open Effect Effect.Program

variable {request : Request}

def Request.ordinary : Request → Bool
  | .enterExecutePlan _ _ _ _ | .trimMounts => false
  | _ => true

/-- An update that sets an attempt running; the program only ever creates
running attempts. -/
def Request.revives : Request → Bool
  | .write (.updateAttemptState _ .running) => true
  | _ => false

def Request.tame (request : Request) : Bool := request.ordinary && !request.revives

theorem Request.ordinary_of_tame (tame : request.tame = true) : request.ordinary = true :=
  (Bool.and_eq_true_iff.mp tame).1

def Request.looks : Request → Bool
  | .isCancelled | .acquireFdPermit | .openRoot _ _ | .openChild _ _ _
  | .readEntries _ | .pathExists _ => true
  | _ => false

theorem Request.tame_of_looks (looks : request.looks = true) : request.tame = true := by
  cases request <;> first | rfl | cases looks

theorem Request.quiet_of_looks (looks : request.looks = true) : request.quiet = true := by
  cases request <;> first | rfl | cases looks

abbrev Looks {α : Type} (program : Act α) : Prop :=
  Issues (fun request => request.looks = true) program

/-- Programs that neither enter an execution, trim nor set a known attempt
running. -/
abbrev Tame {α : Type} (program : Act α) : Prop :=
  Issues (fun request => request.tame = true) program

namespace SafeDirHandle

theorem openRootWithPermit_looks (caller : Caller) (path : String) :
    Looks (openRootWithPermit caller path) := by
  refine asks rfl fun _ => asks rfl fun reply => ?_
  cases reply <;> trivial

end SafeDirHandle

namespace CandidateScanner

variable {target : TargetDescriptor}

variable {descend : FileIdentity → RelativePath → Progress → Act Progress}

theorem scanEntry_looks
    (deeper : ∀ directory path progress, Looks (descend directory path progress))
    (directory : FileIdentity) (relPrefix : RelativePath)
    (entry : SafeDirEntry) (progress : Progress) :
    Looks (scanEntry target descend directory relPrefix entry progress) := by
  unfold scanEntry
  cases relPrefix.join entry.name with
  | none => trivial
  | some path =>
    by_cases isDir : (entry.isDir && !entry.isSymlink) = true
    · simp only [isDir, if_true]
      refine asks rfl fun permit => ?_
      cases permit with
      | false => trivial
      | true =>
        refine asks rfl fun opened => ?_
        cases opened with
        | error errno => trivial
        | ok child => exact deeper child path _
    · simp only [isDir]
      cases ByteCount.new? entry.sizeBytes <;> trivial

theorem scanEntries_looks
    (deeper : ∀ directory path progress, Looks (descend directory path progress))
    (directory : FileIdentity) (relPrefix : RelativePath)
    (entries : List SafeDirEntry) (progress : Progress) :
    Looks (scanEntries target descend directory relPrefix entries progress) := by
  induction entries generalizing progress with
  | nil => trivial
  | cons entry rest ih =>
    unfold scanEntries
    split
    · trivial
    · exact (scanEntry_looks deeper directory relPrefix entry progress).bind
        fun progress => ih progress

theorem scanSafeRecursive_looks (levels : Nat) (directory : FileIdentity)
    (relPrefix : RelativePath) (progress : Progress) :
    Looks (scanSafeRecursive target levels directory relPrefix progress) := by
  induction levels generalizing directory relPrefix progress with
  | zero => trivial
  | succ levels ih =>
    unfold scanSafeRecursive
    split
    · trivial
    · refine asks rfl fun reply => ?_
      cases reply with
      | error errno => trivial
      | ok entries =>
        exact scanEntries_looks ih directory relPrefix entries progress

theorem scanTargetWithResource_looks (target : TargetDescriptor)
    (nextId : Nat) : Looks (scanTargetWithResource target nextId) := by
  refine (SafeDirHandle.openRootWithPermit_looks .scanner target.basePath).bind fun opened => ?_
  cases opened with
  | error error =>
    refine asks rfl fun present => ?_
    cases present <;> trivial
  | ok root =>
    exact (scanSafeRecursive_looks _ _ _ _).bind fun _ => trivial

end CandidateScanner

namespace CleanupExecutor

variable {context : Context}

theorem executeOperation_tame (op : PlannedOperation) (progress : Progress) :
    Tame (executeOperation context op progress) := by
  refine (executeOperation_report context op progress).issues.mono fun request operates => ?_
  cases request with
  | write write => cases write <;> first | rfl | cases operates
  | _ => first | rfl | cases operates

theorem executeOperations_tame (operations : List PlannedOperation) (progress : Progress) :
    Tame (executeOperations context operations progress) := by
  induction operations generalizing progress with
  | nil => trivial
  | cons op rest ih =>
    refine (executeOperation_tame op progress).bind fun result => ?_
    cases result with
    | error error => trivial
    | ok progress => exact ih progress

theorem executePlan_issues
    (tame : ∀ request, request.tame = true → allowed request) (entered : allowed
      (.enterExecutePlan authorized catalog.generation config attempt)) :
    Issues allowed (executePlan authorized catalog config attempt) := by
  refine asks entered fun now => ?_
  simp only
  split
  · trivial
  · refine ((executeOperations_tame _ _).mono tame).bind fun result => ?_
    cases result <;> trivial

end CleanupExecutor

namespace AuthoritativeCleanPipeline

theorem scanTargets_looks (targets : List TargetDescriptor) (nextId : Nat) :
    Looks (scanTargets targets nextId) := by
  induction targets generalizing nextId with
  | nil => trivial
  | cons target rest ih =>
    refine asks rfl fun cancelled => ?_
    cases cancelled with
    | true => trivial
    | false =>
      refine (CandidateScanner.scanTargetWithResource_looks target nextId).bind fun scanned => ?_
      exact (ih _).bind fun _ => trivial

end AuthoritativeCleanPipeline

end CacheCleaner
