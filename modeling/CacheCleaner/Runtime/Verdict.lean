import CacheCleaner.Fs.Lookup
import CacheCleaner.Fs.Presence
import CacheCleaner.Runtime.Inspect

namespace CacheCleaner

open Effect Effect.Program

def Component.asOsStr : Component → String
  | .rootDir => "/"
  | .curDir => "."
  | .parentDir => ".."
  | .normal name => name

theorem Component.normal_of_valid {part : Component}
    (valid : Fs.validateSingleComponent part.asOsStr = true) : part = .normal part.asOsStr := by
  cases part with
  | normal name => rfl
  | rootDir => simp [asOsStr, Fs.validateSingleComponent, containsChar] at valid
  | curDir => simp [asOsStr, Fs.validateSingleComponent] at valid
  | parentDir => simp [asOsStr, Fs.validateSingleComponent] at valid

namespace Fs

/-- The object a path below a directory leads to, links on the way followed. -/
def objectAt (fs : Fs) (root : FileIdentity) (parts : List Component) : Option FileIdentity :=
  fs.lstat 40 root parts

/-- The names of a path that are there, up to the first missing one, are
directories on one device, none of them a mount point that `openat2` refuses. -/
def RealDirectories (fs : Fs) (openat2 : Bool) : FileIdentity → List String → Prop
  | _, [] => True
  | directory, name :: rest =>
    ∀ entry, fs.child directory name = some entry → fs.kind entry.node = some .directory ∧
      entry.node.dev = directory.dev ∧ (openat2 && entry.mount) = false ∧
      fs.RealDirectories openat2 entry.node rest

variable {fs : Fs} {openat2 : Bool} {directory child : FileIdentity}
  {part : Component} {rest : List Component}

theorem objectAt_normal : fs.objectAt directory [.normal name] =
      (fs.child directory name).map DirEntry.node := by
  change fs.lstatWith _ directory [.normal name] = _
  cases found : fs.child directory name <;> simp [lstatWith, found]

theorem objectAt_of_openChild (last : Component)
    (opened : fs.openChild openat2 directory part.asOsStr = .ok child) :
    fs.objectAt directory (part :: rest ++ [last]) = fs.objectAt child (rest ++ [last]) := by
  obtain ⟨valid, entry, found, isDir, rfl⟩ : validateSingleComponent part.asOsStr = true ∧
      ∃ entry, fs.child directory part.asOsStr = some entry ∧
        fs.kind entry.node = some .directory ∧ entry.node = child := by
    unfold openChild at opened
    grind
  have longer : rest ++ [last] ≠ [] := by simp
  rw [Component.normal_of_valid valid]
  change fs.lstatWith _ directory (.normal part.asOsStr :: (rest ++ [last])) =
    fs.lstatWith _ entry.node (rest ++ [last])
  simp only [lstatWith, found, if_neg longer, isDir]

theorem objectAt_of_missing
    (missing : fs.openChild openat2 directory part.asOsStr = .error .noent) :
    fs.objectAt directory (part :: rest) = none := by
  obtain ⟨valid, absent⟩ : validateSingleComponent part.asOsStr = true ∧
      fs.child directory part.asOsStr = none := by
    unfold openChild at missing
    grind
  rw [Component.normal_of_valid valid]
  change fs.lstatWith _ directory (.normal part.asOsStr :: rest) = none
  simp only [lstatWith, absent]

theorem RealDirectories.openChild (real : fs.RealDirectories openat2 directory (name :: names))
    (valid : validateSingleComponent name = true) :
    fs.openChild openat2 directory name = .error .noent ∨
      ∃ child, fs.openChild openat2 directory name = .ok child ∧
        fs.RealDirectories openat2 child names := by
  unfold Fs.openChild
  rw [if_pos valid]
  cases found : fs.child directory name with
  | none => exact .inl rfl
  | some entry =>
    obtain ⟨isDir, device, unmounted, onward⟩ := real entry found
    refine .inr ⟨entry.node, ?_, onward⟩
    simp [unmounted, isDir, device]

end Fs

namespace PostconditionVerifier

/-- `verify_operation_postcondition` for any path. -/
def verifyPath (basePath path : String) (expected : FileIdentity) : Act VerificationOutcome := do
  match ← ask (.openRoot .verifier basePath) with
  | .error _ => pure .targetUnavailable
  | .ok root =>
    match ((components path).map Component.asOsStr).getLast? with
    | none => pure .unknown
    | some leaf =>
      verifyBeneath expected leaf root ((components path).map Component.asOsStr).dropLast

def Truthful (expected : FileIdentity) (there : Option FileIdentity) : VerificationOutcome → Prop
  | .confirmedDeleted | .alreadyGone => there = none
  | .stillPresent => there = some expected
  | .identityMismatch => ∃ other, there = some other ∧ other ≠ expected
  | _ => True

section

variable {env : Env} {expected directory : FileIdentity} {leaf : String} {world : World}

theorem classifyOpen_truthful
    (gone : errno = .noent → there = none) : Truthful expected there (classifyOpen errno) := by
  cases errno with
  | noent => exact gone rfl
  | _ => trivial

theorem guarded_noent
    (missing : Env.guarded fault answer = .error .noent) : answer = .error .noent := by
  cases fault with
  | none => exact missing
  | some fault =>
    simp only [Env.guarded, Except.error.injEq] at missing
    exact absurd missing fault.exists_

theorem guarded_eq_ok (succeeded : Env.guarded fault answer = .ok value) : answer = .ok value := by
  cases fault with
  | none => exact succeeded
  | some fault => cases succeeded

theorem classifyStat_fault (fault : Fault) :
    Truthful expected there (classifyStat expected (.error fault.errno)) := by
  have present := fault.exists_
  cases errno : fault.errno with
  | noent => exact absurd errno present
  | _ => trivial

theorem classifyStat_truthful (part : Component) (tick : Nat) :
    Truthful expected (world.fs.objectAt directory [part]) (classifyStat expected
        (env.stat tick (world.fs.statChild directory part.asOsStr))) := by
  unfold Fs.statChild
  by_cases valid : Fs.validateSingleComponent part.asOsStr = true
  · rw [if_pos valid, Component.normal_of_valid valid, Fs.objectAt_normal]
    have spelled : (Component.normal part.asOsStr).asOsStr = part.asOsStr := rfl
    rw [spelled]
    cases world.fs.child directory part.asOsStr with
    | none =>
      simp only [Env.stat]
      cases env.absentFault tick with
      | none => rfl
      | some fault => exact classifyStat_fault fault
    | some entry =>
      simp only [Env.stat]
      cases env.statFault tick with
      | none =>
        by_cases same : entry.node = expected
        · simp [Env.guarded, classifyStat, Truthful, same]
        · simp [Env.guarded, classifyStat, Truthful, same]
      | some fault => exact classifyStat_fault fault
  · rw [if_neg valid]
    trivial

theorem verifyBeneath_truthful (last : Component) (parts : List Component) : Returns env.handler
      (fun outcome _ => Truthful expected (world.fs.objectAt directory (parts ++ [last])) outcome)
      (verifyBeneath expected last.asOsStr directory (parts.map Component.asOsStr)) world := by
  induction parts generalizing directory world with
  | nil =>
    apply Rules.quiet_returns rfl
    intro reply stated
    change reply = env.stat world.tick (world.fs.statChild directory last.asOsStr) at stated
    rw [stated]
    exact Returns.done (classifyStat_truthful last world.tick)
  | cons part rest ih =>
    apply Rules.quiet_returns rfl
    intro reply opened
    change reply = Env.guarded (env.openFault world.tick)
      (world.fs.openChild env.openat2 directory part.asOsStr) at opened
    cases reply with
    | error errno =>
      apply Returns.done
      apply classifyOpen_truthful
      rintro rfl
      exact Fs.objectAt_of_missing (guarded_noent opened.symm)
    | ok child =>
      rw [Fs.objectAt_of_openChild last (guarded_eq_ok opened.symm)]
      exact ih

theorem verifyBeneath_deleted (opens : ∀ tick, env.openFault tick = none)
    (absences : ∀ tick, env.absentFault tick = none)
    (valid : ∀ part ∈ parts ++ [last], Fs.validateSingleComponent part.asOsStr = true)
    (real : world.fs.RealDirectories env.openat2 directory (parts.map Component.asOsStr))
    (absent : world.fs.objectAt directory (parts ++ [last]) = none) :
    Returns env.handler (fun outcome _ => outcome.isSuccessfulDeletion = true)
      (verifyBeneath expected last.asOsStr directory (parts.map Component.asOsStr)) world := by
  induction parts generalizing directory world with
  | nil =>
    apply Rules.quiet_returns rfl
    intro reply stated
    change reply = env.stat world.tick (world.fs.statChild directory last.asOsStr) at stated
    have lastValid := valid last List.mem_cons_self
    rw [List.nil_append, Component.normal_of_valid lastValid,
      Fs.objectAt_normal, Option.map_eq_none_iff] at absent
    rw [stated]
    simp only [Fs.statChild, lastValid, absent, Env.stat, absences]
    exact Returns.done rfl
  | cons part rest ih =>
    apply Rules.quiet_returns rfl
    intro reply opened
    change reply = Env.guarded (env.openFault world.tick)
      (world.fs.openChild env.openat2 directory part.asOsStr) at opened
    rw [opens] at opened
    rcases real.openChild (valid part List.mem_cons_self) with
      missing | ⟨child, found, onward⟩
    · rw [missing] at opened
      rw [opened]
      exact Returns.done rfl
    · rw [found] at opened
      rw [opened]
      apply ih
      · intro other mem
        exact valid other (List.mem_cons_of_mem part mem)
      · exact onward
      · rw [← absent, Fs.objectAt_of_openChild last found]
        rfl

end

section

variable {env : Env} {world : World} {basePath path : String} {root expected : FileIdentity}

theorem verifyPath_beneath (named : components path = parts ++ [last])
    (opened : Env.guarded (env.openFault world.tick) (world.fs.openRoot basePath) = .ok root)
    (rest : Returns env.handler post
      (verifyBeneath expected last.asOsStr root (parts.map Component.asOsStr)) world.advance) :
    Returns env.handler post (verifyPath basePath path expected) world := by
  apply Rules.quiet_returns rfl
  intro reply replied
  rw [replied.trans opened]
  simp only [named, List.map_append, List.map_cons, List.map_nil,
    List.getLast?_concat, List.dropLast_concat]
  exact rest

theorem verifyPath_truthful : Returns env.handler
      (fun outcome _ => outcome = .targetUnavailable ∨ outcome = .unknown ∨
        ∃ root, world.fs.openRoot basePath = .ok root ∧
        Truthful expected (world.fs.objectAt root (components path)) outcome)
      (verifyPath basePath path expected) world := by
  cases opened : Env.guarded (env.openFault world.tick) (world.fs.openRoot basePath) with
  | error errno =>
    apply Rules.quiet_returns rfl
    intro reply replied
    rw [replied.trans opened]
    exact Returns.done (.inl rfl)
  | ok root =>
    rcases List.eq_nil_or_concat' (components path) with
      none | ⟨parts, last, named⟩
    · apply Rules.quiet_returns rfl
      intro reply replied
      rw [replied.trans opened]
      simp only [none]
      exact Returns.done (.inr (.inl rfl))
    · apply verifyPath_beneath named opened
      obtain ⟨outcome, final, ran, holds⟩ := verifyBeneath_truthful last parts
      rw [named]
      exact ⟨outcome, final, ran, .inr (.inr ⟨root, guarded_eq_ok opened, holds⟩)⟩

theorem verifyPath_deleted (opens : ∀ tick, env.openFault tick = none)
    (absences : ∀ tick, env.absentFault tick = none)
    (opened : world.fs.openRoot basePath = .ok root) (valid : ∀ part ∈ components path,
      Fs.validateSingleComponent part.asOsStr = true)
    (real : world.fs.RealDirectories env.openat2 root
      ((components path).dropLast.map Component.asOsStr))
    (absent : world.fs.objectAt root (components path) = none) :
    Returns env.handler (fun outcome _ => outcome.isSuccessfulDeletion = true)
      (verifyPath basePath path expected) world := by
  rcases List.eq_nil_or_concat' (components path) with
    none | ⟨parts, last, named⟩
  · rw [none] at absent
    cases absent
  · rw [named] at valid real absent
    rw [List.dropLast_concat] at real
    have reached : Env.guarded (env.openFault world.tick)
        (world.fs.openRoot basePath) = .ok root := by
      rw [opens]
      exact opened
    apply verifyPath_beneath named reached
    exact verifyBeneath_deleted opens absences valid real absent

end

/-- Whatever fails on the way, a verdict is true of the object at the path; and
with nothing in the way but missing names, a missing object is reported.  A
component that is not a name is in the way: it is refused with `EINVAL`. -/
theorem verdict_of_object (env : Env) (world : World) (basePath path : String)
    (expected : FileIdentity) : ∃ outcome final,
      (verifyPath basePath path expected).run env.handler world = (some outcome, final) ∧
      (outcome = .confirmedDeleted ∨ outcome = .alreadyGone →
        ∃ root, world.fs.openRoot basePath = .ok root ∧
          world.fs.objectAt root (components path) = none) ∧ (outcome = .stillPresent →
        ∃ root, world.fs.openRoot basePath = .ok root ∧
          world.fs.objectAt root (components path) = some expected) ∧ (outcome = .identityMismatch →
        ∃ root other, world.fs.openRoot basePath = .ok root ∧
          world.fs.objectAt root (components path) = some other ∧ other ≠ expected) ∧
      ∀ root, world.fs.openRoot basePath = .ok root → (∀ tick, env.openFault tick = none) →
        (∀ tick, env.absentFault tick = none) → (∀ part ∈ components path,
          Fs.validateSingleComponent part.asOsStr = true) →
        world.fs.RealDirectories env.openat2 root
          ((components path).dropLast.map Component.asOsStr) →
        world.fs.objectAt root (components path) = none →
        outcome = .confirmedDeleted ∨ outcome = .alreadyGone := by
  obtain ⟨outcome, final, ran, holds⟩ := verifyPath_truthful
  refine ⟨outcome, final, ran, ?_, ?_, ?_, ?_⟩
  · rintro (rfl | rfl)
    · simpa [Truthful] using holds
    · simpa [Truthful] using holds
  · rintro rfl
    simpa [Truthful] using holds
  · rintro rfl
    simpa [Truthful] using holds
  · intro root opened opens absences valid real absent
    obtain ⟨other, after, again, deleted⟩ :=
      verifyPath_deleted opens absences opened valid real absent
    rw [ran] at again
    cases again
    cases outcome with
    | confirmedDeleted => exact .inl rfl
    | alreadyGone => exact .inr rfl
    | _ => cases deleted

end PostconditionVerifier

end CacheCleaner
