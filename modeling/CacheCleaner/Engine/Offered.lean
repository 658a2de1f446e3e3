import CacheCleaner.Engine.Parts
import CacheCleaner.Executor.Program

namespace CacheCleaner

namespace Fs

def Labelled (fs : Fs) : Prop :=
  ∀ id inode, fs.inode id = some inode → ∀ listed ∈ inode.listing.entries, listed.1 ≠ ""

end Fs

theorem RelativePath.raw_ne_of_join {path joined : RelativePath}
    (filled : name ≠ "") (made : path.join name = some joined) : joined.raw ≠ "" := by
  obtain ⟨part, parsed, rfl⟩ := Option.map_eq_some_iff.mp made
  intro empty
  have none : (path.push part).names = [] := by
    rw [names, empty]
    rfl
  rw [names_push, List.append_eq_nil_iff] at none
  refine names_ne_nil ?_ none.2
  rw [raw_parse parsed]
  exact filled

theorem Fs.raw_ne_of_mem_reach {fs : Fs} (labelled : fs.Labelled)
    (mem : found ∈ fs.reach openat2 levels directory relPrefix) : found.path.raw ≠ "" := by
  obtain ⟨names, passes, -, made⟩ := mem_reach_iff.mp mem
  obtain ⟨last, parent, listed⟩ := passes.listed
  obtain ⟨child, -, there, -⟩ := mem_safeEntries_iff.mp listed
  obtain ⟨inode, read, inside⟩ := child_mem there
  obtain ⟨front, rfl⟩ := List.getLast?_eq_some_iff.mp last
  rw [RelativePath.joins, List.foldlM_append] at made
  obtain ⟨middle, -, joined⟩ := Option.bind_eq_some_iff.mp made
  exact RelativePath.raw_ne_of_join (labelled parent inode read _ inside) (by simpa using joined)

namespace CandidateScanner

open Effect Effect.Program

def Offers (target : TargetDescriptor) (candidate : Candidate) : Prop :=
  ∃ (env : Env) (world : World) (nextId : Nat) (result : ScanResult × Nat)
    (final : World), world.fs.Labelled ∧
      (scanTargetWithResource target nextId).run env.handler world = (some result, final) ∧
      candidate ∈ result.1.candidates

theorem Offers.beneath {target : TargetDescriptor} (offers : Offers target candidate) :
    candidate.targetId = target.targetId ∧ candidate.relPath.raw ≠ "" := by
  obtain ⟨env, world, nextId, result, final, labelled, ran, mem⟩ := offers
  have seen := (scanTargetWithResource_sees nextId).run_post
    (Answered.always _ _ fun _ _ => trivial) ran
  obtain ⟨found, inside, same⟩ := seen.2 candidate mem
  have id : candidate.targetId = target.targetId := congrArg Candidate.targetId same
  have path : candidate.relPath = found.path := congrArg Candidate.relPath same
  refine ⟨id, ?_⟩
  rw [path]
  unfold Fs.reachTarget at inside
  split at inside
  · cases inside
  · exact Fs.raw_ne_of_mem_reach labelled inside

def loop (device : Nat) (names : List String) : Inode where
  kind := .directory
  size := 0
  mtime := 0
  parent := ⟨device, 1⟩
  listing :=
    { entries := ("entry" :: names.dedup.filter (· ≠ "entry")).map fun name =>
        (name, ⟨⟨device, 1⟩, true⟩)
      distinct := by
        rw [List.map_map]
        refine (List.map_id _).symm ▸ List.nodup_cons.mpr ⟨?_, ?_⟩
        · simp
        · exact (List.nodup_dedup _).filter _ }

def looped (device : Nat) (names : List String) : Fs where
  root := ⟨device, 1⟩
  cwd := ⟨device, 1⟩
  inode := fun id => if id = ⟨device, 1⟩ then some (loop device names) else none

section

variable {device : Nat} {names : List String}

theorem inode_looped : (looped device names).inode ⟨device, 1⟩ = some (loop device names) :=
  if_pos rfl

theorem child_looped (known : name ∈ names) :
    (looped device names).child ⟨device, 1⟩ name = some ⟨⟨device, 1⟩, true⟩ := by
  rw [Fs.child, inode_looped]
  refine Fs.lookup_of_mem (List.mem_map.mpr ⟨name, ?_, rfl⟩)
  by_cases first : name = "entry"
  · rw [first]
    exact List.mem_cons_self
  · refine List.mem_cons_of_mem _ (List.mem_filter.mpr ⟨?_, by simpa using first⟩)
    exact List.mem_dedup.mpr known

theorem walk_looped (known : ∀ name, .normal name ∈ parts → name ∈ names) :
    (looped device names).walkWith follow ⟨device, 1⟩ parts = .ok ⟨device, 1⟩ := by
  induction parts with
  | nil => rfl
  | cons part rest ih =>
    have onwards := ih fun name mem =>
      known name (List.mem_cons_of_mem _ mem)
    cases part with
    | rootDir => exact onwards
    | curDir => exact onwards
    | parentDir =>
      rw [Fs.walkWith, inode_looped]
      exact onwards
    | normal name =>
      rw [Fs.walkWith, child_looped (known name List.mem_cons_self)]
      simp only [Fs.kind, inode_looped, Option.map_some]
      exact onwards

theorem labelled_looped (filled : ∀ name ∈ names, name ≠ "") : (looped device names).Labelled := by
  intro id inode found listed mem
  unfold looped at found
  dsimp only at found
  split at found
  · cases found
    obtain ⟨name, inside, rfl⟩ := List.mem_map.mp mem
    rcases List.mem_cons.mp inside with rfl | other
    · show "entry" ≠ ""
      decide
    · exact filled name (List.mem_dedup.mp (List.mem_filter.mp other).1)
  · cases found

theorem safeEntries_looped :
    (looped device names).safeEntries (fun name => name ≠ "entry") ⟨device, 1⟩ =
      [⟨"entry", true, false, ⟨device, 1⟩, 0, 0⟩] := by
  rw [Fs.safeEntries, inode_looped]
  simp only [loop, List.map_cons, List.filterMap_cons, List.filterMap_map, inode_looped]
  simp only [ne_eq, not_true_eq_false, decide_false, Bool.false_eq_true, if_false, Option.bind_some]
  refine congrArg (List.cons _) (List.filterMap_eq_nil_iff.mpr ?_)
  intro name mem
  have other := (List.mem_filter.mp mem).2
  simp only [Function.comp_apply]
  rw [if_pos (by simpa using other)]

end

def namesOf (path : String) : List String :=
  (components path).filterMap fun
    | .normal name => some name
    | _ => none

theorem name_ne_of_mem_components (mem : .normal name ∈ components path) : name ≠ "" := by
  have piece : ∀ letters, pieceComponent? letters = some (.normal name) → name ≠ "" := by
    intro letters read
    unfold pieceComponent? at read
    split at read
    · cases read
    · cases read
    · cases read
    · rename_i filled _ _
      cases read
      simpa using filled
  unfold components at mem
  split at mem
  · cases mem
  · rcases List.mem_append.mp mem with first | later
    · unfold leadingComponents at first
      split at first
      · split at first <;> simp at first
      · simp at first
      · exact piece _ (by simpa using first)
    · obtain ⟨letters, -, read⟩ := List.mem_filterMap.mp later
      exact piece letters read

theorem exists_offers (target : TargetDescriptor) (filled : target.basePath ≠ "") :
    ∃ candidate, Offers target candidate ∧ candidate.identity.dev = target.dev := by
  have opened : (looped target.dev (namesOf target.basePath)).openRoot
      target.basePath = .ok ⟨target.dev, 1⟩ := by
    rw [Fs.openRoot, if_neg filled]
    refine walk_looped fun name mem => ?_
    exact List.mem_filterMap.mpr ⟨_, mem, rfl⟩
  have labelled : (looped target.dev (namesOf target.basePath)).Labelled := by
    refine labelled_looped fun name mem => ?_
    obtain ⟨part, inside, read⟩ := List.mem_filterMap.mp mem
    cases part with
    | normal text =>
      cases read
      exact name_ne_of_mem_components inside
    | _ => cases read
  let env : Env :=
    { Env.calm 0 ⟨[], fun _ => .unknown, fun _ => none, fun _ => none,
        fun _ => none⟩ (Nat.zero_le _) with
      fdPermit := fun _ => false
      hidden := fun _ name => name ≠ "entry" }
  let world : World := ⟨0, looped target.dev (namesOf target.basePath), Store.empty, []⟩
  obtain ⟨path, joined⟩ : ∃ path, RelativePath.empty.join "entry" = some path := ⟨_, rfl⟩
  have scanned : Returns env.handler (fun progress _ =>
      ∃ candidate ∈ progress.candidates, candidate.identity.dev = target.dev)
      (scanSafeRecursive target maxDepth ⟨target.dev, 1⟩ RelativePath.empty
        ⟨[], [], false, 1⟩) world.advance.advance := by
    rw [show maxDepth = 15 + 1 from rfl, scanSafeRecursive, if_neg (by decide)]
    refine Rules.quiet_returns rfl fun reply replied => ?_
    have listed : reply = .ok [⟨"entry", true, false, ⟨target.dev, 1⟩, 0, 0⟩] :=
      replied.trans (congrArg Except.ok safeEntries_looped)
    subst listed
    dsimp only
    rw [scanEntries, if_neg (by decide)]
    refine Returns.bind (?_ : Returns _ _ (scanEntry ..) _) fun _ _ found => Returns.done found
    rw [scanEntry, joined]
    refine Rules.quiet_returns rfl fun reply replied => ?_
    have refused : reply = false := replied
    subst refused
    exact Returns.done ⟨_, List.mem_singleton.mpr rfl, rfl⟩
  have returns : Returns env.handler (fun result _ =>
      ∃ candidate ∈ result.1.candidates, candidate.identity.dev = target.dev)
      (scanTargetWithResource target 1) world := by
    refine Rules.quiet_returns rfl fun _ _ => ?_
    refine Rules.quiet_returns rfl fun reply replied => ?_
    have root : reply = .ok ⟨target.dev, 1⟩ := replied.trans opened
    subst root
    change Returns _ _ (scanSafeRecursive target maxDepth _
      RelativePath.empty ⟨[], [], false, 1⟩ >>= _) _
    exact scanned.bind fun _ _ found => Returns.done found
  obtain ⟨result, final, ran, candidate, mem, device⟩ := returns
  exact ⟨candidate, ⟨env, world, 1, result, final, labelled, ran, mem⟩, device⟩

end CandidateScanner

end CacheCleaner
