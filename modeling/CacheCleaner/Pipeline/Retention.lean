import CacheCleaner.Pipeline.Eligibility
import CacheCleaner.Pipeline.Protected

namespace CacheCleaner

open Effect Effect.Program

structure Planned (config : DaemonConfig) (fs : Fs) (openat2 : Bool)
    (target : TargetDescriptor) (found : Found) : Prop where
  listed : found ∈ fs.reachTarget openat2 target
  beneath : ∃ root, fs.openRoot target.basePath = .ok root ∧
    fs.Leads root found.path.names found.entry.identity
  device : found.entry.identity.dev = target.dev
  package : ∀ package ∈ target.packageName, ∀ entry ∈ config.safety.whitelistPackages,
      eqIgnoreAsciiCase entry package = false
  bytecode : ∀ ending ∈ [".dex", ".oat", ".art", ".vdex"],
    endsWithText found.path.raw ending = false
  codeCache : containsText found.path.raw "code_cache" = false
  tier : target.isMutationAllowed = true

/-- An operation of a plan as it should be.  With no retention at all a file
may even be dated later than the run. -/
def Justified (config : DaemonConfig) (now : UnixTimestamp) (fs : Fs)
    (openat2 : Bool) (catalog : CatalogSnapshot) : OperationType → Prop
  | .deleteFile targetId path identity _ =>
    ∃ target ∈ catalog.targets, ∃ found, target.targetId = targetId ∧
      found.path = path ∧ found.entry.identity = identity ∧
      Planned config fs openat2 target found ∧ found.isDirectory = false ∧
      (found.entry.mtimeSecs + config.cleaning.minFileAgeHours * 3600 ≤ now ∨
        config.cleaning.minFileAgeHours = 0)
  | .deleteDirEmpty targetId path identity =>
    ∃ target ∈ catalog.targets, ∃ found, target.targetId = targetId ∧
      found.path = path ∧ found.entry.identity = identity ∧
      Planned config fs openat2 target found ∧ found.isDirectory = true
  | _ => False

theorem not_bytecode {path : String} (plain : PolicyEngine.protectedBytecode path = false) :
    (∀ ending ∈ [".dex", ".oat", ".art", ".vdex"], endsWithText path ending = false) ∧
      containsText path "code_cache" = false := by
  simp only [PolicyEngine.protectedBytecode, Bool.or_eq_false_iff] at plain
  obtain ⟨⟨⟨⟨dex, oat⟩, art⟩, vdex⟩, cache⟩ := plain
  simp [dex, oat, art, vdex, cache]

theorem DaemonConfig.not_whitelisted {config : DaemonConfig}
    (free : config.whitelists target = false) :
    ∀ package ∈ target.packageName, ∀ entry ∈ config.safety.whitelistPackages,
        eqIgnoreAsciiCase entry package = false := by
  intro package own entry mem
  unfold whitelists at free
  rw [Option.mem_def.mp own] at free
  exact Bool.eq_false_iff.mpr (List.any_eq_false.mp free entry mem)

theorem DaemonConfig.aged {config : DaemonConfig} (hours : config.cleaning.minFileAgeHours < 2 ^ 32)
    (old : config.retentionSecs ≤ UnixTimestamp.ageSecs mtime now) :
    mtime + config.cleaning.minFileAgeHours * 3600 ≤ now ∨ config.cleaning.minFileAgeHours = 0 := by
  have large : 2 ^ 32 * 3600 ≤ u64Max := by decide
  have retention : config.retentionSecs = config.cleaning.minFileAgeHours * 3600 := by
    unfold retentionSecs saturatingMul
    exact Nat.min_eq_left (Nat.le_trans (Nat.mul_le_mul_right 3600 (Nat.le_of_lt hours)) large)
  rw [retention] at old
  have elapsed : ∀ retained mtime now : Nat, retained * 3600 ≤ now - mtime →
      mtime + retained * 3600 ≤ now ∨ retained = 0 := by omega
  exact elapsed _ mtime now old

namespace AuthoritativeCleanPipeline

theorem planned_of_unopposed {config : DaemonConfig} (carried : config.Carried effective.validated)
    (unopposed : Unopposed effective now target candidate) (named : fs.Named)
    (listed : found ∈ fs.reachTarget openat2 target)
    (same : candidate.unnumbered = found.candidate target) :
    Planned config fs openat2 target found := by
  obtain ⟨tier, device, -, -, -, package, bytecode, -⟩ := unopposed
  have path : candidate.relPath = found.path := congrArg Candidate.relPath same
  have identity : candidate.identity = found.entry.identity := congrArg Candidate.identity same
  obtain ⟨root, opened, beneath⟩ := Fs.mem_reachTarget named listed
  rw [identity] at device
  rw [path] at bytecode
  rw [carried.package effective.generation] at package
  exact ⟨listed, ⟨root, opened, beneath.leads⟩, device,
    DaemonConfig.not_whitelisted package, (not_bytecode bytecode).1,
    (not_bytecode bytecode).2, tier⟩

theorem aged_of_unopposed {config : DaemonConfig} (carried : config.Carried effective.validated)
    (hours : config.cleaning.minFileAgeHours < 2 ^ 32)
    (unopposed : Unopposed effective now target candidate) (file : candidate.isDir = false) :
    candidate.mtime + config.cleaning.minFileAgeHours * 3600 ≤ now ∨
      config.cleaning.minFileAgeHours = 0 := by
  obtain ⟨-, -, -, -, -, -, -, age⟩ := unopposed
  unfold PolicyEngine.withinGracePeriod at age
  rw [file, carried.age] at age
  exact DaemonConfig.aged hours (Nat.not_lt.mp (of_decide_eq_false age))

/-- Every operation that a job plans is justified. -/
theorem planned_operations_justified {pipeline : Pipeline}
    (hours : pipeline.config.cleaning.minFileAgeHours < 2 ^ 32)
    {orders : HashOrders} {admission : JobAdmissionRequest} {env : Env}
    {world after : World} (named : world.fs.Named) {survey : Survey} {plan : PlannedPlan}
    (surveyed : (pipeline.survey orders admission).run env.handler world =
      (some (.ok survey), after)) (planned : survey.plan pipeline orders admission = .ok plan) :
    ∀ op ∈ plan.operations, Justified pipeline.config survey.now world.fs
      env.openat2 pipeline.catalog op.opType := by
  intro op member
  have faithful := survey_faithful surveyed
  have carried := DaemonConfig.carried_of_fromRaw faithful.read
  have removes : op.opType ∈ plan.operations.map PlannedOperation.opType :=
    List.mem_map_of_mem member
  rw [(CleanupPlanner.buildPlan_plans planned).removals] at removes
  obtain ⟨permit, ordered, removal⟩ := List.mem_map.mp removes
  obtain ⟨scan, scanned, permitted⟩ := mem_permits.mp (CleanupPlanner.mem_planningOrder.mp ordered)
  obtain ⟨inside, own, unopposed⟩ := mem_permitted permitted
  obtain ⟨known, seen⟩ := faithful.found scan scanned
  obtain ⟨found, listed, same⟩ := seen _ inside
  have sound := planned_of_unopposed carried unopposed named listed same
  have path := congrArg Candidate.relPath same
  have identity := congrArg Candidate.identity same
  have kind := congrArg Candidate.isDir same
  rw [← removal]
  unfold CleanupPlanner.removal
  split
  · rename_i isDir
    exact ⟨scan.1, known, found, own.symm, path.symm, identity.symm, sound, kind.symm.trans isDir⟩
  · rename_i file
    have old := aged_of_unopposed carried hours unopposed (Bool.eq_false_iff.mpr file)
    have mtime : permit.candidate.candidate.mtime = found.entry.mtimeSecs :=
      congrArg Candidate.mtime same
    rw [mtime] at old
    exact ⟨scan.1, known, found, own.symm, path.symm, identity.symm, sound,
      kind.symm.trans (Bool.eq_false_iff.mpr file), old⟩

end AuthoritativeCleanPipeline

namespace Device

open AuthoritativeCleanPipeline

def future : World :=
  { origin with
    fs := { fs with
      inode := fun id =>
        if id = ⟨1, 5⟩ then
          some (.file ⟨1, 4⟩ 5 2000000)
        else fs.inode id } }

def hasty : Pipeline :=
  { start with
    config := { config with
      cleaning := { config.cleaning with minFileAgeHours := 0 } } }

theorem old_file_justified : ∃ survey plan after,
      (start.survey orders request).run env.handler origin = (some (.ok survey), after) ∧
      survey.plan start orders request = .ok plan ∧ plan.operations.length = 1 ∧
      ∀ op ∈ plan.operations, Justified start.config survey.now origin.fs
        env.openat2 start.catalog op.opType := by
  obtain ⟨survey, plan, after, surveyed, planned, single⟩ := exists_of_planning start origin
    (fun _ plan => decide (plan.operations.length = 1)) (by decide +kernel)
  exact ⟨survey, plan, after, surveyed, planned, of_decide_eq_true single,
    planned_operations_justified (by decide) named surveyed planned⟩

/-- Without retention a file dated later than the run is planned. -/
theorem future_file_planned : ∃ survey plan after,
      (hasty.survey orders request).run env.handler future = (some (.ok survey), after) ∧
      survey.plan hasty orders request = .ok plan ∧
      ∃ op ∈ plan.operations, ∃ scan ∈ survey.scanned, ∃ candidate ∈ scan.2,
        op.opType = CleanupPlanner.removal candidate ∧ candidate.isDir = false ∧
        ¬ candidate.mtime + hasty.config.cleaning.minFileAgeHours * 3600 ≤ survey.now := by
  obtain ⟨survey, plan, after, surveyed, planned, passed⟩ := exists_of_planning hasty future
    (fun survey plan => decide (∃ op ∈ plan.operations, ∃ scan ∈ survey.scanned,
      ∃ candidate ∈ scan.2, op.opType = CleanupPlanner.removal candidate ∧
        candidate.isDir = false ∧
        ¬ candidate.mtime + hasty.config.cleaning.minFileAgeHours * 3600 ≤ survey.now))
    (by decide +kernel)
  exact ⟨survey, plan, after, surveyed, planned, of_decide_eq_true passed⟩

end Device

end CacheCleaner
