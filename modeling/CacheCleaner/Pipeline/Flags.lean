import CacheCleaner.Pipeline.Session

namespace CacheCleaner

open Effect Effect.Program

/-- The requests a call with these flags may make: an execution only if it is
no dry run, and a trim only if it also asked for one. -/
def CleanParams.permits (params : CleanParams) : Request → Bool
  | .enterExecutePlan _ _ _ _ => !params.dryRun
  | .trimMounts => params.trim && !params.dryRun
  | _ => true

theorem CleanParams.permits_of_ordinary (params : CleanParams)
    {request : Request} (ordinary : request.ordinary = true) : params.permits request = true := by
  cases request <;> first | rfl | cases ordinary

/-- A dry run finds only dry runs pending, and a real call that wants no trim
finds no call pending that does. -/
def Compatible (pending : List Pending) (params : CleanParams) : Prop :=
  (params.dryRun = true → ∀ call ∈ pending, call.params.dryRun = true) ∧
    (params.dryRun = false → params.trim = false → ∀ call ∈ pending, call.params.trim = false)

instance (pending : List Pending) (params : CleanParams) : Decidable (Compatible pending params) :=
  inferInstanceAs (Decidable (_ ∧ _))

section

variable {pending : List Pending} {params : CleanParams}
  {config : ConfigGeneration} {request : JobAdmissionRequest}
  (compatible : Compatible pending params) (shaped : Shaped (pending ++ [⟨params, config⟩]) request)
include compatible shaped

theorem Compatible.real (real : request.dryRun = false) : params.dryRun = false := by
  by_contra dry
  rw [Bool.not_eq_false] at dry
  obtain ⟨call, mem, other⟩ := shaped.real real
  rcases List.mem_append.mp mem with earlier | own
  · rw [compatible.1 dry call earlier] at other
    cases other
  · rw [List.mem_singleton.mp own, dry] at other
    cases other

theorem Compatible.trim (trim : request.trim = true) (real : request.dryRun = false) :
    params.trim = true ∧ params.dryRun = false := by
  have own := compatible.real shaped real
  refine ⟨?_, own⟩
  by_contra untrimmed
  rw [Bool.not_eq_true] at untrimmed
  obtain ⟨call, mem, other⟩ := shaped.trim trim
  rcases List.mem_append.mp mem with earlier | own'
  · rw [compatible.2 own untrimmed call earlier] at other
    cases other
  · rw [List.mem_singleton.mp own', untrimmed] at other
    cases other

end

/-- In every run, a call compatible with the pending ones makes only requests
its own flags permit, whether it returns or not. -/
theorem session_call_runs_with_own_flags {start : Pipeline}
    {origin : World} {calls : List Call} {pending : List Pending}
    {pipeline : Pipeline} {world : World}
    (session : Session start origin calls pending pipeline world)
    (env : Env) (orders : HashOrders) (params : CleanParams)
    (compatible : Compatible pending params) :
    ∀ request ∈ (pipeline.execute orders params).trace env.handler world,
      params.permits request = true := by
  refine Issues.mem_trace (AuthoritativeCleanPipeline.execute_issues (fun _ tame =>
      params.permits_of_ordinary (Request.ordinary_of_tame tame)) ?_ ?_)
  · intro admission authorized catalog attempt admits real _ _
    have own := compatible.real (session.shaped admits) real
    simp [CleanParams.permits, own]
  · intro admission admits trim real
    obtain ⟨trims, own⟩ := compatible.trim (session.shaped admits) trim real
    simp [CleanParams.permits, trims, own]

theorem Device.dryCall_returns : (execute start dryCall origin).1.isSome = true := by decide +kernel

open Device in
theorem real_after_dry_runs_with_own_flags : Compatible [⟨dryCall, .initial⟩] realCall ∧
      ∀ request ∈ (((execute start dryCall origin).1.get
          dryCall_returns).2.execute orders realCall).trace env.handler
          (execute start dryCall origin).2, realCall.permits request = true :=
  ⟨by decide, session_call_runs_with_own_flags
    (executed opened dryCall dryCall_returns) env orders realCall (by decide)⟩

open Device in
/-- A dry run after a real call deletes the file. -/
theorem dry_run_after_real_call_deletes :
    Session start origin [first] [⟨realCall, .initial⟩] used refilled ∧
      (refilled.fs.child ⟨1, 4⟩ "f").isSome = true ∧
      ((execute used dryCall refilled).2.fs.child ⟨1, 4⟩ "f").isNone = true ∧
      ¬ ∀ request ∈ (used.execute orders dryCall).trace env.handler refilled,
        dryCall.permits request = true := by
  refine ⟨first_session, ?_, ?_, ?_⟩ <;> decide +kernel

end CacheCleaner
