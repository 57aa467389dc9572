import FlowEngine.Cli.Lint
import FlowEngine.Proofs.Requests.Isolation
import FlowEngine.Proofs.Walk.Aborts
import FlowEngine.Proofs.Walk.Limits

/-!
# Errors of the engine

Validation and the warnings look at the steps of a flow one by one, wherever they are. Walks follow the
flow, and enter it again with whatever records there are. They come to no step that was not looked at.

* `walkFlow_aborts` — a walk of a flow aborts at a step that it comes to.
* `EndsWith` — requests that come to an end, with results of some kind.
* `faults_unreachable` — there is no error of the engine if a flow is valid and has no warnings about
  actions, unless a run is resumed that is not paused.
-/

namespace FlowEngine.Engine

open FlowEngine.Run FlowEngine.Flow

variable {v : Version} {registry : Block.Registry} {setup : Setup} {s : RunState} {request : Walk}
  {t : Trace} {o : Outcome Result}

/-! ## Steps that were looked at -/

/-- A warning about a name in a template. The others are about actions that nobody offers. -/
def isReference : Cli.Warning → Bool
  | .unknownReference _ _ => true
  | .unknownAction _ _ _ | .noCodeRunner _ => false

/-- There is a warning about an action that nobody offers. -/
theorem exists_warning {work : Work} (step : String)
    (h : registry.serves (targetOf work) = false) :
    ∃ w ∈ Cli.unservedWork registry step work, isReference w = false := by
  cases work with
  | block blockName actionName =>
    have h : registry.knows blockName actionName = false := h
    exact ⟨.unknownAction step blockName actionName, by simp [Cli.unservedWork, h], rfl⟩
  | code source =>
    have h : registry.codeRunner = false := h
    exact ⟨.noCodeRunner step, by simp [Cli.unservedWork, h], rfl⟩

/-- Without a warning about it, an action is offered. -/
theorem serves_of_lint (hlint : ∀ w ∈ Cli.lint registry v, isReference w = true) {l : Label}
    {a : Flow.Action} (h : .action l a ∈ v.allSteps) : registry.serves (targetOf a.work) = true := by
  by_contra hno
  obtain ⟨w, hw, href⟩ := exists_warning l.name (Bool.eq_false_iff.mpr hno)
  rw [hlint w (List.mem_flatMap.mpr ⟨_, h, List.mem_append_left _ hw⟩)] at href
  cases href

/-! ## Requests that abort -/

theorem walkFlow_aborts (h : Job.Yields (walkFlow setup v s) t o) (ho : Aborted o) :
    AbortedBy setup v.rest Place.top s t o := by
  rcases Yields.andThen_ends h with ⟨s₁, t₁, t₂, rfl, -, h₂⟩ | hp | ⟨h, -⟩
  · exact (ho.not_ended h₂).elim
  · exact absurd hp ho.1
  · exact walk_aborts v.rest Place.top s t o h ho

/-- The walk of a valid flow whose actions are offered aborts only if the program ends. -/
theorem walkFlow_crashes (hv : validate v = [])
    (hlint : ∀ w ∈ Cli.lint setup.registry v, isReference w = true)
    (h : Job.Yields (walkFlow setup v s) t o) (ho : Aborted o) : o = .crash := by
  obtain ⟨x, p, m, hvisits, haborts⟩ := walkFlow_aborts h ho
  have hx : x ∈ descendants v.rest := chainRegion_steps v.rest ▸ hvisits.mem
  cases haborts with
  | trigger l trigger => cases isTrigger_eq_false hv hx
  | unserved unserved =>
    have hall := serves_of_lint hlint (allSteps_eq hv ▸ List.mem_cons_of_mem _ hx)
    rw [hall] at unserved
    cases unserved
  | template | reply | delay => rfl

/-! ## Ends of requests -/

/-- However a request is carried out, and whatever the actions reply, it comes to an end. Its results
are of some kind. -/
structure EndsWith (Q : Result → Prop) (request : Walk) : Prop where
  results : ∀ t r, request.Runs t (.result r) → Q r
  ends : Process.Finishes (fun _ => True) (fun _ => True) (.ready request)

theorem endsWith_of_asks {Q : Result → Prop} {C : Block.Call → Option Nat → Prop}
    (hasks : request.Asks C) (h : ∀ t r, Job.Yields request t (.result r) → Q r) :
    EndsWith Q request where
  results t r run := h t r run.yields
  ends := Job.finishes (fun _ _ _ => ⟨some default, by simp, trivial⟩) hasks fun _ _ _ _ =>
    .inr trivial

theorem walkFlow_endsWith (hv : validate v = [])
    (hlint : ∀ w ∈ Cli.lint setup.registry v, isReference w = true) (s : RunState) :
    EndsWith (fun r => ∃ s, r = .ok s) (walkFlow setup v s) := by
  refine endsWith_of_asks ((walk_asks setup v.rest Place.top s).andThen fun _ => .done _) ?_
  rintro t (e | s') hy
  · cases walkFlow_crashes hv hlint hy ⟨by simp, by simp⟩
  · exact ⟨s', rfl⟩

/-! ## An example -/

/-- A paused context that is none of the flow: where the flow has a split and an action, it has an action
that is running and a loop that is paused. -/
def muddled : RunState where
  runId := "other"
  projectId := none
  entry := .resume
  verdict := .paused (.webhook "approve" .null)
  steps := [("fan", .action ⟨.running, .null, none, none⟩ .null),
    ("ask", .loop ⟨.paused, .obj [("items", .arr [.null])], none, none⟩ .null 7
      [[("start", .branch ⟨.paused, .null, none, none⟩ true)], []])]

/-! ## No errors -/

/-- A valid flow without a warning about its actions gives no error of the engine: not when a run is
begun, and when one is resumed, whatever its records are, only that it is not paused. -/
theorem faults_unreachable (hv : validate v = [])
    (hlint : ∀ w ∈ Cli.lint registry v, isReference w = true) :
    (∀ settings runId projectId payload, EndsWith (fun r => ∃ s, r = .ok s)
      (beginRun registry settings v runId projectId payload)) ∧
    ∀ settings prior payload, EndsWith
      (fun r => if prior.status = .paused then ∃ s, r = .ok s
        else r = .error (.notPaused prior.runId prior.status))
      (resumeRun registry settings v prior payload) := by
  refine ⟨fun settings runId projectId payload => ?_, fun settings prior payload => ?_⟩
  · unfold beginRun ifValid
    rw [hv]
    exact walkFlow_endsWith hv hlint _
  · unfold resumeRun ifValid
    rw [hv]
    dsimp only
    split_ifs
    · exact walkFlow_endsWith hv hlint _
    · refine endsWith_of_asks (C := fun _ _ => True) (.done _) fun t r hy => ?_
      obtain ⟨-, ho | ho⟩ := Job.Yields.done_iff.mp hy <;> cases ho
      rfl

theorem inquiry_faultless :
    validate inquiry = [] ∧ (∀ w ∈ Cli.lint posting inquiry, isReference w = true) ∧
    EndsWith (fun r => ∃ s, r = .ok s) (beginRun posting {} inquiry "run" none .null) ∧
    EndsWith (fun r => ∃ s, r = .ok s) (resumeRun posting {} inquiry muddled none) ∧
    EndsWith (fun r => r = .error (.notPaused "run" .succeeded))
      (resumeRun posting {} inquiry inquiryDirect none) := by
  have hvalid : validate inquiry = [] := by decide +kernel
  have hlint : ∀ w ∈ Cli.lint posting inquiry, isReference w = true := by decide +kernel
  obtain ⟨hbegin, hresume⟩ := faults_unreachable hvalid hlint
  exact ⟨hvalid, hlint, hbegin {} "run" none .null, hresume {} muddled none,
    hresume {} inquiryDirect none⟩

end FlowEngine.Engine
