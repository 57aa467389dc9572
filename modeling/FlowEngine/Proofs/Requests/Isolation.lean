import FlowEngine.Proofs.Requests.Transparency
import FlowEngine.Proofs.Walk.Laps

/-!
# Branches of splits do not see each other

While a flow is walked, a step in a branch of a split sees nothing of what the same walk records in other
branches. A split that is entered again, after a pause, shows its branches what the walk before it
recorded in all of them.

* `Walks` — requests with the records that their walks begin with.
* `split_isolated` — what steps in a branch of a split see of the other branches.
* `late_sees_sibling` — a pause may change what they see.
-/

namespace FlowEngine.Engine

open FlowEngine.Run FlowEngine.Flow

/-- A request walks a flow: it begins with the record of the trigger, or with those of a paused context
that came of the flow. -/
inductive Walks (v : Version) : Setup → RunState → Walk → Prop
  | begin (registry settings runId projectId payload) :
    Walks v ⟨registry, settings, none⟩ (triggered v runId projectId payload)
      (beginRun registry settings v runId projectId payload)
  | resume {t s} (prior : Returns v t s) (paused : s.status = .paused)
    (registry settings payload) :
    Walks v ⟨registry, settings, payload⟩ s.resumed (resumeRun registry settings v s payload)

variable {v : Version} {setup : Setup} {s : RunState} {request : Walk} {t : Trace}
  {o : Outcome Result}

theorem Walks.request_eq (h : Walks v setup s request) (hv : validate v = []) :
    request = walkFlow setup v s := by
  cases h with
  | begin =>
    unfold beginRun ifValid
    rw [hv]
  | resume _ paused =>
    unfold resumeRun ifValid
    rw [hv, if_pos paused]

/-- A request begins to walk a flow where it may enter it. -/
theorem Walks.enters (h : Walks v setup s request) (hv : validate v = []) :
    s.verdict = .running ∧ ∃ q, EntersAt v q s.steps := by
  cases h with
  | begin => exact ⟨rfl, none, triggered_enters hv _ _ _⟩
  | resume prior paused =>
    obtain ⟨pause, hp⟩ := status_paused_iff.mp paused
    obtain ⟨-, p, hw, -⟩ := prior.waits hp
    exact ⟨rfl, some p, hw.resumed⟩

/-- The chain after the trigger is situated where a request begins to walk. -/
theorem Walks.situated (h : Walks v setup s request) (hv : validate v = []) :
    Situated v.rest Place.top s := by
  obtain ⟨-, q, he⟩ := h.enters hv
  exact ⟨(first_notMem hv).2, he.tidy, contained_of_stage v.rest he.stage, fun _ _ => rfl⟩

/-- A step of a flow that is no trigger is in the chain after it. -/
theorem mem_chain (hv : validate v = []) {step : Step} (h : step ∈ v.allSteps)
    (hne : step.isTrigger = false) : step ∈ (chainRegion v.rest).steps := by
  rw [allSteps_eq hv] at h
  rw [chainRegion_steps]
  refine (List.mem_cons.mp h).resolve_left ?_
  rintro rfl
  rw [first_isTrigger hv] at hne
  cases hne

/-- Every call is that of an action that the walk comes to in iterations of loops. -/
theorem Walks.comes (h : Walks v setup s request) (hv : validate v = []) (run : request.Runs t o) :
    ∀ e ∈ t, CalledIn setup v.rest [] s e.call := by
  have hy := run.yields
  rw [h.request_eq hv] at hy
  rcases Job.Yields.of_andThen hy with ⟨s₁, t₁, t₂, rfl, hy₁, hy₂⟩ | ⟨⟨o', hy⟩, -⟩
  · rw [Yields.ended_nil hy₂, List.append_nil]
    exact walk_comes v.rest [] s t₁ _ hy₁
  · exact walk_comes v.rest [] s t o' hy

/-- Every call is that of an action that the walk comes to. -/
theorem Walks.calls (h : Walks v setup s request) (hv : validate v = []) (run : request.Runs t o) :
    ∀ e ∈ t, CalledBy setup v.rest Place.top s e.call := fun e he =>
  (h.comes hv run e he).calledBy

/-! ## An example

Someone is asked in one branch, and a note is made in the other one. What comes after the answer refers
to the note. -/

/-- The action that asks. -/
def inquirer : Step := .action ⟨"ask", "Ask"⟩ ⟨.block "mail" "ask", .obj [], .none⟩

/-- The branch that asks, and then notes what it sees of the other one. -/
def asking : SplitBranch × List Step :=
  (⟨"left", .condition, always⟩,
    [inquirer, .action ⟨"late", "Late"⟩
      ⟨.block "mail" "note", .str "\x7b\x7b memo.output \x7d\x7d", .none⟩])

/-- The branch that makes a note. -/
def noting : SplitBranch × List Step :=
  (⟨"right", .condition, always⟩,
    [.action ⟨"memo", "Memo"⟩ ⟨.block "mail" "note", .str "private", .none⟩])

/-- A flow with two branches, one of which looks into the other one. -/
def inquiry : Version where
  id := "inquiry"
  displayName := "Inquiry"
  first := .trigger ⟨"start", "Start"⟩ .empty
  rest := [.split ⟨"fan", "Fan"⟩ ⟨.allMatches, none⟩ [asking, noting]]

/-- Everyone answers with what came in; who is asked may do so later. -/
def inquired (waits : Bool) (c : Block.Call) : Option Block.Reply :=
  match c.request.stepName, c.request.payload, waits with
  | "ask", none, true => some (.ended (.ok .null) (some (.pause (.webhook "approve" .null))))
  | _, _, _ => some (.ended (.ok c.request.props) none)

/-- The flow when the split is as given, with the records of its branches. -/
def inquiryState (entry : Entry) (verdict : Verdict) (fan : StepStatus) (steps : StepMap) :
    RunState where
  runId := "run"
  projectId := none
  entry := entry
  verdict := verdict
  steps := [("start", .action ⟨.succeeded, .obj [], none, none⟩ .null),
    ("fan", .split ⟨fan, .obj [("executionType", .str "EXECUTE_ALL_MATCH")], none, some 0⟩
      ["left", "right"])] ++ steps

/-- The record of an action that answered with what came in. -/
def answered (input : Json) : StepRecord := .action ⟨.succeeded, input, none, some 0⟩ input

/-- The flow while it waits for the answer. -/
def inquiryAsked : RunState :=
  inquiryState .begin (.paused (.webhook "approve" .null)) .running
    [("ask", .action ⟨.paused, .obj [], none, some 0⟩ .null), ("memo", answered (.str "private"))]

/-- The flow after the answer. -/
def inquiryResumed : RunState :=
  inquiryState .resume (.succeeded none) .succeeded
    [("ask", answered (.obj [])), ("memo", answered (.str "private")),
      ("late", answered (.str "private"))]

/-- The flow when the answer comes at once. -/
def inquiryDirect : RunState :=
  inquiryState .begin (.succeeded none) .succeeded
    [("ask", answered (.obj [])), ("late", answered .null), ("memo", answered (.str "private"))]

theorem returns_inquiryAsked : ∃ t, Returns inquiry t inquiryAsked := by
  have h : (start (answering (inquired true)) 0 (beginRun posting {} inquiry "run" none .null)
      ()).1.result? = some (.ok inquiryAsked) := by decide +kernel
  exact (exists_runs_of_start 0 _ () h).imp fun t run => .begin run

/-! ## Isolation -/

/-- A request calls the actions that its walk comes to, with inputs that are resolved where it does. A
step in a branch of a split sees there, of the steps in other branches, just what could be seen where the
same walk came to the split. If the split had no record yet, as always in a walk that begins the run,
then the step sees none of them. -/
theorem split_isolated (hv : validate v = []) (h : Walks v setup s request) :
    (∀ t o, request.Runs t o → ∀ e ∈ t, CalledBy setup v.rest Place.top s e.call) ∧
    ∀ x p m, Visits setup v.rest Place.top s x p m →
      ∀ label settings branches, .split label settings branches ∈ v.allSteps →
        ∀ b ∈ branches, x ∈ descendants b.2 →
          ∃ p₀ m₀, Visits setup v.rest Place.top s (.split label settings branches) p₀ m₀ ∧
            (s.entry = .begin → m₀.steps.get? label.name = none) ∧
            ∀ b' ∈ branches, b' ≠ b → ∀ step ∈ descendants b'.2,
              (p.scope m).step? step.name = (p₀.scope m₀).step? step.name ∧
                (m₀.steps.get? label.name = none → (p.scope m).step? step.name = none) := by
  refine ⟨fun t o run => h.calls hv run, fun x p m hx label settings branches hsplit b hb hmem => ?_⟩
  have hs := h.situated hv
  have hsplit' := mem_chain hv hsplit rfl
  rw [← chainRegion_steps] at hmem
  obtain ⟨p₀, m₀, hthrough⟩ := hx.through ⟨hs.nodup, hsplit', hb, hmem⟩
  refine ⟨p₀, m₀, hthrough.split, fun hbegin => ?_, fun b' hb' hne step hstep => ?_⟩
  · cases h with
    | begin =>
      have hfresh := hthrough.split.fresh hs fun n hn => triggered_fresh hv _ _ _ hn
      exact hfresh label.name (by rw [stepRegion, Region.split_names]; exact List.mem_cons_self)
    | resume => cases hbegin
  · rw [← chainRegion_steps] at hstep
    exact hthrough.sibling hs hb' hne (List.mem_map_of_mem hstep)

/-- The flow where its branches are entered for the first time. -/
def inquiryEntered : RunState :=
  splitBase (triggered inquiry "run" none .null) "fan"
    (.obj [("executionType", .str "EXECUTE_ALL_MATCH")]) ["left", "right"]

theorem inquiry_isolated :
    Walks inquiry ⟨posting, {}, none⟩ (triggered inquiry "run" none .null)
      (beginRun posting {} inquiry "run" none .null) ∧
    Visits ⟨posting, {}, none⟩ inquiry.rest Place.top (triggered inquiry "run" none .null)
      inquirer Place.top inquiryEntered ∧
    (Place.top.scope inquiryEntered).step? "memo" = none := by
  have hwalks : Walks inquiry ⟨posting, {}, none⟩ (triggered inquiry "run" none .null)
      (beginRun posting {} inquiry "run" none .null) := .begin posting {} "run" none .null
  have hvisits : Visits ⟨posting, {}, none⟩ inquiry.rest Place.top
      (triggered inquiry "run" none .null) inquirer Place.top inquiryEntered :=
    .split rfl (List.mem_cons_self : asking ∈ [asking, noting]) .here
  have hsplit : Step.split ⟨"fan", "Fan"⟩ ⟨.allMatches, none⟩ [asking, noting] ∈ inquiry.allSteps :=
    List.mem_cons_of_mem _ List.mem_cons_self
  have hasks : inquirer ∈ descendants asking.2 := List.mem_cons_self
  have hnotes : Step.action ⟨"memo", "Memo"⟩ ⟨.block "mail" "note", .str "private", .none⟩ ∈
      descendants noting.2 := List.mem_cons_self
  have hne : noting ≠ asking := fun h => absurd (congrArg (fun b => b.1.name) h) (by decide)
  obtain ⟨p₀, m₀, -, hnone, hsees⟩ := (split_isolated (by decide +kernel) hwalks).2 _ _ _ hvisits
    _ _ _ hsplit asking List.mem_cons_self hasks
  exact ⟨hwalks, hvisits,
    (hsees noting (List.mem_cons_of_mem _ List.mem_cons_self) hne _ hnotes).2 (hnone rfl)⟩

/-- In the branch that asks, the step after the answer notes what the other branch made if the run was
paused in between, and nothing if it was not. -/
theorem late_sees_sibling :
    (∃ t, Returns inquiry t inquiryResumed) ∧ (∃ t, Returns inquiry t inquiryDirect) ∧
      inquiryResumed.steps.get? "late" = some (answered (.str "private")) ∧
      inquiryDirect.steps.get? "late" = some (answered .null) := by
  have hresume : (start (answering (inquired true)) 0 (resumeRun posting {} inquiry inquiryAsked none)
      ()).1.result? = some (.ok inquiryResumed) := by decide +kernel
  have hdirect : (start (answering (inquired false)) 0 (beginRun posting {} inquiry "run" none .null)
      ()).1.result? = some (.ok inquiryDirect) := by decide +kernel
  obtain ⟨t, prior⟩ := returns_inquiryAsked
  obtain ⟨t', run⟩ := exists_runs_of_start 0 _ () hresume
  obtain ⟨t'', run'⟩ := exists_runs_of_start 0 _ () hdirect
  exact ⟨⟨t ++ t', .resume prior run⟩, ⟨t'', .begin run'⟩, rfl, rfl⟩

end FlowEngine.Engine
