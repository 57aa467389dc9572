import FlowEngine.Proofs.Requests.Transparency
import FlowEngine.Proofs.Selection.Branches
import FlowEngine.Proofs.Selection.Chain
import FlowEngine.Proofs.Selection.Fulfils
import FlowEngine.Proofs.Walk.Stops

/-!
# Which steps a successful run walks

* `Returns.sound` — the records of a paused context are sound.
* `exactly_selected` — at the end of a run that succeeded and was not stopped, exactly the selected
  steps have records, and these are the records of steps that are done.
-/

namespace FlowEngine.Engine

open FlowEngine.Run FlowEngine.Flow

variable {v : Version} {setup : Setup} {q : Option Position} {s s' : RunState} {t : Trace}

/-! ## Walks of flows -/

/-- The trigger of a run has its record. -/
def Triggered (v : Version) (m : StepMap) : Prop :=
  ∃ r, m.get? v.first.name = some r ∧ r.status = .succeeded

/-- Where a walk of a flow ends with success, without being stopped, nothing is left to do. -/
theorem closeRun_succeeded (hs : s.verdict ≠ .succeeded none)
    (h : (closeRun s).verdict = .succeeded none) : s.verdict = .running := by
  unfold closeRun at h
  split_ifs at h with hr
  · exact isRunning_iff.mp hr
  · exact absurd h hs

theorem closeRun_goesOn {pause : Pause} (h : (closeRun s).verdict = .paused pause) :
    s.verdict = .paused pause := by
  unfold closeRun at h
  split_ifs at h
  · cases h
  · exact h

/-- A walk of a flow that is paused leaves sound records. One that succeeds, without being stopped,
leaves exact ones. -/
theorem walkFlow_ends (hv : validate v = []) (hr : s.verdict = .running)
    (he : EntersAt v q s.steps) (htrigger : Triggered v s.steps) (hsound : Sound v.rest s.steps)
    (h : Job.Yields (walkFlow setup v s) t (.result (.ok s'))) :
    Triggered v s'.steps ∧
      ((∃ pause, s'.verdict = .paused pause) → Sound v.rest s'.steps) ∧
      (s'.verdict = .succeeded none → Exact [v.first.name] v.rest s'.steps) := by
  obtain ⟨hfirst, hnd⟩ := first_notMem hv
  rcases Job.Yields.of_andThen h with ⟨s₁, t₁, t₂, rfl, h₁, h₂⟩ | ⟨-, ho⟩
  · obtain ⟨-, rfl⟩ := Yields.of_ended h₂
    have hl := (walk_follows setup v.rest hnd).lands Place.top q s t₁ s₁ hr he.tidy he.stage h₁
    have hpreserves := walk_preserves setup v.rest hnd Place.top q s t₁ s₁ hr he.tidy he.stage hsound h₁
    have htrigger₁ : Triggered v s₁.steps := by
      unfold Triggered
      rwa [hl.frame _ hfirst]
    rw [closeRun_steps]
    refine ⟨htrigger₁, fun ⟨pause, hp⟩ => hpreserves (.inr ⟨pause, closeRun_goesOn hp⟩),
      fun hs => ?_⟩
    have hrun : s₁.verdict = .running :=
      closeRun_succeeded (walk_responds setup v.rest Place.top s t₁ s₁ (by simp [hr]) h₁) hs
    refine (fulfils_of_complete v.rest hnd hl.tidy (hl.complete hrun) (hpreserves (.inl hrun))).exact
      hl.tidy.nodup (List.nodup_cons.mpr ⟨hfirst, hnd⟩) (fun n hn => ?_) fun n hn => ?_
    · obtain rfl := List.mem_singleton.mp hn
      obtain ⟨r, hr, -⟩ := htrigger₁
      exact StepMap.mem_names_iff.mpr ⟨r, hr⟩
    · exact List.mem_cons.mpr (hl.names he.names n hn)
  · exact absurd rfl (ho s')

/-- A walk of a flow without records that succeeds, without being stopped, puts the records in the
order of the flow. -/
theorem walkFlow_inOrder (hv : validate v = []) {runId : String} {projectId : Option String}
    {payload : Json} (hs : s.verdict = .succeeded none)
    (h : Job.Yields (walkFlow setup v (triggered v runId projectId payload)) t (.result (.ok s))) :
    InOrder [v.first.name] v.rest s.steps := by
  obtain ⟨-, hnd⟩ := first_notMem hv
  rcases Job.Yields.of_andThen h with ⟨s₁, t₁, t₂, rfl, h₁, h₂⟩ | ⟨-, ho⟩
  · obtain ⟨-, rfl⟩ := Yields.of_ended h₂
    have hrun : s₁.verdict = .running :=
      closeRun_succeeded (walk_responds setup v.rest Place.top _ t₁ s₁ (fun h => by cases h) h₁) hs
    rw [closeRun_steps]
    exact (walk_appends setup v.rest hnd Place.top _ t₁ s₁ (triggered_enters hv _ _ _).tidy
      (fun n hn => triggered_fresh hv runId projectId payload hn) h₁ hrun).inOrder rfl
  · exact absurd rfl (ho s)

/-! ## An example

The first action fails. The split takes the branch that asks for an item, and not the other one; who is
asked answers later. -/

/-- A flow that goes on when its first action fails. -/
def errand : Version where
  id := "errand"
  displayName := "Errand"
  first := .trigger ⟨"start", "Start"⟩ .empty
  rest := [.action ⟨"look", "Look"⟩ ⟨.block "mail" "note", .obj [], ⟨some ⟨true, false⟩, none⟩⟩,
    .split ⟨"fan", "Fan"⟩ ⟨.allMatches, none⟩
      [(⟨"left", .condition, always⟩, [.loop ⟨"each", "Each"⟩ ⟨.arr [.str "a"], false, none⟩
        [.action ⟨"ask", "Ask"⟩ ⟨.block "mail" "ask", .obj [], .none⟩]]),
      (⟨"right", .fallback, always⟩,
        [.action ⟨"drop", "Drop"⟩ ⟨.block "mail" "note", .obj [], .none⟩])],
    .branch ⟨"done", "Done"⟩ always
      [.action ⟨"tell", "Tell"⟩ ⟨.block "mail" "note", .obj [], .none⟩] []]

/-- What is answered to the steps of the flow. -/
def runners (c : Block.Call) : Option Block.Reply :=
  match c.request.stepName, c.request.payload with
  | "look", _ => some (.ended (.error (.failed "closed")) none)
  | "ask", none => some (.ended (.ok .null) (some (.pause (.webhook "approve" .null))))
  | _, _ => some (.ended (.ok .null) none)

/-- The flow when the split, the loop and the action in it are as given. -/
def errandState (entry : Entry) (verdict : Verdict) (fan each ask : StepStatus) (later : StepMap) :
    RunState where
  runId := "run"
  projectId := none
  entry := entry
  verdict := verdict
  steps := [("start", .action ⟨.succeeded, .obj [], none, none⟩ .null),
    ("look", .action ⟨.failed, .obj [], some "closed", some 0⟩ .null),
    ("fan", .split ⟨fan, .obj [("executionType", .str "EXECUTE_ALL_MATCH")], none, some 0⟩ ["left"]),
    ("each", .loop ⟨each, .obj [("items", .arr [.str "a"])], none, some 0⟩ (.str "a") 0
      [[("ask", .action ⟨ask, .obj [], none, some 0⟩ .null)]])] ++ later

/-- The flow while the item is asked for. -/
def errandAsked : RunState :=
  errandState .begin (.paused (.webhook "approve" .null)) .running .paused .paused []

/-- The flow at its end. -/
def errandDone : RunState :=
  errandState .resume (.succeeded none) .succeeded .succeeded .succeeded
    [("done", .branch ⟨.succeeded, (Json.obj always.members).canonical, none, some 0⟩ true),
      ("tell", .action ⟨.succeeded, .obj [], none, some 0⟩ .null)]

theorem returns_errandDone : ∃ t, Returns errand t errandDone := by
  have hbegin : (start (answering runners) 0 (beginRun posting {} errand "run" none .null)
      ()).1.result? = some (.ok errandAsked) := by decide +kernel
  have hresume : (start (answering runners) 0 (resumeRun posting {} errand errandAsked none)
      ()).1.result? = some (.ok errandDone) := by decide +kernel
  obtain ⟨t, run⟩ := exists_runs_of_start 0 _ () hbegin
  obtain ⟨t', run'⟩ := exists_runs_of_start 0 _ () hresume
  exact ⟨t ++ t', .resume (.begin run) run'⟩

/-! ## Runs -/

/-- At any time the trigger has its record, and while the run is paused the records are sound. If it has
succeeded without being stopped, then they are exact. -/
theorem Returns.sound (h : Returns v t s) : Triggered v s.steps ∧
    ((∃ pause, s.verdict = .paused pause) → Sound v.rest s.steps) ∧
    (s.verdict = .succeeded none → Exact [v.first.name] v.rest s.steps) := by
  induction h with
  | begin run =>
    obtain ⟨hv, hy⟩ := beginRun_yields run
    refine walkFlow_ends hv rfl (triggered_enters hv _ _ _)
      ⟨_, StepMap.get?_insert_self _ _ _, rfl⟩ ?_ hy
    exact (sound_local v.rest).fresh fun n hn => triggered_fresh hv _ _ _ hn
  | @resume registry settings payload t s t' s' prior run ih =>
    obtain ⟨-, ho⟩ | ⟨hv, hpaused, hy⟩ := resumeRun_yields run
    · exact absurd rfl (ho s')
    · obtain ⟨pause, hp⟩ := status_paused_iff.mp hpaused
      obtain ⟨htrigger, hsound, -⟩ := ih
      obtain ⟨-, p, hw, -⟩ := prior.waits hp
      exact walkFlow_ends hv rfl hw.resumed htrigger (hsound ⟨pause, hp⟩) hy

/-- At the end of a run that succeeded and was not stopped, the trigger and exactly the selected steps
have records. Every selected step is done: it succeeded, or it is an action that failed and lets the
run go on. A loop has a map for every item, with records of exactly the steps that are selected from
its body, at every depth. If the run was never paused, then all maps are in the order of the flow. -/
theorem exactly_selected (h : Returns v t s) (hs : s.verdict = .succeeded none) :
    Triggered v s.steps ∧ Exact [v.first.name] v.rest s.steps ∧
      ∀ registry settings runId projectId payload t',
        (beginRun registry settings v runId projectId payload).Runs t' (.result (.ok s)) →
          InOrder [v.first.name] v.rest s.steps := by
  refine ⟨h.sound.1, h.sound.2.2 hs, fun registry settings runId projectId payload t' run => ?_⟩
  obtain ⟨hv, hy⟩ := beginRun_yields run
  exact walkFlow_inOrder hv hs hy

theorem errand_exactly_selected : (∃ t, Returns errand t errandDone) ∧
    (selected errandDone.steps errand.rest).map Step.name =
      ["look", "fan", "each", "done", "tell"] ∧
    Exact ["start"] errand.rest errandDone.steps ∧ InOrder ["start"] review.rest reviewed.steps := by
  obtain ⟨t, h⟩ := returns_errandDone
  obtain ⟨t', -, run⟩ := review_runs
  exact ⟨⟨t, h⟩, rfl, (exactly_selected h rfl).2.1,
    (exactly_selected (.begin run) rfl).2.2 posting {} "run" none .null t' run⟩

end FlowEngine.Engine
