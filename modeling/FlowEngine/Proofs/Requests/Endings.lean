import FlowEngine.Proofs.Requests.Selection
import FlowEngine.Proofs.Requests.Transparency
import FlowEngine.Proofs.Walk.Breaking
import FlowEngine.Proofs.Walk.Failures

/-!
# How runs end that fail or are stopped

The verdict of a run that failed names a step and a message, and the records lead there. The records of
the flow may then be open, running or paused, only in the other parts of the fan-outs around that step:
such a part can have paused before, and it is left as it is. It is the same for a run that was stopped.

* `FailedAt` — a step that a run failed at, in the iterations that a path names.
* `failure_traced` — every failure is that of such a step.
* `BrokenOff` — a context in which a run ended at a step.
* `open_beside` — a run that failed or was stopped ended at a step.
-/

namespace FlowEngine.Engine

open FlowEngine.Run FlowEngine.Flow

/-- A run failed at a step of a flow, in the iterations that a path names.

* `step` — it is not an action whose failures are passed over.
* `record` — its record is at the end of the path, has failed, and holds the message.
* `loops` — every loop on the path failed with the message; the path goes on in the iteration that its
  record names.
* `splits` — every split that has the step in one of its branches failed; its record is on one of the
  levels that the path goes through. -/
structure FailedAt (v : Version) (m : StepMap) (name message : String) (path : List (String × Nat))
    (x : Step) : Prop where
  step : x ∈ v.allSteps ∧ x.name = name ∧ x.errorHandling.continues = false
  record : ∃ r, m.at? ⟨path, name⟩ = some r ∧ r.status = .failed ∧ r.summary.error = some message
  loops : ∀ outer l i inner, path = outer ++ (l, i) :: inner → ∃ summary item its,
    m.at? ⟨outer, l⟩ = some (.loop summary item i its) ∧ summary.status = .failed ∧
      summary.error = some message
  splits : ∀ label settings branches b, .split label settings branches ∈ v.allSteps → b ∈ branches →
    x ∈ descendants b.2 → ∃ outer inner r, path = outer ++ inner ∧
      m.at? ⟨outer, label.name⟩ = some r ∧ r.status = .failed

variable {v : Version} {setup : Setup} {s s' : RunState} {t : Trace} {name message : String}

/-- The records of a flow show what those of the chain after its trigger show. -/
theorem Fails.failedAt {m : StepMap} {path : List (String × Nat)} {x : Step} (hv : validate v = [])
    (h : Fails name message v.rest m path x) : FailedAt v m name message path x where
  step := ⟨flowRegion_steps_subset hv h.mem, h.stops⟩
  record := h.record
  loops outer l i inner hpath := h.loops hpath
  splits label settings branches b hsplit hb hx := by
    rw [allSteps_eq hv] at hsplit
    rw [← chainRegion_steps] at hsplit hx
    refine h.splits ⟨(first_notMem hv).2, (List.mem_cons.mp hsplit).resolve_left fun heq => ?_, hb, hx⟩
    have hfirst := first_isTrigger hv
    rw [← heq] at hfirst
    cases hfirst

/-- The walk of a flow that fails does so at a step. -/
theorem walkFlow_traces (hv : validate v = []) (hs : s.verdict = .running) (ht : s.steps.Tidy)
    (hy : Job.Yields (walkFlow setup v s) t (.result (.ok s')))
    (hfailed : s'.verdict = .failed name message) :
    ∃ path x, FailedAt v s'.steps name message path x := by
  rcases Job.Yields.of_andThen hy with ⟨s₁, t₁, t₂, rfl, h₁, h₂⟩ | ⟨-, ho⟩
  · obtain ⟨-, rfl⟩ := Yields.of_ended h₂
    have hv₁ : s₁.verdict = .failed name message := by
      unfold closeRun at hfailed
      split_ifs at hfailed
      · cases hfailed
      · exact hfailed
    rw [closeRun_steps]
    obtain ⟨path, x, h⟩ := walk_traces v.rest (first_notMem hv).2 Place.top s t₁ s₁ name message hs ht
      h₁ hv₁
    exact ⟨path, x, h.failedAt hv⟩
  · exact absurd rfl (ho s')

/-! ## An example

Two items are checked, and the second one is refused. Meanwhile the other branch of the split waits. -/

/-- A flow that checks two items and asks for a third thing. -/
def inspection : Version where
  id := "inspection"
  displayName := "Inspection"
  first := .trigger ⟨"start", "Start"⟩ .empty
  rest := [.split ⟨"fan", "Fan"⟩ ⟨.allMatches, none⟩
    [(⟨"left", .condition, always⟩, [.loop ⟨"each", "Each"⟩ ⟨.arr [.str "a", .str "b"], true, none⟩
      [.action ⟨"check", "Check"⟩ ⟨.block "mail" "note", .obj [], .none⟩]]),
    (⟨"right", .condition, always⟩,
      [.action ⟨"ask", "Ask"⟩ ⟨.block "mail" "ask", .obj [], .none⟩])]]

/-- The second item is refused. -/
def inspectors (c : Block.Call) : Option Block.Reply :=
  match c.request.stepName, c.request.path with
  | "ask", _ => some (.ended (.ok .null) (some (.pause (.webhook "approve" .null))))
  | _, [("each", 1)] => some (.ended (.error (.failed "broken")) none)
  | _, _ => some (.ended (.ok .null) none)

/-- The flow after that. -/
def inspected : RunState where
  runId := "run"
  projectId := none
  entry := .begin
  verdict := .failed "check" "broken"
  steps := [("start", .action ⟨.succeeded, .obj [], none, none⟩ .null),
    ("fan", .split ⟨.failed, .obj [("executionType", .str "EXECUTE_ALL_MATCH")],
      some "a branch failed", some 0⟩ ["left", "right"]),
    ("each", .loop ⟨.failed, .obj [("items", .arr [.str "a", .str "b"])], some "broken", some 0⟩
      (.str "b") 1 [[("check", .action ⟨.succeeded, .obj [], none, some 0⟩ .null)],
        [("check", .action ⟨.failed, .obj [], some "broken", some 0⟩ .null)]]),
    ("ask", .action ⟨.paused, .obj [], none, some 0⟩ .null)]

/-! ## Runs -/

/-- If a run failed, when it was begun or when it was resumed, then at a step that its verdict names:
the records lead to it through the loops around it, each in the iteration that failed, with the message
of the verdict, and all splits around it failed. -/
theorem failure_traced (h : Returns v t s) (hfailed : s.verdict = .failed name message) :
    ∃ path x, FailedAt v s.steps name message path x := by
  cases h with
  | begin run =>
    obtain ⟨hv, hy⟩ := beginRun_yields run
    exact walkFlow_traces hv rfl (triggered_enters hv _ _ _).tidy hy hfailed
  | @resume _ _ _ t s₀ t' _ prior run =>
    obtain ⟨-, ho⟩ | ⟨hv, hpaused, hy⟩ := resumeRun_yields run
    · exact absurd rfl (ho s)
    · obtain ⟨pause, hp⟩ := status_paused_iff.mp hpaused
      obtain ⟨-, p, hw, -⟩ := prior.waits hp
      exact walkFlow_traces hv rfl hw.resumed.tidy hy hfailed

theorem inspection_traced : (∃ t, Returns inspection t inspected) ∧
    ∃ path x, FailedAt inspection inspected.steps "check" "broken" path x := by
  have hbegin : (start (answering inspectors) 0 (beginRun posting {} inspection "run" none .null)
      ()).1.result? = some (.ok inspected) := by decide +kernel
  obtain ⟨t, run⟩ := exists_runs_of_start 0 _ () hbegin
  exact ⟨⟨t, .begin run⟩, failure_traced (.begin run) rfl⟩

/-! ## What is open at the end -/

/-- A run ended at the step at a position.

* `step` — it is a step of the flow.
* `ended` — the verdict is its failure, or the response that the last answer to it stopped the run with.
* `record` — it is finished.
* `beside` — every open record, at any depth, is in another branch of a split around the step, or in
  another iteration of a parallel loop around it, and this split or loop is finished. -/
structure BrokenOff (v : Version) (t : Trace) (s : RunState) (p : Position) : Prop where
  step : p.name ∈ v.stepNames
  ended : EndedAt [] t p s.verdict
  record : ∃ r, s.steps.at? p = some r ∧ r.status.isFinished = true
  beside : ∀ p' r, s.steps.at? p' = some r → r.status.isFinished = false →
    Beside v.allSteps s.steps p p'

/-- The records of a flow that waits, apart from those of the action that waits: the trigger is finished,
and every loop that is not parallel is at one item. -/
structure Orderly (v : Version) (m : StepMap) : Prop where
  trigger : Over [v.first.name] m
  sequenced : Sequenced v.rest m

variable {q : Option Position}

/-! ## Walks of flows -/

theorem closeRun_broken (h : (closeRun s).verdict ≠ .succeeded none)
    (hgo : ¬ GoesOn (closeRun s).verdict) : closeRun s = s ∧ ¬ GoesOn s.verdict := by
  unfold closeRun at h hgo ⊢
  split_ifs at h hgo ⊢
  · exact absurd rfl h
  · exact ⟨rfl, hgo⟩

/-- A walk of a flow that is paused leaves orderly records. One that fails or is stopped breaks off at a
step. -/
theorem walkFlow_settles (hv : validate v = []) (hr : s.verdict = .running)
    (he : EntersAt v q s.steps) (hsound : Sound v.rest s.steps) (horder : Orderly v s.steps)
    (h : Job.Yields (walkFlow setup v s) t (.result (.ok s'))) :
    ((∃ pause, s'.verdict = .paused pause) → Orderly v s'.steps) ∧
      (s'.verdict ≠ .succeeded none → ¬ GoesOn s'.verdict → ∃ p, BrokenOff v t s' p) := by
  obtain ⟨hfirst, hnd⟩ := first_notMem hv
  rcases Job.Yields.of_andThen h with ⟨s₁, t₁, t₂, rfl, h₁, h₂⟩ | ⟨-, ho⟩
  swap
  · exact absurd rfl (ho s')
  obtain ⟨rfl, rfl⟩ := Yields.of_ended h₂
  rw [List.append_nil]
  have hl := (walk_follows setup v.rest hnd).lands Place.top q s t₁ s₁ hr he.tidy he.stage h₁
  have htrigger : Over [v.first.name] s₁.steps := horder.trigger.agree fun n hn => by
    obtain rfl := List.mem_singleton.mp hn
    exact hl.frame _ hfirst
  constructor
  · rintro ⟨pause, hp⟩
    rw [closeRun_steps]
    exact ⟨htrigger, walk_sequenced setup v.rest hnd Place.top q s t₁ s₁ hr he.tidy he.stage
      horder.sequenced h₁ (.inr ⟨pause, closeRun_goesOn hp⟩)⟩
  · intro hstop hgo
    obtain ⟨hclose, hgo⟩ := closeRun_broken hstop hgo
    rw [hclose]
    obtain ⟨p, hended, hbreaks⟩ := walk_breaksOff setup v.rest hnd Place.top q s t₁ s₁ hr he.tidy
      he.stage hsound horder.sequenced h₁ hgo
    have hsteps := flowRegion_steps_subset hv
    refine ⟨p, List.map_subset _ hsteps hbreaks.mem.2, hended, hbreaks.record,
      fun p' r hp' hopen => ?_⟩
    rcases hl.names he.names p'.root (StepMap.root_mem_of_at? hp') with heq | hroot
    · rw [htrigger p' r (List.mem_singleton.mpr heq) hp'] at hopen
      cases hopen
    · exact (hbreaks.beside hroot hp' hopen).mono hsteps

/-! ## Runs -/

/-- The records of a flow that was just triggered. -/
theorem triggered_orderly (hv : validate v = []) (runId : String) (projectId : Option String)
    (payload : Json) : Orderly v (triggered v runId projectId payload).steps where
  trigger := .of_flat (StepMap.get?_insert_self _ _ _) rfl rfl
  sequenced := (sequenced_local v.rest).fresh fun _ hn => triggered_fresh hv runId projectId payload hn

/-- What a request to walk a flow comes to: a context that waits has orderly records, and one that failed
or was stopped broke off at a step. -/
theorem Returns.settles (h : Returns v t s) :
    ((∃ pause, s.verdict = .paused pause) → Orderly v s.steps) ∧
      (s.verdict ≠ .succeeded none → ¬ GoesOn s.verdict → ∃ p, BrokenOff v t s p) := by
  induction h with
  | begin run =>
    obtain ⟨hv, hy⟩ := beginRun_yields run
    exact walkFlow_settles hv rfl (triggered_enters hv _ _ _)
      ((sound_local v.rest).fresh fun n hn => triggered_fresh hv _ _ _ hn)
      (triggered_orderly hv _ _ _) hy
  | @resume registry settings payload t s t' s' prior run ih =>
    obtain ⟨-, ho⟩ | ⟨hv, hpaused, hy⟩ := resumeRun_yields run
    · exact absurd rfl (ho s')
    · obtain ⟨pause, hp⟩ := status_paused_iff.mp hpaused
      obtain ⟨-, p, hw, -⟩ := prior.waits hp
      have hends := walkFlow_settles hv rfl hw.resumed (prior.sound.2.1 ⟨pause, hp⟩)
        (ih.1 ⟨pause, hp⟩) hy
      refine ⟨hends.1, fun hstop hgo => ?_⟩
      obtain ⟨p, hbroken⟩ := hends.2 hstop hgo
      exact ⟨p, { hbroken with ended := hbroken.ended.mono (List.subset_append_right _ _) }⟩

end FlowEngine.Engine
