import FlowEngine.Proofs.Walk.Visits
import FlowEngine.Proofs.Schedule.InTurn

/-!
# Walks that abort

A walk that comes to an end has a state, unless it aborts: with an error of the engine, or because the
whole program ends. Whatever records it begins with, and whatever the schedule, that is the fault of
one step that it came to.

* `AbortsAt` — why the walk of a step aborts.
* `walk_aborts` — the walk of a chain aborts at a step that it comes to, with the outcome of this step.
-/

namespace FlowEngine.Engine

open FlowEngine.Run FlowEngine.Flow

/-- An end that is not a state. -/
def Aborted (o : Outcome Result) : Prop := o ≠ .pending ∧ ∀ s, o ≠ .result (.ok s)

/-- The program ends while the templates of a step are evaluated. -/
def TemplatesCrash (names : Expr.Names) : Step → Prop
  | .trigger _ _ => False
  | .action _ a => Template.resolve names a.input = .error .crash
  | .branch _ c _ _ =>
    conditionInput names c = .error .crash ∨ Template.conditionsHold names c = .error .crash
  | .split _ settings branches =>
    chooseBranches names settings.execution (branches.map Prod.fst) = .error .crash
  | .loop _ settings _ => Template.resolve names settings.items = .error .crash

/-- Why the walk of a step aborts, at a place and with records, after some calls.

* `trigger`, `unserved` — the errors: the step is a trigger, or nobody offers what it does.
* `template` — a template crashes.
* `reply` — what an action does crashes.
* `delay` — the time to wait before another attempt has no value. -/
inductive AbortsAt (setup : Setup) (t : Trace) (place : Place) (s : RunState) :
    Step → Outcome Result → Prop
  | trigger (l trigger) :
    AbortsAt setup t place s (.trigger l trigger) (.result (.error (.unexpectedTrigger l.name)))
  | unserved {l a} (unserved : setup.registry.serves (targetOf a.work) = false) :
    AbortsAt setup t place s (.action l a) (.result (.error (unknownTarget l.name a.work)))
  | template {x} (now : Time.Instant) (crash : TemplatesCrash (place.names s now) x) :
    AbortsAt setup t place s x .crash
  | reply {l a input} (served : setup.registry.serves (targetOf a.work) = true)
    (now : Time.Instant) (resolved : Template.resolve (place.names s now) a.input = .ok input)
    (crash : ⟨⟨targetOf a.work, requestOf setup place.path s l.name a.work input⟩, some .crash⟩ ∈ t) :
    AbortsAt setup t place s (.action l a) .crash
  | delay {l a} (retries : a.errorHandling.retries = true) (attempt : Nat)
    (left : attempt < setup.settings.retry.maxRetries)
    (crash : setup.settings.retry.delay? attempt = none) :
    AbortsAt setup t place s (.action l a) .crash

variable {setup : Setup} {chain rest : List Step} {place : Place} {s : RunState} {t t' : Trace}
  {o : Outcome Result}

theorem AbortsAt.mono {x : Step} (h : AbortsAt setup t place s x o) (ht : ∀ e ∈ t, e ∈ t') :
    AbortsAt setup t' place s x o := by
  cases h with
  | trigger l trigger => exact .trigger l trigger
  | unserved unserved => exact .unserved unserved
  | template now crash => exact .template now crash
  | reply served now resolved crash => exact .reply served now resolved (ht _ crash)
  | delay retries attempt left crash => exact .delay retries attempt left crash

/-- The walk of a chain aborts at a step that it comes to. -/
def AbortedBy (setup : Setup) (chain : List Step) (place : Place) (s : RunState) (t : Trace)
    (o : Outcome Result) : Prop :=
  ∃ x p m, Visits setup chain place s x p m ∧ AbortsAt setup t p m x o

theorem AbortedBy.mono {chain' : List Step} {place' : Place} {s' : RunState}
    (h : AbortedBy setup chain place s t o) (ht : ∀ e ∈ t, e ∈ t')
    (hv : ∀ {x p m}, Visits setup chain place s x p m → Visits setup chain' place' s' x p m) :
    AbortedBy setup chain' place' s' t' o := by
  obtain ⟨x, p, m, hvisits, haborts⟩ := h
  exact ⟨x, p, m, hv hvisits, haborts.mono ht⟩

/-! ## Steps -/

namespace Aborted

theorem not_ended (ho : Aborted o) (h : Job.Yields (Walk.ended s) t o) : False := by
  rcases (Job.Yields.done_iff.mp h).2 with hp | hs
  · exact ho.1 hp
  · exact ho.2 s hs

theorem of_clock {next : Reading Time.Instant → Walk} (ho : Aborted o)
    (h : Job.Yields (.clock next) t o) : ∃ reading, Job.Yields (next reading) t o :=
  (Job.Yields.of_clock h).resolve_left fun h => ho.1 h.2

theorem of_crash (ho : Aborted o) (h : Job.Yields (.crash : Walk) t o) : o = .crash :=
  (Job.Yields.crash_iff.mp h).2.resolve_left ho.1

theorem of_error {e : Fault} (ho : Aborted o) (h : Job.Yields (.done (.error e) : Walk) t o) :
    o = .result (.error e) :=
  (Job.Yields.done_iff.mp h).2.resolve_left ho.1

theorem of_onTemplate {α : Type} {e : Except Template.Failure α}
    {next : Except Template.TemplateError α → Walk} (ho : Aborted o)
    (h : Job.Yields (Walk.onTemplate e next) t o) :
    (e = .error .crash ∧ o = .crash) ∨
      ∃ r, e = r.mapError .error ∧ Job.Yields (next r) t o := by
  rcases e with (e | _) | a
  · exact .inr ⟨.error e, rfl, h⟩
  · exact .inl ⟨rfl, ho.of_crash h⟩
  · exact .inr ⟨.ok a, rfl, h⟩

theorem not_failStep {name : String} {e : ErrorHandling} {started : Reading Time.Instant}
    {input : Json} {failure : Block.Failure} (ho : Aborted o)
    (h : Job.Yields (failStep s name e started input failure) t o) : False := by
  rcases (failStep_yields h).2 with hp | ⟨_, hs⟩
  · exact ho.1 hp
  · exact ho.2 _ hs

theorem not_completeStep {i : Invocation} {output : Json} {hook : Option Block.Hook}
    (ho : Aborted o) (h : Job.Yields (completeStep s i output hook) t o) : False := by
  rcases (completeStep_yields h).2 with hp | ⟨_, hs⟩
  · exact ho.1 hp
  · exact ho.2 _ hs

theorem of_onReply {limit : Option Nat} {reply : Option Block.Reply}
    {failed : Block.Failure → Walk} {succeeded : Json → Option Block.Hook → Walk} (ho : Aborted o)
    (h : Job.Yields (onReply limit reply failed succeeded) t o) :
    (reply = some .crash ∧ o = .crash) ∨ (∃ failure, Job.Yields (failed failure) t o) ∨
      ∃ output hook, Job.Yields (succeeded output hook) t o := by
  rcases reply with _ | _ | ⟨failure | output, hook⟩
  · exact .inr (.inl ⟨_, h⟩)
  · exact .inl ⟨rfl, ho.of_crash h⟩
  · exact .inr (.inl ⟨_, h⟩)
  · exact .inr (.inr ⟨_, _, h⟩)

/-- Attempts abort only because a call crashes or there is no delay before the next attempt. -/
theorem of_attempts {i : Invocation} {left : Nat} (ho : Aborted o)
    (h : Job.Yields (attempts setup s i left) t o) : o = .crash ∧
      (⟨i.call, some .crash⟩ ∈ t ∨ i.errorHandling.retries = true ∧
        ∃ attempt < setup.settings.retry.maxRetries, setup.settings.retry.delay? attempt = none) := by
  induction left generalizing t with
  | zero =>
    cases h with
    | pending => exact absurd rfl ho.1
    | call reply late rest =>
      obtain ⟨rfl, rfl⟩ | ⟨failure, h⟩ | ⟨output, hook, h⟩ := ho.of_onReply rest
      · exact ⟨rfl, .inl List.mem_cons_self⟩
      · exact (ho.not_failStep h).elim
      · exact (ho.not_completeStep h).elim
  | succ left ih =>
    cases h with
    | pending => exact absurd rfl ho.1
    | call reply late rest =>
      obtain ⟨rfl, rfl⟩ | ⟨failure, h⟩ | ⟨output, hook, h⟩ := ho.of_onReply rest
      · exact ⟨rfl, .inl List.mem_cons_self⟩
      · -- another attempt, no value for the delay before it, or the end of the step
        split at h
        · cases h with
          | pending => exact absurd rfl ho.1
          | sleep rest => exact (ih rest).imp id (Or.imp_left (List.mem_cons_of_mem _))
        next hretry =>
          unfold reactionTo at hretry
          split_ifs at hretry with hagain
          exact ⟨ho.of_crash h, .inr ⟨hagain.1, _, hagain.2.2, Reaction.retry.inj hretry⟩⟩
        · exact (ho.not_failStep h).elim
      · exact (ho.not_completeStep h).elim

end Aborted

theorem runAction_aborts {l : Label} {a : Flow.Action} (ho : Aborted o)
    (h : Job.Yields (runAction setup place l.name a s) t o) :
    AbortsAt setup t place s (.action l a) o := by
  unfold runAction at h
  split_ifs at h with _ hserves
  · exact (ho.not_ended h).elim
  · rw [ho.of_error h]
    exact .unserved (by simpa using hserves)
  obtain ⟨started, h⟩ := ho.of_clock h
  obtain ⟨hcrash, rfl⟩ | ⟨r, hr, h⟩ := ho.of_onTemplate h
  · exact .template started.now hcrash
  rcases r with e | input
  · exact (ho.not_failStep h).elim
  obtain ⟨rfl, hcrash | ⟨hretries, attempt, hleft, hdelay⟩⟩ := ho.of_attempts h
  · exact .reply (by simpa using hserves) started.now hr hcrash
  · exact .delay hretries attempt hleft hdelay

/-- A branch aborts because of its condition, or because the side aborts that is walked. -/
theorem runBranch_aborts {l : Label} {c : ConditionSet} {onSuccess onFailure : List Step}
    {walkSide : Bool → RunState → Walk} (ho : Aborted o)
    (h : Job.Yields (runBranch place l.name c walkSide s) t o) :
    AbortsAt setup t place s (.branch l c onSuccess onFailure) o ∨
      ∃ holds s₁, (s₁ = s ∨ ∃ summary, s₁ = s.upsert l.name (.branch summary holds)) ∧
        Job.Yields (walkSide holds s₁) t o := by
  cases hf : finished (s.steps.get? l.name) with
  | true =>
    rw [runBranch_of_finished hf] at h
    split at h
    · exact .inr ⟨_, s, .inl rfl, h⟩
    · exact (ho.not_ended h).elim
  | false =>
    rw [runBranch_of_open hf] at h
    obtain ⟨started, h⟩ := ho.of_clock h
    obtain ⟨hcrash, rfl⟩ | ⟨shown, -, h⟩ := ho.of_onTemplate h
    · exact .inl (.template started.now (.inl hcrash))
    obtain ⟨hcrash, rfl⟩ | ⟨r, -, h⟩ := ho.of_onTemplate h
    · exact .inl (.template started.now (.inr hcrash))
    rcases r with e | holds
    · exact (ho.not_ended h).elim
    obtain ⟨stopped, h⟩ := ho.of_clock h
    exact .inr ⟨holds, _, .inr ⟨_, rfl⟩, h⟩

/-- The branches of a split abort because one of them does. -/
theorem walkPaths_aborts {name : String} {concurrency : Option Nat} {arms : List Arm}
    {started : Reading Time.Instant} {input : Json} {taken : List String} (ho : Aborted o)
    (h : Job.Yields (walkPaths setup name concurrency (arms.map (Arm.path place)) started input
      taken s) t o) :
    ∃ a ∈ arms, ∃ t', Job.Yields (a.body place (splitBase s name input taken)) t' o ∧
      ∀ e ∈ t', e ∈ t := by
  have visited {i : Nat} {t' : Trace} (ht : ∀ e ∈ t', e ∈ t)
      (h : Job.Yields (Arm.visit (Arm.taken arms taken) place (splitBase s name input taken) i)
        t' o) :
      ∃ a ∈ arms, ∃ t', Job.Yields (a.body place (splitBase s name input taken)) t' o ∧
        ∀ e ∈ t', e ∈ t := by
    unfold Arm.visit at h
    split at h
    next a ha => exact ⟨a, (Arm.names_subset (List.mem_of_getElem? ha)).1, t', h, ht⟩
    next => exact (ho.not_ended h).elim
  rw [walkPaths_eq] at h
  rcases Job.Yields.of_fan (fun _ => rfl) h ho.1 with
    ⟨results, t₁, t₂, rfl, -, ⟨parts, mixed, ran, -⟩, hnext⟩ | ⟨rfl, i, t', hi, ht⟩
  · unfold closeMerged at hnext
    split at hnext
    next e hmerge =>
      obtain rfl := ho.of_error hnext
      obtain ⟨r, hr, heq⟩ := List.mem_map.mp (mergeBranches_error_mem hmerge)
      cases heq
      obtain ⟨i, hi⟩ := List.getElem?_of_mem hr
      refine visited (fun e he => ?_) (ran i _ hi)
      exact List.mem_append_left _ ((mixed.mem_iff e).mpr ⟨i, he⟩)
    next =>
      obtain ⟨stopped, hnext⟩ := ho.of_clock hnext
      exact (ho.not_ended hnext).elim
  · exact visited ht hi

/-- A split aborts because its branches cannot be chosen, or because one of them aborts. -/
theorem runSplit_aborts {l : Label} {settings : SplitSettings}
    {branches : List (SplitBranch × List Step)} (ho : Aborted o)
    (h : Job.Yields (walkStep setup (.split l settings branches) place s) t o) :
    AbortsAt setup t place s (.split l settings branches) o ∨
      finished (s.steps.get? l.name) = false ∧ ∃ input taken, ∃ b ∈ branches, ∃ t',
        Job.Yields (walk setup b.2 place (splitBase s l.name input taken)) t' o ∧
          ∀ e ∈ t', e ∈ t := by
  have walked {started : Reading Time.Instant} {input : Json} {taken : List String}
      (h : Job.Yields (walkPaths setup l.name settings.concurrency
        ((arms setup branches).map (Arm.path place)) started input taken s) t o) :
      ∃ input taken, ∃ b ∈ branches, ∃ t',
        Job.Yields (walk setup b.2 place (splitBase s l.name input taken)) t' o ∧
          ∀ e ∈ t', e ∈ t := by
    obtain ⟨a, ha, t', hy, ht⟩ := walkPaths_aborts ho h
    obtain ⟨b, hb, rfl⟩ := List.mem_map.mp ha
    exact ⟨input, taken, b, hb, t', hy, ht⟩
  rw [walkStep_split] at h
  dsimp only [runSplit] at h
  split_ifs at h with hf
  · exact (ho.not_ended h).elim
  obtain ⟨started, h⟩ := ho.of_clock h
  split at h
  · exact .inr ⟨finished_eq_false hf, walked h⟩
  split at h
  next hcrash =>
    rw [ho.of_crash h]
    refine .inl (.template started.now ?_)
    have hbranches : ((arms setup branches).map (Arm.path place)).map Path.branch =
        branches.map Prod.fst := by simp [arms, Arm.path, Function.comp_def]
    rwa [hbranches] at hcrash
  · exact (ho.not_ended h).elim
  · exact .inr ⟨finished_eq_false hf, walked h⟩

/-- A loop aborts because of its items, or because an iteration aborts. -/
theorem runLoop_aborts {l : Label} {settings : LoopSettings} {body : List Step} (ho : Aborted o)
    (h : Job.Yields (walkStep setup (.loop l settings body) place s) t o) :
    AbortsAt setup t place s (.loop l settings body) o ∨
      finished (s.steps.get? l.name) = false ∧ ∃ r item index kept t',
        (kept = [] ∨ ∃ prior its, s.steps.get? l.name = some prior ∧
          prior.iterations? = some its ∧ kept ∈ its) ∧
        Job.Yields (walk setup body (place.enter (s.upsert l.name r) l.name ⟨item, index⟩)
          (s.nested kept)) t' o ∧ ∀ e ∈ t', e ∈ t := by
  have walked {started : Reading Time.Instant} {items : List Json} {its : List StepMap}
      (hits : its = [] ∨ ∃ r, s.steps.get? l.name = some r ∧ r.iterations? = some its)
      (h : Job.Yields (walkItems setup place l.name settings (walk setup body) started items its s)
        t o) : ∃ r item index kept t',
        (kept = [] ∨ ∃ prior its, s.steps.get? l.name = some prior ∧
          prior.iterations? = some its ∧ kept ∈ its) ∧
        Job.Yields (walk setup body (place.enter (s.upsert l.name r) l.name ⟨item, index⟩)
          (s.nested kept)) t' o ∧ ∀ e ∈ t', e ∈ t := by
    obtain ⟨i, item, kept, t', hi, hy, ht⟩ := walkItems_fails rfl h ho.1 ho.2
    exact ⟨_, item, i, kept, t', mem_fit hits (List.of_mem_zip (List.mem_of_getElem? hi)).2, hy, ht⟩
  rw [walkStep_loop] at h
  dsimp only [runLoop] at h
  split_ifs at h with hf
  · exact (ho.not_ended h).elim
  obtain ⟨started, h⟩ := ho.of_clock h
  split at h
  next items its hrec =>
    exact .inr ⟨finished_eq_false hf, walked (.inr (recordedLoop?_eq_some hrec)) h⟩
  next =>
    obtain ⟨hcrash, rfl⟩ | ⟨r, -, h⟩ := ho.of_onTemplate h
    · exact .inl (.template started.now hcrash)
    split at h
    · exact .inr ⟨finished_eq_false hf, walked (.inl rfl) h⟩
    · exact (ho.not_ended h).elim

/-! ## Chains -/

theorem aborts_hereditary : Hereditary
    (fun chain => ∀ (place : Place) (s : RunState) (t : Trace) (o : Outcome Result),
      Job.Yields (walk setup chain place s) t o → Aborted o → AbortedBy setup chain place s t o)
    fun step => ∀ (rest : List Step) (place : Place) (s : RunState) (t : Trace) (o : Outcome Result),
      Job.Yields (walkStep setup step place s) t o → Aborted o →
        AbortedBy setup (step :: rest) place s t o where
  nil place s t o hy ho := by
    rw [walk] at hy
    exact (ho.not_ended hy).elim
  cons step rest hstep hrest place s t o hy ho := by
    rw [walk] at hy
    rcases Yields.andThen_ends hy with ⟨s₁, t₁, t₂, rfl, hy₁, hy₂⟩ | hp | ⟨hy, -⟩
    · split_ifs at hy₂ with hr
      · exact (hrest place s₁ t₂ o hy₂ ho).mono (fun e he => List.mem_append_right _ he)
          (.later hy₁ (isRunning_iff.mp hr))
      · exact (ho.not_ended hy₂).elim
    · exact absurd hp ho.1
    · exact hstep rest place s t o hy ho
  trigger l trigger rest place s t o hy ho := by
    rw [walkStep] at hy
    exact ⟨_, place, s, .here, ho.of_error hy ▸ .trigger l trigger⟩
  action l a rest place s t o hy ho := by
    rw [walkStep] at hy
    exact ⟨_, place, s, .here, runAction_aborts ho hy⟩
  branch l c onSuccess onFailure hsuccess hfailure rest place s t o hy ho := by
    rw [walkStep] at hy
    obtain haborts | ⟨holds, s₁, hs₁, hy⟩ := runBranch_aborts ho hy
    · exact ⟨_, place, s, .here, haborts⟩
    cases holds
    · exact (hfailure place s₁ t o hy ho).mono (fun _ he => he) (.failure hs₁)
    · exact (hsuccess place s₁ t o hy ho).mono (fun _ he => he) (.success hs₁)
  split l settings branches hbranches rest place s t o hy ho := by
    obtain haborts | ⟨hopen, input, taken, b, hb, t', hy, ht⟩ := runSplit_aborts ho hy
    · exact ⟨_, place, s, .here, haborts⟩
    · exact (hbranches b hb place _ t' o hy ho).mono ht (.split hopen hb)
  loop l settings body hbody rest place s t o hy ho := by
    obtain haborts | ⟨hopen, r, item, index, kept, t', hkept, hy, ht⟩ := runLoop_aborts ho hy
    · exact ⟨_, place, s, .here, haborts⟩
    · exact (hbody _ _ t' o hy ho).mono ht (.loop hopen hkept)

/-- If the walk of a chain aborts, whatever records it begins with, then as a step does that it comes
to. -/
theorem walk_aborts (chain : List Step) (place : Place) (s : RunState) (t : Trace) (o : Outcome Result)
    (hy : Job.Yields (walk setup chain place s) t o) (ho : Aborted o) :
    AbortedBy setup chain place s t o :=
  aborts_hereditary.chain chain place s t o hy ho

end FlowEngine.Engine
