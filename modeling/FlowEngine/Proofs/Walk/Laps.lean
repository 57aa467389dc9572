import FlowEngine.Proofs.Walk.Isolation
import Mathlib.Data.List.Induction

/-!
# Iterations around a step

A walk comes to a step in some iterations of the loops around it, from the outermost to the innermost.

* `Lap` — an iteration of a loop, with the records around it and those that it begins with.
* `Comes` — the steps that a walk may come to, each in iterations.
* `walk_comes` — every call is that of an action which the walk comes to, with the input that its
  template gives there.
* `Comes.through`, `Comes.in_loop` — it comes through the iterations, one of every loop around the step.
* `Comes.sees_recorded`, `Comes.sees_own` — what the step sees of the levels around it.
-/

namespace FlowEngine.Engine

open FlowEngine.Run FlowEngine.Flow

/-! ## Iterations -/

/-- An iteration of a loop: the loop with its items, the records of its level, the index and the item, and
the records that the body is walked with. -/
structure Lap where
  label : Label
  settings : LoopSettings
  body : List Step
  items : List Json
  level : RunState
  index : Nat
  item : Json
  kept : StepMap

namespace Lap

/-- The name of the loop. -/
def name (l : Lap) : String := l.label.name

/-- The loop. -/
def loop (l : Lap) : Step := .loop l.label l.settings l.body

/-- What the loop shows of itself in the iteration. -/
def shown (l : Lap) : StepRecord :=
  loopRecord .running (.obj [("items", .arr l.items)]) none none l.item l.index []

/-- What the iteration sees of the level of the loop. -/
def outer (l : Lap) : RunState := l.level.upsert l.name l.shown

/-- Where the walk of the body begins. -/
def inner (l : Lap) : RunState := l.level.nested l.kept

end Lap

/-- The place in iterations. -/
def placeOf (laps : List Lap) : Place :=
  laps.foldl (fun p l => p.enter l.outer l.name ⟨l.item, l.index⟩) .top

/-- The items and the maps that a loop is entered with: those of its record, or else the items that its
template gives. -/
inductive Opens (place : Place) (s : RunState) (name : String) (settings : LoopSettings) :
    List Json → List StepMap → Prop
  | recorded {items its} (again : recordedLoop? (s.steps.get? name) = some (items, its)) :
    Opens place s name settings items its
  | resolved {items now j} (first : recordedLoop? (s.steps.get? name) = none)
    (resolved : Template.resolve (place.names s now) settings.items = .ok j)
    (list : itemsOf (.ok j) = .ok items) : Opens place s name settings items []

/-- A loop that is not finished is entered in iterations around it, at one of its items, and with what is
recorded of the iteration of that item. -/
structure Lap.Enters (laps : List Lap) (l : Lap) : Prop where
  opened : finished (l.level.steps.get? l.name) = false
  item : l.items[l.index]? = some l.item
  kept : ∃ its, Opens (placeOf laps) l.level l.name l.settings l.items its ∧
    (fit l.items.length its)[l.index]? = some l.kept

/-- The walk of a chain in iterations may come to a step, in these and further iterations. -/
inductive Comes (setup : Setup) : List Step → List Lap → RunState → Step → List Lap → RunState → Prop
  | here {step rest laps s} : Comes setup (step :: rest) laps s step laps s
  | later {step rest laps s t s₁ x laps' m}
    (first : Job.Yields (walkStep setup step (placeOf laps) s) t (.result (.ok s₁)))
    (running : s₁.verdict = .running)
    (next : Comes setup rest laps s₁ x laps' m) : Comes setup (step :: rest) laps s x laps' m
  | success {label c onSuccess onFailure rest laps s s₁ x laps' m}
    (entered : s₁ = s ∨ ∃ summary, s₁ = s.upsert label.name (.branch summary true))
    (inside : Comes setup onSuccess laps s₁ x laps' m) :
    Comes setup (.branch label c onSuccess onFailure :: rest) laps s x laps' m
  | failure {label c onSuccess onFailure rest laps s s₁ x laps' m}
    (entered : s₁ = s ∨ ∃ summary, s₁ = s.upsert label.name (.branch summary false))
    (inside : Comes setup onFailure laps s₁ x laps' m) :
    Comes setup (.branch label c onSuccess onFailure :: rest) laps s x laps' m
  | split {label settings branches rest laps s input taken b steps x laps' m}
    (opened : finished (s.steps.get? label.name) = false) (branch : (b, steps) ∈ branches)
    (inside : Comes setup steps laps (splitBase s label.name input taken) x laps' m) :
    Comes setup (.split label settings branches :: rest) laps s x laps' m
  | loop {rest laps x laps' m} (l : Lap) (enters : l.Enters laps)
    (inside : Comes setup l.body (laps ++ [l]) l.inner x laps' m) :
    Comes setup (l.loop :: rest) laps l.level x laps' m

variable {setup : Setup} {chain rest : List Step} {laps laps' before after : List Lap} {l : Lap}
  {s m : RunState} {t : Trace} {o : Outcome Result} {step x : Step} {place : Place}

theorem placeOf_append_one (laps : List Lap) (l : Lap) :
    placeOf (laps ++ [l]) = (placeOf laps).enter l.outer l.name ⟨l.item, l.index⟩ := by
  rw [placeOf, placeOf, List.foldl_append]
  rfl

/-- The maps that a loop is entered with are those of its record, if there are any. -/
theorem Opens.recorded? {name : String} {settings : LoopSettings} {items : List Json}
    {its : List StepMap} (h : Opens place s name settings items its) :
    its = [] ∨ ∃ r, s.steps.get? name = some r ∧ r.iterations? = some its := by
  cases h with
  | recorded again => exact .inr (recordedLoop?_eq_some again)
  | resolved => exact .inl rfl

/-- What an iteration begins with is empty, or recorded under its index. -/
theorem Lap.Enters.recorded (h : l.Enters laps) : l.kept = [] ∨ ∃ r its,
    l.level.steps.get? l.name = some r ∧ r.iterations? = some its ∧ its[l.index]? = some l.kept := by
  obtain ⟨its, hopens, hkept⟩ := h.kept
  rw [fit, List.getElem?_append] at hkept
  split_ifs at hkept with hlt
  · have hits : its[l.index]? = some l.kept := by
      rw [List.getElem?_take] at hkept
      split_ifs at hkept
      exact hkept
    obtain rfl | ⟨r, hr, hrec⟩ := hopens.recorded?
    · cases hits
    · exact .inr ⟨r, its, hr, hrec, hits⟩
  · exact .inl (List.eq_of_mem_replicate (List.mem_of_getElem? hkept))

/-- What a walk comes to in iterations, it comes to at their place. -/
theorem Comes.visits (h : Comes setup chain laps s x laps' m) :
    Visits setup chain (placeOf laps) s x (placeOf laps') m := by
  induction h with
  | here => exact .here
  | later first running _ ih => exact .later first running ih
  | success entered _ ih => exact .success entered ih
  | failure entered _ ih => exact .failure entered ih
  | split opened branch _ ih => exact .split opened branch ih
  | loop l enters _ ih =>
    rw [placeOf_append_one] at ih
    refine .loop enters.opened ?_ ih
    obtain hnil | ⟨r, its, hr, hits, hkept⟩ := enters.recorded
    · exact .inl hnil
    · exact .inr ⟨r, its, hr, hits, List.mem_of_getElem? hkept⟩

/-! ## Calls -/

/-- A call is that of an action which the walk of a chain comes to, with the input that its template
gives there. -/
def CalledIn (setup : Setup) (chain : List Step) (laps : List Lap) (s : RunState) (c : Block.Call) :
    Prop :=
  ∃ label a laps' m now input, Comes setup chain laps s (.action label a) laps' m ∧
    Template.resolve ((placeOf laps').names m now) a.input = .ok input ∧
    c = ⟨targetOf a.work, requestOf setup (placeOf laps').path m label.name a.work input⟩

theorem CalledIn.mono {c : Block.Call} {chain' : List Step} {laps₁ : List Lap} {s₁ : RunState}
    (h : CalledIn setup chain laps s c)
    (hv : ∀ {x laps' m}, Comes setup chain laps s x laps' m →
      Comes setup chain' laps₁ s₁ x laps' m) : CalledIn setup chain' laps₁ s₁ c := by
  obtain ⟨label, a, laps', m, now, input, hcomes, hinput, rfl⟩ := h
  exact ⟨label, a, laps', m, now, input, hv hcomes, hinput, rfl⟩

/-- A call in iterations is one at their place. -/
theorem CalledIn.calledBy {c : Block.Call} (h : CalledIn setup chain laps s c) :
    CalledBy setup chain (placeOf laps) s c := by
  obtain ⟨label, a, laps', m, now, input, hcomes, hinput, rfl⟩ := h
  exact ⟨label, a, placeOf laps', m, now, input, hcomes.visits, hinput, rfl⟩

/-- A loop that calls something is entered, and its iterations are walked. -/
theorem runLoop_opens {name : String} {settings : LoopSettings} {wB : Body}
    (hy : Job.Yields (runLoop setup place name settings wB s) t o)
    {e : Event Block.Call Block.Reply} (he : e ∈ t) :
    finished (s.steps.get? name) = false ∧ ∃ items its started,
      Opens place s name settings items its ∧
        Job.Yields (walkItems setup place name settings wB started items its s) t o := by
  dsimp only [runLoop] at hy
  split_ifs at hy with hf
  · rw [Yields.ended_nil hy] at he
    cases he
  refine ⟨finished_eq_false hf, ?_⟩
  rcases Job.Yields.of_clock hy with ⟨rfl, -⟩ | ⟨started, hy⟩
  · cases he
  split at hy
  next items its hrec => exact ⟨items, its, started, .recorded hrec, hy⟩
  next hrec =>
    rcases Yields.of_onTemplate hy with ⟨rfl, -⟩ | ⟨r, hr, hy⟩
    · cases he
    split at hy
    next items hitems =>
      cases r with
      | error error => cases hitems
      | ok j => exact ⟨items, [], started, .resolved hrec hr hitems, hy⟩
    next =>
      rw [Yields.ended_nil hy] at he
      cases he

theorem comes_hereditary : Hereditary
    (fun chain => ∀ (laps : List Lap) (s : RunState) (t : Trace) (o : Outcome Result),
      Job.Yields (walk setup chain (placeOf laps) s) t o → ∀ e ∈ t, CalledIn setup chain laps s e.call)
    fun step => ∀ (rest : List Step) (laps : List Lap) (s : RunState) (t : Trace) (o : Outcome Result),
      Job.Yields (walkStep setup step (placeOf laps) s) t o →
        ∀ e ∈ t, CalledIn setup (step :: rest) laps s e.call where
  nil laps s t o hy e he := by
    rw [walk] at hy
    rw [Yields.ended_nil hy] at he
    cases he
  cons step rest hstep hrest laps s t o hy e he := by
    rw [walk] at hy
    rcases Job.Yields.of_andThen hy with ⟨s₁, t₁, t₂, rfl, hy₁, hy₂⟩ | ⟨⟨o', hy⟩, -⟩
    · rcases List.mem_append.mp he with he | he
      · exact hstep rest laps s t₁ _ hy₁ e he
      · split_ifs at hy₂ with hr
        · exact (hrest laps s₁ t₂ o hy₂ e he).mono (.later hy₁ (isRunning_iff.mp hr))
        · rw [Yields.ended_nil hy₂] at he
          cases he
    · exact hstep rest laps s t o' hy e he
  trigger l _ rest laps s t o hy e he := by
    rw [walkStep] at hy
    obtain ⟨rfl, -⟩ := Job.Yields.done_iff.mp hy
    cases he
  action l a rest laps s t o hy e he := by
    rw [walkStep] at hy
    obtain ⟨now, input, hinput, hcall⟩ := runAction_calls hy he
    exact ⟨l, a, laps, s, now, input, .here, hinput, hcall⟩
  branch l c onSuccess onFailure hsuccess hfailure rest laps s t o hy e he := by
    rw [walkStep] at hy
    obtain ⟨rfl, -⟩ | ⟨holds, s₁, hs₁, -, hy⟩ := runBranch_ends hy
    · cases he
    have hs₁ : s₁ = s ∨ ∃ summary, s₁ = s.upsert l.name (.branch summary holds) :=
      hs₁.imp id And.right
    cases holds
    · exact (hfailure laps s₁ t o hy e he).mono (.failure hs₁)
    · exact (hsuccess laps s₁ t o hy e he).mono (.success hs₁)
  split l settings branches hbranches rest laps s t o hy e he := by
    rw [walkStep_split] at hy
    rcases runSplit_ends hy with ⟨rfl, -⟩ | ⟨hopen, ⟨rfl, -⟩ | ⟨started, input, taken, hy⟩⟩
    · cases he
    · cases he
    obtain ⟨i, a, t', o', ha, hy, he⟩ := (walkPaths_yields hy).1 e he
    obtain ⟨ha, -, -⟩ := Arm.names_subset (List.mem_of_getElem? ha)
    obtain ⟨b, hb, rfl⟩ := List.mem_map.mp ha
    exact (hbranches b hb laps _ t' o' hy e he).mono (.split hopen hb)
  loop label settings body hbody rest laps s t o hy e he := by
    rw [walkStep] at hy
    obtain ⟨hopen, items, its, started, hopens, hy⟩ := runLoop_opens hy he
    obtain ⟨i, item, kept, t', o', hx, hy, he⟩ := (walkItems_yields rfl hy).1 e he
    rw [List.getElem?_zip_eq_some] at hx
    let l : Lap := ⟨label, settings, body, items, s, i, item, kept⟩
    have henters : l.Enters laps := ⟨hopen, hx.1, its, hopens, hx.2⟩
    have hvisit : Job.Yields (walk setup body (placeOf (laps ++ [l])) l.inner) t' o' := by
      rw [placeOf_append_one]
      exact hy
    exact (hbody (laps ++ [l]) l.inner t' o' hvisit e he).mono (.loop l henters)

/-- The calls of the walk of a chain. -/
theorem walk_comes (chain : List Step) (laps : List Lap) (s : RunState) (t : Trace) (o : Outcome Result)
    (hy : Job.Yields (walk setup chain (placeOf laps) s) t o) :
    ∀ e ∈ t, CalledIn setup chain laps s e.call :=
  comes_hereditary.chain chain laps s t o hy

/-! ## Around an iteration -/

/-- A walk comes to a step in an iteration by the loop, and then by the body of that. -/
structure Through (setup : Setup) (chain : List Step) (laps : List Lap) (s : RunState)
    (before : List Lap) (l : Lap) (x : Step) (laps' : List Lap) (m : RunState) : Prop where
  loop : Comes setup chain laps s l.loop before l.level
  enters : l.Enters before
  inside : Comes setup l.body (before ++ [l]) l.inner x laps' m

theorem Through.mono {chain' : List Step} {laps₁ : List Lap} {s₁ : RunState}
    (h : Through setup chain laps s before l x laps' m)
    (hv : ∀ {x laps' m}, Comes setup chain laps s x laps' m →
      Comes setup chain' laps₁ s₁ x laps' m) :
    Through setup chain' laps₁ s₁ before l x laps' m :=
  ⟨hv h.loop, h.enters, h.inside⟩

/-- A walk comes to a step through all iterations around it that it did not begin in. -/
theorem Comes.through (h : Comes setup chain laps s x laps' m) :
    ∃ inner, laps' = laps ++ inner ∧ ∀ before l after, inner = before ++ l :: after →
      Through setup chain laps s (laps ++ before) l x laps' m := by
  induction h with
  | here => exact ⟨[], by simp, by simp⟩
  | later first running _ ih =>
    obtain ⟨inner, rfl, hthrough⟩ := ih
    exact ⟨inner, rfl, fun b l a h => (hthrough b l a h).mono (.later first running)⟩
  | success entered _ ih =>
    obtain ⟨inner, rfl, hthrough⟩ := ih
    exact ⟨inner, rfl, fun b l a h => (hthrough b l a h).mono (.success entered)⟩
  | failure entered _ ih =>
    obtain ⟨inner, rfl, hthrough⟩ := ih
    exact ⟨inner, rfl, fun b l a h => (hthrough b l a h).mono (.failure entered)⟩
  | split opened branch _ ih =>
    obtain ⟨inner, rfl, hthrough⟩ := ih
    exact ⟨inner, rfl, fun b l a h => (hthrough b l a h).mono (.split opened branch)⟩
  | @loop rest laps x laps' m l enters inside ih =>
    obtain ⟨inner, rfl, hthrough⟩ := ih
    refine ⟨l :: inner, by simp, fun before l' after heq => ?_⟩
    cases before with
    | nil =>
      obtain ⟨rfl, rfl⟩ := List.cons.inj heq
      rw [List.append_nil]
      exact ⟨.here, enters, inside⟩
    | cons l₁ before =>
      obtain ⟨rfl, rfl⟩ := List.cons.inj heq
      have h : Through setup (l.loop :: rest) laps l.level _ l' x _ m :=
        (hthrough before l' after rfl).mono (.loop l enters)
      rwa [List.append_assoc] at h

/-- The iterations around a step are those of all loops that it is inside of. -/
theorem Comes.in_loop (h : Comes setup chain laps s x laps' m) {label : Label}
    {settings : LoopSettings} {body : List Step} (hx : Inside chain (.loop label settings body) x) :
    ∃ l ∈ laps', l.loop = .loop label settings body := by
  induction h with
  | here => exact hx.not_first.elim
  | later first running next ih => exact ih (hx.later next.visits.mem)
  | success entered inside ih =>
    exact ih ((hx.success inside.visits.mem).resolve_left (by rintro ⟨⟩))
  | failure entered inside ih =>
    exact ih ((hx.failure inside.visits.mem).resolve_left (by rintro ⟨⟩))
  | split opened branch inside ih =>
    exact ih ((hx.part branch inside.visits.mem).resolve_left (by rintro ⟨⟩))
  | loop l enters inside ih =>
    rcases hx.body inside.visits.mem with heq | hx
    · obtain ⟨inner, rfl, -⟩ := inside.through
      exact ⟨l, by simp, heq.symm⟩
    · exact ih hx

/-- What the body of a loop records is not seen from around an iteration, and what it does not record is
seen in the iteration as from around it. -/
theorem Through.sees (h : Through setup chain laps s before l x laps' m)
    (hs : Situated chain (placeOf laps) s) :
    l.name ∉ (chainRegion l.body).names ∧
    (∀ n ∈ (chainRegion l.body).names, ((placeOf before).scope l.outer).step? n = none) ∧
    ∀ n ∉ (chainRegion l.body).names,
      ((placeOf laps').scope m).step? n = ((placeOf before).scope l.outer).step? n := by
  have hloop : Situated [l.loop] (placeOf before) l.level := (h.loop.visits.situated hs).1
  have hkept : l.kept = [] ∨ ∃ r its, l.level.steps.get? l.name = some r ∧
      r.iterations? = some its ∧ l.kept ∈ its := by
    obtain hnil | ⟨r, its, hr, hits, hkept⟩ := h.enters.recorded
    · exact .inl hnil
    · exact .inr ⟨r, its, hr, hits, List.mem_of_getElem? hkept⟩
  obtain ⟨hbody, hkeyed⟩ := hloop.iteration h.enters.opened hkept l.shown ⟨l.item, l.index⟩
  have hinside := h.inside.visits
  rw [placeOf_append_one] at hinside
  refine ⟨?_, hbody.hidden, fun n hn => ?_⟩
  · have hnd := hloop.nodup
    rw [names_cons, Lap.loop, stepRegion, Region.loop_names] at hnd
    exact fun hmem => (List.nodup_cons.mp hnd).1 (List.mem_append_left _ hmem)
  · have hnone : l.inner.steps.get? n = none :=
      StepMap.get?_eq_none_iff.mpr fun hmem => hn (hkeyed n hmem)
    exact ((hinside.situated hbody).2 n hn).trans (Place.step?_enter hnone)

/-! ## Levels -/

/-- The records of the levels around a step, the innermost first. -/
def levels (laps : List Lap) (m : RunState) : List StepMap :=
  m.steps :: laps.reverse.map fun l => l.outer.steps

/-- The levels in an iteration come before those around it. -/
theorem levels_append (before : List Lap) (l : Lap) (after : List Lap) (m : RunState) :
    levels (before ++ l :: after) m = levels after m ++ levels before l.outer := by
  simp [levels]

theorem steps_scope (laps : List Lap) (m : RunState) :
    ((placeOf laps).scope m).map Template.Frame.steps = levels laps m := by
  induction laps using List.reverseRecOn generalizing m with
  | nil => rfl
  | append_singleton laps l ih =>
    have hlevels : levels (laps ++ [l]) m = m.steps :: levels laps l.outer := by simp [levels]
    rw [placeOf_append_one, hlevels, ← ih l.outer]
    rfl

/-- What is seen of a step is the innermost record of it. -/
theorem step?_levels (laps : List Lap) (m : RunState) (n : String) :
    ((placeOf laps).scope m).step? n = (levels laps m).findSome? fun steps => steps.get? n := by
  rw [← steps_scope, List.findSome?_map]
  rfl

/-- The innermost iteration is the cursor. -/
theorem cursor?_append_one (laps : List Lap) (l : Lap) (m : RunState) :
    ((placeOf (laps ++ [l])).scope m).cursor? = some ⟨l.item, l.index⟩ := by
  rw [placeOf_append_one]
  rfl

namespace Comes

/-- A walk that begins in no iterations comes to a step through all that are around it. -/
theorem through_all (h : Comes setup chain [] s x (before ++ l :: after) m) :
    Through setup chain [] s before l x (before ++ l :: after) m := by
  obtain ⟨inner, heq, hthrough⟩ := h.through
  exact hthrough before l after heq.symm

/-- Every record of a level around a step is seen. -/
theorem sees_recorded (h : Comes setup chain [] s x laps m) (hs : Situated chain .top s)
    {steps : StepMap} (hsteps : steps ∈ levels laps m) {n : String} {r : StepRecord}
    (hr : steps.get? n = some r) : ((placeOf laps).scope m).step? n = some r := by
  rcases List.mem_cons.mp hsteps with rfl | hsteps
  · rw [Place.step?_scope, hr, Option.some_or]
  obtain ⟨l, hl, rfl⟩ := List.mem_map.mp hsteps
  obtain ⟨before, after, rfl⟩ := List.mem_iff_append.mp (List.mem_reverse.mp hl)
  obtain ⟨-, hhidden, hsees⟩ := h.through_all.sees hs
  have houter : ((placeOf before).scope l.outer).step? n = some r := by
    rw [Place.step?_scope, hr, Option.some_or]
  rw [hsees n fun hn => by rw [hhidden n hn] at houter; cases houter]
  exact houter

/-- Of every loop around a step, the record is seen that shows the iteration. -/
theorem sees_loop (h : Comes setup chain [] s x laps m) (hs : Situated chain .top s) (hl : l ∈ laps) :
    ((placeOf laps).scope m).step? l.name = some l.shown := by
  have hlevel : l.outer.steps ∈ levels laps m :=
    List.mem_cons_of_mem _ (List.mem_map.mpr ⟨l, List.mem_reverse.mpr hl, rfl⟩)
  exact h.sees_recorded hs hlevel (StepMap.get?_insert_self _ _ _)

/-- What is seen of a step in the body of a loop is recorded on a level in the iteration. -/
theorem sees_own (h : Comes setup chain [] s x (before ++ l :: after) m) (hs : Situated chain .top s)
    {n : String} (hn : n ∈ (chainRegion l.body).names) {r : StepRecord}
    (hr : ((placeOf (before ++ l :: after)).scope m).step? n = some r) :
    ∃ steps ∈ levels after m, steps.get? n = some r := by
  obtain ⟨-, hhidden, -⟩ := h.through_all.sees hs
  have houter := hhidden n hn
  rw [step?_levels] at houter
  rw [step?_levels, levels_append, List.findSome?_append, houter, Option.or_none] at hr
  exact List.exists_of_findSome?_eq_some hr

end Comes

end FlowEngine.Engine
