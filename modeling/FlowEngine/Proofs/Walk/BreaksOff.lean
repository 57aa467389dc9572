import FlowEngine.Proofs.Selection.Fulfils
import FlowEngine.Proofs.Selection.Sequenced
import FlowEngine.Proofs.Walk.Nesting

/-!
# Records after a walk that broke off

A walk that fails or is stopped breaks off at one step. What was walked before that step is finished,
and what comes after it has no records. Only the parts of fan-outs that stand beside the part with this
step may be open.

* `BreaksOff` — the records of a chain after a walk that broke off at a position.
* `Beside` — positions in two parts of one fan-out.
* `BreaksOff.beside` — open records stand beside the step that the walk broke off at.
-/

namespace FlowEngine.Engine

open FlowEngine.Run FlowEngine.Flow

/-! ## Records after a walk that broke off -/

/-- The records of a chain show that a walk of it broke off at a position. -/
inductive BreaksOff : List Step → StepMap → Position → Prop
  | here {step m r} (record : m.get? step.name = some r) (finished : r.status.isFinished = true)
    (flat : r.iterations? = none) (inner : Fresh (stepRegion step).names.tail m) :
    BreaksOff [step] m ⟨[], step.name⟩
  | first {step rest m p} (inside : BreaksOff [step] m p)
    (unwalked : Fresh (chainRegion rest).names m) : BreaksOff (step :: rest) m p
  | later {step rest m p} (walked : Over (stepRegion step).names m) (next : BreaksOff rest m p) :
    BreaksOff (step :: rest) m p
  | success {l c onSuccess onFailure m summary p}
    (record : m.get? l.name = some (.branch summary true)) (finished : summary.status.isFinished = true)
    (inside : BreaksOff onSuccess m p) (other : Fresh (chainRegion onFailure).names m) :
    BreaksOff [.branch l c onSuccess onFailure] m p
  | failure {l c onSuccess onFailure m summary p}
    (record : m.get? l.name = some (.branch summary false)) (finished : summary.status.isFinished = true)
    (inside : BreaksOff onFailure m p) (other : Fresh (chainRegion onSuccess).names m) :
    BreaksOff [.branch l c onSuccess onFailure] m p
  | split {l settings branches m summary taken b p}
    (record : m.get? l.name = some (.split summary taken)) (finished : summary.status.isFinished = true)
    (branch : b ∈ branches) (inside : BreaksOff b.2 m p)
    (untaken : ∀ b' ∈ branches, b'.1.name ∉ taken → Fresh (chainRegion b'.2).names m) :
    BreaksOff [.split l settings branches] m p
  | loop {l settings body m summary item index its k p}
    (record : m.get? l.name = some (.loop summary item index its))
    (finished : summary.status.isFinished = true) (iteration : its[index]? = some k)
    (inside : BreaksOff body k p) (level : Fresh (chainRegion body).names m)
    (keyed : ∀ k ∈ its, ∀ n ∈ StepMap.names k, n ∈ (chainRegion body).names)
    (others : settings.parallel = false → ∀ (i : Nat) (k : StepMap), i ≠ index → its[i]? = some k →
      Over (chainRegion body).names k) :
    BreaksOff [.loop l settings body] m (p.inside l.name index)

/-- Two positions are in different parts of one fan-out of some steps: in two branches of a split, or in
two iterations of a loop that is parallel. The fan-out is finished. -/
inductive Beside (steps : List Step) (m : StepMap) (e p : Position) : Prop
  | branch {label settings branches b b' summary taken} {e' p' : Position}
    (outer : List (String × Nat))
    (split : .split label settings branches ∈ steps)
    (record : m.at? ⟨outer, label.name⟩ = some (.split summary taken))
    (finished : summary.status.isFinished = true)
    (own : b ∈ branches) (other : b' ∈ branches) (ne : b' ≠ b) (taken : b'.1.name ∈ taken)
    (ends : e = e'.under outer) (inOwn : e'.root ∈ (descendants b.2).map Step.name)
    (stands : p = p'.under outer) (inOther : p'.root ∈ (descendants b'.2).map Step.name)
  | iteration {label settings body summary item i its j} {e' p' : Position}
    (outer : List (String × Nat))
    (loop : .loop label settings body ∈ steps) (parallel : settings.parallel = true)
    (record : m.at? ⟨outer, label.name⟩ = some (.loop summary item i its))
    (finished : summary.status.isFinished = true) (ne : j ≠ i)
    (ends : e = (e'.inside label.name i).under outer)
    (stands : p = (p'.inside label.name j).under outer)

variable {setup : Setup} {chain rest : List Step} {step : Step} {m m' k : StepMap} {e p : Position}
  {r : StepRecord}

namespace Beside

theorem mono {steps steps' : List Step} (h : Beside steps m e p) (hs : steps ⊆ steps') :
    Beside steps' m e p := by
  cases h with
  | branch outer split record finished own other ne taken ends inOwn stands inOther =>
    exact .branch outer (hs split) record finished own other ne taken ends inOwn stands inOther
  | iteration outer loop parallel record finished ne ends stands =>
    exact .iteration outer (hs loop) parallel record finished ne ends stands

/-- Positions in an iteration, seen from the level of the loop. -/
theorem inside {steps : List Step} (h : Beside steps k e p) {l : String} {i : Nat} {its : List StepMap}
    (hr : m.get? l = some r) (hits : r.iterations? = some its) (hk : its[i]? = some k) :
    Beside steps m (e.inside l i) (p.inside l i) := by
  have up {q : Position} {r : StepRecord} (hq : k.at? q = some r) : m.at? (q.inside l i) = some r :=
    StepMap.at?_inside_eq_some.mpr ⟨_, its, k, hr, hits, hk, hq⟩
  cases h with
  | branch outer split record finished own other ne taken ends inOwn stands inOther =>
    subst ends stands
    exact .branch ((l, i) :: outer) split (up record) finished own other ne taken rfl inOwn rfl inOther
  | iteration outer loop parallel record finished ne ends stands =>
    subst ends stands
    exact .iteration ((l, i) :: outer) loop parallel (up record) finished ne rfl rfl

end Beside

theorem mem_stepRegion_names {n : String} :
    n ∈ (stepRegion step).names ↔ n = step.name ∨ n ∈ (stepRegion step).names.tail := by
  rw [Region.names, stepRegion_steps_eq, List.map_cons, List.mem_cons, List.tail_cons]

theorem names_singleton (step : Step) : (chainRegion [step]).names = (stepRegion step).names := by
  rw [names_cons]
  exact List.append_nil _

theorem steps_singleton (step : Step) : (chainRegion [step]).steps = (stepRegion step).steps := by
  rw [steps_cons]
  exact List.append_nil _

/-- What stands at a position in a record without iterations is that record. -/
theorem eq_of_flat (hr : m.get? p.root = some r) (hits : r.iterations? = none) {r' : StepRecord}
    (hp : m.at? p = some r') : r' = r := by
  rcases StepMap.root_of_at? hp with ⟨-, h⟩ | ⟨l, i, q, rl, its, k, rfl, hl, hits', -⟩
  · exact Option.some.inj (h.symm.trans hr)
  · rw [Position.root_inside, hl] at hr
    cases hr
    rw [hits] at hits'
    cases hits'

namespace BreaksOff

/-- The walk broke off at a step of the chain, and its position begins in the chain. -/
theorem mem (h : BreaksOff chain m e) :
    e.root ∈ (chainRegion chain).names ∧ e.name ∈ (chainRegion chain).names := by
  have both {p : Position} {names names' : List String} (hs : names ⊆ names') :
      p.root ∈ names ∧ p.name ∈ names → p.root ∈ names' ∧ p.name ∈ names' :=
    And.imp (fun h => hs h) fun h => hs h
  induction h with
  | here =>
    rw [names_singleton]
    exact and_self_iff.mpr (mem_stepRegion_names.mpr (.inl rfl))
  | first _ _ ih =>
    rw [names_singleton] at ih
    rw [names_cons]
    exact both (List.subset_append_left _ _) ih
  | later _ _ ih =>
    rw [names_cons]
    exact both (List.subset_append_right _ _) ih
  | success _ _ _ _ ih =>
    rw [names_singleton, stepRegion, Region.branch_names]
    exact both (fun _ h => List.mem_cons_of_mem _ (List.mem_append_left _ h)) ih
  | failure _ _ _ _ ih =>
    rw [names_singleton, stepRegion, Region.branch_names]
    exact both (fun _ h => List.mem_cons_of_mem _ (List.mem_append_right _ h)) ih
  | split _ _ branch _ _ ih =>
    rw [names_singleton, stepRegion, Region.split_names]
    exact both (fun _ h => List.mem_cons_of_mem _ ((branchNames_sublist branch).subset h)) ih
  | loop _ _ _ _ _ _ _ ih =>
    rw [names_singleton, stepRegion, Region.loop_names]
    exact ⟨List.mem_cons_self, List.mem_cons_of_mem _ ih.2⟩

/-- The record of the step that the walk broke off at is finished. -/
theorem record (h : BreaksOff chain m e) : ∃ r, m.at? e = some r ∧ r.status.isFinished = true := by
  induction h with
  | here record finished => exact ⟨_, record, finished⟩
  | first _ _ ih | later _ _ ih | success _ _ _ _ ih | failure _ _ _ _ ih | split _ _ _ _ _ ih => exact ih
  | loop record _ iteration _ _ _ _ ih =>
    obtain ⟨r, hr, hf⟩ := ih
    exact ⟨r, StepMap.at?_inside_eq_some.mpr ⟨_, _, _, record, rfl, iteration, hr⟩, hf⟩

/-- Other maps with the same records of the chain show the same. -/
theorem agree (h : BreaksOff chain m e) (ha : Agree (chainRegion chain).names m m') :
    BreaksOff chain m' e := by
  induction h with
  | here record finished flat inner =>
    rw [names_singleton] at ha
    exact .here ((ha _ (mem_stepRegion_names.mpr (.inl rfl))).trans record) finished flat
      (inner.agree (ha.mono fun n hn => mem_stepRegion_names.mpr (.inr hn)))
  | first _ unwalked ih =>
    rw [names_cons] at ha
    exact .first (ih (by rw [names_singleton]; exact ha.mono (List.subset_append_left _ _)))
      (unwalked.agree (ha.mono (List.subset_append_right _ _)))
  | later walked _ ih =>
    rw [names_cons] at ha
    exact .later (walked.agree (ha.mono (List.subset_append_left _ _)))
      (ih (ha.mono (List.subset_append_right _ _)))
  | success record finished _ other ih =>
    rw [names_singleton, stepRegion, Region.branch_names] at ha
    have hsides := ha.mono (List.subset_cons_self _ _)
    exact .success ((ha _ List.mem_cons_self).trans record) finished
      (ih (hsides.mono (List.subset_append_left _ _)))
      (other.agree (hsides.mono (List.subset_append_right _ _)))
  | failure record finished _ other ih =>
    rw [names_singleton, stepRegion, Region.branch_names] at ha
    have hsides := ha.mono (List.subset_cons_self _ _)
    exact .failure ((ha _ List.mem_cons_self).trans record) finished
      (ih (hsides.mono (List.subset_append_right _ _)))
      (other.agree (hsides.mono (List.subset_append_left _ _)))
  | split record finished branch _ untaken ih =>
    rw [names_singleton, stepRegion, Region.split_names] at ha
    have hinner := ha.mono (List.subset_cons_self _ _)
    exact .split ((ha _ List.mem_cons_self).trans record) finished branch
      (ih (hinner.mono (branchNames_sublist branch).subset))
      fun b hb hn => (untaken b hb hn).agree (hinner.mono (branchNames_sublist hb).subset)
  | loop record finished iteration inside level keyed others =>
    rw [names_singleton, stepRegion, Region.loop_names] at ha
    exact .loop ((ha _ List.mem_cons_self).trans record) finished iteration inside
      (level.agree (ha.mono (List.subset_cons_self _ _))) keyed others

/-- Open records in a loop that a walk broke off in stand in other iterations of it, which is parallel,
or beside the step in the iteration itself. -/
theorem beside_of_loop {l : Label} {settings : LoopSettings} {body : List Step} {summary : Summary}
    {item : Json} {index : Nat} {its : List StepMap}
    (record : m.get? l.name = some (.loop summary item index its))
    (finished : summary.status.isFinished = true) (iteration : its[index]? = some k)
    (keyed : ∀ k ∈ its, ∀ n ∈ StepMap.names k, n ∈ (chainRegion body).names)
    (others : settings.parallel = false → ∀ (i : Nat) (k : StepMap), i ≠ index → its[i]? = some k →
      Over (chainRegion body).names k)
    (ih : ∀ {p}, p.root ∈ (chainRegion body).names → k.at? p = some r →
      Beside (chainRegion body).steps k e p)
    (hp : p.root = l.name) (hr : m.at? p = some r) (hopen : r.status.isFinished = false) :
    Beside (chainRegion [.loop l settings body]).steps m (e.inside l.name index) p := by
  rcases StepMap.root_of_at? hr with ⟨-, hr⟩ | ⟨l', i, q, rl, its', k', rfl, hl, hits, hk, hr'⟩
  · -- the record of the loop itself is finished
    rw [hp, record] at hr
    cases hr
    rw [show (StepRecord.loop summary item index its).status = summary.status from rfl, finished]
      at hopen
    cases hopen
  · obtain rfl : l' = l.name := hp
    obtain rfl := Option.some.inj (record.symm.trans hl)
    cases hits
    have hq : q.root ∈ (chainRegion body).names :=
      keyed k' (List.mem_of_getElem? hk) _ (StepMap.root_mem_of_at? hr')
    by_cases hi : i = index
    · subst hi
      obtain rfl := Option.some.inj (hk.symm.trans iteration)
      exact ((ih hq hr').mono fun x hx => mem_body hx).inside record rfl iteration
    · refine .iteration [] (mem_first _ _) ?_ record finished hi rfl rfl
      by_contra hparallel
      rw [others (Bool.eq_false_iff.mpr hparallel) i k' hi hk q r hq hr'] at hopen
      cases hopen

/-- Open records of the chain stand in other parts of fan-outs around the step that the walk broke off
at. -/
theorem beside (h : BreaksOff chain m e) (hp : p.root ∈ (chainRegion chain).names)
    (hr : m.at? p = some r) (hopen : r.status.isFinished = false) :
    Beside (chainRegion chain).steps m e p := by
  -- a record without iterations, or names without records, have nothing open
  have flat {m : StepMap} {p : Position} (r₀ : StepRecord) (h₀ : m.get? p.root = some r₀)
      (hf : r₀.status.isFinished = true) (hits : r₀.iterations? = none) (hr : m.at? p = some r) :
      False := by
    rw [eq_of_flat h₀ hits hr, hf] at hopen
    cases hopen
  have closed {names : List String} {m : StepMap} {p : Position} (h : Over names m) (hp : p.root ∈ names)
      (hr : m.at? p = some r) : False := by
    rw [h p r hp hr] at hopen
    cases hopen
  induction h generalizing p with
  | here record finished hits inner =>
    rw [names_singleton] at hp
    rcases mem_stepRegion_names.mp hp with hp | hp
    · exact (flat _ (hp ▸ record) finished hits hr).elim
    · exact (closed (.of_fresh inner) hp hr).elim
  | first _ unwalked ih =>
    rw [names_cons] at hp
    rcases List.mem_append.mp hp with hp | hp
    · rw [names_singleton, steps_singleton] at ih
      rw [steps_cons]
      exact (ih hp hr).mono (List.subset_append_left _ _)
    · exact (closed (.of_fresh unwalked) hp hr).elim
  | later walked _ ih =>
    rw [names_cons] at hp
    rcases List.mem_append.mp hp with hp | hp
    · exact (closed walked hp hr).elim
    · rw [steps_cons]
      exact (ih hp hr).mono (List.subset_append_right _ _)
  | @success l c onSuccess onFailure m summary e record finished _ other ih =>
    rw [names_singleton, stepRegion, Region.branch_names] at hp
    rcases List.mem_cons.mp hp with hp | hp
    · exact (flat (.branch summary true) (hp ▸ record) finished rfl hr).elim
    rcases List.mem_append.mp hp with hp | hp
    · exact (ih hp hr).mono fun x hx => mem_success hx
    · exact (closed (.of_fresh other) hp hr).elim
  | @failure l c onSuccess onFailure m summary e record finished _ other ih =>
    rw [names_singleton, stepRegion, Region.branch_names] at hp
    rcases List.mem_cons.mp hp with hp | hp
    · exact (flat (.branch summary false) (hp ▸ record) finished rfl hr).elim
    rcases List.mem_append.mp hp with hp | hp
    · exact (closed (.of_fresh other) hp hr).elim
    · exact (ih hp hr).mono fun x hx => mem_failure hx
  | @split l settings branches m summary taken b e record finished branch inside untaken ih =>
    rw [names_singleton, stepRegion, Region.split_names] at hp
    rcases List.mem_cons.mp hp with hp | hp
    · exact (flat (.split summary taken) (hp ▸ record) finished rfl hr).elim
    rw [branchNames_eq, List.mem_flatMap] at hp
    obtain ⟨b', hb', hp⟩ := hp
    by_cases heq : b' = b
    · subst heq
      exact (ih hp hr).mono fun x hx => mem_branch branch hx
    · have htaken : b'.1.name ∈ taken := by
        by_contra hn
        exact closed (.of_fresh (untaken b' hb' hn)) hp hr
      refine .branch [] (mem_first _ _) record finished branch hb' heq htaken rfl ?_ rfl ?_
      · exact chainRegion_names b.2 ▸ inside.mem.1
      · exact chainRegion_names b'.2 ▸ hp
  | @loop l settings body m summary item index its k e record finished iteration inside level keyed
      others ih =>
    rw [names_singleton, stepRegion, Region.loop_names] at hp
    rcases List.mem_cons.mp hp with hp | hp
    · exact beside_of_loop record finished iteration keyed others ih hp hr hopen
    · exact (closed (.of_fresh level) hp hr).elim

end BreaksOff

end FlowEngine.Engine
