import FlowEngine.Proofs.Walk.FanOut
import FlowEngine.Proofs.Walk.Merge

/-!
# Walking a split

* `Arm` — a branch of a split with the region and the walk of its steps.
* `SplitEntry` — what the branches of a split are entered with, the first time or again.
* `SplitEnd` — the branches of a split that were walked, and the records put together.
* `Follows.split` — the walk of a split, given those of its branches.
-/

namespace FlowEngine.Engine

open FlowEngine.Run FlowEngine.Flow

/-- A branch of a split with the region and the walk of its steps. -/
structure Arm where
  branch : SplitBranch
  region : Region
  body : Body

namespace Arm

/-- A branch as it is walked from a place. -/
def path (place : Place) (a : Arm) : Path := ⟨a.branch, a.region.names, a.body place⟩

/-- The name and the region of a branch. -/
def part (a : Arm) : String × Region := (a.branch.name, a.region)

/-- The branches that are taken. -/
def taken (arms : List Arm) (names : List String) : List Arm :=
  arms.filter fun a => names.contains a.branch.name

theorem mem_taken {arms : List Arm} {names : List String} {a : Arm} (ha : a ∈ arms)
    (hn : a.branch.name ∈ names) : a ∈ taken arms names :=
  List.mem_filter.mpr ⟨ha, by simpa using hn⟩

theorem chosen_eq (arms : List Arm) (names : List String) :
    Region.chosen (arms.map part) names = (taken arms names).map region := by
  rw [Region.chosen, List.filter_map, List.map_map]
  rfl

theorem paths_eq (place : Place) (arms : List Arm) (names : List String) :
    (arms.map (path place)).filter (fun p => names.contains p.branch.name) =
      (taken arms names).map (path place) := List.filter_map

/-- A name is that of a step of one branch only. -/
theorem eq_of_mem {arms : List Arm} (h : (Region.branchNames (arms.map part)).Nodup) {a b : Arm}
    (ha : a ∈ arms) (hb : b ∈ arms) {n : String} (hn : n ∈ a.region.names)
    (hn' : n ∈ b.region.names) : a = b := by
  rw [Region.branchNames, List.flatMap_map] at h
  exact eq_of_mem_of_nodup h ha hb hn hn'

/-- Branches that are taken have steps of different names. -/
theorem disjoint_taken {arms : List Arm} (names : List String)
    (h : (Region.branchNames (arms.map part)).Nodup) :
    (taken arms names).Pairwise fun a b => a.region.names.Disjoint b.region.names := by
  rw [Region.branchNames, List.flatMap_map] at h
  exact (List.nodup_flatMap.mp h).2.sublist List.filter_sublist

theorem index_eq {arms : List Arm} {names : List String}
    (h : (Region.branchNames (arms.map part)).Nodup) {i j : Nat} {a b : Arm}
    (ha : (taken arms names)[i]? = some a) (hb : (taken arms names)[j]? = some b) {n : String}
    (hn : n ∈ a.region.names) (hn' : n ∈ b.region.names) : i = j := by
  have hd := List.pairwise_iff_getElem.mp (disjoint_taken names h)
  obtain ⟨hi, rfl⟩ := List.getElem?_eq_some_iff.mp ha
  obtain ⟨hj, rfl⟩ := List.getElem?_eq_some_iff.mp hb
  rcases Nat.lt_trichotomy i j with hlt | heq | hlt
  · exact absurd hn' (hd i j hi hj hlt hn)
  · exact heq
  · exact absurd hn (hd j i hj hi hlt hn')

theorem names_subset {arms : List Arm} {names : List String} {a : Arm} (h : a ∈ taken arms names) :
    a ∈ arms ∧ a.branch.name ∈ names ∧
      a.region.names ⊆ Region.branchNames (arms.map part) := by
  obtain ⟨hm, hn⟩ := List.mem_filter.mp h
  exact ⟨hm, by simpa using hn, Region.branchNames_subset (x := a.part) (List.mem_map_of_mem hm)⟩

theorem steps_subset {step : Step} {arms : List Arm} {a : Arm} (h : a ∈ arms) :
    a.region.steps ⊆ (Region.split step (arms.map part)).steps := fun _ hx =>
  List.mem_cons_of_mem _ (List.mem_flatMap.mpr ⟨a.part, List.mem_map_of_mem h, hx⟩)

/-- A branch is a part of the fan-out. -/
theorem part_at {chosen : List Arm} {i : Nat} {a : Arm} (m : StepMap) (ha : chosen[i]? = some a) :
    (chosen.map fun a => (a.region, m))[i]? = some (a.region, m) := by
  rw [List.getElem?_map, ha]
  rfl

theorem of_part_at {chosen : List Arm} {i : Nat} {R : Region} {m k : StepMap}
    (h : (chosen.map fun a => (a.region, m))[i]? = some (R, k)) :
    ∃ a, chosen[i]? = some a ∧ R = a.region ∧ k = m := by
  rw [List.getElem?_map, Option.map_eq_some_iff] at h
  obtain ⟨a, ha, ⟨⟩⟩ := h
  exact ⟨a, ha, rfl, rfl⟩

/-- An action that waits is in the branch that waits. -/
theorem root_mem {chosen : List Arm} {m : StepMap} {p : Position} {i : Nat} {a : Arm}
    (h : Spread (chosen.map fun a => (a.region, m)) (some p) i) (ha : chosen[i]? = some a) :
    p.root ∈ a.region.names := by
  obtain ⟨R, k, hw, hstage⟩ := h.waits
  obtain ⟨b, hb, rfl, -⟩ := of_part_at hw
  obtain rfl := Option.some.inj (ha.symm.trans hb)
  exact a.region.root_mem hstage

end Arm

variable {setup : Setup} {s s' : RunState} {t : Trace} {q : Option Position} {name : String}
  {arms : List Arm}

/-! ## Entering a split -/

/-- The input and the branches that a split is entered with. Branches that are not taken have no
records. -/
structure SplitEntry (arms : List Arm) (name : String) (q : Option Position) (m : StepMap)
    (input : Json) (taken : List String) (index : Nat) : Prop where
  fresh : ∀ a ∈ arms, a.branch.name ∉ taken → Fresh a.region.names m
  spread : Spread ((Arm.taken arms taken).map fun a => (a.region, m)) q index
  prior : m.get? name = none ∨ ∃ summary, m.get? name = some (.split summary taken) ∧
    summary.input = input ∧ summary.status = .running

/-- A split without records is entered with whatever branches. -/
theorem SplitEntry.first {m : StepMap} (hf : Fresh (name :: Region.branchNames (arms.map Arm.part)) m)
    (input : Json) (taken : List String) : SplitEntry arms name none m input taken 0 := by
  have hall (a : Arm) (ha : a ∈ arms) : Fresh a.region.names m := fun n hn =>
    hf n (List.mem_cons_of_mem _
      (Region.branchNames_subset (x := a.part) (List.mem_map_of_mem ha) hn))
  refine ⟨fun a ha _ => hall a ha, .of_mem 0 fun x hx => ?_, .inl (hf _ List.mem_cons_self)⟩
  obtain ⟨a, ha, rfl⟩ := List.mem_map.mp hx
  exact a.region.stage_fresh (hall a (Arm.names_subset ha).1)

/-- A split that was entered before is entered with what its record shows. -/
theorem SplitEntry.again {m : StepMap} (h : Region.SplitEntered (arms.map Arm.part) name q m) :
    ∃ summary taken index, m.get? name = some (.split summary taken) ∧ summary.status = .running ∧
      SplitEntry arms name q m summary.input taken index := by
  obtain ⟨summary, taken, index, hr, hs, hf, hspread⟩ := h
  rw [Arm.chosen_eq, List.map_map] at hspread
  exact ⟨summary, taken, index, hr, hs, fun a ha hn => hf a.part (List.mem_map.mpr ⟨a, ha, rfl⟩) hn,
    hspread, .inr ⟨summary, hr, rfl, hs⟩⟩

/-- A split that is finished is not walked. -/
theorem runSplit_done {settings : SplitSettings} {place : Place} {paths : List Path}
    {parts : List (String × Region)} (h : Region.SplitDone parts name s.steps) :
    runSplit setup place name settings paths s = Walk.ended s := by
  obtain ⟨summary, taken, hr, hf, -⟩ := h
  unfold runSplit
  rw [hr]
  exact if_pos hf

/-- A split without a record: there is no state at the end, its branches cannot be chosen, or those
that it takes are walked. -/
theorem runSplit_first {settings : SplitSettings} {place : Place} {paths : List Path}
    {o : Outcome Result} (hn : s.steps.get? name = none)
    (h : Job.Yields (runSplit setup place name settings paths s) t o) :
    (t = [] ∧ ∀ s', o ≠ .result (.ok s')) ∨
      (t = [] ∧ ∃ input message, o = .result (.ok
        ((s.upsert name (failedRecord input message)).withVerdict (.failed name message)))) ∨
      ∃ started input taken,
        Job.Yields (walkPaths setup name settings.concurrency paths started input taken s) t o := by
  unfold runSplit at h
  rw [hn] at h
  rcases Job.Yields.of_clock h with ⟨rfl, rfl⟩ | ⟨started, h⟩
  · exact .inl ⟨rfl, by simp⟩
  simp only [recordedSplit?, Option.bind_none, Option.bind_eq_bind] at h
  split at h
  · exact .inl (Yields.of_crash h)
  · obtain ⟨rfl, rfl | rfl⟩ := Job.Yields.done_iff.mp h
    · exact .inl ⟨rfl, by simp⟩
    · exact .inr (.inl ⟨rfl, _, _, rfl⟩)
  · exact .inr (.inr ⟨started, _, _, h⟩)

/-- A split that was entered before is entered with the recorded input and branches. -/
theorem runSplit_again {settings : SplitSettings} {place : Place} {paths : List Path}
    {summary : Summary} {taken : List String} {o : Outcome Result}
    (hr : s.steps.get? name = some (.split summary taken)) (hs : summary.status = .running)
    (h : Job.Yields (runSplit setup place name settings paths s) t o) :
    (t = [] ∧ ∀ s', o ≠ .result (.ok s')) ∨ ∃ started, Job.Yields
      (walkPaths setup name settings.concurrency paths started summary.input taken s) t o := by
  unfold runSplit at h
  rw [hr, if_neg (by
    change ¬ summary.status.isFinished = true
    simp [hs, StepStatus.isFinished])] at h
  rcases Job.Yields.of_clock h with ⟨rfl, rfl⟩ | ⟨started, h⟩
  · exact .inl ⟨rfl, by simp⟩
  · have hrec : recordedSplit? (some (.split summary taken)) = some (summary.input, taken) := by
      simp [recordedSplit?, StepRecord.status, StepRecord.summary, hs, StepRecord.taken?]
    rw [hrec] at h
    exact .inr ⟨started, h⟩

/-- The ways in which a walk that enters a split goes: it is finished, it makes no calls and has no
state at the end, its branches cannot be chosen, or branches are walked. -/
theorem runSplit_yields {label : Label} {settings : SplitSettings}
    {branches : List (SplitBranch × List Step)} {place : Place} {o : Outcome Result}
    (hstage : (Region.split (.split label settings branches) (arms.map Arm.part)).stage q s.steps)
    (h : Job.Yields (runSplit setup place label.name settings (arms.map (Arm.path place)) s) t o) :
    (t = [] ∧ q = none ∧ Region.SplitDone (arms.map Arm.part) label.name s.steps ∧
        ∀ s', o = .result (.ok s') → s' = s) ∨
      (t = [] ∧ ∀ s', o ≠ .result (.ok s')) ∨
      (t = [] ∧ q = none ∧ s.steps.get? label.name = none ∧ ∃ input message, o = .result (.ok
        ((s.upsert label.name (failedRecord input message)).withVerdict
          (.failed label.name message)))) ∨
      ∃ started input taken index, SplitEntry arms label.name q s.steps input taken index ∧
        Job.Yields (walkPaths setup label.name settings.concurrency (arms.map (Arm.path place))
          started input taken s) t o := by
  rcases hstage with ⟨rfl, hfresh | hdone⟩ | hentered
  · have hnone : s.steps.get? label.name = none := hfresh _ List.mem_cons_self
    rcases runSplit_first hnone h with h | ⟨rfl, hfail⟩ | ⟨started, input, taken, h⟩
    · exact .inr (.inl h)
    · exact .inr (.inr (.inl ⟨rfl, rfl, hnone, hfail⟩))
    · exact .inr (.inr (.inr ⟨started, input, taken, 0, .first hfresh input taken, h⟩))
  · have hdone : Region.SplitDone (arms.map Arm.part) label.name s.steps := hdone
    rw [runSplit_done hdone] at h
    obtain ⟨rfl, ho⟩ := Job.Yields.done_iff.mp h
    refine .inl ⟨rfl, rfl, hdone, fun s' hs' => ?_⟩
    subst hs'
    rcases ho with ho | ho <;> cases ho
    rfl
  · obtain ⟨summary, taken, index, hr, hs, he⟩ := SplitEntry.again hentered
    rcases runSplit_again hr hs h with h | ⟨started, h⟩
    · exact .inr (.inl h)
    · exact .inr (.inr (.inr ⟨started, summary.input, taken, index, he, h⟩))

/-! ## Walking the branches -/

/-- The state that every branch of a split is walked from. -/
def splitBase (s : RunState) (name : String) (input : Json) (taken : List String) : RunState :=
  s.upsert name (splitRecord .running input none none taken)

/-- Branches that were walked, with their traces and the states at their ends. -/
structure Branched (place : Place) (base : RunState) (chosen : List Arm) (t : Trace)
    (traces : Nat → Trace) (kids : List RunState) : Prop where
  length : kids.length = chosen.length
  ran : ∀ (i : Nat) (a : Arm) (k : RunState), chosen[i]? = some a → kids[i]? = some k →
    Job.Yields (a.body place base) (traces i) (.result (.ok k))
  idle : ∀ i, kids.length ≤ i → traces i = []
  mixed : Interleaves traces t

/-- The branch that ended with a state. -/
theorem Branched.arm {base : RunState} {chosen : List Arm} (hb : Branched place base chosen t traces kids)
    {i : Nat} {k : RunState} (hk : kids[i]? = some k) : ∃ a, chosen[i]? = some a ∧
      Job.Yields (a.body place base) (traces i) (.result (.ok k)) := by
  obtain ⟨a, ha⟩ := exists_getElem? hb.length hk
  exact ⟨a, ha, hb.ran i a k ha hk⟩

/-- The branch that decides. -/
theorem Branched.decided {base : RunState} {chosen : List Arm}
    (hb : Branched place base chosen t traces kids) {i : Nat} {v : Verdict}
    (hd : Decides (kids.map some) (some (i, v))) : ∃ a k, chosen[i]? = some a ∧ kids[i]? = some k ∧
      k.verdict = v ∧ Job.Yields (a.body place base) (traces i) (.result (.ok k)) := by
  obtain ⟨-, ⟨k, hk, hv⟩, -⟩ := hd
  have hk : kids[i]? = some k := by simpa [List.getElem?_map] using hk
  obtain ⟨a, ha, hy⟩ := hb.arm hk
  exact ⟨a, k, ha, hk, hv, hy⟩

/-- The walk of the branch at some index. -/
def Arm.visit (chosen : List Arm) (place : Place) (base : RunState) (i : Nat) : Walk :=
  match chosen[i]? with
  | some a => a.body place base
  | none => Walk.ended base

/-- The end of the walk of a split, after its branches were put together. -/
def closeMerged (name : String) (input : Json) (taken : List String) (started : Reading Time.Instant) :
    Except Fault (RunState × Halts) → Walk
  | .error e => .done (.error e)
  | .ok (merged, halts) => .clock fun stopped =>
    Walk.ended (closeSplit name input taken (elapsed started stopped) merged halts)

/-- The walk of the branches that are taken, with what follows it. -/
theorem walkPaths_eq (setup : Setup) (place : Place) (concurrency : Option Nat)
    (started : Reading Time.Instant) {input : Json} {taken : List String} :
    walkPaths setup name concurrency (arms.map (Arm.path place)) started input taken s =
      .fan (setup.settings.workers concurrency) (fun _ => false) (Arm.taken arms taken).length
        (Arm.visit (Arm.taken arms taken) place (splitBase s name input taken))
        fun results => closeMerged name input taken started
          (mergeBranches (splitBase s name input taken).steps 0 Halts.none
            (splitBase s name input taken)
            (((Arm.taken arms taken).map (Arm.path place)).zip results)) := by
  unfold walkPaths
  simp only [Arm.paths_eq, List.length_map]
  refine congrArg₂ (Job.fan _ _ _) (funext fun i => ?_) (funext fun results => ?_)
  · rw [List.getElem?_map, Arm.visit]
    cases (Arm.taken arms taken)[i]? <;> rfl
  · unfold closeMerged splitBase
    rfl

theorem Arm.visit_eq {chosen : List Arm} {i : Nat} {a : Arm} (ha : chosen[i]? = some a)
    (place : Place) (base : RunState) : Arm.visit chosen place base i = a.body place base := by
  rw [Arm.visit, ha]

/-- Calls are made by a branch. -/
theorem Arm.visit_calls {chosen : List Arm} {place : Place} {base : RunState} {i : Nat}
    {o : Outcome Result} (h : Job.Yields (Arm.visit chosen place base i) t o)
    {e : Event Block.Call Block.Reply} (he : e ∈ t) :
    ∃ a, chosen[i]? = some a ∧ Job.Yields (a.body place base) t o := by
  cases hi : chosen[i]? with
  | some a => exact ⟨a, rfl, Arm.visit_eq hi place base ▸ h⟩
  | none =>
    rw [Arm.visit, hi] at h
    rw [Yields.ended_nil h] at he
    cases he

/-- No calls are made after the branches were put together. -/
theorem closeMerged_yields {input : Json} {taken : List String} {started : Reading Time.Instant}
    {x : Except Fault (RunState × Halts)} {o : Outcome Result}
    (h : Job.Yields (closeMerged name input taken started x) t o) :
    t = [] ∧ ∀ s', o = .result (.ok s') → ∃ merged halts duration, x = .ok (merged, halts) ∧
      s' = closeSplit name input taken duration merged halts := by
  rcases x with e | ⟨merged, halts⟩
  · obtain ⟨rfl, rfl | rfl⟩ := Job.Yields.done_iff.mp h <;> exact ⟨rfl, by simp⟩
  · rcases Job.Yields.of_clock h with ⟨rfl, rfl⟩ | ⟨stopped, h⟩
    · exact ⟨rfl, by simp⟩
    · refine ⟨Yields.ended_nil h, fun s' hs' => ?_⟩
      subst hs'
      exact ⟨merged, halts, _, rfl, (Yields.of_ended h).2⟩

/-- The branches are walked, and what they changed is put together. -/
theorem walkPaths_yields {concurrency : Option Nat} {place : Place}
    {started : Reading Time.Instant} {input : Json} {taken : List String} {o : Outcome Result}
    (h : Job.Yields (walkPaths setup name concurrency (arms.map (Arm.path place)) started input
      taken s) t o) :
    (∀ e ∈ t, ∃ (i : Nat) (a : Arm) (t' : Trace) (o' : Outcome Result),
      (Arm.taken arms taken)[i]? = some a ∧
        Job.Yields (a.body place (splitBase s name input taken)) t' o' ∧ e ∈ t') ∧
      ∀ s', o = .result (.ok s') → ∃ traces kids merged halts duration,
        Branched place (splitBase s name input taken) (Arm.taken arms taken) t traces kids ∧
        mergeBranches (splitBase s name input taken).steps 0 Halts.none (splitBase s name input taken)
          (((Arm.taken arms taken).map (Arm.path place)).zip (kids.map fun k => some (.ok k))) =
            .ok (merged, halts) ∧
        s' = closeSplit name input taken duration merged halts := by
  rw [walkPaths_eq] at h
  cases h with
  | pending => exact ⟨by rintro e ⟨⟩, by simp⟩
  | fanOpen parts ends ran mixed stuck =>
    refine ⟨fun e he => ?_, fun s' hs' => by subst hs'; simp at stuck⟩
    obtain ⟨i, hi⟩ := (mixed.mem_iff e).mp he
    obtain ⟨a, ha, hy⟩ := Arm.visit_calls (ran i) hi
    exact ⟨i, a, _, _, ha, hy, hi⟩
  | @fan _ _ _ _ _ t t' _ results parts length ran skipped idle mixed rest =>
    obtain ⟨rfl, hends⟩ := closeMerged_yields rest
    rw [List.append_nil]
    refine ⟨fun e he => ?_, fun s' hs' => ?_⟩
    · obtain ⟨i, hi⟩ := (mixed.mem_iff e).mp he
      by_cases hr : ∃ r, results[i]? = some (some r)
      · obtain ⟨r, hr⟩ := hr
        obtain ⟨a, ha, hy⟩ := Arm.visit_calls (ran i r hr) hi
        exact ⟨i, a, _, _, ha, hy, hi⟩
      · rw [idle i (by simpa using hr)] at hi
        cases hi
    · obtain ⟨merged, halts, duration, hm, hclose⟩ := hends s' hs'
      -- no result keeps other branches from being walked
      obtain ⟨kids, rfl⟩ := mergeBranches_results (by simpa using length) (fun r hr hnone => by
        subst hnone
        obtain ⟨i, hi⟩ := List.getElem?_of_mem hr
        obtain ⟨_, _, -, -, hstop⟩ := skipped i hi
        cases hstop) hm
      refine ⟨parts, kids, merged, halts, duration, ⟨by simpa using length, ?_, ?_, mixed⟩, hm,
        hclose⟩
      · intro i a k ha hk
        rw [← Arm.visit_eq ha]
        exact ran i (.ok k) (by rw [List.getElem?_map, hk]; rfl)
      · intro i hi
        refine idle i fun r hr => ?_
        have := (List.getElem?_eq_some_iff.mp hr).1
        rw [List.length_map] at this
        omega

/-! ## The end of a split -/

/-- What the end of a split puts into the records. -/
theorem closeSplit_eq (name : String) (input : Json) (taken : List String) (duration : Nat)
    (merged : RunState) (halts : Halts) : ∃ summary,
      (closeSplit name input taken duration merged halts).steps =
        merged.steps.insert name (.split summary taken) ∧
      summary.input = input ∧ summary.status ≠ .paused ∧
      (halts.decisive? = none → summary.status = .succeeded ∧
        (closeSplit name input taken duration merged halts).verdict = merged.verdict) ∧
      (∀ i v, halts.decisive? = some (i, v) →
        (closeSplit name input taken duration merged halts).verdict = v) ∧
      ∀ i p, halts.decisive? = some (i, .paused p) → summary.status = .running := by
  unfold closeSplit
  rcases halts.decisive? with _ | ⟨i, v⟩
  · exact ⟨_, rfl, rfl, by simp, fun _ => ⟨rfl, rfl⟩, by simp, by simp⟩
  · cases v
    all_goals exact ⟨_, rfl, rfl, by simp, by simp, by rintro _ _ ⟨⟩; rfl,
      by first | exact fun _ _ _ => rfl | rintro _ _ ⟨⟩⟩

section

variable {place : Place} {input : Json} {taken : List String} {index : Nat}
  {traces : Nat → Trace} {kids : List RunState} {merged : RunState} {halts : Halts}

/-- A name of a branch is not that of the split. -/
theorem splitBase_other (s : RunState) (input : Json) (taken : List String) {n : String}
    (hn : n ≠ name) : (splitBase s name input taken).steps.get? n = s.steps.get? n :=
  StepMap.get?_insert_of_ne _ _ (Ne.symm hn)

theorem splitBase_own (s : RunState) (name : String) (input : Json) (taken : List String) :
    (splitBase s name input taken).steps.get? name =
      some (splitRecord .running input none none taken) := StepMap.get?_insert_self _ _ _

theorem splitBase_tidy (h : s.steps.Tidy) : (splitBase s name input taken).steps.Tidy :=
  h.insert _ (by rintro its k ⟨⟩)

/-- The record of a split may take the place of an earlier one with the same input and branches. -/
theorem keepsRecord_split {summary summary' : Summary} (hi : summary'.input = summary.input)
    (hs : summary.status = .running) (hs' : summary'.status ≠ .paused) :
    KeepsRecord (.split summary taken) (.split summary' taken) := by
  refine ⟨⟨fun hf => ?_, ?_, fun _ h => (by cases h), fun _ => ?_⟩, fun _ _ _ h => (by cases h)⟩
  · have hf : summary.status.isFinished = true := hf
    rw [hs] at hf
    cases hf
  · rintro _ ⟨⟩
    exact ⟨rfl, hi⟩
  · rw [StepRecord.withoutPause_of_status_ne (r := .split summary' taken) hs']
    simp

theorem SplitEntry.keeps_base (he : SplitEntry arms name q s.steps input taken index) :
    Keeps s.steps (splitBase s name input taken).steps := by
  refine .insert _ _ fun r hr => ?_
  rcases he.prior with h | ⟨summary, h, hi, hs⟩
  · rw [h] at hr; cases hr
  · rw [h] at hr
    cases hr
    exact keepsRecord_split hi.symm hs (by simp)

/-- The branches are entered with the record of the split put in. -/
theorem SplitEntry.spread_base (he : SplitEntry arms name q s.steps input taken index)
    (hname : name ∉ Region.branchNames (arms.map Arm.part)) :
    Spread ((Arm.taken arms taken).map fun a => (a.region, (splitBase s name input taken).steps)) q
      index := by
  have agree {a : Arm} (ha : a ∈ Arm.taken arms taken) :
      Agree a.region.names s.steps (splitBase s name input taken).steps := fun n hn =>
    splitBase_other s input taken (by rintro rfl; exact hname ((Arm.names_subset ha).2.2 hn))
  refine ⟨fun i R m hi => ?_, by simpa using he.spread.within, fun hq i R m hlt hi => ?_⟩
  · obtain ⟨a, ha, rfl, rfl⟩ := Arm.of_part_at hi
    exact a.region.stage_agree (agree (List.mem_of_getElem? ha))
      (he.spread.stage i _ _ (Arm.part_at _ ha))
  · obtain ⟨a, ha, rfl, rfl⟩ := Arm.of_part_at hi
    exact a.region.complete_agree (agree (List.mem_of_getElem? ha))
      (he.spread.before hq i _ _ hlt (Arm.part_at _ ha))

/-- The branches of a split are parts of a fan-out. -/
theorem SplitEntry.fanOut (harms : ∀ a ∈ arms, Follows setup a.region a.body)
    (hv : s.verdict = .running) (ht : s.steps.Tidy)
    (he : SplitEntry arms name q s.steps input taken index)
    (hname : name ∉ Region.branchNames (arms.map Arm.part))
    (hb : Branched place (splitBase s name input taken) (Arm.taken arms taken) t traces kids) :
    FanOut ((Arm.taken arms taken).map fun a => (a.region, (splitBase s name input taken).steps))
      (fun _ => place.path) q index traces (kids.map some) := by
  have hspread := he.spread_base hname
  have follows {i : Nat} {a : Arm} (ha : (Arm.taken arms taken)[i]? = some a) :
      Follows setup a.region a.body := harms a (Arm.names_subset (List.mem_of_getElem? ha)).1
  have kid {i : Nat} {k : RunState} (hk : (kids.map some)[i]? = some (some k)) :
      kids[i]? = some k := by simpa [List.getElem?_map] using hk
  refine ⟨hspread, by simpa using hb.length, ?_, ?_, fun i hi => by simp [List.getElem?_map] at hi⟩
  · intro i R m k hi hk
    obtain ⟨a, ha, rfl, rfl⟩ := Arm.of_part_at hi
    exact (follows ha).lands place _ (splitBase s name input taken) _ k hv (splitBase_tidy ht)
      (hspread.stage i _ _ hi) (hb.ran i a k ha (kid hk))
  · intro i R m k hi hk hc
    obtain ⟨a, ha, rfl, rfl⟩ := Arm.of_part_at hi
    have hy := hb.ran i a k ha (kid hk)
    rw [(follows ha).rests place (splitBase s name input taken) hv hc] at hy
    obtain ⟨-, rfl⟩ := Yields.of_ended hy
    exact hv

/-- The records after all branches are put together. -/
structure Combined (arms : List Arm) (base : RunState) (kids : List (Option RunState))
    (merged : RunState) (decisive : Option (Nat × Verdict)) : Prop where
  decides : Decides kids decisive
  verdict : merged.verdict = base.verdict
  other : ∀ n, (∀ a ∈ arms, n ∉ a.region.names) → merged.steps.get? n = base.steps.get? n
  settled : ∀ (i : Nat) (a : Arm), arms[i]? = some a →
    Settled a.region kids i base.steps merged.steps
  tidy : merged.steps.Tidy
  keeps : Keeps base.steps merged.steps

theorem combined_of_merge {base : RunState} {chosen : List Arm} {around : Nat → List (String × Nat)}
    (ht : base.steps.Tidy) (hnd : chosen.Pairwise fun a b => a.region.names.Disjoint b.region.names)
    (length : kids.length = chosen.length)
    (hf : FanOut (chosen.map fun a => (a.region, base.steps)) around q index traces (kids.map some))
    (hm : mergeBranches base.steps 0 Halts.none base
      ((chosen.map (Arm.path place)).zip (kids.map fun k => some (.ok k))) = .ok (merged, halts)) :
    Combined chosen base (kids.map some) merged halts.decisive? := by
  have kid {i : Nat} {k : RunState} (hk : kids[i]? = some k) :
      (kids.map some)[i]? = some (some k) := by rw [List.getElem?_map, hk]; rfl
  have lands {i : Nat} {a : Arm} {k : RunState} (ha : chosen[i]? = some a)
      (hk : kids[i]? = some k) := hf.lands i _ _ k (Arm.part_at _ ha) (kid hk)
  obtain ⟨hsees, hverdict⟩ := mergeBranches_sees .nil (by simpa using length) hm
  obtain ⟨hnodup, hother, hown⟩ := mergeBranches_ok .nil ht.nodup
    (by simpa using length) (fun i path k hp hk => by
      rw [List.getElem?_map, Option.map_eq_some_iff] at hp
      obtain ⟨a, ha, rfl⟩ := hp
      have hl := lands ha hk
      exact ⟨hl.tidy.nodup, hl.frame, fun n r hr => hl.keeps.present hr⟩)
    (by rw [List.map_map, List.pairwise_map]; exact hnd) hm
  have hown {i : Nat} {a : Arm} {k : RunState} {n : String} (ha : chosen[i]? = some a)
      (hk : kids[i]? = some k) (hn : n ∈ a.region.names) :
      (Repeats (kids.map some) i →
        merged.steps.get? n = (k.steps.get? n).bind StepRecord.withoutPause) ∧
      (¬ Repeats (kids.map some) i → merged.steps.get? n = k.steps.get? n) := by
    simpa using hown i (a.path place) k n (by rw [List.getElem?_map, ha]; rfl) hk hn rfl
  have hother (n : String) (hn : ∀ a ∈ chosen, n ∉ a.region.names) :
      merged.steps.get? n = base.steps.get? n := by
    refine hother n fun path hp => ?_
    obtain ⟨a, ha, rfl⟩ := List.mem_map.mp hp
    exact hn a ha
  -- a name is that of a step of one branch, or of none
  have cases_name (n : String) : (∀ a ∈ chosen, n ∉ a.region.names) ∨
      ∃ (i : Nat) (a : Arm) (k : RunState), chosen[i]? = some a ∧ kids[i]? = some k ∧
        n ∈ a.region.names := by
    by_cases hn : ∃ a ∈ chosen, n ∈ a.region.names
    · obtain ⟨a, ha, hn⟩ := hn
      obtain ⟨i, hi⟩ := List.getElem?_of_mem ha
      obtain ⟨k, hk⟩ := exists_getElem? length.symm hi
      exact .inr ⟨i, a, k, hi, hk, hn⟩
    · exact .inl fun a ha hna => hn ⟨a, ha, hna⟩
  refine ⟨by simpa using hsees.decides, hverdict, hother, ?_, ?_, ?_⟩
  · intro i a ha
    refine ⟨fun h => by simp [List.getElem?_map] at h, fun k hk hr n hn => ?_, fun k hk hr n hn => ?_⟩
    · exact (hown ha (by simpa [List.getElem?_map] using hk) hn).1 hr
    · exact (hown ha (by simpa [List.getElem?_map] using hk) hn).2 hr
  · refine .intro hnodup fun n r its k hr hits hk => ?_
    rcases cases_name n with hn | ⟨i, a, kid, ha, hkid, hn⟩
    · exact ht.inner ((hother n hn).symm.trans hr) hits hk
    · have hl := lands ha hkid
      by_cases hrep : Repeats (kids.map some) i
      · have hw := (StepMap.get?_withdrawPauses hl.tidy.nodup n).trans ((hown ha hkid hn).1 hrep).symm
        exact hl.tidy.withdrawPauses.inner (hw.trans hr) hits hk
      · exact hl.tidy.inner (((hown ha hkid hn).2 hrep).symm.trans hr) hits hk
  · intro p r hr
    rcases cases_name p.root with hn | ⟨i, a, kid, ha, hkid, hn⟩
    · exact ⟨r, (StepMap.at?_congr (hother _ hn)).trans hr, .refl r⟩
    · have hl := lands ha hkid
      by_cases hrep : Repeats (kids.map some) i
      · refine hl.keeps.at_withdrawn hl.tidy hr ?_ (.inr ((hown ha hkid hn).1 hrep))
        exact StepMap.quiet_of_root (fun r' hr' => a.region.quiet_of_none ht
          (hf.stage_none (Arm.part_at _ ha) (.inr hrep)) hn hr') hr
      · obtain ⟨r', hr', hk⟩ := hl.keeps p r hr
        exact ⟨r', (StepMap.at?_congr ((hown ha hkid hn).2 hrep)).trans hr', hk⟩

/-- The calls of different branches are at different positions. -/
theorem SplitEntry.lastAt?_eq (harms : ∀ a ∈ arms, Follows setup a.region a.body)
    (hv : s.verdict = .running) (ht : s.steps.Tidy)
    (he : SplitEntry arms name q s.steps input taken index)
    (hname : name ∉ Region.branchNames (arms.map Arm.part))
    (hnd : (Region.branchNames (arms.map Arm.part)).Nodup)
    (hb : Branched place (splitBase s name input taken) (Arm.taken arms taken) t traces kids)
    {i : Nat} {a : Arm} (ha : (Arm.taken arms taken)[i]? = some a) {p : Position}
    (hp : p.root ∈ a.region.names) :
    lastAt? (p.under place.path) t = lastAt? (p.under place.path) (traces i) := by
  unfold lastAt?
  rw [hb.mixed.filter_eq fun j hj e hmem => ?_]
  have hlt : j < kids.length := by
    by_contra hn
    rw [hb.idle j (by omega)] at hmem
    cases hmem
  obtain ⟨c, hc, hy⟩ := hb.arm (List.getElem?_eq_getElem hlt)
  have hspread := he.spread_base hname
  obtain ⟨p', hp'⟩ := (harms c (Arm.names_subset (List.mem_of_getElem? hc)).1).calls place _
    (splitBase s name input taken) _ _ hv (splitBase_tidy ht)
    (hspread.stage j _ _ (Arm.part_at _ hc)) hy e hmem
  rw [hp'.place, decide_eq_false_iff_not]
  intro heq
  obtain rfl := Position.under_injective _ heq
  exact hj (Arm.index_eq hnd hc ha hp'.root hp)

/-- The calls of a branch are calls in the split. -/
theorem SplitEntry.fits {label : Label} {settings : SplitSettings}
    {branches : List (SplitBranch × List Step)}
    (harms : ∀ a ∈ arms, Follows setup a.region a.body)
    (hv : s.verdict = .running) (ht : s.steps.Tidy)
    (he : SplitEntry arms label.name q s.steps input taken index)
    (hname : label.name ∉ Region.branchNames (arms.map Arm.part))
    (hnd : (Region.branchNames (arms.map Arm.part)).Nodup) {i : Nat} {a : Arm} {t : Trace}
    {o : Outcome Result} (ha : (Arm.taken arms taken)[i]? = some a)
    (hy : Job.Yields (a.body place (splitBase s label.name input taken)) t o)
    {e : Event Block.Call Block.Reply} (hmem : e ∈ t) :
    ∃ p, Fits setup (Region.split (.split label settings branches) (arms.map Arm.part)) place.path q
      s.steps p e := by
  have hspread := he.spread_base hname
  obtain ⟨harm, -, -⟩ := Arm.names_subset (List.mem_of_getElem? ha)
  obtain ⟨p, hp⟩ := (harms a harm).calls place _ (splitBase s label.name input taken) t o hv
    (splitBase_tidy ht) (hspread.stage i _ _ (Arm.part_at _ ha)) hy e hmem
  refine ⟨p, (hp.earlier he.keeps_base ⟨fun hq => ?_, fun hq => ?_⟩).widen (Arm.steps_subset harm)⟩
  · -- the position is in the branch that waits
    subst hq
    obtain ⟨R, m, hw, -⟩ := hspread.waits
    obtain ⟨b, hb, -⟩ := Arm.of_part_at hw
    exact if_pos (Arm.index_eq hnd ha hb hp.root (Arm.root_mem hspread hb))
  · split_ifs at hq
    exact hq

/-! ## The records at the end -/

/-- The branches of a split that were walked, and what they changed, put together. -/
structure SplitEnd (arms : List Arm) (name : String) (place : Place) (q : Option Position)
    (s : RunState) (input : Json) (taken : List String) (index : Nat) (traces : Nat → Trace)
    (kids : List RunState) (merged : RunState) (decisive : Option (Nat × Verdict)) : Prop where
  own : name ∉ Region.branchNames (arms.map Arm.part)
  nodup : (Region.branchNames (arms.map Arm.part)).Nodup
  entry : SplitEntry arms name q s.steps input taken index
  fan : FanOut ((Arm.taken arms taken).map fun a => (a.region, (splitBase s name input taken).steps))
    (fun _ => place.path) q index traces (kids.map some)
  combined : Combined (Arm.taken arms taken) (splitBase s name input taken) (kids.map some) merged
    decisive

theorem SplitEntry.ends (harms : ∀ a ∈ arms, Follows setup a.region a.body)
    (hv : s.verdict = .running) (ht : s.steps.Tidy)
    (he : SplitEntry arms name q s.steps input taken index)
    (hname : name ∉ Region.branchNames (arms.map Arm.part))
    (hnd : (Region.branchNames (arms.map Arm.part)).Nodup)
    (hb : Branched place (splitBase s name input taken) (Arm.taken arms taken) t traces kids)
    (hm : mergeBranches (splitBase s name input taken).steps 0 Halts.none
      (splitBase s name input taken) (((Arm.taken arms taken).map (Arm.path place)).zip
        (kids.map fun k => some (.ok k))) = .ok (merged, halts)) :
    SplitEnd arms name place q s input taken index traces kids merged halts.decisive? :=
  have hf := he.fanOut harms hv ht hname hb
  ⟨hname, hnd, he, hf,
    combined_of_merge (splitBase_tidy ht) (Arm.disjoint_taken taken hnd) hb.length hf hm⟩

namespace SplitEnd

variable {decisive : Option (Nat × Verdict)}

theorem ne_name (h : SplitEnd arms name place q s input taken index traces kids merged decisive)
    {n : String} (hn : n ∈ Region.branchNames (arms.map Arm.part)) : n ≠ name := by
  rintro rfl
  exact h.own hn

/-- What was put together under the names of a branch is what the split ends with. -/
theorem agree (h : SplitEnd arms name place q s input taken index traces kids merged decisive)
    {a : Arm} (ha : a ∈ Arm.taken arms taken) (r : StepRecord) :
    Agree a.region.names merged.steps (merged.steps.insert name r) := fun _ hn =>
  StepMap.get?_insert_of_ne _ r (h.ne_name ((Arm.names_subset ha).2.2 hn)).symm

/-- A name that is not that of a step of a branch that was walked has the record that it had. -/
theorem frame (h : SplitEnd arms name place q s input taken index traces kids merged decisive)
    {n : String} (hn : n ≠ name) (hn' : ∀ a ∈ Arm.taken arms taken, n ∉ a.region.names)
    (r : StepRecord) : (merged.steps.insert name r).get? n = s.steps.get? n := by
  rw [StepMap.get?_insert_of_ne _ r hn.symm, h.combined.other n hn', splitBase_other s input taken hn]

/-- Branches that are not taken keep their records. -/
theorem left (h : SplitEnd arms name place q s input taken index traces kids merged decisive)
    {a : Arm} (ha : a ∈ arms) (hn : a.branch.name ∉ taken) (r : StepRecord) :
    Agree a.region.names s.steps (merged.steps.insert name r) := by
  intro n hmem
  have hin := Region.branchNames_subset (x := a.part) (List.mem_map_of_mem ha) hmem
  refine h.frame (h.ne_name hin) (fun b hb hmem' => ?_) r
  obtain ⟨hb, hbt, -⟩ := Arm.names_subset hb
  obtain rfl := Arm.eq_of_mem h.nodup ha hb hmem hmem'
  exact hn hbt

/-- Branches that are not taken have no records. -/
theorem untaken (h : SplitEnd arms name place q s input taken index traces kids merged decisive)
    {a : Arm} (ha : a ∈ arms) (hn : a.branch.name ∉ taken) (r : StepRecord) :
    Fresh a.region.names (merged.steps.insert name r) :=
  (h.entry.fresh a ha hn).agree (h.left ha hn r)

/-- If no branch decides, the branches that were taken are complete. -/
theorem complete (h : SplitEnd arms name place q s input taken index traces kids merged none)
    {a : Arm} (ha : a ∈ arms) (hn : a.branch.name ∈ taken) (r : StepRecord) :
    a.region.complete (merged.steps.insert name r) := by
  have hta := Arm.mem_taken ha hn
  obtain ⟨i, hi⟩ := List.getElem?_of_mem hta
  exact a.region.complete_agree (h.agree hta r)
    (h.fan.completes h.combined.decides (Arm.part_at _ hi) (h.combined.settled i a hi))

/-- The records that there were are still there. -/
theorem keeps (h : SplitEnd arms name place q s input taken index traces kids merged decisive)
    {summary : Summary} (hi : summary.input = input) (hs : summary.status ≠ .paused) :
    Keeps s.steps (merged.steps.insert name (.split summary taken)) := by
  have hown : merged.steps.get? name = some (splitRecord .running input none none taken) := by
    rw [h.combined.other _ fun a ha hn => h.own ((Arm.names_subset ha).2.2 hn)]
    exact splitBase_own s name input taken
  refine (h.entry.keeps_base.trans h.combined.keeps).trans (.insert _ _ fun r hr => ?_)
  rw [hown] at hr
  cases hr
  exact keepsRecord_split hi rfl hs

/-- If no branch decides, the split is finished, and no record in it waits. -/
theorem done (h : SplitEnd arms name place q s input taken index traces kids merged none)
    {summary : Summary} (hs : summary.status.isFinished = true) :
    Region.SplitDone (arms.map Arm.part) name (merged.steps.insert name (.split summary taken)) := by
  refine ⟨summary, taken, StepMap.get?_insert_self _ _ _, hs, fun n hn r hr => ?_⟩
  obtain ⟨x, hx, hn⟩ := List.mem_flatMap.mp hn
  obtain ⟨a, ha, rfl⟩ := List.mem_map.mp hx
  by_cases hta : a.branch.name ∈ taken
  · exact a.region.quiet_of_none (h.combined.tidy.insert _ (by rintro its k ⟨⟩))
      (a.region.stage_complete (h.complete ha hta _)) hn hr
  · rw [h.untaken ha hta _ n hn] at hr
    cases hr

/-- If a branch decides that paused, an action waits in this one. -/
theorem waits {i : Nat} {pause : Pause}
    (h : SplitEnd arms name place q s input taken index traces kids merged
      (some (i, .paused pause)))
    {summary : Summary} (hs : summary.status = .running) :
    ∃ a p, (Arm.taken arms taken)[i]? = some a ∧ p.root ∈ a.region.names ∧
      Region.SplitEntered (arms.map Arm.part) name (some p)
        (merged.steps.insert name (.split summary taken)) ∧
      Asked place.path p pause (traces i) (merged.steps.insert name (.split summary taken)) := by
  have settled (j : Nat) (R : Region) (m' : StepMap) (hj : ((Arm.taken arms taken).map fun a =>
      (a.region, merged.steps.insert name (.split summary taken)))[j]? = some (R, m')) :
      ∃ m, ((Arm.taken arms taken).map fun a =>
        (a.region, (splitBase s name input taken).steps))[j]? = some (R, m) ∧
        Settled R (kids.map some) j m m' := by
    obtain ⟨a, ha, rfl, rfl⟩ := Arm.of_part_at hj
    refine ⟨_, Arm.part_at _ ha,
      (h.combined.settled j a ha).agree (h.agree (List.mem_of_getElem? ha) _) ?_⟩
    simp [List.getElem?_map]
  obtain ⟨R, m, k, p, hi, hk, hrep, hasked, hspread⟩ :=
    h.fan.waits h.combined.decides (by simp) settled
  obtain ⟨a, ha, rfl, rfl⟩ := Arm.of_part_at hi
  have hroot := Arm.root_mem hspread ha
  refine ⟨a, p, ha, hroot,
    ⟨summary, taken, i, StepMap.get?_insert_self _ _ _, hs, fun x hx hn => ?_, ?_⟩, ?_⟩
  · obtain ⟨b, hb, rfl⟩ := List.mem_map.mp hx
    exact h.untaken hb hn _
  · rw [Arm.chosen_eq, List.map_map]
    exact hspread
  · obtain ⟨sm, output, e, hat, hrest⟩ := hasked
    refine ⟨sm, output, e, (StepMap.at?_congr ?_).trans hat, hrest⟩
    rw [h.agree (List.mem_of_getElem? ha) _ _ hroot]
    exact (h.combined.settled i a ha).kept k hk hrep _ hroot

/-- The action that waited was called or its input could not be resolved. -/
theorem reached {p : Position} {label : Label} {settings : SplitSettings}
    {branches : List (SplitBranch × List Step)}
    (h : SplitEnd arms name place (some p) s input taken index traces kids merged decisive)
    (r : StepRecord) : (∃ e ∈ traces index, e.place = p.under place.path) ∨
      Unresolved (Region.split (.split label settings branches) (arms.map Arm.part)).steps p
        (merged.steps.insert name r) := by
  obtain ⟨R, m, k, hi, hk, hrep, hreached⟩ := h.fan.reached
  obtain ⟨a, ha, rfl, rfl⟩ := Arm.of_part_at hi
  have hta := List.mem_of_getElem? ha
  have hroot := Arm.root_mem h.fan.spread ha
  refine hreached.imp id fun hu => hu.finished (Arm.steps_subset (Arm.names_subset hta).1)
    fun r' hr _ => (StepMap.at?_congr ?_).trans hr
  rw [h.agree hta _ _ hroot]
  exact (h.combined.settled index a ha).kept k hk hrep _ hroot

end SplitEnd

end

/-- A split is walked as a region when its branches are. -/
theorem Follows.split (label : Label) (settings : SplitSettings)
    (branches : List (SplitBranch × List Step))
    (harms : ∀ a ∈ arms, Follows setup a.region a.body)
    (hname : label.name ∉ Region.branchNames (arms.map Arm.part))
    (hnd : (Region.branchNames (arms.map Arm.part)).Nodup) :
    Follows setup (Region.split (.split label settings branches) (arms.map Arm.part))
      fun place s => runSplit setup place label.name settings (arms.map (Arm.path place)) s where
  rests place s hv hc := runSplit_done hc
  calls place q s t o hv ht hstage h e hmem := by
    rcases runSplit_yields hstage h with ⟨rfl, -⟩ | ⟨rfl, -⟩ | ⟨rfl, -⟩ |
      ⟨started, input, taken, index, he, h⟩
    · cases hmem
    · cases hmem
    · cases hmem
    · obtain ⟨i, a, t', o', ha, hy, hmem⟩ := (walkPaths_yields h).1 e hmem
      exact he.fits harms hv ht hname hnd ha hy hmem
  lands place q s t s' hv ht hstage h := by
    rcases runSplit_yields hstage h with ⟨rfl, rfl, hdone, hs'⟩ | ⟨-, ho⟩ |
      ⟨rfl, rfl, hnone, input, message, ho⟩ | ⟨started, input, taken, index, he, h⟩
    · obtain rfl := hs' s' rfl
      exact .rest hv ht hdone
    · exact absurd rfl (ho s')
    · obtain rfl : s' = _ := by simpa using ho
      exact .failed List.mem_cons_self hnone ht input message
    obtain ⟨traces, kids, merged, halts, duration, hb, hm, rfl⟩ := (walkPaths_yields h).2 s' rfl
    have hend := he.ends harms hv ht hname hnd hb hm
    obtain ⟨summary, hsteps, hinput, hne, hnormal, hverdict, hpaused⟩ :=
      closeSplit_eq label.name input taken duration merged halts
    refine ⟨fun n hn => ?_, ?_, ?_, fun hrun => ?_, fun pause hp => ?_, fun p hp => ?_⟩ <;> rw [hsteps]
    · rw [Region.split_names, List.mem_cons, not_or] at hn
      exact hend.frame hn.1 (fun a ha hmem => hn.2 ((Arm.names_subset ha).2.2 hmem)) _
    · exact hend.combined.tidy.insert _ (by rintro its k ⟨⟩)
    · exact hend.keeps hinput hne
    · cases hd : halts.decisive? with
      | some d =>
        exact absurd ((hverdict d.1 d.2 hd).symm.trans hrun) (hd ▸ hend.combined.decides).1
      | none =>
        rw [hd] at hend
        exact hend.done (by rw [(hnormal hd).1]; rfl)
    · have hd : ∃ i, halts.decisive? = some (i, .paused pause) := by
        cases hd : halts.decisive? with
        | none =>
          rw [(hnormal hd).2, hend.combined.verdict] at hp
          exact absurd (hv.symm.trans hp) (by simp)
        | some d => exact ⟨d.1, by rw [← hp, hverdict d.1 d.2 hd]⟩
      obtain ⟨i, hd⟩ := hd
      rw [hd] at hend
      obtain ⟨a, p, ha, hroot, hentered, sm, output, e, hat, hlast, hrest⟩ :=
        hend.waits (hpaused i pause hd)
      exact ⟨p, .inr hentered, sm, output, e, hat,
        (he.lastAt?_eq harms hv ht hname hnd hb ha hroot).trans hlast, hrest⟩
    · subst hp
      refine (hend.reached _).imp (fun ⟨e, hmem, hplace⟩ => ?_) id
      exact ⟨e, (hb.mixed.mem_iff e).mpr ⟨index, hmem⟩, hplace⟩

end FlowEngine.Engine
