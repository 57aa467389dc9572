import FlowEngine.Proofs.Walk.Changes

/-!
# Walks that are stopped

* `walk_responds` — a walk that an action stopped ends with the response of the action.
-/

namespace FlowEngine.Engine

open FlowEngine.Run FlowEngine.Flow

/-- Walks end with success only if they were stopped, and then with a response. -/
def Responds (w : Body) : Prop := ∀ place s t s', s.verdict ≠ .succeeded none →
  Job.Yields (w place s) t (.result (.ok s')) → s'.verdict ≠ .succeeded none

variable {setup : Setup}

theorem responds_action (name : String) (a : Flow.Action) :
    Responds fun place s => runAction setup place name a s := by
  intro place s t s' hv hy
  rcases runAction_ends hy with ⟨-, rfl⟩ | ⟨-, ⟨input, failure, duration, rfl⟩ |
    ⟨i, output, duration, hook, -, rfl⟩⟩
  · exact hv
  · rcases failedState_verdict s name a.errorHandling input failure duration with h | h <;> rw [h]
    · exact hv
    · simp
  · rcases hook with _ | pause | response
    · exact hv
    · exact fun h => by cases h
    · exact fun h => by cases h

theorem responds_branch {wA wB : Body} (hA : Responds wA) (hB : Responds wB) (name : String)
    (c : ConditionSet) : Responds fun place s =>
      runBranch place name c (fun holds => if holds then wA place else wB place) s := by
  intro place s t s' hv hy
  rcases runBranch_ends hy with ⟨-, hends⟩ | ⟨holds, s₁, hs₁, -, hy⟩
  · rcases hends s' rfl with ⟨-, -, rfl⟩ | ⟨-, input, message, rfl⟩
    · exact hv
    · exact fun h => by cases h
  · have hv₁ : s₁.verdict ≠ .succeeded none := (side_entered hs₁).1 ▸ hv
    cases holds
    · exact hB place s₁ t s' hv₁ hy
    · exact hA place s₁ t s' hv₁ hy

theorem responds_split {arms : List Arm} (harms : ∀ a ∈ arms, Responds a.body) (name : String)
    (settings : SplitSettings) : Responds fun place s =>
      runSplit setup place name settings (arms.map (Arm.path place)) s := by
  intro place s t s' hv hy
  rcases runSplit_ends hy with ⟨-, hdone⟩ | ⟨-, ⟨-, hfails⟩ | ⟨started, input, taken, hy⟩⟩
  · obtain ⟨-, rfl⟩ := hdone s' rfl
    exact hv
  · obtain ⟨input, message, rfl⟩ := hfails s' rfl
    exact fun h => by cases h
  obtain ⟨traces, kids, merged, halts, duration, hb, hmerge, rfl⟩ := (walkPaths_yields hy).2 s' rfl
  obtain ⟨hsees, hverdict⟩ := mergeBranches_sees .nil (by simpa using hb.length) hmerge
  obtain ⟨_, -, -, -, hnone, hsome, -⟩ := closeSplit_eq name input taken duration merged halts
  have hdecides := hsees.decides
  cases hd : halts.decisive? with
  | none =>
    rw [(hnone hd).2, hverdict]
    exact hv
  | some d =>
    rw [hd] at hdecides
    obtain ⟨a, k, ha, -, hkv, hran⟩ := hb.decided hdecides
    rw [hsome d.1 d.2 hd, ← hkv]
    exact harms a (Arm.names_subset (List.mem_of_getElem? ha)).1 place (splitBase s name input taken) _ k
      hv hran

theorem responds_loop {wB : Body} (hB : Responds wB) (name : String) (settings : LoopSettings) :
    Responds fun place s => runLoop setup place name settings wB s := by
  intro place s t s' hv hy
  rcases runLoop_ends hy with ⟨-, hdone⟩ | ⟨-, ⟨-, hfails⟩ | ⟨items, started, its, -, hy⟩⟩
  · obtain ⟨-, rfl⟩ := hdone s' rfl
    exact hv
  · obtain ⟨input, message, rfl⟩ := hfails s' rfl
    exact fun h => by cases h
  obtain ⟨traces, kids, maps, decisive, duration, hit, rfl⟩ := (walkItems_yields rfl hy).2 s' rfl
  obtain ⟨_, _, _, -, -, -, hsome, -⟩ :=
    closeLoop_eq (looping name items place s wB) items duration maps decisive
  rcases decisive with _ | ⟨i, v⟩
  · exact fun h => by cases h
  · obtain ⟨_, m, k, -, -, hkv, hran, -⟩ := hit.decided
    rw [(hsome i v rfl).1, ← hkv]
    exact hB _ (s.nested m) _ k (by simp [RunState.nested]) hran

theorem responds_inductive (setup : Setup) : Inductive setup fun _ w => Responds w where
  nil := by
    intro place s t s' hv hy
    obtain ⟨-, rfl⟩ := Yields.of_ended hy
    exact hv
  seq A B wA wB hA hB := by
    intro place s t s' hv hy
    rcases Job.Yields.of_andThen hy with ⟨s₁, t₁, t₂, rfl, hy₁, hy₂⟩ | ⟨-, ho⟩
    · have hv₁ := hA place s t₁ s₁ hv hy₁
      split_ifs at hy₂
      · exact hB place s₁ t₂ s' hv₁ hy₂
      · obtain ⟨-, rfl⟩ := Yields.of_ended hy₂
        exact hv₁
    · exact absurd rfl (ho s')
  trigger l t := by
    intro place s t s' hv hy
    obtain ⟨-, ho | ho⟩ := Job.Yields.done_iff.mp hy <;> cases ho
  action l a := responds_action l.name a
  branch l c _ _ A B wA wB hA hB := responds_branch hA hB l.name c
  split l settings _ arms _ _ harms := responds_split harms l.name settings
  loop l settings _ B wB hB := responds_loop hB l.name settings

/-- A walk of a chain ends with success only with the response of an action that stopped it. -/
theorem walk_responds (setup : Setup) (chain : List Step) : Responds (walk setup chain) :=
  (responds_inductive setup).chain chain

end FlowEngine.Engine
