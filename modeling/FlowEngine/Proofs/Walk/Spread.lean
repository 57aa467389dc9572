import FlowEngine.Proofs.Walk.Region
import Mathlib.Data.List.Pairwise

/-!
# How far a run is in a fan-out

The iterations of a loop and the branches of a split are parts of one step. At most one of them
waits, and nothing is left to do in the parts before it: else it would not have been the first one
to wait.

* `Spread` — parts of which at most one waits.
* `Region.loop`, `Region.split` — the regions of loops and splits.
-/

namespace FlowEngine.Engine

open FlowEngine.Run FlowEngine.Flow

/-! ## Parts -/

/-- In lists that are joined without repetition, an element is in one of them only. -/
theorem eq_of_mem_of_nodup {α β : Type} {f : α → List β} {l : List α} (h : (l.flatMap f).Nodup)
    {a b : α} (ha : a ∈ l) (hb : b ∈ l) {n : β} (hn : n ∈ f a) (hn' : n ∈ f b) : a = b := by
  have : Std.Symm (Function.onFun List.Disjoint f) := ⟨fun _ _ h _ hn hn' => h hn' hn⟩
  by_contra hne
  exact (List.nodup_flatMap.mp h).2.forall ha hb hne hn hn'

/-- Lists of one length have elements at the same indices. -/
theorem exists_getElem? {α β : Type} {l : List α} {l' : List β} (h : l.length = l'.length) {i : Nat}
    {x : α} (hx : l[i]? = some x) : ∃ y, l'[i]? = some y :=
  ⟨_, List.getElem?_eq_getElem (h ▸ (List.getElem?_eq_some_iff.mp hx).1)⟩

/-- Regions with the records that each of them is about. If there is a position, an action waits in
the part of the index, and the parts before that are complete. -/
structure Spread (parts : List (Region × StepMap)) (q : Option Position) (index : Nat) : Prop where
  stage : ∀ (i : Nat) (R : Region) (m : StepMap), parts[i]? = some (R, m) →
    R.stage (if i = index then q else none) m
  within : q ≠ none → index < parts.length
  before : q ≠ none → ∀ (i : Nat) (R : Region) (m : StepMap), i < index →
    parts[i]? = some (R, m) → R.complete m

namespace Spread

variable {parts parts' : List (Region × StepMap)} {q : Option Position} {index : Nat}

/-- No action waits. -/
theorem of_none (index : Nat)
    (h : ∀ (i : Nat) (R : Region) (m : StepMap), parts[i]? = some (R, m) → R.stage none m) :
    Spread parts none index :=
  ⟨fun i R m hi => by rw [ite_self]; exact h i R m hi, by simp, by simp⟩

theorem of_mem (index : Nat) (h : ∀ x ∈ parts, x.1.stage none x.2) : Spread parts none index :=
  of_none index fun _ _ _ hi => h _ (List.mem_of_getElem? hi)

/-- The part that waits. -/
theorem waits {p : Position} (h : Spread parts (some p) index) :
    ∃ R m, parts[index]? = some (R, m) ∧ R.stage (some p) m := by
  have hlt := h.within (by simp)
  refine ⟨_, _, List.getElem?_eq_getElem hlt, ?_⟩
  simpa using h.stage index _ _ (List.getElem?_eq_getElem hlt)

/-- A part that does not wait. -/
theorem others (h : Spread parts q index) {i : Nat} {R : Region} {m : StepMap} (hi : i ≠ index)
    (hp : parts[i]? = some (R, m)) : R.stage none m := by
  simpa [hi] using h.stage i R m hp

theorem none_stage (h : Spread parts none index) {i : Nat} {R : Region} {m : StepMap}
    (hp : parts[i]? = some (R, m)) : R.stage none m := by
  simpa using h.stage i R m hp

end Spread

namespace Region

variable {m m' : StepMap}

/-! ## Loops -/

/-- The record of a loop that is finished. -/
def LoopDone (n : String) (m : StepMap) : Prop :=
  ∃ r, m.get? n = some r ∧ r.status.isFinished = true ∧ r.Quiet

/-- The record of a loop that was entered: a map for every item, with records of steps of the body.
The loop is paused if an action in it waits, and shows the iteration. -/
def LoopEntered (B : Region) (n : String) (q : Option Position) (index : Nat) (m : StepMap) : Prop :=
  ∃ summary item items its, m.get? n = some (.loop summary item index its) ∧
    summary.status = (if q.isSome then StepStatus.paused else .running) ∧
    summary.input = .obj [("items", .arr items)] ∧ its.length = items.length ∧
    (∀ k ∈ its, ∀ x ∈ StepMap.names k, x ∈ B.names) ∧ Spread (its.map fun k => (B, k)) q index

theorem LoopEntered.none_quiet {B : Region} {n : String} {index : Nat} (hm : m.Tidy)
    (h : LoopEntered B n none index m) {r : StepRecord} (hr : m.get? n = some r) : r.Quiet := by
  obtain ⟨summary, item, items, its, hr', hs, -, -, hk, hspread⟩ := h
  rw [hr'] at hr
  cases hr
  refine StepRecord.quiet_loop_iff.mpr ⟨by simp [hs], fun k hkm => ?_⟩
  obtain ⟨i, hi⟩ := List.getElem?_of_mem hkm
  exact B.quiet_map (hm.inner hr' rfl hkm) (hk k hkm)
    (hspread.none_stage (i := i) (by rw [List.getElem?_map, hi]; rfl))

/-- The record of a loop in which an action waits. -/
theorem LoopEntered.pauseChain {B : Region} {n : String} {p : Position} {index : Nat} (hm : m.Tidy)
    (h : LoopEntered B n (some p) index m) : ∃ r summary output, m.get? n = some r ∧
      PauseChain [(n, r)] ((n, index) :: p.loops) p.name summary output := by
  obtain ⟨sl, item, items, its, hr, hs, -, -, hk, hspread⟩ := h
  have part {i : Nat} {k : StepMap} (hi : its[i]? = some k) :
      (its.map fun k => (B, k))[i]? = some (B, k) := by rw [List.getElem?_map, hi]; rfl
  have inner {i : Nat} {k : StepMap} (hi : its[i]? = some k) : k.Tidy ∧ ∀ x ∈ k.names, x ∈ B.names :=
    ⟨hm.inner hr rfl (List.mem_of_getElem? hi), hk k (List.mem_of_getElem? hi)⟩
  obtain ⟨R, k, hi, hstage⟩ := hspread.waits
  rw [List.getElem?_map, Option.map_eq_some_iff] at hi
  obtain ⟨k, hi, ⟨⟩⟩ := hi
  obtain ⟨summary, output, hc⟩ := B.pauseChain (inner hi).1 (inner hi).2 hstage
  refine ⟨_, summary, output, hr, .of_loop (by simpa using hs) hi (fun i k' hne hi' => ?_) hc⟩
  exact B.quiet_map (inner hi').1 (inner hi').2 (hspread.others hne (part hi'))

/-- After a withdrawal a loop runs again, and no action in it waits. -/
theorem LoopEntered.withdrawn {B : Region} {n : String} {p : Position} {index : Nat} (hm : m.Tidy)
    (h : LoopEntered B n (some p) index m)
    (hw : m'.get? n = (m.get? n).bind StepRecord.withoutPause) : LoopEntered B n none index m' := by
  obtain ⟨summary, item, items, its, hr, hs, hinput, hlen, hk, hspread⟩ := h
  have hs : summary.status = .paused := by simpa using hs
  rw [hr, Option.bind_some, StepRecord.withoutPause_loop hs] at hw
  refine ⟨_, item, items, _, hw, rfl, hinput, by rw [List.length_map, hlen], ?_, ?_⟩
  · intro k hkm x hx
    obtain ⟨k₀, hk₀, rfl⟩ := List.mem_map.mp hkm
    exact hk k₀ hk₀ x (StepMap.names_withdrawPauses_subset k₀ x hx)
  · refine .of_none index fun i R k hi => ?_
    rw [List.map_map, List.getElem?_map, Option.map_eq_some_iff] at hi
    obtain ⟨k₀, hi, heq⟩ := hi
    cases heq
    have ht := hm.inner hr rfl (List.mem_of_getElem? hi)
    refine B.withdrawn_stage ht (hspread.stage i B k₀ (by rw [List.getElem?_map, hi]; rfl)) ?_
    exact fun x _ => StepMap.get?_withdrawPauses ht.nodup x

/-- A loop. Steps of its body have no records next to that of the loop. -/
def loop (step : Step) (B : Region) : Region where
  steps := step :: B.steps
  complete m := Fresh B.names m ∧ LoopDone step.name m
  stage q m := Fresh B.names m ∧
    ((q = none ∧ (m.get? step.name = none ∨ LoopDone step.name m)) ∨
      ∃ q' index, q = q'.map (Position.inside step.name index) ∧
        LoopEntered B step.name q' index m)
  complete_agree {m m'} ha h := by
    have hn : m'.get? step.name = m.get? step.name := ha _ (by simp)
    refine ⟨h.1.agree (ha.mono (List.subset_cons_self _ _)), ?_⟩
    unfold LoopDone
    rw [hn]
    exact h.2
  stage_agree {q m m'} ha h := by
    have hn : m'.get? step.name = m.get? step.name := ha _ (by simp)
    refine ⟨h.1.agree (ha.mono (List.subset_cons_self _ _)), ?_⟩
    simp only [LoopDone, LoopEntered, hn]
    exact h.2
  stage_fresh {m} h :=
    ⟨h.mono (List.subset_cons_self _ _), .inl ⟨rfl, .inl (h _ (by simp))⟩⟩
  stage_complete h := ⟨h.1, .inl ⟨rfl, .inr h.2⟩⟩
  root_mem {p m} h := by
    rcases h.2 with ⟨hq, -⟩ | ⟨q', index, hq, -⟩
    · cases hq
    · obtain ⟨p', -, rfl⟩ := Option.map_eq_some_iff.mp hq.symm
      simp
  quiet {q m} hm h n hn hq r hr := by
    rcases List.mem_cons.mp hn with rfl | hn
    · rcases h.2 with ⟨-, h | ⟨r', h, -, hquiet⟩⟩ | ⟨q', index, hq', h⟩
      · rw [h] at hr; cases hr
      · rw [h] at hr; cases hr; exact hquiet
      · cases q' with
        | none => exact h.none_quiet hm hr
        | some p' => exact absurd (by simp) (hq _ hq')
    · rw [h.1 n hn] at hr; cases hr
  paused {p m} hm h := by
    rcases h.2 with ⟨hq, -⟩ | ⟨q', index, hq, hentered⟩
    · cases hq
    · obtain ⟨p', rfl, rfl⟩ := Option.map_eq_some_iff.mp hq.symm
      exact hentered.pauseChain hm
  withdrawn {p m m'} hm h hw := by
    refine ⟨h.1.withdrawn (hw.mono (List.subset_cons_self _ _)), ?_⟩
    rcases h.2 with ⟨hq, -⟩ | ⟨q', index, hq, hentered⟩
    · cases hq
    · obtain ⟨p', rfl, rfl⟩ := Option.map_eq_some_iff.mp hq.symm
      exact .inr ⟨none, index, rfl, hentered.withdrawn hm (hw _ (by simp))⟩

/-! ## Splits -/

/-- The regions of the branches that are taken. -/
def chosen (parts : List (String × Region)) (taken : List String) : List Region :=
  (parts.filter fun x => taken.contains x.1).map Prod.snd

/-- The names of the steps of all branches. -/
def branchNames (parts : List (String × Region)) : List String := parts.flatMap fun x => x.2.names

theorem branchNames_subset {parts : List (String × Region)} {x : String × Region} (hx : x ∈ parts) :
    x.2.names ⊆ branchNames parts := fun _ hn => List.mem_flatMap.mpr ⟨x, hx, hn⟩

theorem mem_chosen {parts : List (String × Region)} {taken : List String} {R : Region} :
    R ∈ chosen parts taken ↔ ∃ x ∈ parts, x.1 ∈ taken ∧ x.2 = R := by
  simp [chosen, and_assoc]

/-- The record of a split that is finished. -/
def SplitDone (parts : List (String × Region)) (n : String) (m : StepMap) : Prop :=
  ∃ summary taken, m.get? n = some (.split summary taken) ∧ summary.status.isFinished = true ∧
    ∀ k ∈ branchNames parts, ∀ r, m.get? k = some r → r.Quiet

/-- The record of a split that was entered. Branches that are not taken have no records. -/
def SplitEntered (parts : List (String × Region)) (n : String) (q : Option Position)
    (m : StepMap) : Prop :=
  ∃ summary taken index, m.get? n = some (.split summary taken) ∧ summary.status = .running ∧
    (∀ x ∈ parts, x.1 ∉ taken → Fresh x.2.names m) ∧
    Spread ((chosen parts taken).map fun R => (R, m)) q index

theorem SplitDone.agree {parts : List (String × Region)} {n : String}
    (h : SplitDone parts n m) (ha : Agree (n :: branchNames parts) m m') : SplitDone parts n m' := by
  obtain ⟨summary, taken, hr, hf, hq⟩ := h
  refine ⟨summary, taken, (ha _ (by simp)).trans hr, hf, fun k hk r hr' => hq k hk r ?_⟩
  rwa [← ha k (List.mem_cons_of_mem _ hk)]

theorem SplitEntered.part {parts : List (String × Region)} {taken : List String} {i : Nat}
    {R : Region} {k : StepMap}
    (h : ((chosen parts taken).map fun R => (R, m))[i]? = some (R, k)) :
    k = m ∧ (chosen parts taken)[i]? = some R ∧ R.names ⊆ branchNames parts := by
  rw [List.getElem?_map, Option.map_eq_some_iff] at h
  obtain ⟨R', hi, heq⟩ := h
  cases heq
  obtain ⟨x, hx, -, rfl⟩ := mem_chosen.mp (List.mem_of_getElem? hi)
  exact ⟨rfl, hi, branchNames_subset hx⟩

theorem SplitEntered.agree {parts : List (String × Region)} {n : String} {q : Option Position}
    (h : SplitEntered parts n q m) (ha : Agree (n :: branchNames parts) m m') :
    SplitEntered parts n q m' := by
  obtain ⟨summary, taken, index, hr, hs, hf, hspread⟩ := h
  have hb : Agree (branchNames parts) m m' := ha.mono (List.subset_cons_self _ _)
  have back {i : Nat} {R : Region} (hi : (chosen parts taken)[i]? = some R) :
      ((chosen parts taken).map fun R => (R, m))[i]? = some (R, m) := by
    rw [List.getElem?_map, hi]; rfl
  refine ⟨summary, taken, index, (ha _ (by simp)).trans hr, hs,
    fun x hx hn => (hf x hx hn).agree (hb.mono (branchNames_subset hx)), ?_, ?_, ?_⟩
  · intro i R k hk
    obtain ⟨rfl, hi, hsub⟩ := SplitEntered.part hk
    exact R.stage_agree (hb.mono hsub) (hspread.stage i R m (back hi))
  · simpa using hspread.within
  · intro hq i R k hlt hk
    obtain ⟨rfl, hi, hsub⟩ := SplitEntered.part hk
    exact R.complete_agree (hb.mono hsub) (hspread.before hq i R m hlt (back hi))

theorem SplitEntered.quiet {parts : List (String × Region)} {n : String} {q : Option Position}
    (hm : m.Tidy) (h : SplitEntered parts n q m) {k : String} (hk : k ∈ n :: branchNames parts)
    (hq : ∀ p, q = some p → k ≠ p.root) {r : StepRecord} (hr : m.get? k = some r) : r.Quiet := by
  obtain ⟨summary, taken, index, hr', hs, hf, hspread⟩ := h
  rcases List.mem_cons.mp hk with rfl | hk
  · rw [hr'] at hr
    cases hr
    refine StepRecord.quiet_of_status_ne ?_ rfl
    change summary.status ≠ .paused
    simp [hs]
  · obtain ⟨x, hx, hk⟩ := List.mem_flatMap.mp hk
    by_cases ht : x.1 ∈ taken
    · obtain ⟨i, hi⟩ := List.getElem?_of_mem (mem_chosen.mpr ⟨x, hx, ht, rfl⟩)
      refine x.2.quiet hm (hspread.stage i x.2 m (by rw [List.getElem?_map, hi]; rfl)) k hk ?_ r hr
      intro p hp
      split_ifs at hp
      exact hq p hp
    · rw [hf x hx ht k hk] at hr; cases hr

theorem SplitEntered.withdrawn {parts : List (String × Region)} {n : String} {q : Option Position}
    (hm : m.Tidy) (h : SplitEntered parts n q m) (hw : Withdrawn (n :: branchNames parts) m m') :
    SplitEntered parts n none m' := by
  obtain ⟨summary, taken, index, hr, hs, hf, hspread⟩ := h
  have hb : Withdrawn (branchNames parts) m m' := hw.mono (List.subset_cons_self _ _)
  refine ⟨summary, taken, index, hw.get? (by simp) hr ?_, hs,
    fun x hx hn => (hf x hx hn).withdrawn (hb.mono (branchNames_subset hx)),
    .of_none index fun i R k hk => ?_⟩
  · change summary.status ≠ .paused
    simp [hs]
  · obtain ⟨rfl, hi, hsub⟩ := SplitEntered.part hk
    exact R.withdrawn_stage hm (hspread.stage i R m (by rw [List.getElem?_map, hi]; rfl))
      (hb.mono hsub)

/-- A split with the names and regions of its branches. -/
def split (step : Step) (parts : List (String × Region)) : Region where
  steps := step :: parts.flatMap fun x => x.2.steps
  complete m := SplitDone parts step.name m
  stage q m :=
    (q = none ∧ (Fresh (step.name :: branchNames parts) m ∨ SplitDone parts step.name m)) ∨
      SplitEntered parts step.name q m
  complete_agree {m m'} ha h := h.agree (by simpa [branchNames, names, List.map_flatMap] using ha)
  stage_agree {q m m'} ha h := by
    have ha : Agree (step.name :: branchNames parts) m m' := by
      simpa [branchNames, names, List.map_flatMap] using ha
    exact h.imp (fun h => ⟨h.1, h.2.imp (·.agree ha) (·.agree ha)⟩) (·.agree ha)
  stage_fresh {m} h := .inl ⟨rfl, .inl (by simpa [branchNames, names, List.map_flatMap] using h)⟩
  stage_complete h := .inl ⟨rfl, .inr h⟩
  root_mem {p m} h := by
    rcases h with ⟨hq, -⟩ | ⟨summary, taken, index, -, -, -, hspread⟩
    · cases hq
    · obtain ⟨R, k, hk, hstage⟩ := hspread.waits
      obtain ⟨-, -, hsub⟩ := SplitEntered.part hk
      have := hsub (R.root_mem hstage)
      refine List.mem_cons_of_mem _ ?_
      simpa [branchNames, names, List.map_flatMap] using this
  quiet {q m} hm h n hn hq r hr := by
    have hn : n ∈ step.name :: branchNames parts := by
      simpa [branchNames, names, List.map_flatMap] using hn
    rcases h with ⟨-, h | h⟩ | h
    · rw [h n hn] at hr; cases hr
    · obtain ⟨summary, taken, hr', hf, hquiet⟩ := h
      rcases List.mem_cons.mp hn with rfl | hn
      · rw [hr'] at hr
        cases hr
        refine StepRecord.quiet_of_status_ne (fun hs => ?_) rfl
        have hs : summary.status = .paused := hs
        rw [hs] at hf
        cases hf
      · exact hquiet n hn r hr
    · exact h.quiet hm hn hq hr
  paused {p m} hm h := by
    rcases h with ⟨hq, -⟩ | ⟨summary, taken, index, -, -, -, hspread⟩
    · cases hq
    · obtain ⟨R, k, hk, hstage⟩ := hspread.waits
      obtain ⟨rfl, -, -⟩ := SplitEntered.part hk
      exact R.paused hm hstage
  withdrawn {p m m'} hm h hw := by
    rcases h with ⟨hq, -⟩ | h
    · cases hq
    · exact .inr (h.withdrawn hm (by simpa [branchNames, names, List.map_flatMap] using hw))

/-! ## Names -/

theorem loop_names (label : Label) (settings : LoopSettings) (body : List Step) (B : Region) :
    (loop (.loop label settings body) B).names = label.name :: B.names := rfl

theorem split_names (label : Label) (settings : SplitSettings)
    (branches : List (SplitBranch × List Step)) (parts : List (String × Region)) :
    (split (.split label settings branches) parts).names = label.name :: branchNames parts := by
  rw [names, branchNames]
  change label.name :: (parts.flatMap fun x => x.2.steps).map Step.name = _
  rw [List.map_flatMap]
  rfl

end Region

end FlowEngine.Engine
