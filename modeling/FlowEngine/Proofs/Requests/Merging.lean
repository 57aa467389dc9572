import FlowEngine.Proofs.Requests.Isolation

/-!
# Putting branches together loses nothing

At the end of a split every record is that of the branch it belongs to, whether the branch added, replaced
or removed it. The records that were there when the split was entered keep their order, and the others
follow branch by branch.

* `SplitEnds` — the ends of a split whose branches ended with given states.
* `Joined` — the records of the branches, put together.
* `split_joins` — a split that a request walks ends with the records of its branches put together.
-/

namespace FlowEngine.Engine

open FlowEngine.Run FlowEngine.Flow

/-! ## What is put together -/

/-- The branches of a split that are taken. -/
def takenBranches (branches : List (SplitBranch × List Step)) (taken : List String) :
    List (SplitBranch × List Step) :=
  branches.filter fun b => taken.contains b.1.name

/-- The branches of a split ended with given states, and this is what the split ends with. -/
def SplitEnds (setup : Setup) (place : Place) (name : String) (base : RunState)
    (chosen : List (SplitBranch × List Step)) (kids : List RunState) (input : Json)
    (taken : List String) (s' : RunState) : Prop :=
  ∃ merged halts duration,
    mergeBranches base.steps 0 Halts.none base
      (((arms setup chosen).map (Arm.path place)).zip (kids.map fun k => some (.ok k))) =
        .ok (merged, halts) ∧
    s' = closeSplit name input taken duration merged halts

/-- The records of branches, put together. A step of a branch has the record that the branch ended with,
or none if this has none. If another branch paused before, then the pause is withdrawn from it. All other
records but that of the split are those of the base. Of the names, those of the base come first, and new
ones follow branch by branch, in the order in which they stand there. -/
structure Joined (name : String) (base : StepMap) (chosen : List (SplitBranch × List Step))
    (kids : List RunState) (m : StepMap) : Prop where
  own : ∀ (i : Nat) (b : SplitBranch × List Step) (k : RunState), chosen[i]? = some b →
    kids[i]? = some k → ¬ Repeats (kids.map some) i →
      ∀ step ∈ descendants b.2, m.get? step.name = k.steps.get? step.name
  rewound : ∀ (i : Nat) (b : SplitBranch × List Step) (k : RunState), chosen[i]? = some b →
    kids[i]? = some k → Repeats (kids.map some) i → ∀ step ∈ descendants b.2,
      m.get? step.name = (k.steps.get? step.name).bind StepRecord.withoutPause
  other : ∀ n ≠ name, (∀ b ∈ chosen, ∀ step ∈ descendants b.2, step.name ≠ n) →
    m.get? n = base.get? n
  names : m.names = base.names ++ (kids.flatMap (newNames base)).filter (· ∈ m.names)

/-! ## Entering a split -/

variable {v : Version} {setup : Setup} {s s' m : RunState} {request : Walk} {place p : Place}
  {label : Label} {settings : SplitSettings} {branches : List (SplitBranch × List Step)}
  {input : Json} {taken : List String} {t : Trace} {traces : Nat → Trace} {kids : List RunState}

/-- Where a walk may enter a split, it does so with what the split opens. -/
theorem SplitOpens.entry {arms : List Arm} {q : Option Position} {choices : List SplitBranch}
    (h : SplitOpens place label.name settings choices s input taken)
    (hstage : (Region.split (.split label settings branches) (arms.map Arm.part)).stage q s.steps)
    (hopen : finished (s.steps.get? label.name) = false) :
    ∃ index, SplitEntry arms label.name q s.steps input taken index := by
  rcases hstage with ⟨rfl, hfresh | hdone⟩ | hentered
  · exact ⟨0, .first hfresh input taken⟩
  · obtain ⟨summary, taken', hr, hf, -⟩ := hdone
    rw [show s.steps.get? label.name = _ from hr] at hopen
    cases hopen.symm.trans hf
  · obtain ⟨summary, taken', index, hr, hs, he⟩ := SplitEntry.again hentered
    have hr : s.steps.get? label.name = some (.split summary taken') := hr
    have hrecorded : recordedSplit? (s.steps.get? label.name) = some (summary.input, taken') := by
      rw [hr]
      simp [recordedSplit?, StepRecord.status, StepRecord.summary, hs, StepRecord.taken?]
    rcases h with h | ⟨h, -⟩
    · obtain ⟨rfl, rfl⟩ := Prod.mk.inj (Option.some.inj (hrecorded.symm.trans h))
      exact ⟨index, he⟩
    · cases hrecorded.symm.trans h

/-- Branches that ended with states can be put together. -/
theorem mergeBranches_total {base : StepMap} {index : Nat} {halts : Halts} {merged : RunState}
    (paths : List Path) (kids : List RunState) : ∃ x, mergeBranches base index halts merged
      (paths.zip (kids.map fun k => some (.ok k))) = .ok x := by
  induction paths generalizing index halts merged kids with
  | nil => exact ⟨_, rfl⟩
  | cons path paths ih =>
    cases kids with
    | nil => exact ⟨_, rfl⟩
    | cons k kids =>
      rw [List.map_cons, List.zip_cons_cons, mergeBranches_cons]
      exact ih kids

/-! ## Branches that were walked -/

/-- The branches of a split were walked, those that it opens with. -/
structure SplitWalked (setup : Setup) (place : Place) (label : Label) (settings : SplitSettings)
    (branches : List (SplitBranch × List Step)) (s : RunState) (input : Json) (taken : List String)
    (t : Trace) (traces : Nat → Trace) (kids : List RunState) : Prop where
  opens : SplitOpens place label.name settings (branches.map Prod.fst) s input taken
  branched : Branched place (splitBase s label.name input taken)
    (arms setup (takenBranches branches taken)) t traces kids

theorem arms_getElem? {chosen : List (SplitBranch × List Step)} {i : Nat}
    {b : SplitBranch × List Step} (hb : chosen[i]? = some b) :
    (arms setup chosen)[i]? = some ⟨b.1, chainRegion b.2, walk setup b.2⟩ := by
  rw [arms, List.getElem?_map, hb]
  rfl

section

variable {merged : RunState} {halts : Halts} {q : Option Position} {index : Nat}

theorem takenBranches_arms (setup : Setup) (branches : List (SplitBranch × List Step))
    (taken : List String) :
    arms setup (takenBranches branches taken) = Arm.taken (arms setup branches) taken :=
  (taken_arms setup branches taken).symm

/-- A split whose branches were walked from where a walk may enter it ends as the region of the split
says. -/
theorem SplitWalked.ended
    (h : SplitWalked setup place label settings branches s input taken t traces kids)
    (hs : Entered (stepRegion (.split label settings branches)) s)
    (hopen : finished (s.steps.get? label.name) = false)
    (hmerge : mergeBranches (splitBase s label.name input taken).steps 0 Halts.none
      (splitBase s label.name input taken)
      (((arms setup (takenBranches branches taken)).map (Arm.path place)).zip
        (kids.map fun k => some (.ok k))) = .ok (merged, halts)) :
    ∃ q index, SplitEnd (arms setup branches) label.name place q s input taken index traces kids merged
      halts.decisive? := by
  obtain ⟨q, hstage⟩ := hs.stage
  have hnd := hs.nodup
  rw [stepRegion, ← arms_part setup] at hstage
  rw [stepRegion, Region.split_names] at hnd
  obtain ⟨hname, hinner⟩ := List.nodup_cons.mp hnd
  have hfollow := arms_follow setup branches hinner
  rw [← arms_part setup] at hname hinner
  obtain ⟨index, hentry⟩ := h.opens.entry hstage hopen
  have hbranched := h.branched
  rw [takenBranches_arms] at hbranched hmerge
  exact ⟨q, index, hentry.ends hfollow hs.running hs.tidy hname hinner hbranched hmerge⟩

/-- What was in the base is still there when the branches are put together. -/
theorem SplitEnd.present {name : String} {arms : List Arm} {decisive : Option (Nat × Verdict)}
    (hend : SplitEnd arms name place q s input taken index traces kids merged decisive) {n : String}
    (hn : n ∈ (splitBase s name input taken).steps.names) : n ∈ merged.steps.names := by
  obtain ⟨r, hr⟩ := StepMap.mem_names_iff.mp hn
  exact StepMap.mem_names_iff.mpr (hend.combined.keeps.present hr)

/-- The names of what was put together. -/
theorem SplitEnd.names
    (hend : SplitEnd (arms setup branches) label.name place q s input taken index traces kids merged
      halts.decisive?)
    (hs : s.steps.Tidy)
    (hlength : kids.length = (Arm.taken (arms setup branches) taken).length)
    (hmerge : mergeBranches (splitBase s label.name input taken).steps 0 Halts.none
      (splitBase s label.name input taken)
      (((Arm.taken (arms setup branches) taken).map (Arm.path place)).zip
        (kids.map fun k => some (.ok k))) = .ok (merged, halts)) :
    merged.steps.names = (splitBase s label.name input taken).steps.names ++
      (kids.flatMap (newNames (splitBase s label.name input taken).steps)).filter
        (· ∈ merged.steps.names) := by
  refine mergeBranches_names (splitBase_tidy hs).nodup (by simpa using hlength)
    (fun i path k hp hk => ?_) ?_ hmerge fun n hn => hend.present hn
  · rw [List.getElem?_map, Option.map_eq_some_iff] at hp
    obtain ⟨a, ha, rfl⟩ := hp
    have hk : (kids.map some)[i]? = some (some k) := by rw [List.getElem?_map, hk]; rfl
    have hl := hend.fan.lands i _ _ k (Arm.part_at _ ha) hk
    exact ⟨hl.tidy.nodup, hl.frame, fun n r hr => hl.keeps.present hr⟩
  · rw [List.map_map, List.pairwise_map]
    exact Arm.disjoint_taken taken hend.nodup

/-- The ends of a split whose branches were walked from where a walk may enter it. -/
theorem SplitWalked.joined
    (h : SplitWalked setup place label settings branches s input taken t traces kids)
    (hs : Entered (stepRegion (.split label settings branches)) s)
    (hopen : finished (s.steps.get? label.name) = false)
    (hends : SplitEnds setup place label.name (splitBase s label.name input taken)
      (takenBranches branches taken) kids input taken s') :
    Joined label.name (splitBase s label.name input taken).steps (takenBranches branches taken) kids
      s'.steps := by
  obtain ⟨merged, halts, duration, hmerge, rfl⟩ := hends
  obtain ⟨q, index, hend⟩ := h.ended hs hopen hmerge
  have hlength := h.branched.length
  rw [takenBranches_arms] at hmerge hlength
  obtain ⟨summary, hsteps, -⟩ := closeSplit_eq label.name input taken duration merged halts
  have arm? {i : Nat} {b : SplitBranch × List Step} (hb : (takenBranches branches taken)[i]? = some b) :
      (Arm.taken (arms setup branches) taken)[i]? = some ⟨b.1, chainRegion b.2, walk setup b.2⟩ :=
    takenBranches_arms setup branches taken ▸ arms_getElem? hb
  have kid? {i : Nat} {k : RunState} (hk : kids[i]? = some k) :
      (kids.map some)[i]? = some (some k) := by
    rw [List.getElem?_map, hk]
    rfl
  -- what was put together under the names of a branch is not touched by the record of the split
  have hagree {i : Nat} {b : SplitBranch × List Step}
      (hb : (takenBranches branches taken)[i]? = some b) {step : Step} (hstep : step ∈ descendants b.2) :
      step.name ∈ (chainRegion b.2).names ∧
        (merged.steps.insert label.name (.split summary taken)).get? step.name =
          merged.steps.get? step.name := by
    have hmem : step.name ∈ (chainRegion b.2).names := by
      rw [chainRegion_names]
      exact List.mem_map_of_mem hstep
    exact ⟨hmem, hend.agree (List.mem_of_getElem? (arm? hb)) _ _ hmem⟩
  refine ⟨fun i b k hb hk hrep step hstep => ?_, fun i b k hb hk hrep step hstep => ?_,
    fun n hn hother => ?_, ?_⟩ <;> rw [hsteps]
  · obtain ⟨hmem, hown⟩ := hagree hb hstep
    exact hown.trans ((hend.combined.settled i _ (arm? hb)).kept k (kid? hk) hrep _ hmem)
  · obtain ⟨hmem, hown⟩ := hagree hb hstep
    exact hown.trans ((hend.combined.settled i _ (arm? hb)).repeated k (kid? hk) hrep _ hmem)
  · refine (StepMap.get?_insert_of_ne _ _ hn.symm).trans (hend.combined.other n fun a ha hmem => ?_)
    rw [← takenBranches_arms] at ha
    obtain ⟨b, hb, rfl⟩ := List.mem_map.mp ha
    have hmem : n ∈ (chainRegion b.2).names := hmem
    rw [chainRegion_names] at hmem
    obtain ⟨step, hstep, rfl⟩ := List.mem_map.mp hmem
    exact hother b hb step hstep rfl
  · have hown : label.name ∈ merged.steps.names :=
      hend.present (StepMap.mem_names_iff.mpr ⟨_, splitBase_own s label.name input taken⟩)
    rw [StepMap.names_insert_of_mem _ hown]
    exact hend.names hs.tidy hlength hmerge

end

/-! ## An example

Two people are asked in two branches, the second one in a loop after a note. -/

/-- The branch that asks once. -/
def consultingOnce : SplitBranch × List Step := (⟨"left", .condition, always⟩, [inquirer])

/-- The branch that makes a note and asks in a loop. -/
def consultingEach : SplitBranch × List Step :=
  (⟨"right", .condition, always⟩,
    [.action ⟨"memo", "Memo"⟩ ⟨.block "mail" "note", .str "private", .none⟩,
      .loop ⟨"each", "Each"⟩ ⟨.arr [.str "expert"], false, none⟩
        [.action ⟨"second", "Second"⟩ ⟨.block "mail" "ask", .obj [], .none⟩]])

/-- A flow that asks in both branches of a split. -/
def consultation : Version where
  id := "consultation"
  displayName := "Consultation"
  first := .trigger ⟨"start", "Start"⟩ .empty
  rest := [.split ⟨"fan", "Fan"⟩ ⟨.allMatches, none⟩ [consultingOnce, consultingEach]]

/-- Who is asked answers later. -/
def consulted (c : Block.Call) : Option Block.Reply :=
  match c.request.stepName with
  | "memo" => some (.ended (.ok c.request.props) none)
  | _ => some (.ended (.ok .null) (some (.pause (.webhook "approve" .null))))

/-- The flow while it waits for the first answer. The loop will ask again. -/
def consultationAsked : RunState :=
  inquiryState .begin (.paused (.webhook "approve" .null)) .running
    [("ask", .action ⟨.paused, .obj [], none, some 0⟩ .null), ("memo", answered (.str "private")),
      ("each", .loop ⟨.running, .obj [("items", .arr [.str "expert"])], none, some 0⟩ (.str "expert") 0
        [[]])]

/-! ## Requests -/

/-- When a walk that a request makes comes to a split that is not finished, then the split ends with the
records of its branches put together, whenever its branches end with states. Unless no branches can be
chosen, this is the only way in which it ends with a state. -/
theorem split_joins (hv : validate v = []) (h : Walks v setup s request)
    (hx : Visits setup v.rest Place.top s (.split label settings branches) p m)
    (hopen : finished (m.steps.get? label.name) = false) :
    (∀ input taken t traces kids,
      SplitWalked setup p label settings branches m input taken t traces kids →
        (∃ s', SplitEnds setup p label.name (splitBase m label.name input taken)
          (takenBranches branches taken) kids input taken s') ∧
        ∀ s', SplitEnds setup p label.name (splitBase m label.name input taken)
          (takenBranches branches taken) kids input taken s' →
            Joined label.name (splitBase m label.name input taken).steps
              (takenBranches branches taken) kids s'.steps) ∧
    ∀ t s', Job.Yields (walkStep setup (.split label settings branches) p m) t (.result (.ok s')) →
      (∃ input message, s' = (m.upsert label.name (failedRecord input message)).withVerdict
        (.failed label.name message)) ∨
      ∃ input taken traces kids,
        SplitWalked setup p label settings branches m input taken t traces kids ∧
          SplitEnds setup p label.name (splitBase m label.name input taken)
            (takenBranches branches taken) kids input taken s' := by
  obtain ⟨hrun, q, he⟩ := h.enters hv
  have hentered := hx.entered ⟨(first_notMem hv).2, hrun, he.tidy, q, he.stage⟩
  refine ⟨fun input taken t traces kids hw => ⟨?_, fun s' => hw.joined hentered hopen⟩,
    fun t s' hy => ?_⟩
  · obtain ⟨⟨merged, halts⟩, hmerge⟩ := mergeBranches_total _ kids
    exact ⟨_, merged, halts, 0, hmerge, rfl⟩
  · rw [walkStep_split] at hy
    rcases runSplit_opens hy with ⟨-, hdone⟩ | ⟨-, ⟨-, hfails⟩ | ⟨started, input, taken, hopens, hy⟩⟩
    · rw [hopen] at hdone
      cases (hdone s' rfl).1
    · exact .inl (hfails s' rfl)
    · obtain ⟨traces, kids, merged, halts, duration, hb, hmerge, hs'⟩ := (walkPaths_yields hy).2 s' rfl
      rw [taken_arms] at hb hmerge
      rw [List.map_map] at hopens
      have hchoices : (arms setup branches).map (Path.branch ∘ Arm.path p) = branches.map Prod.fst :=
        List.map_map
      rw [hchoices] at hopens
      exact .inr ⟨input, taken, traces, kids, ⟨hopens, hb⟩, merged, halts, duration, hmerge, hs'⟩

theorem consultation_joins :
    validate consultation = [] ∧
    Walks consultation ⟨posting, {}, none⟩ (triggered consultation "run" none .null)
      (beginRun posting {} consultation "run" none .null) ∧
    Visits ⟨posting, {}, none⟩ consultation.rest Place.top (triggered consultation "run" none .null)
      (.split ⟨"fan", "Fan"⟩ ⟨.allMatches, none⟩ [consultingOnce, consultingEach]) Place.top
      (triggered consultation "run" none .null) ∧
    finished ((triggered consultation "run" none .null).steps.get? "fan") = false ∧
    ∃ input taken t traces kids,
      SplitWalked ⟨posting, {}, none⟩ Place.top ⟨"fan", "Fan"⟩ ⟨.allMatches, none⟩
        [consultingOnce, consultingEach] (triggered consultation "run" none .null) input taken t traces
        kids ∧
      Joined "fan" (splitBase (triggered consultation "run" none .null) "fan" input taken).steps
        (takenBranches [consultingOnce, consultingEach] taken) kids consultationAsked.steps := by
  have hvalid : validate consultation = [] := by decide +kernel
  have hwalks : Walks consultation ⟨posting, {}, none⟩ (triggered consultation "run" none .null)
      (beginRun posting {} consultation "run" none .null) := .begin posting {} "run" none .null
  have hvisits : Visits ⟨posting, {}, none⟩ consultation.rest Place.top
      (triggered consultation "run" none .null)
      (.split ⟨"fan", "Fan"⟩ ⟨.allMatches, none⟩ [consultingOnce, consultingEach]) Place.top
      (triggered consultation "run" none .null) := .here
  have hopen : finished ((triggered consultation "run" none .null).steps.get? "fan") = false := rfl
  have hended : (start (answering consulted) 0 (walkStep ⟨posting, {}, none⟩
      (.split ⟨"fan", "Fan"⟩ ⟨.allMatches, none⟩ [consultingOnce, consultingEach]) Place.top
      (triggered consultation "run" none .null)) ()).1.result? = some (.ok consultationAsked) := by
    decide +kernel
  obtain ⟨t, run⟩ := exists_runs_of_start 0 _ () hended
  obtain ⟨hjoins, hends⟩ := split_joins hvalid hwalks hvisits hopen
  rcases hends t _ run.yields with ⟨input, message, heq⟩ | ⟨input, taken, traces, kids, hw, he⟩
  · exact absurd (congrArg RunState.verdict heq) (by rintro ⟨⟩)
  · exact ⟨hvalid, hwalks, hvisits, hopen, input, taken, t, traces, kids, hw,
      (hjoins input taken t traces kids hw).2 _ he⟩

end FlowEngine.Engine
