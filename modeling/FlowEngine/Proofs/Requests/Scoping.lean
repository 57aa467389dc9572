import FlowEngine.Proofs.Requests.Isolation
import FlowEngine.Proofs.Template.References

/-!
# What steps in loops see

In whatever loops a step is, sequential or parallel, in a run that begins or goes on: its templates read
the item and the index of every iteration around it, the records of the levels around it, and no record
of another iteration.

* `Scoped` — what templates read in iterations.
* `iterations_scoped` — so it is wherever the walk of a request comes to.
-/

namespace FlowEngine.Engine

open FlowEngine.Run FlowEngine.Flow FlowEngine.Template
open FlowEngine.Expr (Names)

/-- What the templates of a step in some iterations read, with the records of its own level. The items
are documents as they stand in a run, and the indices have 64 bits. -/
structure Scoped (v : Version) (laps : List Lap) (m : RunState) (names : Names) : Prop where
  /-- The item and the index of the innermost loop. -/
  cursor : ∀ l, laps.getLast? = some l →
    (l.item.Canonical → Resolves names "item" [] l.item) ∧
      (l.index < 0x10000000000000000 → Resolves names "index" [] (.int l.index))
  /-- The item and the index of every loop. -/
  loops : ∀ l ∈ laps,
    (l.item.Canonical → Resolves names l.name [.dot "item"] l.item) ∧
      (l.index < 0x10000000000000000 → Resolves names l.name [.dot "index"] (.int l.index))
  /-- Every record of the levels. -/
  recorded : ∀ steps ∈ levels laps m, ∀ step ∈ v.allSteps, ∀ r, steps.get? step.name = some r →
    names.lookup step.name = some (recordValue r) ∧ Resolves names step.name [] r.output
  /-- Of the steps in a loop, only records of the levels in its iteration. -/
  own : ∀ before l after, laps = before ++ l :: after → ∀ step ∈ descendants l.body, ∀ w,
    names.lookup step.name = some w →
      ∃ steps ∈ levels after m, ∃ r, steps.get? step.name = some r ∧ w = recordValue r

variable {v : Version} {setup : Setup} {s m : RunState} {request : Walk} {t : Trace}
  {o : Outcome Result} {x : Step} {laps : List Lap} {l : Lap}

/-- The steps inside the chain of a flow are steps of the flow. -/
theorem mem_allSteps (hv : validate v = []) {step : Step} (h : step ∈ (chainRegion v.rest).steps) :
    step ∈ v.allSteps := by
  rw [allSteps_eq hv, ← chainRegion_steps]
  exact List.mem_cons_of_mem _ h

theorem nameable (hv : validate v = [])
    (hnames : ∀ step ∈ v.allSteps, step.name ∉ "item" :: "index" :: keywords) {step : Step}
    (h : step ∈ v.allSteps) : Nameable step.name := by
  have hne := hnames step h
  simp only [List.mem_cons, not_or] at hne
  exact ⟨isStepName_of_mem hv h, hne.2.2, hne.1, hne.2.1⟩

/-- Where the walk of a request comes to a step, the step is scoped. -/
theorem Comes.scoped (h : Comes setup v.rest [] s x laps m) (hs : Situated v.rest .top s)
    (hv : validate v = [])
    (hnames : ∀ step ∈ v.allSteps, step.name ∉ "item" :: "index" :: keywords)
    (now : Time.Instant) : Scoped v laps m ((placeOf laps).names m now) where
  cursor l hl := by
    obtain ⟨before, rfl⟩ := List.getLast?_eq_some_iff.mp hl
    have hc := cursor?_append_one before l m
    exact ⟨fun hitem => .item hc hitem, fun hindex => .index hc hindex⟩
  loops l hl := by
    have hsees := h.sees_loop hs hl
    obtain ⟨before, after, rfl⟩ := List.mem_iff_append.mp hl
    have hloop : l.loop ∈ v.allSteps := mem_allSteps hv h.through_all.loop.visits.mem
    have hname : Nameable l.name := nameable hv hnames hloop
    exact ⟨fun hitem => .itemOf hname hsees hitem, fun hindex => .indexOf hname hsees hindex⟩
  recorded steps hsteps step hstep r hr := by
    have hname := nameable hv hnames hstep
    have hsees := h.sees_recorded hs hsteps hr
    refine ⟨(value?_of_ne hname.item hname.index).trans ?_, .record hname hsees⟩
    rw [hsees]
    rfl
  own before l after heq step hstep w hw := by
    subst heq
    have hbody : step.name ∈ (chainRegion l.body).names := by
      rw [chainRegion_names]
      exact List.mem_map_of_mem hstep
    have hloop : step ∈ (stepRegion l.loop).steps := by
      rw [← chainRegion_steps] at hstep
      exact List.mem_cons_of_mem _ hstep
    have hflow : step ∈ v.allSteps :=
      mem_allSteps hv (h.through_all.loop.visits.steps_subset hloop)
    have hname := nameable hv hnames hflow
    have hlookup : (((placeOf (before ++ l :: after)).scope m).step? step.name).map recordValue =
        some w := (value?_of_ne hname.item hname.index).symm.trans hw
    obtain ⟨r, hr, rfl⟩ := Option.map_eq_some_iff.mp hlookup
    obtain ⟨steps, hsteps, hrec⟩ := h.sees_own hs hbody hr
    exact ⟨steps, hsteps, r, hrec, rfl⟩

/-- A request calls the actions that its walk comes to, with inputs that are resolved where it does. The
walk comes to a step in an iteration of every loop around it, by the loop and then by the body of that,
beginning with the records of the iteration. Templates read there the items and the indices of these
iterations, all records of the levels, and of the steps in a loop only what is recorded in its
iteration. -/
theorem iterations_scoped (hv : validate v = [])
    (hnames : ∀ step ∈ v.allSteps, step.name ∉ "item" :: "index" :: keywords)
    (h : Walks v setup s request) :
    (∀ t o, request.Runs t o → ∀ e ∈ t, CalledIn setup v.rest [] s e.call) ∧
    ∀ x laps m, Comes setup v.rest [] s x laps m →
      (∀ label settings body, .loop label settings body ∈ v.allSteps → x ∈ descendants body →
        ∃ l ∈ laps, l.loop = .loop label settings body) ∧
      (∀ before l after, laps = before ++ l :: after →
        Through setup v.rest [] s before l x laps m ∧ (l.kept = [] ∨ ∃ r its,
          l.level.steps.get? l.name = some r ∧ r.iterations? = some its ∧
            its[l.index]? = some l.kept)) ∧
      ∀ now, Scoped v laps m ((placeOf laps).names m now) := by
  have hs : Situated v.rest .top s := h.situated hv
  refine ⟨fun t o run => h.comes hv run, fun x laps m hx => ⟨?_, ?_, hx.scoped hs hv hnames⟩⟩
  · intro label settings body hloop hbody
    rw [← chainRegion_steps] at hbody
    exact hx.in_loop ⟨hs.nodup, mem_chain hv hloop rfl, hbody⟩
  · rintro before l after rfl
    exact ⟨hx.through_all, hx.through_all.enters.recorded⟩

/-! ## An example

For each of two boxes, a note is made of its letters side by side. -/

/-- The note of a letter. -/
def letterNote : Step :=
  .action ⟨"remark", "Remark"⟩ ⟨.block "mail" "note", .str "\x7b\x7b box.item \x7d\x7d", .none⟩

/-- A flow with a loop in a loop. -/
def digest : Version where
  id := "digest"
  displayName := "Digest"
  first := .trigger ⟨"start", "Start"⟩ .empty
  rest := [.loop ⟨"box", "Box"⟩ ⟨.arr [.str "in", .str "out"], false, none⟩
    [.loop ⟨"letter", "Letter"⟩ ⟨.arr [.int 7, .int 8], true, some 2⟩ [letterNote]]]

/-- The flow when it begins. -/
def digestBegun : RunState := triggered digest "run" none (.str "hello")

/-- The iteration of the second box. -/
def secondBox : Lap where
  label := ⟨"box", "Box"⟩
  settings := ⟨.arr [.str "in", .str "out"], false, none⟩
  body := [.loop ⟨"letter", "Letter"⟩ ⟨.arr [.int 7, .int 8], true, some 2⟩ [letterNote]]
  items := [.str "in", .str "out"]
  level := digestBegun
  index := 1
  item := .str "out"
  kept := []

/-- The iteration of the first letter in it. -/
def firstLetter : Lap where
  label := ⟨"letter", "Letter"⟩
  settings := ⟨.arr [.int 7, .int 8], true, some 2⟩
  body := [letterNote]
  items := [.int 7, .int 8]
  level := secondBox.inner
  index := 0
  item := .int 7
  kept := []

theorem letterNote_visited : Comes ⟨posting, {}, none⟩ digest.rest [] digestBegun letterNote
    [secondBox, firstLetter] firstLetter.inner := by
  have hboxes : Template.resolve ((placeOf []).names digestBegun ⟨0, 0⟩) secondBox.settings.items =
      .ok (.arr [.str "in", .str "out"]) := rfl
  have hletters : Template.resolve ((placeOf [secondBox]).names secondBox.inner ⟨0, 0⟩)
      firstLetter.settings.items = .ok (.arr [.int 7, .int 8]) := rfl
  have hbox : secondBox.Enters [] := ⟨rfl, rfl, [], .resolved rfl hboxes rfl, rfl⟩
  have hletter : firstLetter.Enters [secondBox] := ⟨rfl, rfl, [], .resolved rfl hletters rfl, rfl⟩
  exact .loop secondBox hbox (.loop firstLetter hletter .here)

/-- The note of a letter sees the letter and the box that it is about, and what the flow began with. -/
theorem digest_scoped :
    validate digest = [] ∧
    (∀ step ∈ digest.allSteps, step.name ∉ "item" :: "index" :: keywords) ∧
    Walks digest ⟨posting, {}, none⟩ digestBegun
      (beginRun posting {} digest "run" none (.str "hello")) ∧
    (let names := (placeOf [secondBox, firstLetter]).names firstLetter.inner ⟨0, 0⟩
    Resolves names "item" [] (.int 7) ∧ Resolves names "letter" [.dot "index"] (.int 0) ∧
      Resolves names "box" [.dot "item"] (.str "out") ∧ Resolves names "start" [] (.str "hello")) := by
  have hv : validate digest = [] := by decide +kernel
  have hnames : ∀ step ∈ digest.allSteps, step.name ∉ "item" :: "index" :: keywords := by
    decide +kernel
  have hwalks : Walks digest ⟨posting, {}, none⟩ digestBegun
      (beginRun posting {} digest "run" none (.str "hello")) := .begin posting {} "run" none _
  obtain ⟨-, -, hscoped⟩ := (iterations_scoped hv hnames hwalks).2 _ _ _ letterNote_visited
  have h := hscoped ⟨0, 0⟩
  have hseven : (Json.int 7).Canonical := ⟨by decide, by decide⟩
  have hlevel : secondBox.outer.steps ∈ levels [secondBox, firstLetter] firstLetter.inner := by
    simp [levels]
  have hstart : secondBox.outer.steps.get? "start" =
      some (.action ⟨.succeeded, .obj [], none, none⟩ (.str "hello")) := rfl
  exact ⟨hv, hnames, hwalks, (h.cursor firstLetter rfl).1 hseven,
    (h.loops firstLetter (by simp)).2 (by decide), (h.loops secondBox (by simp)).1 trivial,
    (h.recorded _ hlevel digest.first List.mem_cons_self _ hstart).2⟩

end FlowEngine.Engine
