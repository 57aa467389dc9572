import FlowEngine.Proofs.Requests.Scoping

/-!
# Names as references

The name of a step as a template gives the output of the step, wherever the step has a record that can be
seen. There are two kinds of names for which this does not hold: words of the language are no references,
and in a loop `item` and `index` are what the loop is at.

* `Refers` — a name gives the output of the innermost record.
* `Comes.mem_stepNames` — what has a record around a step of a valid flow is a step of it.
* `names_refer` — so all other names refer to records.
* `item_hidden` — a step whose name a loop hides.
-/

namespace FlowEngine.Engine

open FlowEngine.Run FlowEngine.Flow FlowEngine.Template
open FlowEngine.Expr (pathText)

/-- As a template the name gives, at any time, the output of the innermost record with this name. -/
def Refers (scope : Scope) (name : String) : Prop :=
  ∃ r, scope.step? name = some r ∧
    ∀ now, resolve (scope.names now) (.str (tokenText name)) = .ok r.output

/-- A loop around a scope stands for the name. -/
def Hidden (scope : Scope) (name : String) : Prop :=
  scope.cursor?.isSome = true ∧ (name = "item" ∨ name = "index")

variable {v : Version} {setup : Setup} {s m : RunState} {request : Walk} {x : Step} {laps : List Lap}
  {scope : Scope} {name : String} {frame : Frame} {r : StepRecord}

theorem pathText_nil (name : String) : pathText name [] = name := by
  simp [pathText, Expr.pathChars]

/-- A name alone resolves as it does with a path that is empty. -/
theorem resolve_name {names : Expr.Names} {j : Json} (h : Resolves names name [] j) :
    resolve names (.str (tokenText name)) = .ok j := by
  rwa [Resolves, pathText_nil] at h

/-- What no loop stands for is the innermost record. -/
theorem value?_of_not_hidden (h : ¬ Hidden scope name) :
    scope.value? name = (scope.step? name).map recordValue := by
  cases hc : scope.cursor? with
  | none =>
    unfold Scope.value?
    rw [hc]
  | some c =>
    have hne : ¬ (name = "item" ∨ name = "index") := fun hname => h ⟨by rw [hc]; rfl, hname⟩
    rw [not_or] at hne
    exact value?_of_ne hne.1 hne.2

theorem Refers.of_step? (hname : isStepName name = true) (hkeyword : name ∉ keywords)
    (hhidden : ¬ Hidden scope name) (hr : scope.step? name = some r) : Refers scope name := by
  refine ⟨r, hr, fun now => ?_⟩
  have hvalue : scope.value? name = some (recordValue r) := by
    rw [value?_of_not_hidden hhidden, hr]
    rfl
  exact resolve_name (.of_lookup hname hkeyword (by simp) hvalue (toJson_recordValue r))

/-- A record in some frame is seen, or a record of the same name in a frame further in. -/
theorem exists_step? (hframe : frame ∈ scope) (hr : frame.steps.get? name = some r) :
    ∃ r', scope.step? name = some r' := by
  refine Option.isSome_iff_exists.mp ?_
  rw [Scope.step?, List.findSome?_isSome_iff]
  exact ⟨frame, hframe, by rw [hr]; rfl⟩

/-- What has a record in some frame around a step of a valid flow is a step of it. -/
theorem Comes.mem_stepNames (h : Comes setup v.rest [] s x laps m) (hw : Walks v setup s request)
    (hv : validate v = []) (hframe : frame ∈ (placeOf laps).scope m)
    (hr : frame.steps.get? name = some r) : name ∈ v.stepNames := by
  have hs := hw.situated hv
  obtain ⟨-, q, henters⟩ := hw.enters hv
  rw [Version.stepNames, allSteps_eq hv, List.map_cons, ← chainRegion_names]
  by_cases hchain : name ∈ (chainRegion v.rest).names
  · exact List.mem_cons_of_mem _ hchain
  -- the walk does not record it, so it is one of the records at the beginning
  · have hlevel : frame.steps ∈ levels laps m := by
      rw [← steps_scope]
      exact List.mem_map_of_mem hframe
    have hseen := h.sees_recorded hs hlevel hr
    rw [(h.visits.situated hs).2 name hchain] at hseen
    have hbegin : s.steps.get? name = some r := by
      rwa [Place.step?_scope, show (placeOf []).around.step? name = none from rfl, Option.or_none]
        at hseen
    have hmem := henters.names name (StepMap.mem_names_iff.mpr ⟨r, hbegin⟩)
    exact List.mem_cons.mpr (hmem.imp_right fun h => absurd h hchain)

/-- So it has a name that expressions can use. -/
theorem Comes.isStepName (h : Comes setup v.rest [] s x laps m) (hw : Walks v setup s request)
    (hv : validate v = []) (hframe : frame ∈ (placeOf laps).scope m)
    (hr : frame.steps.get? name = some r) : isStepName name = true := by
  obtain ⟨step, hmem, rfl⟩ := List.mem_map.mp (h.mem_stepNames hw hv hframe hr)
  exact isStepName_of_mem hv hmem

/-- Wherever the walk of a request comes to a step, the names in its scope refer to their records, except
words of the language and what a loop stands for; and that gives where the innermost loop is. A request
calls actions with inputs that are resolved in such scopes. -/
theorem names_refer (hv : validate v = []) (h : Walks v setup s request) :
    (∀ t o, request.Runs t o → ∀ e ∈ t, CalledIn setup v.rest [] s e.call) ∧
    ∀ x laps m, Comes setup v.rest [] s x laps m →
      (∀ frame ∈ (placeOf laps).scope m, ∀ name ∈ frame.steps.names,
        name ∉ keywords → ¬ Hidden ((placeOf laps).scope m) name →
          Refers ((placeOf laps).scope m) name) ∧
      ∀ c, ((placeOf laps).scope m).cursor? = some c → ∀ now,
        (c.item.Canonical →
          resolve ((placeOf laps).names m now) (.str (tokenText "item")) = .ok c.item) ∧
        (c.index < 0x10000000000000000 →
          resolve ((placeOf laps).names m now) (.str (tokenText "index")) = .ok (.int c.index)) := by
  refine ⟨fun t o run => h.comes hv run, fun x laps m hx => ⟨?_, fun c hc now => ?_⟩⟩
  · intro frame hframe name hname hkeyword hhidden
    obtain ⟨r, hr⟩ := StepMap.mem_names_iff.mp hname
    obtain ⟨r', hr'⟩ := exists_step? hframe hr
    exact .of_step? (hx.isStepName h hv hframe hr) hkeyword hhidden hr'
  · exact ⟨fun hitem => resolve_name (.item hc hitem), fun hindex => resolve_name (.index hc hindex)⟩

/-- In the second box the note of the first letter can refer to what the flow began with. -/
theorem start_referred : validate digest = [] ∧
    Walks digest ⟨posting, {}, none⟩ digestBegun
      (beginRun posting {} digest "run" none (.str "hello")) ∧
    Comes ⟨posting, {}, none⟩ digest.rest [] digestBegun letterNote [secondBox, firstLetter]
      firstLetter.inner ∧
    Refers ((placeOf [secondBox, firstLetter]).scope firstLetter.inner) "start" ∧
    resolve ((placeOf [secondBox, firstLetter]).names firstLetter.inner ⟨0, 0⟩)
      (.str (tokenText "item")) = .ok (.int 7) := by
  have hv : validate digest = [] := by decide
  have hwalks : Walks digest ⟨posting, {}, none⟩ digestBegun
      (beginRun posting {} digest "run" none (.str "hello")) := .begin posting {} "run" none _
  obtain ⟨hrefers, hcursor⟩ := (names_refer hv hwalks).2 _ _ _ letterNote_visited
  have hseven : (Json.int 7).Canonical := ⟨by decide, by decide⟩
  have hframe : ⟨secondBox.outer.steps, none⟩ ∈
      (placeOf [secondBox, firstLetter]).scope firstLetter.inner := by
    refine List.mem_cons_of_mem _ (List.mem_cons_of_mem _ ?_)
    exact List.mem_singleton_self _
  have hshown : ¬ Hidden ((placeOf [secondBox, firstLetter]).scope firstLetter.inner) "start" :=
    fun h => absurd h.2 (by decide)
  exact ⟨hv, hwalks, letterNote_visited, hrefers _ hframe "start" (by decide) (by decide) hshown,
    (hcursor ⟨.int 7, 0⟩ rfl ⟨0, 0⟩).1 hseven⟩

/-! ## A name that is hidden

A flow that begins with a step called `item` goes through a list. -/

/-- The note of something in the list. -/
def itemNote : Step :=
  .action ⟨"remark", "Remark"⟩ ⟨.block "mail" "note", .str "\x7b\x7bitem\x7d\x7d", .none⟩

/-- A flow whose first step cannot be referred to in a loop. -/
def parcels : Version where
  id := "parcels"
  displayName := "Parcels"
  first := .trigger ⟨"item", "Item"⟩ .empty
  rest := [.loop ⟨"each", "Each"⟩ ⟨.arr [.int 7], false, none⟩ [itemNote]]

/-- The flow when it begins. -/
def parcelsBegun : RunState := triggered parcels "run" none (.str "hello")

/-- The one iteration. -/
def onlyParcel : Lap where
  label := ⟨"each", "Each"⟩
  settings := ⟨.arr [.int 7], false, none⟩
  body := [itemNote]
  items := [.int 7]
  level := parcelsBegun
  index := 0
  item := .int 7
  kept := []

/-- In the loop the name of the first step gives what the loop is at, and not the output of the step. -/
theorem item_hidden : validate parcels = [] ∧
    Walks parcels ⟨posting, {}, none⟩ parcelsBegun
      (beginRun posting {} parcels "run" none (.str "hello")) ∧
    Comes ⟨posting, {}, none⟩ parcels.rest [] parcelsBegun itemNote [onlyParcel] onlyParcel.inner ∧
    ¬ ∀ frame ∈ (placeOf [onlyParcel]).scope onlyParcel.inner, ∀ name ∈ frame.steps.names,
      Refers ((placeOf [onlyParcel]).scope onlyParcel.inner) name := by
  have hitems : Template.resolve ((placeOf []).names parcelsBegun ⟨0, 0⟩) onlyParcel.settings.items =
      .ok (.arr [.int 7]) := rfl
  have henters : onlyParcel.Enters [] := ⟨rfl, rfl, [], .resolved rfl hitems rfl, rfl⟩
  refine ⟨by decide, .begin posting {} "run" none _, .loop onlyParcel henters .here, ?_⟩
  intro hall
  have hframe : ⟨onlyParcel.outer.steps, none⟩ ∈ (placeOf [onlyParcel]).scope onlyParcel.inner :=
    List.mem_cons_of_mem _ (List.mem_singleton_self _)
  obtain ⟨r, hr, hresolves⟩ := hall _ hframe "item" (by decide)
  have hrecord : ((placeOf [onlyParcel]).scope onlyParcel.inner).step? "item" =
      some (.action ⟨.succeeded, .obj [], none, none⟩ (.str "hello")) := rfl
  obtain rfl := Option.some.inj (hr.symm.trans hrecord)
  have hseven : resolve ((placeOf [onlyParcel]).names onlyParcel.inner ⟨0, 0⟩)
      (.str (tokenText "item")) = .ok (.int 7) :=
    resolve_name (.item (c := ⟨.int 7, 0⟩) rfl ⟨by decide, by decide⟩)
  cases (hresolves ⟨0, 0⟩).symm.trans hseven

end FlowEngine.Engine
