import FlowEngine.Proofs.Resumption.Action
import FlowEngine.Proofs.Resumption.Iterations
import FlowEngine.Proofs.Walk.Loop

/-!
# Walking a loop again

A loop that was cut short is walked again with the items that were recorded, each iteration from the
part of its records. One that was not entered before resolves its items as the whole walk did.

* `givenItems`, `runLoop_direct` — a loop in the whole walk.
* `Simulates.loop` — the walk of a loop, given that of its body.
-/

namespace FlowEngine.Engine

open FlowEngine.Run FlowEngine.Flow

variable {x : Rerun} {place place' : Place} {s s' : RunState} {name : String} {t : Trace}
  {settings : LoopSettings} {body wB : Body} {items : List Json}

/-! ## Items -/

/-- The items of a loop, given what became of their template. -/
def givenItems : Except Template.Failure Json → Option (List Json)
  | .ok resolved => (itemsOf (.ok resolved)).toOption
  | .error _ => none

/-- A loop after which the run goes on was given items, and its iterations were walked. -/
theorem runLoop_direct {setup : Setup} (hn : s.steps.get? name = none)
    (h : Job.Yields (runLoop setup place name settings wB s) t (.result (.ok s')))
    (hend : s'.verdict = .running) : ∃ now items started,
      givenItems (Template.resolve (place.names s now) settings.items) = some items ∧
      Job.Yields (walkItems setup place name settings wB started items [] s) t
        (.result (.ok s')) := by
  unfold runLoop at h
  rw [hn] at h
  rcases Job.Yields.of_clock h with ⟨-, ho⟩ | ⟨started, h⟩
  · cases ho
  have failed {message : String} {r : StepRecord}
      (h : Job.Yields (Walk.failed s name message r) t (.result (.ok s'))) : False := by
    obtain ⟨-, ho | ho⟩ := Job.Yields.done_iff.mp h <;> cases ho
    cases hend
  dsimp only [recordedLoop?] at h
  generalize hresolved : Template.resolve (place.names s started.now) settings.items = resolved at h
  rcases resolved with (e | _) | resolved
  · exact (failed h).elim
  · obtain ⟨-, ho | ho⟩ := Job.Yields.crash_iff.mp h <;> cases ho
  · cases hitems : itemsOf (.ok resolved) with
    | error message =>
      dsimp only [Walk.onTemplate] at h
      rw [hitems] at h
      exact (failed h).elim
    | ok items =>
      dsimp only [Walk.onTemplate] at h
      rw [hitems] at h
      exact ⟨started.now, items, started, by rw [hresolved, givenItems, hitems]; rfl, h⟩

/-- A loop without a record that is given items gives what its iterations give. -/
theorem runLoop_gives {answers : Answers} {setup : Setup} {Q : RunState → Prop}
    (hn : s.steps.get? name = none)
    (hitems : ∀ now, givenItems (Template.resolve (place.names s now) settings.items) = some items)
    (h : ∀ started, Gives answers (walkItems setup place name settings body started items [] s) Q) :
    Gives answers (runLoop setup place name settings body s) Q := by
  unfold runLoop
  rw [hn]
  refine .clock fun started => ?_
  have hitems := hitems started.now
  dsimp only [recordedLoop?]
  generalize Template.resolve (place.names s started.now) settings.items = resolved at hitems ⊢
  rcases resolved with e | resolved
  · cases hitems
  · dsimp only [Walk.onTemplate, givenItems] at hitems ⊢
    cases hresult : itemsOf (.ok resolved) with
    | error message => rw [hresult] at hitems; cases hitems
    | ok items' =>
      rw [hresult] at hitems
      cases hitems
      exact h started

/-- A loop that was entered before gives what its iterations give with the recorded items. -/
theorem runLoop_gives_again {answers : Answers} {setup : Setup} {Q : RunState → Prop}
    {summary : Summary} {item : Json} {index : Nat} {its : List StepMap}
    (hr : s.steps.get? name = some (.loop summary item index its))
    (hs : summary.status.isFinished = false) (hinput : summary.input = .obj [("items", .arr items)])
    (h : ∀ started, Gives answers (walkItems setup place name settings body started items its s) Q) :
    Gives answers (runLoop setup place name settings body s) Q := by
  unfold runLoop
  rw [hr, if_neg (by
    change ¬ summary.status.isFinished = true
    simp [hs])]
  refine .clock fun started => ?_
  have hrec : recordedLoop? (some (.loop summary item index its)) = some (items, its) := by
    simp [recordedLoop?, StepRecord.summary, hinput, Json.member?, StepRecord.iterations?]
  rw [hrec]
  exact h started

/-- The iterations of a loop give a state when all of them do. -/
theorem walkItems_gives {answers : Answers} {setup : Setup} {started : Reading Time.Instant}
    {its recorded : List StepMap} (hfit : fit items.length its = recorded)
    (hvisit : ∀ i item m, items[i]? = some item → recorded[i]? = some m →
      Gives answers ((looping name items place s body).visit i item m) fun _ => True) :
    Gives answers (walkItems setup place name settings body started items its s) fun _ => True := by
  intro t o hy ht
  by_cases ho : o = .pending
  · exact .inl ho
  by_contra hnot
  obtain ⟨-, hnone⟩ := not_or.mp hnot
  obtain ⟨i, item, m, t', hi, hy', hsub⟩ :=
    walkItems_fails hfit hy ho fun s hs => hnone ⟨s, hs, trivial⟩
  obtain ⟨hitem, hm⟩ := List.getElem?_zip_eq_some.mp hi
  rcases hvisit i item m hitem hm t' o hy' fun e he => ht e (hsub e he) with hp | ⟨s, hs, -⟩
  · exact ho hp
  · exact hnone ⟨s, hs, trivial⟩

/-! ## Iterations -/

/-- The record of a loop whose iterations all ended normally. -/
def completeLoop (items : List Json) (duration : Nat) (its : List StepMap) : StepRecord :=
  loopRecord .succeeded (.obj [("items", .arr items)]) none (some duration)
    (items.getD (items.length - 1) .null) (items.length - 1) its

theorem completeLoop_alike (items : List Json) {its its' : List StepMap}
    (h : StepRecord.timelessAll its' = StepRecord.timelessAll its) (duration duration' : Nat) :
    (completeLoop items duration' its').timeless = (completeLoop items duration its).timeless := by
  unfold completeLoop loopRecord
  rw [StepRecord.timeless, StepRecord.timeless, h]

/-- The record of a loop whose iteration is being walked. -/
def openLoop (items : List Json) (item : Json) (index : Nat) : StepRecord :=
  loopRecord .running (.obj [("items", .arr items)]) none none item index []

/-- An iteration is walked again like the whole one where the records around it are alike. -/
theorem Simulates.revisits {i : Nat} {item : Json} {whole : StepMap}
    (h : Simulates x body (place.enter (s.upsert name (openLoop items item i)) name ⟨item, i⟩) []
      whole)
    (haround : place'.around.timeless = place.around.timeless) (hcursor : place'.cursor = place.cursor)
    (hsteps : (s'.steps.insert name (openLoop items item i)).timeless =
      (s.steps.insert name (openLoop items item i)).timeless) :
    Revisits x ((looping name items place' s' body).visit i item) whole := by
  have hscope : (place'.scope (s'.upsert name (openLoop items item i))).timeless =
      (place.scope (s.upsert name (openLoop items item i))).timeless := by
    change (⟨_, place'.cursor⟩ : Template.Frame) :: place'.around.timeless =
      ⟨_, place.cursor⟩ :: place.around.timeless
    rw [haround, hcursor]
    exact congrArg (fun m : StepMap => (⟨m, place.cursor⟩ : Template.Frame) :: _) hsteps
  refine ⟨h.finished, fun m halike => ?_, fun waits m hpart hpayload => ?_⟩
  · exact ⟨s'.nested m, h.rests _ (s'.nested m) [] m [] (List.append_nil m).symm rfl halike, rfl⟩
  · exact h.gives waits _ (s'.nested m) [] m ⟨hscope, rfl, rfl, rfl, rfl, hpart, hpayload⟩

/-- What comes of the iterations of a loop that is walked again. -/
theorem walkItems_advances {before kept : StepMap} {its recorded wholes : List StepMap} {cut : Nat}
    {waits : Bool} {started : Reading Time.Instant} (hfresh : before.get? name = none)
    (hs : s.steps = before ++ kept) (hinsert : ∀ r, kept.insert name r = [(name, r)])
    (hcount : kept.finishedCount ≤ StepRecord.finishedAll recorded)
    (hfit : fit items.length its = recorded) (hlength : recorded.length = items.length)
    (hparts : PartsOf x.asks waits cut recorded wholes)
    (hpayload : (∀ m ∈ recorded, m = []) ∨ x.setup.payload.getD .empty = x.payload)
    (hvisit : ∀ i item whole, items[i]? = some item → wholes[i]? = some whole →
      Revisits x ((looping name items place s body).visit i item) whole) (duration : Nat) :
    Gives x.answers (walkItems x.setup place name settings body started items its s)
      (Advances x waits before kept [(name, completeLoop items duration wholes)]) := by
  refine .of_ok (walkItems_gives hfit fun i item m hitem hm => ?_) fun t s' h ht => ?_
  · obtain ⟨whole, hwhole⟩ := exists_getElem? hparts.length hm
    exact ((hvisit i item _ hitem hwhole).gives _ m (hparts.each i m _ hm hwhole)
      (hpayload.imp (fun h => h m (List.mem_of_getElem? hm)) id)).mono fun _ _ => trivial
  · have hput (r : StepRecord) : s.steps.insert name r = before ++ [(name, r)] := by
      rw [hs, StepMap.insert_append _ hfresh, hinsert]
    have hfinished (r : StepRecord) : StepMap.finishedCount [(name, r)] = r.finishedCount := rfl
    obtain ⟨traces, kids, maps, decisive, duration', hit, rfl⟩ := (walkItems_yields hfit h).2 s' rfl
    obtain ⟨hmore, ⟨rfl, halike⟩ | ⟨i, p, rfl, hcut⟩⟩ :=
      hit.advances ht hlength hparts hpayload hvisit
    · refine ⟨[(name, completeLoop items duration' maps)], hput _, ?_, .inl ⟨rfl, ?_⟩⟩
      · rw [hfinished, completeLoop, loopRecord, StepRecord.finishedCount]
        omega
      · rw [StepMap.timeless_cons, completeLoop_alike items halike duration duration']
        rfl
    · refine ⟨[(name, loopRecord .paused _ none (some duration') _ i maps)], hput _, ?_,
        .inr ⟨rfl, .loop i rfl rfl hcut.length hcut.within hcut.before hcut.each⟩⟩
      rw [hfinished, loopRecord, StepRecord.finishedCount]
      omega

/-! ## The walk -/

/-- All iterations of a loop that has none of its records are to be walked from the beginning. -/
theorem PartsOf.fresh (asks : String → Json → Prop) (wholes : List StepMap) :
    PartsOf asks false 0 (List.replicate wholes.length []) wholes where
  length := List.length_replicate
  within h := by cases h
  before h := by cases h
  each i m m' hm _ := by
    rw [List.eq_of_mem_replicate (List.mem_of_getElem? hm)]
    exact .nil m'

section

variable {wholes : List StepMap} {before kept : StepMap} {waits : Bool} {duration : Nat}

/-- Every iteration of the whole walk of a loop is simulated by the body. -/
def SimulatesEach (x : Rerun) (body : Body) (place : Place) (s : RunState) (name : String)
    (items : List Json) (wholes : List StepMap) : Prop :=
  ∀ i item m, items[i]? = some item → wholes[i]? = some m → Simulates x body
    (place.enter (s.upsert name (openLoop items item i)) name ⟨item, i⟩) [] m

/-- Every iteration of the whole walk was walked from the beginning, and ended normally. -/
theorem Iterated.simulated {traces : Nat → Trace} {kids : List (Option RunState)}
    (hit : Iterated (looping name items place s wB).visit (items.zip (List.replicate items.length []))
      t traces kids wholes none) (ht : x.direct.Explains t) (hfresh : s.steps.get? name = none)
    (hfits : (place.scope s).Fits x.kinds) (hkind : x.kinds name .loopOnItems)
    (hbody : ∀ place s t s', s.verdict = .running → s.steps = [] → place.around.Fits x.kinds →
      Job.Yields (wB place s) t (.result (.ok s')) → x.direct.Explains t →
      s'.verdict = .running → s'.steps.Fits x.kinds ∧ Simulates x body place [] s'.steps)
    {i : Nat} {item : Json} {m : StepMap} (hitem : items[i]? = some item) (hm : wholes[i]? = some m) :
    m.Fits x.kinds ∧ Simulates x body
      (place.enter (s.upsert name (openLoop items item i)) name ⟨item, i⟩) [] m := by
  have hscope : (place.scope (s.upsert name (openLoop items item i))).Fits x.kinds := by
    obtain ⟨hsteps, haround⟩ := List.forall_mem_cons.mp hfits
    refine Template.Scope.fits_push ?_ haround
    rw [show (s.upsert name (openLoop items item i)).steps = _ from StepMap.insert_of_none _ hfresh]
    exact StepMap.fits_append.mpr ⟨hsteps, ⟨hkind, trivial⟩, trivial⟩
  have hzip : (items.zip (List.replicate items.length ([] : StepMap)))[i]? = some (item, []) := by
    refine List.getElem?_zip_eq_some.mpr ⟨hitem, ?_⟩
    rw [List.getElem?_replicate, if_pos (List.getElem?_eq_some_iff.mp hitem).1]
  obtain ⟨m', hm', hafter⟩ := hit.maps i item [] hzip
  obtain rfl := Option.some.inj (hm.symm.trans hm')
  obtain ⟨kid, hkid⟩ := hit.ran_of_decides hzip
  rw [hafter.kept kid hkid hit.decides.not_repeats]
  exact hbody _ (s.nested []) (traces i) kid rfl rfl hscope (hit.ran i item [] kid hzip hkid)
    (fun e he => ht e ((hit.mixed.mem_iff e).mpr ⟨i, he⟩)) (hit.decides i kid hkid)

/-- Iterations are walked again where the records around them are alike. -/
theorem SimulatesEach.revisits (h : SimulatesEach x body place s name items wholes)
    (hfresh : s.steps.get? name = none) {whole : StepMap}
    (hcut : Cut x place s.steps whole waits place' s' before kept)
    (hinsert : ∀ r, kept.insert name r = [(name, r)]) (i : Nat) (item : Json) (m : StepMap)
    (hitem : items[i]? = some item) (hm : wholes[i]? = some m) :
    Revisits x ((looping name items place' s' body).visit i item) m := by
  refine (h i item m hitem hm).revisits hcut.around hcut.cursor ?_
  rw [hcut.steps, StepMap.insert_append _ (StepMap.get?_eq_none_of_alike hcut.alike hfresh), hinsert,
    StepMap.insert_of_none _ hfresh, StepMap.timeless_append, StepMap.timeless_append, hcut.alike]

/-- A loop that was not entered before is walked again from the beginning. -/
theorem SimulatesEach.begins (h : SimulatesEach x body place s name items wholes)
    (hlength : wholes.length = items.length)
    (hreads : Reads x.kinds name fun names => Template.resolve names settings.items)
    (hfresh : s.steps.get? name = none) (hfits : (place.scope s).Fits x.kinds) {now : Time.Instant}
    (hitems : givenItems (Template.resolve (place.names s now) settings.items) = some items)
    (hcut : Cut x place s.steps [(name, completeLoop items duration wholes)] false place' s' before
      []) :
    Gives x.answers (runLoop x.setup place' name settings body s')
      (Advances x false before [] [(name, completeLoop items duration wholes)]) := by
  have hbefore : before.get? name = none := StepMap.get?_eq_none_of_alike hcut.alike hfresh
  have hnone : s'.steps.get? name = none := by rw [hcut.steps, List.append_nil, hbefore]
  have halike : AlikeBut name (place.scope s) (place'.scope s') := hcut.alikeBut fun _ _ => rfl
  refine runLoop_gives hnone (fun now' => (congrArg givenItems
    (hreads _ _ now now' hfits halike)).trans hitems) fun started => ?_
  exact walkItems_advances hbefore hcut.steps (fun _ => rfl) (Nat.zero_le _) (fit_nil _)
    List.length_replicate (hlength ▸ PartsOf.fresh x.asks wholes)
    (.inl fun m hm => List.eq_of_mem_replicate hm) (h.revisits hfresh hcut fun _ => rfl) duration

/-- A loop that was cut short is walked again with the recorded items. -/
theorem SimulatesEach.resumes (h : SimulatesEach x body place s name items wholes)
    (hlength : wholes.length = items.length) (hfresh : s.steps.get? name = none) {summary : Summary}
    {item : Json} {index cut : Nat} {its : List StepMap}
    (hcut : Cut x place s.steps [(name, completeLoop items duration wholes)] waits place' s' before
      [(name, .loop summary item index its)])
    (hs : summary.status.isFinished = false) (hinput : summary.input = .obj [("items", .arr items)])
    (hparts : PartsOf x.asks waits cut its wholes) :
    Gives x.answers (runLoop x.setup place' name settings body s')
      (Advances x waits before [(name, .loop summary item index its)]
        [(name, completeLoop items duration wholes)]) := by
  have hprior : s'.steps.get? name = some (.loop summary item index its) := by
    rw [hcut.steps]
    exact StepMap.get?_append_cons hfresh hcut.alike _ []
  have hits : its.length = items.length := hparts.length.trans hlength
  refine runLoop_gives_again hprior hs hinput fun started => ?_
  refine walkItems_advances (StepMap.get?_eq_none_of_alike hcut.alike hfresh) hcut.steps
    (fun _ => if_pos rfl) ?_ (fit_of_length hits) hits hparts
    (.inr (hcut.payload.resolve_left (List.cons_ne_nil _ _)))
    (h.revisits hfresh hcut fun _ => if_pos rfl) duration
  change (if summary.status.isFinished then 1 else 0) + StepRecord.finishedAll its + 0 ≤ _
  rw [hs]
  exact Nat.le_of_eq (Nat.zero_add _)

end

/-- The walk of a loop simulates the whole one when the walks of its body do. -/
theorem Simulates.loop
    (hreads : Reads x.kinds name fun names => Template.resolve names settings.items)
    (hfresh : s.steps.get? name = none) (hfits : (place.scope s).Fits x.kinds)
    (hkind : x.kinds name .loopOnItems)
    (h : Job.Yields (runLoop x.beginning place name settings wB s) t (.result (.ok s')))
    (ht : x.direct.Explains t) (hend : s'.verdict = .running)
    (hbody : ∀ place s t s', s.verdict = .running → s.steps = [] → place.around.Fits x.kinds →
      Job.Yields (wB place s) t (.result (.ok s')) → x.direct.Explains t →
      s'.verdict = .running → s'.steps.Fits x.kinds ∧ Simulates x body place [] s'.steps) :
    ∃ r, s'.steps = s.steps ++ [(name, r)] ∧ r.Fits x.kinds name ∧
      Simulates x (fun place s => runLoop x.setup place name settings body s) place s.steps
        [(name, r)] := by
  obtain ⟨now, items, started, hitems, h⟩ := runLoop_direct hfresh h hend
  obtain ⟨traces, kids, wholes, decisive, duration, hit, rfl⟩ :=
    (walkItems_yields (fit_nil _) h).2 s' rfl
  obtain rfl := closeLoop_running hit.decides hend
  have hlength : wholes.length = items.length := by
    rw [hit.mapsLength, List.length_zip, List.length_replicate, Nat.min_self]
  have hwholes : StepRecord.FitAll x.kinds wholes := StepRecord.fitAll_iff.mpr fun m hm => by
    obtain ⟨i, hm⟩ := List.getElem?_of_mem hm
    obtain ⟨item, hitem⟩ := exists_getElem? hlength hm
    exact (hit.simulated ht hfresh hfits hkind hbody hitem hm).1
  have heach : SimulatesEach x body place s name items wholes := fun _ _ _ hitem hm =>
    (hit.simulated ht hfresh hfits hkind hbody hitem hm).2
  refine ⟨completeLoop items duration wholes, StepMap.insert_of_none _ hfresh, ⟨hkind, hwholes⟩,
    .one hfresh rfl (fun _ _ _ => runLoop_rests) fun waits place' s' before kept hcut => ?_⟩
  have hpart := hcut.part
  cases hpart with
  | nil => exact .inr (heach.begins hlength hreads hfresh hfits hitems hcut)
  | @cons _ _ _ r' _ _ alike _ rest =>
    obtain ⟨rfl, rfl⟩ := rest.eq_nil
    refine .inl ⟨rfl, ?_⟩
    rw [StepMap.timeless_cons, alike]
    rfl
  | action _ kind => cases kind
  | loop cut unfinished input length within complete each =>
    exact .inr (heach.resumes hlength hfresh hcut unfinished input ⟨length, within, complete, each⟩)

end FlowEngine.Engine
