import FlowEngine.Proofs.Records.Position

/-!
# Withdrawing pauses

A paused run is walked again without its pauses: the actions that wait are forgotten, and the loops
around them run again in the iterations that they had.

* `StepMap.PausedAbove` — the loops around a paused record are paused; `PauseChain.pausedAbove`.
* `StepMap.mapAt?_withdrawPauses` — then withdrawing pauses is the same at every level.
* `Withdrawn` — what a map is like without the pauses of another one.
* `withdrawPauses_withdraws` — that is what is left, and withdrawing pauses name by name leaves it.
-/

namespace FlowEngine.Run

namespace StepMap

/-! ## Paused loops -/

/-- All loops around a paused record are paused. -/
def PausedAbove (m : StepMap) : Prop :=
  ∀ (around inner : List (String × Nat)) (l : String) (i : Nat) (n : String) (r : StepRecord),
    m.at? ⟨around ++ (l, i) :: inner, n⟩ = some r → r.status = .paused →
      ∃ rl, m.at? ⟨around, l⟩ = some rl ∧ rl.status = .paused

/-- No record at any depth is paused. -/
def NonePaused (m : StepMap) : Prop := ∀ p r, m.at? p = some r → r.status ≠ .paused

theorem Quiet.nonePaused {m : StepMap} (h : m.Quiet) : m.NonePaused :=
  fun _ _ hr => (h.at? hr).status_ne

theorem Tidy.quiet {m : StepMap} (hm : m.Tidy) (h : m.NonePaused) : m.Quiet := by
  induction hm with
  | @intro m nodup inner ih =>
    refine quiet_of_get? nodup fun n r hr => ?_
    have hstatus : r.status ≠ .paused := h ⟨[], n⟩ r hr
    cases r with
    | loop s item index its =>
      refine StepRecord.quiet_loop_iff.mpr ⟨hstatus, fun k hk => ?_⟩
      obtain ⟨i, hi⟩ := List.getElem?_of_mem hk
      exact ih n _ its k hr rfl hk fun p r' hr' =>
        h (p.inside n i) r' (at?_inside_eq_some.mpr ⟨_, its, k, hr, rfl, hi, hr'⟩)
    | _ => exact StepRecord.quiet_of_status_ne hstatus rfl

/-- Loop by loop: in a loop that is not paused, nothing is. -/
theorem pausedAbove_iff {m : StepMap} :
    m.PausedAbove ↔ ∀ (l : String) (i : Nat) (rl : StepRecord) (its : List StepMap) (k : StepMap),
      m.get? l = some rl → rl.iterations? = some its → its[i]? = some k →
        k.PausedAbove ∧ (rl.status ≠ .paused → k.NonePaused) := by
  constructor
  · refine fun h l i rl its k hl hits hk => ⟨fun around inner l' j n r hr hs => ?_, ?_⟩
    · obtain ⟨rl', hrl', hs'⟩ := h ((l, i) :: around) inner l' j n r
        (at?_inside_eq_some.mpr ⟨rl, its, k, hl, hits, hk, hr⟩) hs
      obtain ⟨rl₁, its₁, k₁, hl₁, hits₁, hk₁, hrl'⟩ :=
        (at?_inside_eq_some (p := ⟨around, l'⟩)).mp hrl'
      cases hl.symm.trans hl₁
      cases hits.symm.trans hits₁
      cases hk.symm.trans hk₁
      exact ⟨rl', hrl', hs'⟩
    · intro hne p r hr hs
      obtain ⟨rl', hrl', hs'⟩ := h [] p.loops l i p.name r
        (at?_inside_eq_some.mpr ⟨rl, its, k, hl, hits, hk, hr⟩) hs
      cases hl.symm.trans hrl'
      exact hne hs'
  · intro h around inner l i n r hr hs
    cases around with
    | nil =>
      obtain ⟨rl, its, k, hl, hits, hk, hr⟩ := (at?_inside_eq_some (p := ⟨inner, n⟩)).mp hr
      refine ⟨rl, hl, ?_⟩
      by_contra hne
      exact (h l i rl its k hl hits hk).2 hne _ r hr hs
    | cons e around =>
      obtain ⟨rl, its, k, hl, hits, hk, hr⟩ :=
        (at?_inside_eq_some (p := ⟨around ++ (l, i) :: inner, n⟩)).mp hr
      obtain ⟨rl', hrl', hs'⟩ :=
        (h e.1 e.2 rl its k hl hits hk).1 around inner l i n r hr hs
      exact ⟨rl', (at?_inside_eq_some (p := ⟨around, l⟩)).mpr ⟨rl, its, k, hl, hits, hk, hrl'⟩, hs'⟩

theorem NonePaused.pausedAbove {m : StepMap} (h : m.NonePaused) : m.PausedAbove :=
  fun _ _ _ _ _ r hr hs => absurd hs (h _ r hr)

/-- One record among quiet ones: only the maps of its own iterations count. -/
theorem pausedAbove_of_quiet {before after : StepMap} {n : String} {r : StepRecord}
    (hb : before.Quiet) (ha : after.Quiet)
    (h : ∀ (i : Nat) (its : List StepMap) (k : StepMap), r.iterations? = some its →
      its[i]? = some k → k.PausedAbove ∧ (r.status ≠ .paused → k.NonePaused)) :
    PausedAbove (before ++ (n, r) :: after) := by
  have inQuiet {rl : StepRecord} {its : List StepMap} {i : Nat} {k : StepMap} (hq : rl.Quiet)
      (hits : rl.iterations? = some its) (hk : its[i]? = some k) :
      k.PausedAbove ∧ (rl.status ≠ .paused → k.NonePaused) :=
    have hk := (hq.iteration hits (List.mem_of_getElem? hk)).nonePaused
    ⟨hk.pausedAbove, fun _ => hk⟩
  refine pausedAbove_iff.mpr fun l i rl its k hl hits hk => ?_
  rcases List.mem_append.mp (mem_of_get? hl) with hmem | hmem
  · exact inQuiet (quiet_iff.mp hb _ _ hmem) hits hk
  rcases List.mem_cons.mp hmem with hmem | hmem
  · cases hmem
    exact h i its k hits hk
  · exact inQuiet (quiet_iff.mp ha _ _ hmem) hits hk

end StepMap

/-- In a paused run, the loops around the action that waits are paused. -/
theorem PauseChain.pausedAbove {m : StepMap} {path : List (String × Nat)} {name : String}
    {summary : Summary} {output : Json} (h : PauseChain m path name summary output) :
    m.PausedAbove := by
  induction h with
  | action _ hb ha => exact StepMap.pausedAbove_of_quiet hb ha fun _ _ _ hits => by cases hits
  | @loop _ _ _ _ _ _ _ _ index _ _ _ paused hb ha shown quiet _ ih =>
    refine StepMap.pausedAbove_of_quiet hb ha fun i its k hits hk => ?_
    cases hits
    refine ⟨?_, fun hne => absurd paused hne⟩
    by_cases hi : i = index
    · subst hi
      cases shown.symm.trans hk
      exact ih
    · exact (quiet i k hi hk).nonePaused.pausedAbove

namespace StepMap

/-! ## At every level -/

theorem Quiet.withdrawPauses {m : StepMap} (h : m.Quiet) : m.withdrawPauses = m := by
  rw [withdrawPauses_eq]
  refine (edit_congr fun n r hr => ?_).trans (edit_some m)
  exact (quiet_iff.mp h n r hr).withoutPause

theorem Quiet.mapAt? {m k : StepMap} (h : m.Quiet) {loops : List (String × Nat)}
    (hk : m.mapAt? loops = some k) : k.Quiet := by
  induction loops generalizing m with
  | nil => cases hk; exact h
  | cons e loops ih =>
    simp only [StepMap.mapAt?, Option.bind_eq_bind, Option.bind_eq_some_iff] at hk
    obtain ⟨r, hr, its, hits, k', hk', hk⟩ := hk
    exact ih ((h.get? hr).iteration hits (List.mem_of_getElem? hk')) hk

/-- Every level is left without its pauses. -/
theorem mapAt?_withdrawPauses {m : StepMap} (hm : m.Tidy) (hp : m.PausedAbove)
    (loops : List (String × Nat)) :
    m.withdrawPauses.mapAt? loops = (m.mapAt? loops).map StepMap.withdrawPauses := by
  induction loops generalizing m with
  | nil => rfl
  | cons e loops ih =>
    obtain ⟨l, i⟩ := e
    simp only [mapAt?, Option.bind_eq_bind, get?_withdrawPauses hm.nodup]
    cases hl : m.get? l with
    | none => rfl
    | some rl =>
      simp only [Option.bind_some]
      by_cases hs : rl.status = .paused
      · cases rl with
        | loop s item index its =>
          rw [StepRecord.withoutPause_loop (s := s) hs]
          simp only [Option.bind_some, StepRecord.iterations?, List.getElem?_map]
          cases hk : its[i]? with
          | none => rfl
          | some k =>
            exact ih (hm.inner hl rfl (List.mem_of_getElem? hk))
              (pausedAbove_iff.mp hp l i _ its k hl rfl hk).1
        | _ => rw [StepRecord.withoutPause_eq_none hs rfl]; rfl
      · rw [StepRecord.withoutPause_of_status_ne hs, Option.bind_some]
        cases hits : rl.iterations? with
        | none => rfl
        | some its =>
          simp only [Option.bind_some]
          cases hk : its[i]? with
          | none => rfl
          | some k =>
            simp only [Option.bind_some]
            have hquiet : k.Quiet := (hm.inner hl hits (List.mem_of_getElem? hk)).quiet
              ((pausedAbove_iff.mp hp l i rl its k hl hits hk).2 hs)
            cases hk' : k.mapAt? loops with
            | none => rfl
            | some k' => rw [Option.map_some, (hquiet.mapAt? hk').withdrawPauses]

theorem Tidy.mapAt? {m k : StepMap} (hm : m.Tidy) {loops : List (String × Nat)}
    (hk : m.mapAt? loops = some k) : k.Tidy := by
  induction loops generalizing m with
  | nil => cases hk; exact hm
  | cons e loops ih =>
    simp only [StepMap.mapAt?, Option.bind_eq_bind, Option.bind_eq_some_iff] at hk
    obtain ⟨r, hr, its, hits, k', hk', hk⟩ := hk
    exact ih (hm.inner hr hits (List.mem_of_getElem? hk')) hk

theorem at?_withdrawPauses {m : StepMap} (hm : m.Tidy) (hp : m.PausedAbove) (p : Position) :
    m.withdrawPauses.at? p = (m.at? p).bind StepRecord.withoutPause := by
  simp only [at?, Option.bind_eq_bind, mapAt?_withdrawPauses hm hp]
  cases hk : m.mapAt? p.loops with
  | none => rfl
  | some k => exact get?_withdrawPauses (hm.mapAt? hk).nodup p.name

/-- The records that stay keep their order. -/
theorem names_withdrawPauses (m : StepMap) :
    m.withdrawPauses.names =
      names (m.filter fun s => decide (s.2.status ≠ .paused) || s.2.iterations?.isSome) := by
  induction m with
  | nil => rfl
  | cons s m ih =>
    obtain ⟨n, r⟩ := s
    have hcons (r' : StepRecord) : names ([(n, r')] ++ withdrawPauses m) =
        n :: names (m.filter fun s => decide (s.2.status ≠ .paused) || s.2.iterations?.isSome) :=
      congrArg (n :: ·) ih
    rw [withdrawPauses_cons, List.filter_cons]
    by_cases hs : r.status = .paused
    · cases r with
      | loop summary item index its =>
        rw [StepRecord.withoutPause_loop (s := summary) hs,
          if_pos (by simp [StepRecord.iterations?])]
        exact hcons _
      | _ =>
        rw [StepRecord.withoutPause_eq_none hs rfl, if_neg (by simp [hs, StepRecord.iterations?])]
        exact ih
    · rw [StepRecord.withoutPause_of_status_ne hs, if_pos (by simp [hs])]
      exact hcons r

end StepMap

/-! ## What is left -/

/-- A map without the pauses of another one. -/
structure Withdrawn (m m' : StepMap) : Prop where
  /-- Nothing is paused, at any depth. -/
  quiet : m'.pauses = []
  /-- What was not paused is the same. -/
  same : ∀ p r, m.at? p = some r → r.status ≠ .paused → m'.at? p = some r
  /-- What was paused is gone, but for loops. -/
  gone : ∀ p r, m.at? p = some r → r.status = .paused → r.iterations? = none → m'.at? p = none
  /-- Loops that were paused run, and have as many iterations as before. -/
  reopened : ∀ p s item index iterations, m.at? p = some (.loop s item index iterations) →
    s.status = .paused → ∃ iterations', iterations'.length = iterations.length ∧
      m'.at? p = some (.loop { s with status := .running } item index iterations')
  /-- At every level, all other records are left in the order that they had. -/
  order : ∀ loops k, m.mapAt? loops = some k → ∃ k', m'.mapAt? loops = some k' ∧
    k'.names = StepMap.names (k.filter fun s =>
      decide (s.2.status ≠ .paused) || s.2.iterations?.isSome)
  /-- There are no other levels. -/
  levels : ∀ loops k', m'.mapAt? loops = some k' → ∃ k, m.mapAt? loops = some k

theorem withdrawn_withdrawPauses {m : StepMap} (hm : m.Tidy) (hp : m.PausedAbove) :
    Withdrawn m m.withdrawPauses where
  quiet := by
    refine hm.withdrawPauses.quiet fun p r hr => ?_
    rw [StepMap.at?_withdrawPauses hm hp, Option.bind_eq_some_iff] at hr
    obtain ⟨r₀, -, hr⟩ := hr
    exact StepRecord.status_ne_of_withoutPauseBy hr
  same p r hr hs := by
    rw [StepMap.at?_withdrawPauses hm hp, hr, Option.bind_some,
      StepRecord.withoutPause_of_status_ne hs]
  gone p r hr hs hits := by
    rw [StepMap.at?_withdrawPauses hm hp, hr, Option.bind_some,
      StepRecord.withoutPause_eq_none hs hits]
  reopened p s item index iterations hr hs := by
    refine ⟨iterations.map StepMap.withdrawPauses, List.length_map _, ?_⟩
    rw [StepMap.at?_withdrawPauses hm hp, hr, Option.bind_some, StepRecord.withoutPause_loop hs]
  order loops k hk := by
    refine ⟨k.withdrawPauses, ?_, k.names_withdrawPauses⟩
    rw [StepMap.mapAt?_withdrawPauses hm hp, hk, Option.map_some]
  levels loops k' hk := by
    rw [StepMap.mapAt?_withdrawPauses hm hp, Option.map_eq_some_iff] at hk
    obtain ⟨k, hk, -⟩ := hk
    exact ⟨k, hk⟩

/-- Where the loops around paused records are paused, the steps that are paused are gone through one
by one, down to the innermost loops. No pause is left then and nothing else is changed; a second
time changes nothing; and going through any names with those of the paused steps among them, one
after the other, leaves the same map. -/
theorem withdrawPauses_withdraws {m : StepMap} (hm : m.Tidy) (hp : m.PausedAbove) :
    m.withdrawPauses = (m.withStatus .paused).foldl StepMap.withdrawPause m ∧
      Withdrawn m m.withdrawPauses ∧ m.withdrawPauses.withdrawPauses = m.withdrawPauses ∧
      ∀ (s : RunState) (names : List String), s.steps = m →
        (∀ n r, m.get? n = some r → r.status = .paused → n ∈ names) →
        s.withoutPauses names = { s with steps := m.withdrawPauses } := by
  have spec := withdrawn_withdrawPauses hm hp
  refine ⟨(StepMap.foldl_withdrawPause (List.Subset.refl _)).symm, spec,
    StepMap.Quiet.withdrawPauses spec.quiet, ?_⟩
  rintro s names rfl hnames
  have hcover : s.steps.withStatus .paused ⊆ names := fun n hn => by
    obtain ⟨r, hr, hs⟩ := StepMap.mem_withStatus.mp hn
    exact hnames n r (StepMap.get?_of_mem hm.nodup hr) hs
  rw [RunState.withoutPauses, StepMap.foldl_withdrawPause hcover]

/-- The record of an action that is done. -/
def logged : StepRecord := .action ⟨.succeeded, .null, none, some 5⟩ (.str "logged")

/-- A loop whose second iteration waits. -/
def awaiting : StepMap :=
  [("each", .loop ⟨.paused, .null, none, none⟩ .null 1
    [[("log", logged)], [("log", logged), ("ask", .action ⟨.paused, .null, none, none⟩ .null)]]),
    ("last", logged)]

theorem awaiting_withdrawn : awaiting.Tidy ∧ awaiting.PausedAbove ∧
    Withdrawn awaiting awaiting.withdrawPauses ∧
    awaiting.withdrawPauses =
      [("each", .loop ⟨.running, .null, none, none⟩ .null 1 [[("log", logged)], [("log", logged)]]),
        ("last", logged)] := by
  have before : StepMap.Quiet [("log", logged)] := rfl
  have after : StepMap.Quiet [("last", logged)] := rfl
  have nothing : StepMap.Quiet [] := rfl
  have hchain : PauseChain awaiting [("each", 1)] "ask" ⟨.paused, .null, none, none⟩ .null := by
    refine (PauseChain.of_loop rfl rfl (fun i k hi hk => ?_)
      ((PauseChain.of_action rfl).frame before nothing)).frame nothing after
    match i, hi, hk with
    | 0, _, hk => cases hk; exact before
    | 1, hi, _ => exact absurd rfl hi
  have leaf {k : StepMap} (hk : k.Tidy) (n : String) {r : StepRecord} (h : r.iterations? = none) :
      (k.insert n r).Tidy := hk.insert n fun _ _ hits _ => by cases h.symm.trans hits
  have hm : awaiting.Tidy := by
    refine leaf (StepMap.tidy_nil.insert "each" fun its k hits hk => ?_) "last" rfl
    cases hits
    rcases List.mem_pair.mp hk with rfl | rfl
    · exact leaf StepMap.tidy_nil "log" rfl
    · exact leaf (leaf StepMap.tidy_nil "log" rfl) "ask" rfl
  exact ⟨hm, hchain.pausedAbove, (withdrawPauses_withdraws hm hchain.pausedAbove).2.1, by decide⟩

end FlowEngine.Run
