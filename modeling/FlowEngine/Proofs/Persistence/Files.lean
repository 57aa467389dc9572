import FlowEngine.Store.Load
import FlowEngine.Store.Memory
import FlowEngine.Proofs.Persistence.Texts

/-!
# Runs in files

* `Tree.read_write` — what is written to a file is read from it.
* `Tree.loadRun_storeRun` — which of the runs that are stored can be loaded again, and as what.
-/

namespace FlowEngine.Store

variable {t t' : Tree} {path text : String} {s : Run.RunState}

namespace Tree

/-- What is written to a file is read from it. -/
theorem read_write (h : t.write path text = .ok t') : t'.read path = .ok text := by
  unfold write at h
  dsimp only at h
  generalize hnames : pathNames path = names at h
  split_ifs at h with hblocked hdirectory hparent
  cases h
  simp only [Bool.or_eq_true, not_or, Bool.not_eq_true] at hblocked hdirectory
  have hlookup : ((t.texts.filter fun f => f.1 != names) ++ [(names, text)]).lookup names = some text := by
    rw [List.lookup_append, List.lookup_eq_none_iff.mpr]
    · simp
    · intro f hf
      simpa [bne_iff_ne, ne_comm] using (List.mem_filter.mp hf).2
  have hfiltered {p : List String × String → Bool} (hp : t.texts.any p = false)
      (hnew : p (names, text) = false) :
      ((t.texts.filter fun f => f.1 != names) ++ [(names, text)]).any p = false := by
    rw [List.any_eq_false] at hp ⊢
    intro f hf
    rcases List.mem_append.mp hf with hf | hf
    · exact hp f (List.mem_of_mem_filter hf)
    · rw [List.mem_singleton.mp hf, hnew]
      decide
  have hnew (b : Bool) : (b && ((names, text) : List String × String).1 != names) = false := by simp
  unfold isBlocked at hblocked
  unfold isDirectory at hdirectory
  rw [Bool.or_eq_false_iff] at hdirectory
  rw [read, hnames]
  simp only [isBlocked, isDirectory, hfiltered hblocked (hnew _), hfiltered hdirectory.1.2 (hnew _),
    hdirectory.1.1, hlookup, hdirectory.2]
  rfl

/-- Files in the memory of a program. -/
abbrev memory : Files (StateM Tree) := files get set

theorem modify_apply (change : Tree → Except FileError Tree) (t : Tree) :
    (modify get set change : StateM Tree (Except FileError Unit)) t =
      match change t with
      | .ok t' => (.ok (), t')
      | .error e => (.error e, t) := by
  have heval : (modify get set change : StateM Tree (Except FileError Unit)) t =
      (match change t with
        | .ok t' => do set t'; pure (.ok ())
        | .error e => pure (.error e) : StateM Tree (Except FileError Unit)) t := rfl
  rw [heval]
  cases change t <;> rfl

/-- Writes the text of a run. -/
def writeRun (path : String) (s : Run.RunState) : ExceptT Trouble (StateM Tree) Unit := do
  match ← memory.write path s.toText with
  | .ok () => pure ()
  | .error error => throw (.writing path error)

theorem writeRun_ok (h : (writeRun path s).run t = (.ok (), t')) : t.write path s.toText = .ok t' := by
  have heval : (writeRun path s).run t =
      (match ((modify get set fun t => t.write path s.toText : StateM Tree _) t).1 with
        | .ok () => pure ()
        | .error error => throw (.writing path error) : ExceptT Trouble (StateM Tree) Unit).run
          ((modify get set fun t => t.write path s.toText : StateM Tree _) t).2 := rfl
  rw [heval, modify_apply] at h
  rcases hwrite : t.write path s.toText with e | t₁
  · rw [hwrite] at h
    cases (Prod.mk.inj h).1
  · rw [hwrite] at h
    rw [← (Prod.mk.inj h).2]

/-- A run can be written to a file that is in no directory. -/
theorem storeRun_of_write (hparent : parent? path = some "") (hwrite : t.write path s.toText = .ok t') :
    (memory.storeRun path s).run t = (.ok (), t') := by
  have heval : (writeRun path s).run t = (.ok (), t') := by
    have hmodify := modify_apply (fun t => t.write path s.toText) t
    rw [hwrite] at hmodify
    exact congrArg (fun r : Except FileError Unit × Tree => (match r.1 with
      | .ok () => pure ()
      | .error error => throw (.writing path error) : ExceptT Trouble (StateM Tree) Unit).run r.2) hmodify
  unfold Files.storeRun
  rw [hparent]
  exact heval

/-- A run that is stored is written to its file. -/
theorem write_of_storeRun (hstore : (memory.storeRun path s).run t = (.ok (), t')) :
    ∃ t₁ : Tree, t₁.write path s.toText = .ok t' := by
  unfold Files.storeRun at hstore
  split at hstore
  · exact ⟨t, writeRun_ok hstore⟩
  · exact ⟨t, writeRun_ok hstore⟩
  next directory _ _ =>
    -- the directory is created first
    change (match ((modify get set fun t => t.makeDirectory directory : StateM Tree _) t).1 with
      | .ok () => writeRun path s
      | .error error => throw (.creating directory error) : ExceptT Trouble (StateM Tree) Unit).run
        ((modify get set fun t => t.makeDirectory directory : StateM Tree _) t).2 = _ at hstore
    rw [modify_apply] at hstore
    rcases hmake : t.makeDirectory directory with e | t₁
    · rw [hmake] at hstore
      cases (Prod.mk.inj hstore).1
    · rw [hmake] at hstore
      exact ⟨t₁, writeRun_ok hstore⟩

theorem loadRun_apply (path : String) (t : Tree) : (memory.loadRun path).run t =
    (match t.read path with
      | .ok text => MonadExcept.ofExcept (runOfText path text)
      | .error error => throw (.reading path error) : ExceptT Trouble (StateM Tree) Run.RunState).run t :=
  rfl

theorem loadRun_storeRun (h : s.Representable)
    (hstore : (memory.storeRun path s).run t = (.ok (), t')) :
    ((memory.loadRun path).run t').1 =
      if s.toJson.depth ≤ Json.maxDepth then .ok (s.mapValues Json.reread).restored
      else .error (.parsing path) := by
  obtain ⟨t₁, hwrite⟩ := write_of_storeRun hstore
  have hread := read_write hwrite
  have hrun : runOfText path s.toText =
      if s.toJson.depth ≤ Json.maxDepth then .ok (s.mapValues Json.reread).restored
      else .error (.parsing path) := by
    rw [runOfText, Run.RunState.ofText?_toText h]
    split_ifs <;> rfl
  rw [← hrun]
  rw [loadRun_apply, hread]
  change ((MonadExcept.ofExcept (runOfText path s.toText) : ExceptT Trouble (StateM Tree) _).run t').1 = _
  cases runOfText path s.toText <;> rfl

end Tree

end FlowEngine.Store
