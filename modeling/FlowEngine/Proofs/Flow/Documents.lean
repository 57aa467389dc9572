import FlowEngine.Flow.Decode
import FlowEngine.Proofs.Documents.Decoding
import Mathlib.Tactic.MkIffOfInductiveProp

/-!
# Flows and their documents

A flow whose templates are in canonical form and whose numbers have 64 bits is read from its document.
What is read from any document is such a flow; so it is read again from its own document, which has the
fields that were left out, and none of the members that are not known.

* `Step.Representable` — the templates of a step are in canonical form and its numbers have 64 bits.
* `stepOf?_untagged` — a step is read from the members of its kind, if the chains inside it are read.
* `chainWithin?_chainJson` — a chain is read from its document, within any depth that the document does
  not exceed.
* `stepOf?_spec` — a step that is read is representable, and the chains inside it are read too.
* `flows_reread` — flows are read from their documents, before and after they were written.
-/

namespace FlowEngine.Flow

open Json (bind_of_some required_of_lookup defaulted_of_lookup optional_of_lookup)

variable {o : Json.Origin} {fs : Json.Fields} {name : String} {chain? : Json → Option (List Step)}
  {chain rest : List Step} {s : Step} {numbered : Bool} {j : Json}

/-! ## Steps that documents can represent -/

/-- Both templates of a condition are in canonical form. -/
@[mk_iff]
structure Condition.Representable (c : Condition) : Prop where
  first : c.first.Canonical
  second : c.second.Canonical

/-- The templates of all conditions are in canonical form. -/
def ConditionSet.Representable (c : ConditionSet) : Prop :=
  ∀ group ∈ c.groups, ∀ condition ∈ group, condition.Representable

/-- Templates in canonical form and numbers of 64 bits, in the settings of a step. -/
def Step.Representable : Step → Prop
  | trigger _ .empty => True
  | trigger _ (.block _ _ input) => input.Canonical
  | action _ a => a.input.Canonical
  | branch _ condition _ _ => condition.Representable
  | split _ settings branches =>
    (∀ n ∈ settings.concurrency, n < 2 ^ 64) ∧ ∀ b ∈ branches, b.1.condition.Representable
  | loop _ settings _ => settings.items.Canonical ∧ ∀ n ∈ settings.concurrency, n < 2 ^ 64

/-- All steps of a flow are representable, wherever they are. -/
def Version.Representable (v : Version) : Prop := ∀ s ∈ v.allSteps, s.Representable

/-! ## Settings -/

theorem Toggle.ofJson?_toJson (t : Toggle) : ofJson? t.toJson = some t := by
  simp [ofJson?, toJson, Json.fields?, Json.knownMembers?, Json.Fields.defaulted, Json.asBool?,
    List.lookup_cons]

theorem ErrorHandling.ofJson?_toJson (e : ErrorHandling) : ofJson? e.toJson = some e := by
  have hfields : e.toJson.completeFields? ["continueOnFailure", "retryOnFailure"] =
      some [("continueOnFailure", Json.ofOption Toggle.toJson e.continueOnFailure),
        ("retryOnFailure", Json.ofOption Toggle.toJson e.retryOnFailure)] := by
    simp [toJson, Json.completeFields?, Json.knownMembers?]
  rw [ofJson?, hfields]
  refine (bind_of_some (Json.optional_ofOption rfl (fun _ _ => by rintro ⟨⟩)
    fun t _ => t.ofJson?_toJson)).trans ?_
  exact bind_of_some (Json.optional_ofOption rfl (fun _ _ => by rintro ⟨⟩)
    fun t _ => t.ofJson?_toJson)

theorem Operator.ofJson?_name (p : Operator) : Operator.ofJson? o (.str p.name) = some p :=
  p.ofName?_name

theorem Condition.ofJson?_toJson {c : Condition} (h : c.Representable) : ofJson? o c.toJson = some c := by
  simp [ofJson?, toJson, Json.fields?, Json.knownMembers?, Json.Fields.defaulted, Json.Fields.required,
    Json.asValue?_canonical h.first, Json.asValue?_canonical h.second, Json.asBool?,
    Operator.ofJson?_name, List.lookup_cons]

theorem conditions_decode {c : ConditionSet} (h : c.Representable) :
    Json.asList? (Json.asList? (Condition.ofJson? o))
      (.arr (c.groups.map fun g => .arr (g.map Condition.toJson))) = some c.groups := by
  refine Json.asList?_elements (List.forall₂_map_left_iff.mpr (List.forall₂_same.mpr ?_))
  intro group hgroup
  refine Json.asList?_elements (List.forall₂_map_left_iff.mpr (List.forall₂_same.mpr ?_))
  exact fun condition hcondition => Condition.ofJson?_toJson (h group hgroup condition hcondition)

/-- The names of the fields of a set of conditions. -/
def ConditionSet.fieldNames : List String := ["conditions", "expression"]

theorem ConditionSet.names_members (c : ConditionSet) :
    (∀ m ∈ c.members, m.1 ∈ fieldNames) ∧ (c.members.map Prod.fst).Nodup := by
  obtain ⟨groups, expression⟩ := c
  rcases groups with _ | ⟨group, groups⟩ <;> rcases expression with _ | expression <;>
    simp [members, fieldNames, Json.optionalMember]

theorem ConditionSet.lookup_members (c : ConditionSet) :
    c.members.lookup "conditions" = (if c.groups.isEmpty then none else
      some (.arr (c.groups.map fun g => .arr (g.map Condition.toJson)))) ∧
        c.members.lookup "expression" = c.expression.map .str := by
  obtain ⟨groups, expression⟩ := c
  rcases groups with _ | ⟨group, groups⟩ <;> rcases expression with _ | expression <;>
    simp [members, Json.optionalMember, List.lookup_cons]

/-- A set of conditions is read from fields among which there are its own. -/
theorem ConditionSet.ofFields?_between {c : ConditionSet} (h : c.Representable)
    {before after : List (String × Json)} (hbefore : ∀ m ∈ before, m.1 ∉ fieldNames)
    (hafter : ∀ m ∈ after, m.1 ∉ fieldNames) :
    ofFields? o (before ++ (c.members ++ after)) = some c := by
  have hnone {ms : List (String × Json)} (hms : ∀ m ∈ ms, m.1 ∉ fieldNames) {name : String}
      (hname : name ∈ fieldNames) : ms.lookup name = none :=
    List.lookup_eq_none_iff.mpr fun m hm => by
      simpa using fun heq : name = m.1 => hms m hm (heq ▸ hname)
  have hlookup {name : String} (hname : name ∈ fieldNames) :
      (before ++ (c.members ++ after)).lookup name = c.members.lookup name := by
    rw [List.lookup_append, List.lookup_append, hnone hbefore hname, hnone hafter hname, Option.none_or,
      Option.or_none]
  obtain ⟨hconditions, hexpression⟩ := c.lookup_members
  have hgroups : Json.Fields.defaulted (before ++ (c.members ++ after)) "conditions" []
      (Json.asList? (Json.asList? (Condition.ofJson? o))) = some c.groups := by
    rw [Json.Fields.defaulted, hlookup (by simp [fieldNames]), hconditions]
    -- no groups are not written
    split_ifs with hempty
    · rw [List.isEmpty_iff.mp hempty]
    · exact conditions_decode h
  have hexpression : Json.Fields.optional (before ++ (c.members ++ after)) "expression" Json.asString? =
      some c.expression :=
    optional_of_lookup ((hlookup (by simp [fieldNames])).trans hexpression) (fun _ _ => by rintro ⟨⟩)
      fun _ _ => rfl
  rw [ofFields?]
  exact (bind_of_some hgroups).trans (bind_of_some hexpression)

theorem ConditionSet.ofJson?_members {c : ConditionSet} (h : c.Representable) :
    ofJson? o (.obj c.members) = some c := by
  have hfields : ofFields? o ([] ++ (c.members ++ [])) = some c :=
    ConditionSet.ofFields?_between h (by simp) (by simp)
  rw [List.nil_append, List.append_nil] at hfields
  rw [ofJson?]
  exact (bind_of_some (Json.fields?_known fieldNames _ c.names_members.1 c.names_members.2)).trans hfields

theorem SplitExecution.ofName?_name (e : SplitExecution) : ofName? e.name = some e := by
  cases e <;> rfl

theorem BranchKind.ofName?_name (k : BranchKind) : ofName? k.name = some k := by
  cases k <;> rfl

/-- A bound that may be missing is read if it has 64 bits. -/
theorem optional_concurrency {n : Option Nat} (h : ∀ k ∈ n, k < 2 ^ 64)
    (hlookup : fs.lookup name = some (Json.ofOption .ofNat n)) :
    fs.optional name Json.asNat64? = some n :=
  Json.optional_ofOption hlookup (fun _ _ => by rintro ⟨⟩) fun k hk => Json.asNat64?_ofNat (h k hk)

theorem SplitSettings.ofJson?_toJson {settings : SplitSettings}
    (h : ∀ n ∈ settings.concurrency, n < 2 ^ 64) : ofJson? o settings.toJson = some settings := by
  have hfields : settings.toJson.completeFields? ["executionType", "concurrency"] =
      some [("executionType", .str settings.execution.name),
        ("concurrency", Json.ofOption .ofNat settings.concurrency)] := by
    simp [toJson, Json.completeFields?, Json.knownMembers?]
  rw [ofJson?, hfields]
  exact (bind_of_some (defaulted_of_lookup rfl settings.execution.ofName?_name)).trans
    (bind_of_some (optional_concurrency h rfl))

theorem LoopSettings.ofJson?_toJson {settings : LoopSettings} (hitems : settings.items.Canonical)
    (h : ∀ n ∈ settings.concurrency, n < 2 ^ 64) : ofJson? settings.toJson = some settings := by
  have hfields : settings.toJson.completeFields? ["items", "parallel", "concurrency"] =
      some [("items", settings.items), ("parallel", .bool settings.parallel),
        ("concurrency", Json.ofOption .ofNat settings.concurrency)] := by
    simp [toJson, Json.completeFields?, Json.knownMembers?]
  rw [ofJson?, hfields]
  obtain ⟨fs, hfs⟩ : ∃ fs : Json.Fields, fs = [("items", settings.items),
    ("parallel", .bool settings.parallel), ("concurrency", Json.ofOption .ofNat settings.concurrency)] :=
    ⟨_, rfl⟩
  have hitems : fs.defaulted "items" .null Json.asValue? = some settings.items :=
    defaulted_of_lookup (by simp [hfs]) (Json.asValue?_canonical hitems)
  have hparallel : fs.defaulted "parallel" false Json.asBool? = some settings.parallel :=
    defaulted_of_lookup (by simp [hfs, List.lookup_cons]; rfl) rfl
  have hconcurrency : fs.optional "concurrency" Json.asNat64? = some settings.concurrency :=
    optional_concurrency h (by simp [hfs, List.lookup_cons])
  rw [← hfs]
  exact (bind_of_some hitems).trans ((bind_of_some hparallel).trans (bind_of_some hconcurrency))

theorem Trigger.ofSettings?_block {blockName triggerName : String} {input : Json} (h : input.Canonical) :
    ofSettings? (.obj [("blockName", .str blockName), ("triggerName", .str triggerName),
      ("input", input)]) = some (.block blockName triggerName input) := by
  simp [ofSettings?, Json.fields?, Json.knownMembers?, Json.Fields.defaulted, Json.Fields.required,
    Json.asString?, Json.asValue?_canonical h, List.lookup_cons]

theorem Action.ofBlock?_settingsJson {a : Action} {blockName actionName : String}
    (hwork : a.work = .block blockName actionName) (h : a.input.Canonical) :
    ofBlock? a.settingsJson = some a := by
  obtain ⟨work, input, errorHandling⟩ := a
  obtain rfl : work = _ := hwork
  simp [ofBlock?, settingsJson, Work.members, Json.fields?, Json.knownMembers?, Json.Fields.defaulted,
    Json.Fields.required, Json.asString?, Json.asValue?_canonical h, ErrorHandling.ofJson?_toJson,
    List.lookup_cons]

theorem Action.ofCode?_settingsJson {a : Action} {source : String} (hwork : a.work = .code source)
    (h : a.input.Canonical) : ofCode? a.settingsJson = some a := by
  obtain ⟨work, input, errorHandling⟩ := a
  obtain rfl : work = _ := hwork
  simp [ofCode?, settingsJson, Work.members, Json.fields?, Json.knownMembers?, Json.Fields.defaulted,
    Json.Fields.required, Json.asString?, Json.asValue?_canonical h, ErrorHandling.ofJson?_toJson,
    List.lookup_cons]

/-! ## Links -/

/-- A chain is read from its document, if it has one. -/
def ReadBy (chain? : Json → Option (List Step)) (chain : List Step) : Prop :=
  ∀ j ∈ chainJson? chain, chain? j = some chain

/-- A member that links to a chain. -/
def linkTo (name : String) (chain : List Step) : List (String × Json) :=
  Json.optionalMember name id (chainJson? chain)

theorem names_linkTo {m : String × Json} (h : m ∈ linkTo name chain) : m.1 = name := by
  unfold linkTo Json.optionalMember at h
  split at h
  · cases h
  · rw [List.mem_singleton.mp h]

theorem lookup_linkTo (name : String) (chain : List Step) :
    (linkTo name chain).lookup name = chainJson? chain := by
  unfold linkTo Json.optionalMember
  split <;> simp_all

theorem lookup_linkTo_ne {other : String} (h : name ≠ other) (chain : List Step) :
    (linkTo other chain).lookup name = none :=
  List.lookup_eq_none_iff.mpr fun m hm => by simpa [names_linkTo hm] using h

/-- A link that is not written leads nowhere. -/
theorem link?_of_lookup (h : fs.lookup name = chainJson? chain) (hread : ReadBy chain? chain) :
    link? chain? fs name = some chain := by
  cases chain with
  | nil =>
    rw [chainJson?] at h
    rw [link?, Json.Fields.optional, h]
    rfl
  | cons s rest =>
    obtain ⟨members, hmembers⟩ : ∃ members, chainJson? (s :: rest) = some (.obj members) :=
      ⟨_, chainJson?.eq_2 s rest⟩
    rw [link?, Json.Fields.optional, h, hmembers]
    change Option.map _ (Option.map some (chain? (.obj members))) = _
    rw [hread _ hmembers]
    rfl

/-! ## Steps -/

/-- The members of a step that depend on its kind, apart from the kind. -/
def kindFields : Step → List (String × Json)
  | .trigger _ .empty => []
  | .trigger _ (.block blockName triggerName input) =>
    [("settings", .obj [("blockName", .str blockName), ("triggerName", .str triggerName),
      ("input", input)])]
  | .action _ a => [("settings", a.settingsJson)]
  | .branch _ condition onSuccess onFailure =>
    ("settings", .obj condition.members) ::
      (linkTo "onSuccessAction" onSuccess ++ linkTo "onFailureAction" onFailure)
  | .split _ settings branches =>
    [("settings", settings.toJson), ("branches", .arr (branchesJson branches))]
  | .loop _ settings body => ("settings", settings.toJson) :: linkTo "firstLoopAction" body

theorem kindMembers_eq (s : Step) : kindMembers s = ("type", .str s.type.name) :: kindFields s := by
  cases s with
  | trigger l t => cases t <;> simp [kindMembers, kindFields, Trigger.members, Step.type, StepType.name]
  | action l a =>
    obtain ⟨work, input, errorHandling⟩ := a
    cases work <;> simp [kindMembers, kindFields, Action.members, Step.type, StepType.name]
  | _ => simp [kindMembers, kindFields, linkTo, Step.type, StepType.name]

/-- The names of the members of steps that depend on their kinds. -/
def kindFieldNames : List String :=
  ["settings", "onSuccessAction", "onFailureAction", "branches", "firstLoopAction"]

theorem names_kindFields {m : String × Json} (h : m ∈ kindFields s) : m.1 ∈ kindFieldNames := by
  cases s with
  | trigger l t => cases t <;> simp_all [kindFields, kindFieldNames]
  | action l a => simp_all [kindFields, kindFieldNames]
  | split l settings branches =>
    rcases List.mem_pair.mp h with rfl | rfl <;> simp [kindFieldNames]
  | branch l condition onSuccess onFailure =>
    rcases List.mem_cons.mp h with rfl | h
    · simp [kindFieldNames]
    · rcases List.mem_append.mp h with h | h <;> simp [names_linkTo h, kindFieldNames]
  | loop l settings body =>
    rcases List.mem_cons.mp h with rfl | h
    · simp [kindFieldNames]
    · simp [names_linkTo h, kindFieldNames]

theorem nodup_kindFields (s : Step) : ((kindFields s).map Prod.fst).Nodup := by
  cases s with
  | trigger l t => cases t <;> simp [kindFields]
  | action l a => simp [kindFields]
  | branch l condition onSuccess onFailure =>
    rw [kindFields, linkTo, linkTo]
    cases chainJson? onSuccess <;> cases chainJson? onFailure <;> simp [Json.optionalMember]
  | split l settings branches => simp [kindFields]
  | loop l settings body =>
    rw [kindFields, linkTo]
    cases chainJson? body <;> simp [Json.optionalMember]

/-- A step and what follows it, as a document without the kind of the step. -/
def untagged (s : Step) (rest : List Step) : Json :=
  .obj (s.label.members ++ (kindFields s ++ linkTo "nextAction" rest))

theorem chainJson?_cons (s : Step) (rest : List Step) : chainJson? (s :: rest) =
    some (.obj (s.label.members ++
      ("type", .str s.type.name) :: (kindFields s ++ linkTo "nextAction" rest))) := by
  rw [chainJson?, kindMembers_eq, List.append_assoc, List.cons_append]
  rfl

/-- The kind of a step, and its document without it. -/
theorem tagged?_step (s : Step) (rest : List Step) :
    Json.tagged? o "type" stepTypes (.obj (s.label.members ++
      ("type", .str s.type.name) :: (kindFields s ++ linkTo "nextAction" rest))) =
        some (s.type.name, untagged s rest) := by
  refine Json.tagged?_between o stepTypes _ _ _ _ (by simp [Label.members]) fun m hm heq => ?_
  rcases List.mem_append.mp hm with hm | hm
  · exact absurd (names_kindFields hm) (by rw [heq]; decide)
  · exact absurd ((names_linkTo hm).symm.trans heq) (by decide)

/-- The members of the kind of a step, among names that no other members have. -/
theorem objectFields?_untagged {names : List String} (hnames : ∀ m ∈ kindFields s, m.1 ∈ names)
    (hothers : "name" ∉ names ∧ "displayName" ∉ names ∧ "nextAction" ∉ names) (rest : List Step) :
    (untagged s rest).objectFields? names = some (kindFields s) :=
  Json.knownMembers?_between _ _ _ (by simp [Label.members, hothers]) hnames
    (fun m hm => by rw [names_linkTo hm]; exact hothers.2.2) (nodup_kindFields s)

/-! ## Branches of splits -/

/-- A branch of a split with its steps, as members. -/
def branchMembers (b : SplitBranch) (steps : List Step) : List (String × Json) :=
  [("name", .str b.name), ("branchType", .str b.kind.name)] ++
    (b.condition.members ++ linkTo "nextAction" steps)

theorem branchesJson_eq (branches : List (SplitBranch × List Step)) :
    branchesJson branches = branches.map fun b => .obj (branchMembers b.1 b.2) := by
  induction branches with
  | nil => rfl
  | cons b branches ih =>
    obtain ⟨b, steps⟩ := b
    rw [branchesJson, ih, SplitBranch.members, List.append_assoc]
    rfl

/-- The names of the fields of a branch. -/
def branchFieldNames : List String := ["name", "branchType", "conditions", "expression", "nextAction"]

theorem names_branchMembers (b : SplitBranch) (steps : List Step) :
    (∀ m ∈ branchMembers b steps, m.1 ∈ branchFieldNames) ∧
      ((branchMembers b steps).map Prod.fst).Nodup := by
  obtain ⟨name, kind, groups, expression⟩ := b
  rcases groups with _ | ⟨group, groups⟩ <;> rcases expression with _ | expression <;>
    cases h : chainJson? steps <;>
      simp [branchMembers, branchFieldNames, ConditionSet.members, linkTo, Json.optionalMember, h]

/-- A branch is read from its document, if its steps are. -/
theorem branchOf?_members {b : SplitBranch} {steps : List Step} (h : b.condition.Representable)
    (hread : ReadBy chain? steps) : branchOf? o chain? (.obj (branchMembers b steps)) = some (b, steps) := by
  obtain ⟨fs, hfs⟩ : ∃ fs : Json.Fields, fs = branchMembers b steps := ⟨_, rfl⟩
  have hname : fs.required "name" Json.asString? = some b.name :=
    required_of_lookup (by rw [hfs, branchMembers]; rfl) rfl
  have hkind : fs.defaulted "branchType" .condition (fun j => do BranchKind.ofName? (← j.formName? o)) =
      some b.kind :=
    defaulted_of_lookup (show fs.lookup "branchType" = some (.str b.kind.name) by
      rw [hfs, branchMembers]; rfl) b.kind.ofName?_name
  have hcondition : ConditionSet.ofFields? o fs = some b.condition := by
    rw [hfs, branchMembers]
    refine ConditionSet.ofFields?_between h (by simp [ConditionSet.fieldNames]) fun m hm => ?_
    rw [names_linkTo hm]
    decide
  have hnext : link? chain? fs "nextAction" = some steps := by
    refine link?_of_lookup ?_ hread
    have hconditions : b.condition.members.lookup "nextAction" = none :=
      List.lookup_eq_none_iff.mpr fun m hm => by
        have := b.condition.names_members.1 m hm
        simpa using fun heq : "nextAction" = m.1 => absurd (heq ▸ this) (by decide)
    rw [hfs, branchMembers, List.lookup_append, List.lookup_append, hconditions, lookup_linkTo]
    rfl
  rw [branchOf?]
  obtain ⟨hnames, hnd⟩ := names_branchMembers b steps
  refine (bind_of_some (Json.objectFields?_known branchFieldNames _ hnames hnd)).trans ?_
  rw [← hfs]
  exact (bind_of_some hname).trans ((bind_of_some hkind).trans
    ((bind_of_some hcondition).trans (bind_of_some hnext)))

theorem branches_decode {branches : List (SplitBranch × List Step)}
    (h : ∀ b ∈ branches, b.1.condition.Representable) (hread : ∀ b ∈ branches, ReadBy chain? b.2) :
    Json.asList? (branchOf? o chain?) (.arr (branchesJson branches)) = some branches := by
  rw [branchesJson_eq]
  refine Json.asList?_elements (List.forall₂_map_left_iff.mpr (List.forall₂_same.mpr ?_))
  exact fun b hb => branchOf?_members (h b hb) (hread b hb)

/-! ## Kinds -/

theorem stepOf?_branch {l : Label} {condition : ConditionSet} {onSuccess onFailure : List Step}
    (h : condition.Representable) (hsuccess : ReadBy chain? onSuccess) (hfailure : ReadBy chain? onFailure)
    (rest : List Step) :
    stepOf? o chain? l "BRANCH" (untagged (.branch l condition onSuccess onFailure) rest) =
      some (.branch l condition onSuccess onFailure) := by
  obtain ⟨fs, hfs⟩ : ∃ fs : Json.Fields, fs = kindFields (.branch l condition onSuccess onFailure) := ⟨_, rfl⟩
  have hfields : (untagged (.branch l condition onSuccess onFailure) rest).objectFields?
      ["settings", "onSuccessAction", "onFailureAction"] = some fs := by
    rw [hfs]
    refine objectFields?_untagged (fun m hm => ?_) (by decide) rest
    rcases List.mem_cons.mp hm with rfl | hm
    · simp
    · rcases List.mem_append.mp hm with hm | hm <;> simp [names_linkTo hm]
  have hsettings : fs.required "settings" (ConditionSet.ofJson? o) = some condition :=
    required_of_lookup (by rw [hfs]; rfl) (ConditionSet.ofJson?_members h)
  have honSuccess : link? chain? fs "onSuccessAction" = some onSuccess := by
    refine link?_of_lookup ?_ hsuccess
    simp [hfs, kindFields, List.lookup_cons, List.lookup_append, lookup_linkTo,
      lookup_linkTo_ne (show "onSuccessAction" ≠ "onFailureAction" by decide)]
  have honFailure : link? chain? fs "onFailureAction" = some onFailure := by
    refine link?_of_lookup ?_ hfailure
    simp [hfs, kindFields, List.lookup_cons, List.lookup_append, lookup_linkTo,
      lookup_linkTo_ne (show "onFailureAction" ≠ "onSuccessAction" by decide)]
  rw [stepOf?]
  exact (bind_of_some hfields).trans ((bind_of_some hsettings).trans
    ((bind_of_some honSuccess).trans (bind_of_some honFailure)))

theorem stepOf?_split {l : Label} {settings : SplitSettings} {branches : List (SplitBranch × List Step)}
    (hsettings : ∀ n ∈ settings.concurrency, n < 2 ^ 64)
    (h : ∀ b ∈ branches, b.1.condition.Representable) (hread : ∀ b ∈ branches, ReadBy chain? b.2)
    (rest : List Step) :
    stepOf? o chain? l "SPLIT" (untagged (.split l settings branches) rest) =
      some (.split l settings branches) := by
  have hfields : (untagged (.split l settings branches) rest).objectFields? ["settings", "branches"] =
      some (kindFields (.split l settings branches)) :=
    objectFields?_untagged (by simp [kindFields]) (by decide) rest
  have hsettings : Json.Fields.defaulted (kindFields (.split l settings branches)) "settings"
      ⟨.allMatches, none⟩ (SplitSettings.ofJson? o) = some settings :=
    defaulted_of_lookup rfl (SplitSettings.ofJson?_toJson hsettings)
  have hbranches : Json.Fields.defaulted (kindFields (.split l settings branches)) "branches" []
      (Json.asList? (branchOf? o chain?)) = some branches :=
    defaulted_of_lookup rfl (branches_decode h hread)
  rw [stepOf?]
  exact (bind_of_some hfields).trans ((bind_of_some hsettings).trans (bind_of_some hbranches))

theorem stepOf?_loop {l : Label} {settings : LoopSettings} {body : List Step}
    (hitems : settings.items.Canonical) (hconcurrency : ∀ n ∈ settings.concurrency, n < 2 ^ 64)
    (hread : ReadBy chain? body) (rest : List Step) :
    stepOf? o chain? l "LOOP_ON_ITEMS" (untagged (.loop l settings body) rest) =
      some (.loop l settings body) := by
  have hfields : (untagged (.loop l settings body) rest).objectFields? ["settings", "firstLoopAction"] =
      some (kindFields (.loop l settings body)) := by
    refine objectFields?_untagged (fun m hm => ?_) (by decide) rest
    rcases List.mem_cons.mp hm with rfl | hm
    · simp
    · simp [names_linkTo hm]
  have hsettings : Json.Fields.required (kindFields (.loop l settings body)) "settings"
      LoopSettings.ofJson? = some settings :=
    required_of_lookup rfl (LoopSettings.ofJson?_toJson hitems hconcurrency)
  have hbody : link? chain? (kindFields (.loop l settings body)) "firstLoopAction" = some body := by
    refine link?_of_lookup ?_ hread
    simp [kindFields, List.lookup_cons, lookup_linkTo]
  rw [stepOf?]
  exact (bind_of_some hfields).trans ((bind_of_some hsettings).trans (bind_of_some hbody))

/-- The settings of a step whose kind has nothing else. -/
theorem required_settings {α : Type} {decode : Json → Option α} {a : α} {value : Json}
    (hs : kindFields s = [("settings", value)]) (hdecode : decode value = some a) (rest : List Step) :
    (untagged s rest).objectFields? ["settings"] = some (kindFields s) ∧
      Json.Fields.required (kindFields s) "settings" decode = some a := by
  refine ⟨objectFields?_untagged (by simp [hs]) (by decide) rest, ?_⟩
  rw [hs]
  exact required_of_lookup rfl hdecode

/-- A step is read from the members of its kind, if the chains inside it are read. -/
theorem stepOf?_untagged (h : s.Representable) (hread : ∀ chain ∈ s.chains, ReadBy chain? chain)
    (rest : List Step) : stepOf? o chain? s.label s.type.name (untagged s rest) = some s := by
  cases s with
  | trigger l t =>
    cases t with
    | empty => rfl
    | block blockName triggerName input =>
      obtain ⟨hfields, hsettings⟩ := required_settings (s := .trigger l (.block blockName triggerName input))
        rfl (Trigger.ofSettings?_block h) rest
      exact (bind_of_some hfields).trans (by rw [hsettings]; rfl)
  | action l a =>
    obtain ⟨work, input, errorHandling⟩ := a
    cases work with
    | block blockName actionName =>
      obtain ⟨hfields, hsettings⟩ := required_settings
        (s := .action l ⟨.block blockName actionName, input, errorHandling⟩) rfl
        (Action.ofBlock?_settingsJson rfl h) rest
      exact (bind_of_some hfields).trans (by rw [hsettings]; rfl)
    | code source =>
      obtain ⟨hfields, hsettings⟩ := required_settings (s := .action l ⟨.code source, input, errorHandling⟩)
        rfl (Action.ofCode?_settingsJson rfl h) rest
      exact (bind_of_some hfields).trans (by rw [hsettings]; rfl)
  | branch l condition onSuccess onFailure =>
    exact stepOf?_branch h (hread _ (.head _)) (hread _ (.tail _ (.head _))) rest
  | split l settings branches =>
    exact stepOf?_split h.1 h.2 (fun b hb => hread _ (List.mem_map_of_mem hb)) rest
  | loop l settings body =>
    exact stepOf?_loop h.1 h.2 (hread _ (.head _)) rest

/-! ## Nesting -/

theorem mem_linkTo {j : Json} (h : chainJson? chain = some j) (name : String) :
    (name, j) ∈ linkTo name chain := by
  rw [linkTo, h]
  exact List.mem_singleton_self _

/-- The document of a chain inside a step is inside the members of its kind. -/
theorem depth_le_of_chain {j : Json} (hchain : chain ∈ s.chains) (h : chainJson? chain = some j) :
    j.depth ≤ Json.depthMembers (kindFields s) := by
  cases s with
  | trigger l t | action l a => cases hchain
  | branch l condition onSuccess onFailure =>
    rcases List.mem_pair.mp hchain with rfl | rfl
    · exact Json.depth_le_depthMembers
        (List.mem_cons_of_mem _ (List.mem_append_left _ (mem_linkTo h "onSuccessAction")))
    · exact Json.depth_le_depthMembers
        (List.mem_cons_of_mem _ (List.mem_append_right _ (mem_linkTo h "onFailureAction")))
  | split l settings branches =>
    obtain ⟨b, hb, rfl⟩ := List.mem_map.mp hchain
    have hlink : j.depth ≤ Json.depthMembers (branchMembers b.1 b.2) :=
      Json.depth_le_depthMembers
        (List.mem_append_right _ (List.mem_append_right _ (mem_linkTo h "nextAction")))
    have hbranch : (Json.obj (branchMembers b.1 b.2)).depth ≤ Json.depthElements (branchesJson branches) :=
      Json.depth_le_depthElements (branchesJson_eq branches ▸ List.mem_map_of_mem hb)
    have hbranches : (Json.arr (branchesJson branches)).depth ≤
        Json.depthMembers (kindFields (.split l settings branches)) :=
      Json.depth_le_depthMembers (m := ("branches", .arr (branchesJson branches)))
        (List.mem_cons_of_mem _ (List.mem_singleton_self _))
    change Json.depthMembers _ + 1 ≤ _ at hbranch
    change Json.depthElements _ + 1 ≤ _ at hbranches
    omega
  | loop l settings body =>
    obtain rfl := List.mem_singleton.mp hchain
    exact Json.depth_le_depthMembers (List.mem_cons_of_mem _ (mem_linkTo h "firstLoopAction"))

theorem mem_placesInside {p : Step × List Step} :
    p ∈ placesInside s ↔ ∃ chain ∈ s.chains, p ∈ places chain := by
  rw [placesInside_eq, List.mem_flatMap]

/-- The steps of a chain: its first step, the steps inside that one, and the steps after it. -/
theorem mem_descendants_cons {s' : Step} : s' ∈ descendants (s :: rest) ↔
    s' = s ∨ (∃ chain ∈ s.chains, s' ∈ descendants chain) ∨ s' ∈ descendants rest := by
  simp only [descendants_eq, places, List.map_cons, List.map_append, List.mem_cons, List.mem_append,
    List.mem_map, mem_placesInside]
  constructor
  · rintro (rfl | ⟨p, ⟨chain, hchain, hp⟩, rfl⟩ | h)
    · exact .inl rfl
    · exact .inr (.inl ⟨chain, hchain, p, hp, rfl⟩)
    · exact .inr (.inr h)
  · rintro (rfl | ⟨chain, hchain, p, hp, rfl⟩ | h)
    · exact .inl rfl
    · exact .inr (.inl ⟨p, ⟨chain, hchain, hp⟩, rfl⟩)
    · exact .inr (.inr h)

/-! ## Chains -/

/-- A step and what follows it are read, if the chains inside it and the one after it are. -/
theorem chainWithin?_cons {depth : Nat} (h : s.Representable)
    (hchains : ∀ chain ∈ s.chains, ReadBy (chainWithin? numbered depth) chain)
    (hrest : ReadBy (chainWithin? numbered depth) rest) :
    ReadBy (chainWithin? numbered (depth + 1)) (s :: rest) := by
  intro j hj
  rw [chainJson?_cons] at hj
  obtain rfl := Option.some.inj hj
  obtain ⟨fs, hfs⟩ : ∃ fs : Json.Fields, fs = s.label.members ++ linkTo "nextAction" rest := ⟨_, rfl⟩
  have hfields : Json.objectFields? ["name", "displayName", "nextAction"] (.obj (s.label.members ++
      ("type", .str s.type.name) :: (kindFields s ++ linkTo "nextAction" rest))) = some fs := by
    rw [hfs]
    refine Json.knownMembers?_around s.label.members (("type", .str s.type.name) :: kindFields s)
      (linkTo "nextAction" rest) (by simp [Label.members]) (fun m hm => ?_)
      (fun m hm => by simp [names_linkTo hm]) ?_
    · rcases List.mem_cons.mp hm with rfl | hm
      · simp
      · have hkind := names_kindFields hm
        exact fun hname => by
          simp only [kindFieldNames, List.mem_cons, List.not_mem_nil, or_false] at hkind hname
          rcases hname with heq | heq | heq <;> simp [heq] at hkind
    · rw [linkTo]
      cases chainJson? rest <;> simp [Label.members, Json.optionalMember]
  have hname : fs.required "name" Json.asString? = some s.label.name :=
    required_of_lookup (by rw [hfs]; rfl) rfl
  have hdisplayName : fs.defaulted "displayName" "" Json.asString? = some s.label.displayName :=
    defaulted_of_lookup (show fs.lookup "displayName" = some (.str s.label.displayName) by rw [hfs]; rfl) rfl
  have hnext : link? (chainWithin? numbered depth) fs "nextAction" = some rest := by
    refine link?_of_lookup ?_ hrest
    rw [hfs, List.lookup_append, lookup_linkTo]
    rfl
  rw [chainWithin?]
  refine (bind_of_some hfields).trans ((bind_of_some hname).trans
    ((bind_of_some hdisplayName).trans ((bind_of_some (tagged?_step s rest)).trans ?_)))
  exact (bind_of_some (stepOf?_untagged h hchains rest)).trans (bind_of_some hnext)

/-- A chain is read from its document, within any depth that the document does not exceed. -/
theorem chainWithin?_chainJson (depth : Nat) : ∀ {chain : List Step},
    (∀ s ∈ descendants chain, s.Representable) →
      ∀ j ∈ chainJson? chain, j.depth < depth → chainWithin? numbered depth j = some chain := by
  -- the chains inside a step are read with what is left of the depth
  induction depth with
  | zero => exact fun _ _ _ hdepth => absurd hdepth (Nat.not_lt_zero _)
  | succ depth ih =>
    intro chain h j hj hdepth
    cases chain with
    | nil => cases hj
    | cons s rest =>
      have hmembers : j = .obj (s.label.members ++
          ("type", .str s.type.name) :: (kindFields s ++ linkTo "nextAction" rest)) :=
        (Option.some.inj ((chainJson?_cons s rest).symm.trans hj)).symm
      have hbound : max (Json.depthMembers (kindFields s)) (Json.depthMembers (linkTo "nextAction" rest)) <
          depth := by
        rw [hmembers, Json.depth, Json.depthMembers_append, Json.depthMembers, Json.depthMembers_append]
          at hdepth
        omega
      refine chainWithin?_cons (h s (mem_descendants_cons.mpr (.inl rfl))) (fun chain hchain j' hj' => ?_)
        (fun j' hj' => ?_) j hj
      · have hinside := depth_le_of_chain hchain hj'
        exact ih (fun s' hs' => h s' (mem_descendants_cons.mpr (.inr (.inl ⟨chain, hchain, hs'⟩)))) j' hj'
          (by omega)
      · have hafter : j'.depth ≤ Json.depthMembers (linkTo "nextAction" rest) :=
          Json.depth_le_depthMembers (mem_linkTo hj' "nextAction")
        exact ih (fun s' hs' => h s' (mem_descendants_cons.mpr (.inr (.inr hs')))) j' hj' (by omega)

/-- A flow is read from its document. -/
theorem Version.ofDocument?_toJson {v : Version} (h : v.Representable) :
    Version.ofDocument? numbered v.toJson = some v := by
  obtain ⟨j, hj⟩ : ∃ j, chainJson? v.steps = some j := ⟨_, chainJson?_cons v.first v.rest⟩
  have hchain : chainOf? numbered j = some v.steps :=
    chainWithin?_chainJson _ h j hj (Nat.lt_succ_self _)
  obtain ⟨fs, hfs⟩ : ∃ fs : Json.Fields, fs = [("id", .str v.id), ("displayName", .str v.displayName),
    ("trigger", j)] := ⟨_, rfl⟩
  have hfields : Json.fields? Version.fieldNames (.obj fs) = some fs :=
    Json.fields?_known _ _ (by simp [hfs, Version.fieldNames]) (by simp [hfs])
  have hid : fs.defaulted "id" "" Json.asString? = some v.id := defaulted_of_lookup (by rw [hfs]; rfl) rfl
  have hdisplayName : fs.defaulted "displayName" "" Json.asString? = some v.displayName :=
    defaulted_of_lookup (show fs.lookup "displayName" = some (.str v.displayName) by rw [hfs]; rfl) rfl
  have htrigger : fs.required "trigger" (chainOf? numbered) = some v.steps :=
    required_of_lookup (by rw [hfs]; rfl) hchain
  rw [Version.toJson, hj, Option.getD_some, ← hfs, Version.ofDocument?]
  refine (bind_of_some hfields).trans ((bind_of_some hid).trans ((bind_of_some hdisplayName).trans ?_))
  exact (bind_of_some htrigger).trans rfl

/-! ## Settings that are read -/

theorem Condition.representable_of_ofJson? {c : Condition} (hj : j.Writable) (h : ofJson? o j = some c) :
    c.Representable := by
  simp only [ofJson?, Option.bind_eq_bind, Option.bind_eq_some_iff, Option.some.injEq] at h
  obtain ⟨fs, hfs, first, hfirst, _, -, second, hsecond, _, -, rfl⟩ := h
  have hfs := Json.fields?_writable hj hfs
  exact ⟨Json.defaulted_of_writable hfs hfirst trivial Json.asValue?_of_writable,
    Json.defaulted_of_writable hfs hsecond trivial Json.asValue?_of_writable⟩

theorem ConditionSet.representable_of_ofFields? {c : ConditionSet} (hfs : Json.WritableMembers fs)
    (h : ofFields? o fs = some c) : c.Representable := by
  simp only [ofFields?, Option.bind_eq_bind, Option.bind_eq_some_iff, Option.some.injEq] at h
  obtain ⟨groups, hgroups, _, -, rfl⟩ := h
  have hgroup {j : Json} {group : List Condition} (hj : j.Writable)
      (h : Json.asList? (Condition.ofJson? o) j = some group) : ∀ c ∈ group, c.Representable :=
    Json.asList?_of_writable hj h Condition.representable_of_ofJson?
  exact Json.defaulted_of_writable (P := fun groups => ∀ group ∈ groups, ∀ c ∈ group, c.Representable)
    hfs hgroups (by simp) fun hj hgroups => Json.asList?_of_writable hj hgroups hgroup

theorem ConditionSet.representable_of_ofJson? {c : ConditionSet} (hj : j.Writable)
    (h : ofJson? o j = some c) : c.Representable := by
  obtain ⟨fs, hfs, h⟩ := Option.bind_eq_some_iff.mp h
  exact representable_of_ofFields? (Json.fields?_writable hj hfs) h

theorem concurrency_lt {n : Option Nat} (hfs : Json.WritableMembers fs)
    (h : fs.optional name Json.asNat64? = some n) : ∀ k ∈ n, k < 2 ^ 64 :=
  Json.optional_of_writable hfs h fun _ hk => Json.asNat64?_lt hk

theorem SplitSettings.concurrency_lt_of_ofJson? {settings : SplitSettings} (hj : j.Writable)
    (h : ofJson? o j = some settings) : ∀ n ∈ settings.concurrency, n < 2 ^ 64 := by
  simp only [ofJson?, Option.bind_eq_bind, Option.bind_eq_some_iff, Option.some.injEq] at h
  obtain ⟨fs, hfs, _, -, concurrency, hconcurrency, rfl⟩ := h
  exact concurrency_lt (Json.completeFields?_writable hj hfs) hconcurrency

theorem LoopSettings.representable_of_ofJson? {settings : LoopSettings} (hj : j.Writable)
    (h : ofJson? j = some settings) :
    settings.items.Canonical ∧ ∀ n ∈ settings.concurrency, n < 2 ^ 64 := by
  simp only [ofJson?, Option.bind_eq_bind, Option.bind_eq_some_iff, Option.some.injEq] at h
  obtain ⟨fs, hfs, items, hitems, _, -, concurrency, hconcurrency, rfl⟩ := h
  have hfs := Json.completeFields?_writable hj hfs
  exact ⟨Json.defaulted_of_writable hfs hitems trivial Json.asValue?_of_writable,
    concurrency_lt hfs hconcurrency⟩

theorem Trigger.representable_of_ofSettings? {t : Trigger} (hj : j.Writable) (h : ofSettings? j = some t)
    (l : Label) : (Step.trigger l t).Representable := by
  simp only [ofSettings?, Option.bind_eq_bind, Option.bind_eq_some_iff, Option.some.injEq] at h
  obtain ⟨fs, hfs, _, -, _, -, input, hinput, rfl⟩ := h
  exact Json.defaulted_of_writable (P := Json.Canonical) (Json.fields?_writable hj hfs) hinput trivial
    Json.asValue?_of_writable

theorem Action.canonical_of_ofBlock? {a : Action} (hj : j.Writable) (h : ofBlock? j = some a) :
    a.input.Canonical := by
  simp only [ofBlock?, Option.bind_eq_bind, Option.bind_eq_some_iff, Option.some.injEq] at h
  obtain ⟨fs, hfs, _, -, _, -, input, hinput, _, -, rfl⟩ := h
  exact Json.defaulted_of_writable (Json.fields?_writable hj hfs) hinput trivial Json.asValue?_of_writable

theorem Action.canonical_of_ofCode? {a : Action} (hj : j.Writable) (h : ofCode? j = some a) :
    a.input.Canonical := by
  simp only [ofCode?, Option.bind_eq_bind, Option.bind_eq_some_iff, Option.some.injEq] at h
  obtain ⟨fs, hfs, _, -, input, hinput, _, -, rfl⟩ := h
  exact Json.defaulted_of_writable (Json.fields?_writable hj hfs) hinput trivial Json.asValue?_of_writable

/-! ## Steps that are read -/

section Chains

variable {chain? : Json → Option (List Step)} {P : List Step → Prop} (hnil : P [])
  (hchain : ∀ {j chain}, j.Writable → chain? j = some chain → P chain)

include hnil hchain

/-- What all chains have that are read, and the empty chain, a chain has that a link leads to. -/
theorem link?_spec {chain : List Step} (hfs : Json.WritableMembers fs)
    (h : link? chain? fs name = some chain) : P chain := by
  obtain ⟨linked, hlinked, rfl⟩ := Option.map_eq_some_iff.mp h
  have hspec := Json.optional_of_writable hfs hlinked hchain
  cases linked with
  | none => exact hnil
  | some chain => exact hspec chain rfl

theorem branchOf?_spec {b : SplitBranch × List Step} (hj : j.Writable)
    (h : branchOf? o chain? j = some b) : b.1.condition.Representable ∧ P b.2 := by
  simp only [branchOf?, Option.bind_eq_bind, Option.bind_eq_some_iff, Option.some.injEq] at h
  obtain ⟨fs, hfs, _, -, _, -, condition, hcondition, steps, hsteps, rfl⟩ := h
  have hfs := Json.objectFields?_writable hj hfs
  exact ⟨ConditionSet.representable_of_ofFields? hfs hcondition, link?_spec hnil hchain hfs hsteps⟩

/-- A step that is read is representable, and the chains inside it have what all chains have that are
read. -/
theorem stepOf?_spec {l : Label} {type : String} {s : Step} (hj : j.Writable)
    (h : stepOf? o chain? l type j = some s) : s.Representable ∧ ∀ chain ∈ s.chains, P chain := by
  unfold stepOf? at h
  split at h
  · obtain rfl := Option.some.inj h
    exact ⟨trivial, fun _ hmem => absurd hmem List.not_mem_nil⟩
  · obtain ⟨fs, hfs, h⟩ := Option.bind_eq_some_iff.mp h
    obtain ⟨t, ht, rfl⟩ := Option.map_eq_some_iff.mp h
    exact ⟨Json.required_of_writable (P := fun t => (Step.trigger l t).Representable)
      (Json.objectFields?_writable hj hfs) ht fun hj ht => Trigger.representable_of_ofSettings? hj ht l,
      fun _ hmem => absurd hmem List.not_mem_nil⟩
  · obtain ⟨fs, hfs, h⟩ := Option.bind_eq_some_iff.mp h
    obtain ⟨a, ha, rfl⟩ := Option.map_eq_some_iff.mp h
    exact ⟨Json.required_of_writable (P := fun a => a.input.Canonical) (Json.objectFields?_writable hj hfs) ha
      Action.canonical_of_ofBlock?, fun _ hmem => absurd hmem List.not_mem_nil⟩
  · obtain ⟨fs, hfs, h⟩ := Option.bind_eq_some_iff.mp h
    obtain ⟨a, ha, rfl⟩ := Option.map_eq_some_iff.mp h
    exact ⟨Json.required_of_writable (P := fun a => a.input.Canonical) (Json.objectFields?_writable hj hfs) ha
      Action.canonical_of_ofCode?, fun _ hmem => absurd hmem List.not_mem_nil⟩
  · simp only [Option.bind_eq_bind, Option.bind_eq_some_iff, Option.some.injEq] at h
    obtain ⟨fs, hfs, condition, hcondition, onSuccess, hsuccess, onFailure, hfailure, rfl⟩ := h
    have hfs := Json.objectFields?_writable hj hfs
    refine ⟨Json.required_of_writable (P := ConditionSet.Representable) hfs hcondition
      ConditionSet.representable_of_ofJson?, ?_⟩
    simp only [Step.chains, List.forall_mem_cons]
    exact ⟨link?_spec hnil hchain hfs hsuccess, link?_spec hnil hchain hfs hfailure,
      fun _ hmem => absurd hmem List.not_mem_nil⟩
  · simp only [Option.bind_eq_bind, Option.bind_eq_some_iff, Option.some.injEq] at h
    obtain ⟨fs, hfs, settings, hsettings, branches, hbranches, rfl⟩ := h
    have hfs := Json.objectFields?_writable hj hfs
    have hspec : ∀ b ∈ branches, b.1.condition.Representable ∧ P b.2 :=
      Json.defaulted_of_writable (P := fun branches => ∀ b ∈ branches, b.1.condition.Representable ∧ P b.2)
        hfs hbranches (by simp) fun hj hbranches =>
          Json.asList?_of_writable hj hbranches (branchOf?_spec hnil hchain)
    have hconcurrency : ∀ n ∈ settings.concurrency, n < 2 ^ 64 :=
      Json.defaulted_of_writable (P := fun settings => ∀ n ∈ settings.concurrency, n < 2 ^ 64)
        hfs hsettings (by simp) SplitSettings.concurrency_lt_of_ofJson?
    refine ⟨⟨hconcurrency, fun b hb => (hspec b hb).1⟩, ?_⟩
    intro chain hmem
    obtain ⟨b, hb, rfl⟩ := List.mem_map.mp hmem
    exact (hspec b hb).2
  · simp only [Option.bind_eq_bind, Option.bind_eq_some_iff, Option.some.injEq] at h
    obtain ⟨fs, hfs, settings, hsettings, body, hbody, rfl⟩ := h
    have hfs := Json.objectFields?_writable hj hfs
    refine ⟨Json.required_of_writable (P := fun settings : LoopSettings => settings.items.Canonical ∧
      ∀ n ∈ settings.concurrency, n < 2 ^ 64) hfs hsettings LoopSettings.representable_of_ofJson?, ?_⟩
    simp only [Step.chains, List.forall_mem_cons]
    exact ⟨link?_spec hnil hchain hfs hbody, fun _ hmem => absurd hmem List.not_mem_nil⟩
  · cases h

end Chains

/-- The steps of a chain that is read are representable, wherever they are. -/
theorem representable_of_chainWithin? (depth : Nat) : ∀ {j : Json} {chain : List Step}, j.Writable →
    chainWithin? numbered depth j = some chain → ∀ s ∈ descendants chain, s.Representable := by
  -- the chains inside a step are read with what is left of the depth
  induction depth with
  | zero => exact fun _ h => nomatch h
  | succ depth ih =>
    intro j chain hj h
    simp only [chainWithin?, Option.bind_eq_bind, Option.bind_eq_some_iff, Option.some.injEq] at h
    obtain ⟨fs, hfs, _, -, _, -, ⟨type, kind⟩, hkind, s, hs, rest, hrest, rfl⟩ := h
    have hnil : ∀ s ∈ descendants [], s.Representable := by simp [descendants_eq, places]
    obtain ⟨hown, hchains⟩ := stepOf?_spec (P := fun chain => ∀ s ∈ descendants chain, s.Representable)
      hnil ih (Json.tagged?_writable hj hkind) hs
    have hafter := link?_spec (P := fun chain => ∀ s ∈ descendants chain, s.Representable) hnil ih
      (Json.objectFields?_writable hj hfs) hrest
    intro s' hs'
    rcases mem_descendants_cons.mp hs' with rfl | ⟨chain, hchain, hs'⟩ | hs'
    · exact hown
    · exact hchains chain hchain s' hs'
    · exact hafter s' hs'

/-- A flow that is read is representable. -/
theorem Version.representable_of_ofDocument? {v : Version} (hj : j.Writable)
    (h : Version.ofDocument? numbered j = some v) : v.Representable := by
  simp only [ofDocument?, Option.bind_eq_bind, Option.bind_eq_some_iff] at h
  obtain ⟨fs, hfs, _, -, _, -, chain, hchain, h⟩ := h
  have hsteps := Json.required_of_writable (P := fun chain => ∀ s ∈ descendants chain, s.Representable)
    (Json.fields?_writable hj hfs) hchain (representable_of_chainWithin? _)
  cases chain with
  | nil => cases h
  | cons first rest =>
    obtain rfl := Option.some.inj h
    exact hsteps

/-- Flows are read back from their documents. A flow whose templates are JSON values and whose numbers
have 64 bits is read from its document as it is; and what is read from a document is such a flow, so
writing it and reading it again changes nothing. -/
theorem flows_reread :
    (∀ v : Version, v.Representable → Version.ofJson? v.toJson = some v) ∧
      ∀ (j : Json) (v : Version), j.Writable → Version.ofJson? j = some v →
        Version.ofJson? v.toJson = some v :=
  ⟨fun _ h => Version.ofDocument?_toJson h,
    fun _ _ hj h => Version.ofDocument?_toJson (Version.representable_of_ofDocument? hj h)⟩

/-- A document that leaves fields out, repeats one of a template, and has members that mean nothing. -/
def sketch : Json :=
  .obj [("note", .str "first try"), ("trigger", .obj [("name", .str "start"), ("type", .str "TRIGGER_EMPTY"),
    ("settings", .int 7), ("nextAction", .obj [("name", .str "check"), ("type", .str "SPLIT"),
      ("branches", .arr [.obj [("name", .str "due"), ("colour", .str "red"),
        ("conditions", .arr [.arr [.obj [("firstValue", .str "\x7b\x7bstart\x7d\x7d"),
          ("operator", .obj [("EXISTS", .null)])]]]),
        ("nextAction", .obj [("type", .int 3), ("name", .str "work"),
          ("settings", .arr [.str "go()", .obj [("b", .int 1), ("a", .int 2), ("b", .null)]])])]])])])]

/-- The flow that it describes. -/
def sketched : Version where
  id := ""
  displayName := ""
  first := .trigger ⟨"start", ""⟩ .empty
  rest := [.split ⟨"check", ""⟩ ⟨.allMatches, none⟩
    [(⟨"due", .condition, ⟨[[⟨.str "\x7b\x7bstart\x7d\x7d", .exists, .null, false⟩]], none⟩⟩,
      [.action ⟨"work", ""⟩ ⟨.code "go()", .obj [("a", .int 2), ("b", .null)], .none⟩])]]

/-- The flow is written with all fields and nothing else, and read again and again. -/
theorem sketched_reread : sketch.Writable ∧ Version.ofJson? sketch = some sketched ∧
    sketched.Representable ∧
    sketched.toJson = .obj [("id", .str ""), ("displayName", .str ""), ("trigger", .obj [
      ("name", .str "start"), ("displayName", .str ""), ("type", .str "TRIGGER_EMPTY"),
      ("nextAction", .obj [("name", .str "check"), ("displayName", .str ""), ("type", .str "SPLIT"),
        ("settings", .obj [("executionType", .str "EXECUTE_ALL_MATCH"), ("concurrency", .null)]),
        ("branches", .arr [.obj [("name", .str "due"), ("branchType", .str "CONDITION"),
          ("conditions", .arr [.arr [.obj [("firstValue", .str "\x7b\x7bstart\x7d\x7d"),
            ("operator", .str "EXISTS"), ("secondValue", .null), ("caseSensitive", .bool false)]]]),
          ("nextAction", .obj [("name", .str "work"), ("displayName", .str ""), ("type", .str "ACTION_CODE"),
            ("settings", .obj [("sourceCode", .str "go()"), ("input", .obj [("a", .int 2), ("b", .null)]),
              ("errorHandlingOptions",
                .obj [("continueOnFailure", .null), ("retryOnFailure", .null)])])])]])])])] ∧
    (Version.ofJson? sketched.toJson).bind (fun v => Version.ofJson? v.toJson) = some sketched := by
  have hsketch : sketch.Writable := by
    simp [sketch, Json.Writable, Json.WritableMembers, Json.WritableElements, Json.InRange]
  have hread : Version.ofJson? sketch = some sketched := by rfl
  have hsketched : sketched.Representable := Version.representable_of_ofDocument? hsketch hread
  obtain ⟨hwritten, hreread⟩ := flows_reread
  refine ⟨hsketch, hread, hsketched, by rfl, ?_⟩
  rw [hreread sketch sketched hsketch hread, Option.bind_some, hwritten sketched hsketched]

end FlowEngine.Flow
