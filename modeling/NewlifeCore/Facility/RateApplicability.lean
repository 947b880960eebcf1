import NewlifeCore.Facility.RateOrder

/-!
# `rate_applicability.py`: the JSON rules a rate applies under

A rule is stored as JSON and read by pydantic against six declared shapes.  What no shape reads
applies to no hours at all; what is null or empty applies to all.

* `Denotes` is the grammar: one constructor for each declared class, with its required fields, its
  defaults and its validator.  pydantic is a parameter that accepts exactly what denotes a tree
  (`RuleLibrary.Exact`) and may choose among the trees of an ambiguous object.
* `Holds` is the meaning of a tree and `eval_iff` says that `_eval_node` computes it, by induction
  on the tree.
* §5: every node of a value in the grammar is in the grammar (`NodeOf.inGrammar`), which is what an
  unknown operator deep inside a rule violates.
* §6: a tree that is written out and read again is read as itself and nothing else
  (`Denotes.modelDump_unique`), although some of its classes share keys: the fields that are written
  leave only one shape.
* §7 goes through the ways a rule is passed, as JSON, as a text, as a parsed model or as it is
  stored, and brings each back to the first; `matchesApplicability_evaluates` has them all.  §7.1
  builds a library to which it applies.
-/

namespace NewlifeCore

namespace RateApplicability

/-! ## 1. The shapes -/

/-- How pydantic reads a declared field's value, and writes a `Decimal` in JSON mode. -/
structure FieldReader where
  decimal : JsonValue → Option Decimal
  bool : JsonValue → Option Bool
  decimalText : Decimal → String

/-- A `Decimal` is read back from its text, a truth value from itself. -/
structure FieldReader.Lawful (f : FieldReader) : Prop where
  decimal : ∀ {v d}, f.decimal v = some d → f.decimal (.str (f.decimalText d)) = some d
  zero : f.decimal (.str (f.decimalText 0)) = some 0
  bool : ∀ b, f.bool (.bool b) = some b

/-- A field that may be left out. -/
def withDefault {α : Type} (read : JsonValue → Option α) (default : α) :
    Option JsonValue → Option α
  | none => some default
  | some value => read value

/-- The child of a `NotRule`, by its alias or by its name. -/
def notField (fields : List (String × JsonValue)) : Option JsonValue :=
  (fields.lookup "not").or (fields.lookup "not_")

mutual

/-- **The trees a JSON value denotes**: one constructor for each declared class, with its required
fields, its defaults and its validator.  A key that the class does not declare is ignored. -/
inductive Denotes (f : FieldReader) : JsonValue → RuleNode → Prop
  | hoursGte {fields value} : fields.lookup "op" = some (.str "hours_gte") →
      (fields.lookup "value").bind f.decimal = some value →
      Denotes f (.obj fields) (.hoursGte value)
  | hoursLt {fields value} : fields.lookup "op" = some (.str "hours_lt") →
      (fields.lookup "value").bind f.decimal = some value →
      Denotes f (.obj fields) (.hoursLt value)
  | hoursRange {fields min max maxExclusive} : fields.lookup "op" = some (.str "hours_range") →
      withDefault f.decimal 0 (fields.lookup "min") = some min →
      (fields.lookup "max").bind f.decimal = some max →
      withDefault f.bool true (fields.lookup "max_exclusive") = some maxExclusive →
      0 ≤ min → 0 ≤ max → min < max →
      Denotes f (.obj fields) (.hoursRange min max maxExclusive)
  | all {fields items nodes} : fields.lookup "all" = some (.arr items) → nodes ≠ [] →
      DenotesEach f items nodes → Denotes f (.obj fields) (.all nodes)
  | any {fields items nodes} : fields.lookup "any" = some (.arr items) → nodes ≠ [] →
      DenotesEach f items nodes → Denotes f (.obj fields) (.any nodes)
  | not {fields item node} : notField fields = some item → Denotes f item node →
      Denotes f (.obj fields) (.not node)

/-- The trees of a list's items. -/
inductive DenotesEach (f : FieldReader) : List JsonValue → List RuleNode → Prop
  | nil : DenotesEach f [] []
  | cons {item items node nodes} : Denotes f item node → DenotesEach f items nodes →
      DenotesEach f (item :: items) (node :: nodes)

end

/-- The value denotes some tree. -/
def InGrammar (f : FieldReader) (r : JsonValue) : Prop := ∃ node, Denotes f r node

/-- What ujson decodes a text to, and what pydantic reads a rule as. -/
structure RuleLibrary where
  fields : FieldReader
  loads : String → Option JsonValue
  validate : JsonValue → Option RuleNode

/-- **The validation accepts exactly the declared shapes.**  Of an object of several shapes it may
read any one. -/
structure RuleLibrary.Exact (lib : RuleLibrary) : Prop where
  sound : ∀ {r node}, lib.validate r = some node → Denotes lib.fields r node
  complete : ∀ {r}, InGrammar lib.fields r → (lib.validate r).isSome = true

/-! ## 2. The functions -/

/-- `coerce_applicability_from_db`. -/
def coerceApplicabilityFromDb (lib : RuleLibrary) (raw : JsonValue) : Option JsonValue :=
  let decoded :=
    match raw with
    | .str text => if strip text = "" then none else lib.loads text
    | raw => some raw
  match decoded with
  | some (.obj fields) => if fields.isEmpty then none else some (.obj fields)
  | _ => none

mutual

/-- `model_dump(by_alias=True, mode="json")`. -/
def modelDump (f : FieldReader) : RuleNode → JsonValue
  | .hoursGte value => .obj [("op", .str "hours_gte"), ("value", .str (f.decimalText value))]
  | .hoursLt value => .obj [("op", .str "hours_lt"), ("value", .str (f.decimalText value))]
  | .hoursRange min max maxExclusive =>
    .obj [("op", .str "hours_range"), ("min", .str (f.decimalText min)),
      ("max", .str (f.decimalText max)), ("max_exclusive", .bool maxExclusive)]
  | .all children => .obj [("all", .arr (modelDumpAll f children))]
  | .any children => .obj [("any", .arr (modelDumpAll f children))]
  | .not child => .obj [("not", modelDump f child)]

def modelDumpAll (f : FieldReader) : List RuleNode → List JsonValue
  | [] => []
  | c :: cs => modelDump f c :: modelDumpAll f cs

end

inductive ParseError
  | valueError (message : String)
  | validationError

/-- `raw is None or raw == "" or raw == {}`. -/
def isBlank : JsonValue → Bool
  | .null => true
  | .str text => text = ""
  | .obj fields => fields.isEmpty
  | _ => false

/-- `parse_applicability`. -/
def parseApplicability (lib : RuleLibrary) (raw : JsonValue) :
    Except ParseError (Option JsonValue) :=
  match coerceApplicabilityFromDb lib raw with
  | none =>
    if isBlank raw then .ok none
    else .error (.valueError "applicability must be a JSON object or null")
  | some coerced =>
    match lib.validate coerced with
    | none => .error .validationError
    | some parsed => .ok (some (modelDump lib.fields parsed))

/-- `bool(value)`. -/
def truthy : JsonValue → Bool
  | .null => false
  | .bool b => b
  | .int n => n ≠ 0
  | .float q => q ≠ 0
  | .str text => text ≠ ""
  | .arr items => !items.isEmpty
  | .obj fields => !fields.isEmpty

/-- A rule as it is passed: a JSON value, or a model parsed before. -/
inductive Rule
  | value (r : JsonValue)
  | model (node : RuleNode)

/-- `matches_applicability`. -/
def matchesApplicability (lib : RuleLibrary) (rule : Rule) (billedHours : Decimal) : Bool :=
  match rule with
  | .model node => node.eval billedHours
  | .value raw =>
    let rule :=
      match raw with
      | .str _ => (coerceApplicabilityFromDb lib raw).getD .null
      | raw => raw
    if !truthy rule then true
    else
      match lib.validate rule with
      | none => false
      | some node => node.eval billedHours

/-! ## 3. What a tree means -/

/-- **The Boolean meaning of a tree.** -/
def Holds (hours : Decimal) : RuleNode → Prop
  | .hoursGte value => value ≤ hours
  | .hoursLt value => hours < value
  | .hoursRange min max maxExclusive =>
    min ≤ hours ∧ if maxExclusive then hours < max else hours ≤ max
  | .all children => ∀ c, c ∈ children → Holds hours c
  | .any children => ∃ c, ∃ _ : c ∈ children, Holds hours c
  | .not child => ¬Holds hours child

/-- The object has no shape's key but these. -/
def SoleShape (keys : List String) (fields : List (String × JsonValue)) : Prop :=
  ∀ key ∈ ["op", "all", "any", "not", "not_"], key ∉ keys → fields.lookup key = none

/-- Where a value's nodes stand: it itself, and what is under the one shape key of a node. -/
inductive NodeOf : JsonValue → JsonValue → Prop
  | here {r} : NodeOf r r
  | all {fields items item r} : SoleShape ["all"] fields →
      fields.lookup "all" = some (.arr items) → item ∈ items → NodeOf r item →
      NodeOf r (.obj fields)
  | any {fields items item r} : SoleShape ["any"] fields →
      fields.lookup "any" = some (.arr items) → item ∈ items → NodeOf r item →
      NodeOf r (.obj fields)
  | not {fields item r} : SoleShape ["not", "not_"] fields → notField fields = some item →
      NodeOf r item → NodeOf r (.obj fields)

/-! ## 4. The evaluation -/

variable {f : FieldReader} {lib : RuleLibrary} {hours : Decimal} {r c : JsonValue}
  {node node' : RuleNode}

mutual

/-- **`_eval_node` computes the meaning.** -/
theorem eval_iff (hours : Decimal) : ∀ node : RuleNode, node.eval hours = true ↔ Holds hours node
  | .hoursGte value => by simp [RuleNode.eval, Holds]
  | .hoursLt value => by simp [RuleNode.eval, Holds]
  | .hoursRange min max maxExclusive => by
    unfold RuleNode.eval Holds
    by_cases hmin : hours < min
    · simp [hmin]
    · cases maxExclusive <;> simp [hmin, not_lt.mp hmin]
  | .all children => by
    rw [RuleNode.eval, Holds]
    exact evalAll_iff hours children
  | .any children => by
    rw [RuleNode.eval, Holds]
    exact (evalAny_iff hours children).trans (by simp)
  | .not child => by
    rw [RuleNode.eval, Holds, ← eval_iff hours child]
    simp

theorem evalAll_iff (hours : Decimal) : ∀ children : List RuleNode,
    RuleNode.evalAll hours children = true ↔ ∀ c ∈ children, Holds hours c
  | [] => by simp [RuleNode.evalAll]
  | c :: cs => by
    rw [RuleNode.evalAll, Bool.and_eq_true, eval_iff hours c, evalAll_iff hours cs,
      List.forall_mem_cons]

theorem evalAny_iff (hours : Decimal) : ∀ children : List RuleNode,
    RuleNode.evalAny hours children = true ↔ ∃ c ∈ children, Holds hours c
  | [] => by simp [RuleNode.evalAny]
  | c :: cs => by
    rw [RuleNode.evalAny, Bool.or_eq_true, eval_iff hours c, evalAny_iff hours cs,
      List.exists_mem_cons_iff]

end

/-! ## 5. The grammar -/

/-- Only an object with fields denotes a tree. -/
theorem Denotes.object (h : Denotes f r node) : ∃ fields, r = .obj fields ∧ fields ≠ [] := by
  have hfields : ∀ {fields : List (String × JsonValue)} {key : String} {value : JsonValue},
      fields.lookup key = some value → fields ≠ [] := by
    rintro _ _ _ hlookup rfl
    cases hlookup
  cases h with
  | hoursGte hop _ | hoursLt hop _ | hoursRange hop _ _ _ _ _ _ | all hop _ _ | any hop _ _ =>
    exact ⟨_, rfl, hfields hop⟩
  | not hitem _ =>
    refine ⟨_, rfl, ?_⟩
    rintro rfl
    cases hitem

theorem Denotes.truthy (h : Denotes f r node) : truthy r = true := by
  obtain ⟨fields, rfl, hfields⟩ := h.object
  simpa [RateApplicability.truthy] using hfields

theorem DenotesEach.of_mem : ∀ {items : List JsonValue} {nodes : List RuleNode},
    DenotesEach f items nodes → ∀ {item}, item ∈ items → InGrammar f item
  | _, _, .nil, _, h => absurd h List.not_mem_nil
  | _, _, .cons hitem hitems, item, h => by
    rcases List.mem_cons.mp h with rfl | h
    · exact ⟨_, hitem⟩
    · exact hitems.of_mem h

theorem SoleShape.lookup {keys : List String} {fields : List (String × JsonValue)}
    (h : SoleShape keys fields) {key : String} {value : JsonValue}
    (hkey : key ∈ ["op", "all", "any", "not", "not_"]) (hne : key ∉ keys) :
    fields.lookup key ≠ some value := by
  rw [h key hkey hne]
  exact (Option.some_ne_none value).symm

/-- An object with no `not` field has no `NotRule` to be read as. -/
theorem SoleShape.notField {keys : List String} {fields : List (String × JsonValue)}
    (h : SoleShape keys fields) {value : JsonValue} (hne : "not" ∉ keys) (hne' : "not_" ∉ keys) :
    notField fields ≠ some value := by
  rw [RateApplicability.notField, h "not" (by simp) hne, h "not_" (by simp) hne']
  exact (Option.some_ne_none value).symm

/-- **Every node of a value in the grammar is in the grammar.** -/
theorem NodeOf.inGrammar (h : NodeOf c r) : InGrammar f r → InGrammar f c := by
  induction h with
  | here => exact id
  | all hsole hall hmem _ ih =>
    rintro ⟨node, hnode⟩
    cases hnode with
    | hoursGte hop _ | hoursLt hop _ | hoursRange hop _ _ _ _ _ _ =>
      exact absurd hop (hsole.lookup (by simp) (by simp))
    | all hall' _ heach =>
      cases hall.symm.trans hall'
      exact ih (heach.of_mem hmem)
    | any hany _ _ => exact absurd hany (hsole.lookup (by simp) (by simp))
    | not hitem _ => exact absurd hitem (hsole.notField (by simp) (by simp))
  | any hsole hany hmem _ ih =>
    rintro ⟨node, hnode⟩
    cases hnode with
    | hoursGte hop _ | hoursLt hop _ | hoursRange hop _ _ _ _ _ _ =>
      exact absurd hop (hsole.lookup (by simp) (by simp))
    | all hall _ _ => exact absurd hall (hsole.lookup (by simp) (by simp))
    | any hany' _ heach =>
      cases hany.symm.trans hany'
      exact ih (heach.of_mem hmem)
    | not hitem _ => exact absurd hitem (hsole.notField (by simp) (by simp))
  | not hsole hitem _ ih =>
    rintro ⟨node, hnode⟩
    cases hnode with
    | hoursGte hop _ | hoursLt hop _ | hoursRange hop _ _ _ _ _ _ =>
      exact absurd hop (hsole.lookup (by simp) (by simp))
    | all hall _ _ => exact absurd hall (hsole.lookup (by simp) (by simp))
    | any hany _ _ => exact absurd hany (hsole.lookup (by simp) (by simp))
    | not hitem' hchild =>
      cases hitem.symm.trans hitem'
      exact ih ⟨_, hchild⟩

/-! ## 6. A tree written out -/

theorem decimal_withDefault (hf : f.Lawful) {field : Option JsonValue} {d : Decimal}
    (h : withDefault f.decimal 0 field = some d) : f.decimal (.str (f.decimalText d)) = some d := by
  cases field with
  | none =>
    cases h
    exact hf.zero
  | some value => exact hf.decimal h

mutual

/-- A tree that was read is read again from what is written of it. -/
theorem Denotes.modelDump (hf : f.Lawful) : ∀ {r : JsonValue} {node : RuleNode},
    Denotes f r node → Denotes f (modelDump f node) node
  | _, _, .hoursGte _ hvalue => by
    obtain ⟨v, -, hv⟩ := Option.bind_eq_some_iff.mp hvalue
    exact .hoursGte rfl (hf.decimal hv)
  | _, _, .hoursLt _ hvalue => by
    obtain ⟨v, -, hv⟩ := Option.bind_eq_some_iff.mp hvalue
    exact .hoursLt rfl (hf.decimal hv)
  | _, _, .hoursRange _ hmin hmax _ hmin₀ hmax₀ hlt => by
    obtain ⟨v, -, hv⟩ := Option.bind_eq_some_iff.mp hmax
    exact .hoursRange rfl (decimal_withDefault hf hmin) (hf.decimal hv) (hf.bool _) hmin₀ hmax₀ hlt
  | _, _, .all _ hne heach => .all rfl hne (heach.modelDumpAll hf)
  | _, _, .any _ hne heach => .any rfl hne (heach.modelDumpAll hf)
  | _, _, .not _ hchild => .not rfl (hchild.modelDump hf)

theorem DenotesEach.modelDumpAll (hf : f.Lawful) : ∀ {items : List JsonValue}
    {nodes : List RuleNode}, DenotesEach f items nodes → DenotesEach f (modelDumpAll f nodes) nodes
  | _, _, .nil => .nil
  | _, _, .cons hitem hitems => .cons (hitem.modelDump hf) (hitems.modelDumpAll hf)

end

mutual

/-- **And as nothing else.** -/
theorem Denotes.modelDump_unique (hf : f.Lawful) : ∀ {r : JsonValue} {node node' : RuleNode},
    Denotes f r node → Denotes f (RateApplicability.modelDump f node) node' → node' = node
  | _, _, _, .hoursGte _ hvalue, h => by
    obtain ⟨v, -, hv⟩ := Option.bind_eq_some_iff.mp hvalue
    cases h with
    | hoursGte _ hvalue' => rw [Option.some.inj ((hf.decimal hv).symm.trans hvalue')]
    | hoursLt hop _ | hoursRange hop _ _ _ _ _ _ => simp at hop
    | all hop _ _ | any hop _ _ | not hop _ => cases hop
  | _, _, _, .hoursLt _ hvalue, h => by
    obtain ⟨v, -, hv⟩ := Option.bind_eq_some_iff.mp hvalue
    cases h with
    | hoursLt _ hvalue' => rw [Option.some.inj ((hf.decimal hv).symm.trans hvalue')]
    | hoursGte hop _ | hoursRange hop _ _ _ _ _ _ => simp at hop
    | all hop _ _ | any hop _ _ | not hop _ => cases hop
  | _, _, _, .hoursRange _ hmin hmax _ _ _ _, h => by
    obtain ⟨v, -, hv⟩ := Option.bind_eq_some_iff.mp hmax
    cases h with
    | hoursRange _ hmin' hmax' hexclusive' _ _ _ =>
      rw [Option.some.inj ((decimal_withDefault hf hmin).symm.trans hmin'),
        Option.some.inj ((hf.decimal hv).symm.trans hmax'),
        Option.some.inj ((hf.bool _).symm.trans hexclusive')]
    | hoursGte hop _ | hoursLt hop _ => simp at hop
    | all hop _ _ | any hop _ _ | not hop _ => cases hop
  | _, _, _, .all _ _ heach, h => by
    cases h with
    | all hall _ heach' =>
      cases hall
      rw [heach.modelDumpAll_unique hf heach']
    | hoursGte hop _ | hoursLt hop _ | hoursRange hop _ _ _ _ _ _ | any hop _ _ | not hop _ =>
      cases hop
  | _, _, _, .any _ _ heach, h => by
    cases h with
    | any hany _ heach' =>
      cases hany
      rw [heach.modelDumpAll_unique hf heach']
    | hoursGte hop _ | hoursLt hop _ | hoursRange hop _ _ _ _ _ _ | all hop _ _ | not hop _ =>
      cases hop
  | _, _, _, .not _ hchild, h => by
    cases h with
    | not hitem hchild' =>
      cases hitem
      rw [hchild.modelDump_unique hf hchild']
    | hoursGte hop _ | hoursLt hop _ | hoursRange hop _ _ _ _ _ _ | all hop _ _ | any hop _ _ =>
      cases hop

theorem DenotesEach.modelDumpAll_unique (hf : f.Lawful) : ∀ {items : List JsonValue}
    {nodes nodes' : List RuleNode}, DenotesEach f items nodes →
    DenotesEach f (RateApplicability.modelDumpAll f nodes) nodes' → nodes' = nodes
  | _, _, _, .nil, .nil => rfl
  | _, _, _, .cons hitem hitems, .cons hitem' hitems' => by
    rw [hitem.modelDump_unique hf hitem', hitems.modelDumpAll_unique hf hitems']

end

/-! ## 7. The rules that match -/

/-- What is read of a text is what is read of the object it encodes. -/
theorem matches_text {text : String} {fields : List (String × JsonValue)}
    (hblank : strip text ≠ "") (hloads : lib.loads text = some (.obj fields)) :
    matchesApplicability lib (.value (.str text)) hours =
      matchesApplicability lib (.value (.obj fields)) hours := by
  have hcoerce : coerceApplicabilityFromDb lib (.str text) =
      if fields.isEmpty then none else some (.obj fields) := by
    simp [coerceApplicabilityFromDb, hblank, hloads]
  cases fields with
  | nil => simp [matchesApplicability, hcoerce, truthy]
  | cons field fields => simp [matchesApplicability, hcoerce, truthy]

/-- A blank text is no rule. -/
theorem matches_blank {text : String} (h : strip text = "") :
    matchesApplicability lib (.value (.str text)) hours = true := by
  simp [matchesApplicability, coerceApplicabilityFromDb, h, truthy]

/-- Nor are null and the empty values. -/
theorem matches_empty (h : truthy r = false) :
    matchesApplicability lib (.value r) hours = true := by
  cases r with
  | str text =>
    have htext : text = "" := by simpa [truthy] using h
    subst htext
    exact matches_blank rfl
  | null | bool b | int n | float q | arr items | obj fields => simp [matchesApplicability, h]

/-- A rule that is read is evaluated. -/
theorem matches_validated (hlib : lib.Exact) (h : lib.validate r = some node) :
    matchesApplicability lib (.value r) hours = node.eval hours := by
  obtain ⟨fields, rfl, hfields⟩ := (hlib.sound h).object
  simp [matchesApplicability, truthy, hfields, h]

/-- **A value outside the grammar matches nothing.** -/
theorem matches_outside (hlib : lib.Exact) (htext : ∀ text, r ≠ .str text)
    (htruthy : truthy r = true) (hout : ¬InGrammar lib.fields r) :
    matchesApplicability lib (.value r) hours = false := by
  have hnone : lib.validate r = none := by
    cases h : lib.validate r with
    | none => rfl
    | some node => exact absurd ⟨node, hlib.sound h⟩ hout
  cases r with
  | str text => exact absurd rfl (htext text)
  | null | bool b | int n | float q | arr items | obj fields =>
    simp [matchesApplicability, htruthy, hnone]

/-- What a value is coerced to matches as the value does. -/
theorem matches_coerced (h : coerceApplicabilityFromDb lib r = some c) :
    matchesApplicability lib (.value r) hours = matchesApplicability lib (.value c) hours := by
  cases r with
  | null | bool b | int n | float q | arr items => cases h
  | obj fields =>
    unfold coerceApplicabilityFromDb at h
    dsimp only at h
    split at h
    · cases h
    · cases h
      rfl
  | str text =>
    unfold coerceApplicabilityFromDb at h
    dsimp only at h
    by_cases hblank : strip text = ""
    · rw [if_pos hblank] at h
      cases h
    · rw [if_neg hblank] at h
      split at h
      · rename_i fields hloads
        split at h
        · cases h
        · cases h
          exact matches_text hblank hloads
      · cases h

theorem validate_modelDump (hf : lib.fields.Lawful) (hlib : lib.Exact)
    (h : lib.validate r = some node) : lib.validate (modelDump lib.fields node) = some node := by
  have hread := hlib.sound h
  obtain ⟨node', hnode'⟩ :=
    Option.isSome_iff_exists.mp (hlib.complete ⟨node, hread.modelDump hf⟩)
  rw [hnode', hread.modelDump_unique hf (hlib.sound hnode')]

/-- What is stored of a rule matches as the rule does. -/
theorem matches_parsed (hf : lib.fields.Lawful) (hlib : lib.Exact) {stored : Option JsonValue}
    (h : parseApplicability lib r = .ok stored) :
    matchesApplicability lib (.value (stored.getD .null)) hours =
      matchesApplicability lib (.value r) hours := by
  unfold parseApplicability at h
  split at h
  · split at h
    · rename_i hblank
      cases h
      have hfalsy : truthy r = false := by
        cases r with
        | str text => simpa [isBlank, truthy] using hblank
        | obj fields => simpa [isBlank, truthy] using hblank
        | null => rfl
        | bool b | int n | float q | arr items => cases hblank
      rw [matches_empty hfalsy]
      rfl
    · cases h
  · rename_i coerced hcoerced
    split at h
    · cases h
    · rename_i parsed hparsed
      cases h
      rw [matches_coerced hcoerced, matches_validated hlib hparsed]
      exact matches_validated hlib (validate_modelDump hf hlib hparsed)

/-- **The evaluation of a rule**, passed as JSON, as a text, as a model or as it is stored. -/
structure Evaluates (lib : RuleLibrary) (hours : Decimal) (r : JsonValue) : Prop where
  /-- Null and the empty values match. -/
  empty : truthy r = false → matchesApplicability lib (.value r) hours = true
  /-- A value in the grammar matches as the tree means that it is read as. -/
  meaning : InGrammar lib.fields r → ∃ node, lib.validate r = some node ∧
    Denotes lib.fields r node ∧
    (matchesApplicability lib (.value r) hours = true ↔ Holds hours node) ∧
    matchesApplicability lib (.model node) hours = matchesApplicability lib (.value r) hours
  /-- Any other matches nothing when one of its nodes is outside the grammar. -/
  outside : truthy r = true → (∀ text, r ≠ .str text) → ∀ c, NodeOf c r →
    ¬InGrammar lib.fields c → matchesApplicability lib (.value r) hours = false
  /-- A blank text matches. -/
  blank : ∀ text, r = .str text → strip text = "" →
    matchesApplicability lib (.value r) hours = true
  /-- A text matches as the object it encodes. -/
  text : ∀ text fields, r = .obj fields → strip text ≠ "" → lib.loads text = some r →
    matchesApplicability lib (.value (.str text)) hours =
      matchesApplicability lib (.value r) hours
  /-- So does what is stored of it. -/
  stored : ∀ stored, parseApplicability lib r = .ok stored →
    matchesApplicability lib (.value (stored.getD .null)) hours =
      matchesApplicability lib (.value r) hours

/-- **Rate applicability evaluates its grammar.** -/
theorem matchesApplicability_evaluates (hf : lib.fields.Lawful) (hlib : lib.Exact)
    (hours : Decimal) (r : JsonValue) : Evaluates lib hours r where
  empty := matches_empty
  meaning h := by
    obtain ⟨node, hnode⟩ := Option.isSome_iff_exists.mp (hlib.complete h)
    have hmatches : matchesApplicability lib (.value r) hours = node.eval hours :=
      matches_validated hlib hnode
    refine ⟨node, hnode, hlib.sound hnode, ?_, hmatches.symm⟩
    rw [hmatches]
    exact eval_iff hours node
  outside htruthy htext c hc hout :=
    matches_outside hlib htext htruthy fun h => hout (hc.inGrammar h)
  blank := by
    rintro text rfl hblank
    exact matches_blank hblank
  text := by
    rintro text fields rfl hblank hloads
    exact matches_text hblank hloads
  stored stored h := matches_parsed hf hlib h

/-! ### 7.1 A library that reads the first shape that fits -/

mutual

def depth : JsonValue → Nat
  | .arr items => depthItems items + 1
  | .obj fields => depthFields fields + 1
  | _ => 1

def depthItems : List JsonValue → Nat
  | [] => 0
  | item :: items => max (depth item) (depthItems items)

def depthFields : List (String × JsonValue) → Nat
  | [] => 0
  | (_, value) :: fields => max (depth value) (depthFields fields)

end

theorem depth_item {item : JsonValue} : ∀ {items : List JsonValue}, item ∈ items →
    depth item ≤ depthItems items
  | _ :: items, h => by
    rcases List.mem_cons.mp h with rfl | h
    · exact le_max_left _ _
    · exact le_trans (depth_item h) (le_max_right _ _)

theorem depth_lookup {key : String} {value : JsonValue} : ∀ {fields : List (String × JsonValue)},
    fields.lookup key = some value → depth value ≤ depthFields fields
  | (name, other) :: fields, h => by
    rw [List.lookup_cons] at h
    unfold depthFields
    split at h
    · cases h
      exact le_max_left _ _
    · exact le_trans (depth_lookup h) (le_max_right _ _)

/-- The leaf whose tag the object has. -/
def firstLeaf (f : FieldReader) (fields : List (String × JsonValue)) : Option RuleNode :=
  match fields.lookup "op" with
  | some (.str "hours_gte") => ((fields.lookup "value").bind f.decimal).map .hoursGte
  | some (.str "hours_lt") => ((fields.lookup "value").bind f.decimal).map .hoursLt
  | some (.str "hours_range") => do
    let min ← withDefault f.decimal 0 (fields.lookup "min")
    let max ← (fields.lookup "max").bind f.decimal
    let maxExclusive ← withDefault f.bool true (fields.lookup "max_exclusive")
    if 0 ≤ min ∧ 0 ≤ max ∧ min < max then some (.hoursRange min max maxExclusive) else none
  | _ => none

/-- The nodes of a list that has at least one. -/
def childNodes (read : JsonValue → Option RuleNode) : Option JsonValue → Option (List RuleNode)
  | some (.arr items) => if items.isEmpty then none else items.mapM read
  | _ => none

def firstShape (f : FieldReader) : Nat → JsonValue → Option RuleNode
  | fuel + 1, .obj fields =>
    (firstLeaf f fields).or
      (((childNodes (firstShape f fuel) (fields.lookup "all")).map .all).or
        (((childNodes (firstShape f fuel) (fields.lookup "any")).map .any).or
          (((notField fields).bind (firstShape f fuel)).map .not)))
  | _, _ => none

theorem firstLeaf_sound {fields : List (String × JsonValue)} (h : firstLeaf f fields = some node) :
    Denotes f (.obj fields) node := by
  unfold firstLeaf at h
  split at h
  · rename_i hop
    obtain ⟨value, hvalue, rfl⟩ := Option.map_eq_some_iff.mp h
    exact .hoursGte hop hvalue
  · rename_i hop
    obtain ⟨value, hvalue, rfl⟩ := Option.map_eq_some_iff.mp h
    exact .hoursLt hop hvalue
  · rename_i hop
    obtain ⟨min, hmin, h⟩ := Option.bind_eq_some_iff.mp h
    obtain ⟨max, hmax, h⟩ := Option.bind_eq_some_iff.mp h
    obtain ⟨maxExclusive, hexclusive, h⟩ := Option.bind_eq_some_iff.mp h
    split at h
    · rename_i hbounds
      cases h
      exact .hoursRange hop hmin hmax hexclusive hbounds.1 hbounds.2.1 hbounds.2.2
    · cases h
  · cases h

theorem denotesEach_of_mapM {read : JsonValue → Option RuleNode}
    (hread : ∀ {r node}, read r = some node → Denotes f r node) :
    ∀ {items : List JsonValue} {nodes : List RuleNode}, items.mapM read = some nodes →
      DenotesEach f items nodes
  | [], nodes, h => by
    cases h
    exact .nil
  | item :: items, nodes, h => by
    rw [List.mapM_cons] at h
    obtain ⟨node, hnode, h⟩ := Option.bind_eq_some_iff.mp h
    obtain ⟨rest, hrest, h⟩ := Option.bind_eq_some_iff.mp h
    cases h
    exact .cons (hread hnode) (denotesEach_of_mapM hread hrest)

theorem childNodes_some {read : JsonValue → Option RuleNode}
    (hread : ∀ {r node}, read r = some node → Denotes f r node) {field : Option JsonValue}
    {nodes : List RuleNode} (h : childNodes read field = some nodes) :
    ∃ items, field = some (.arr items) ∧ nodes ≠ [] ∧ DenotesEach f items nodes := by
  unfold childNodes at h
  split at h
  · rename_i items
    split at h
    · cases h
    · rename_i hitems
      have heach := denotesEach_of_mapM hread h
      refine ⟨items, rfl, ?_, heach⟩
      rintro rfl
      cases heach
      exact hitems rfl
  · cases h

theorem firstShape_sound : ∀ {fuel : Nat} {r : JsonValue} {node : RuleNode},
    firstShape f fuel r = some node → Denotes f r node
  | 0, _, _, h => by simp [firstShape] at h
  | fuel + 1, r, node, h => by
    have hread : ∀ {r node}, firstShape f fuel r = some node → Denotes f r node :=
      firstShape_sound
    cases r with
    | obj fields =>
      rw [firstShape] at h
      rcases Option.or_eq_some_iff.mp h with hleaf | ⟨-, h⟩
      · exact firstLeaf_sound hleaf
      rcases Option.or_eq_some_iff.mp h with hall | ⟨-, h⟩
      · obtain ⟨nodes, hnodes, rfl⟩ := Option.map_eq_some_iff.mp hall
        obtain ⟨items, hfield, hne, heach⟩ := childNodes_some hread hnodes
        exact .all hfield hne heach
      rcases Option.or_eq_some_iff.mp h with hany | ⟨-, hnot⟩
      · obtain ⟨nodes, hnodes, rfl⟩ := Option.map_eq_some_iff.mp hany
        obtain ⟨items, hfield, hne, heach⟩ := childNodes_some hread hnodes
        exact .any hfield hne heach
      · obtain ⟨child, hchild, rfl⟩ := Option.map_eq_some_iff.mp hnot
        obtain ⟨item, hitem, hchild⟩ := Option.bind_eq_some_iff.mp hchild
        exact .not hitem (hread hchild)
    | null | bool b | int n | float q | str text | arr items => simp [firstShape] at h

theorem firstLeaf_complete {fields : List (String × JsonValue)} {r : JsonValue}
    (hr : r = .obj fields) (h : Denotes f r node) (hleaf : firstLeaf f fields = none) :
    (∃ items, fields.lookup "all" = some (.arr items) ∧ ∃ nodes ≠ [], DenotesEach f items nodes) ∨
    (∃ items, fields.lookup "any" = some (.arr items) ∧ ∃ nodes ≠ [], DenotesEach f items nodes) ∨
    ∃ item, notField fields = some item ∧ InGrammar f item := by
  cases h with
  | hoursGte hop hvalue =>
    cases hr
    simp [firstLeaf, hop, hvalue] at hleaf
  | hoursLt hop hvalue =>
    cases hr
    simp [firstLeaf, hop, hvalue] at hleaf
  | hoursRange hop hmin hmax hexclusive hmin₀ hmax₀ hlt =>
    cases hr
    simp [firstLeaf, hop, hmin, hmax, hexclusive, hmin₀, hmax₀, hlt] at hleaf
  | all hfield hne heach =>
    cases hr
    exact .inl ⟨_, hfield, _, hne, heach⟩
  | any hfield hne heach =>
    cases hr
    exact .inr (.inl ⟨_, hfield, _, hne, heach⟩)
  | not hitem hchild =>
    cases hr
    exact .inr (.inr ⟨_, hitem, _, hchild⟩)

theorem mapM_isSome {read : JsonValue → Option RuleNode} : ∀ {items : List JsonValue},
    (∀ item ∈ items, (read item).isSome = true) → (items.mapM read).isSome = true
  | [], _ => rfl
  | item :: items, h => by
    obtain ⟨hitem, hitems⟩ := List.forall_mem_cons.mp h
    obtain ⟨node, hnode⟩ := Option.isSome_iff_exists.mp hitem
    obtain ⟨nodes, hnodes⟩ := Option.isSome_iff_exists.mp (mapM_isSome hitems)
    rw [List.mapM_cons, hnode, hnodes]
    rfl

theorem childNodes_complete {read : JsonValue → Option RuleNode} {items : List JsonValue}
    {nodes : List RuleNode} (hread : ∀ item ∈ items, InGrammar f item → (read item).isSome = true)
    (hne : nodes ≠ []) (heach : DenotesEach f items nodes) :
    (childNodes read (some (.arr items))).isSome = true := by
  have hitems : ¬items.isEmpty = true := by
    cases heach with
    | nil => exact absurd rfl hne
    | cons _ _ => exact Bool.false_ne_true
  rw [childNodes, if_neg hitems]
  exact mapM_isSome fun item hitem => hread item hitem (heach.of_mem hitem)

/-- Some shape is read with enough fuel, by induction on it. -/
theorem firstShape_complete : ∀ {fuel : Nat} {r : JsonValue}, depth r ≤ fuel → InGrammar f r →
    (firstShape f fuel r).isSome = true := by
  intro fuel
  induction fuel with
  | zero =>
    rintro r hdepth ⟨node, hnode⟩
    obtain ⟨fields, rfl, -⟩ := hnode.object
    simp [depth] at hdepth
  | succ fuel ih =>
    rintro r hdepth ⟨node, hnode⟩
    obtain ⟨fields, rfl, -⟩ := hnode.object
    have hfields : depthFields fields ≤ fuel := by simpa [depth] using hdepth
    have hitems : ∀ {key : String} {items : List JsonValue}, fields.lookup key = some (.arr items) →
        ∀ item ∈ items, InGrammar f item → (firstShape f fuel item).isSome = true := by
      intro key items hlookup item hitem
      have harr : depthItems items + 1 ≤ fuel := by
        have h := le_trans (depth_lookup hlookup) hfields
        rwa [depth] at h
      exact ih (le_trans (depth_item hitem) (Nat.le_of_succ_le harr))
    rw [firstShape]
    cases hleaf : firstLeaf f fields with
    | some leaf => rfl
    | none =>
      rcases firstLeaf_complete rfl hnode hleaf with ⟨items, hfield, nodes, hne, heach⟩ |
        ⟨items, hfield, nodes, hne, heach⟩ | ⟨item, hitem, hchild⟩
      · have hsome := childNodes_complete (hitems hfield) hne heach
        simp [hfield, hsome]
      · have hsome := childNodes_complete (hitems hfield) hne heach
        simp [hfield, hsome]
      · have hdepth : depth item ≤ fuel := by
          rcases Option.or_eq_some_iff.mp hitem with hlookup | ⟨-, hlookup⟩
          · exact le_trans (depth_lookup hlookup) hfields
          · exact le_trans (depth_lookup hlookup) hfields
        have hsome := ih hdepth hchild
        simp [hitem, hsome]

/-- Numbers of one digit, as such and as text. -/
def digits : FieldReader where
  decimal
    | .int n => if 0 ≤ n ∧ n < 10 then some n else none
    | .str text => ((List.range 10).find? fun n => n.repr = text).map fun n : Nat => (n : Decimal)
    | _ => none
  bool
    | .bool b => some b
    | _ => none
  decimalText d := d.num.toNat.repr

theorem digits_text : ∀ n < 10, digits.decimal (.str (digits.decimalText (n : Nat))) =
    some ((n : Nat) : Decimal) := by
  decide +kernel

theorem digits_lawful : digits.Lawful where
  decimal := by
    intro v d h
    cases v with
    | int n =>
      unfold digits at h
      dsimp only at h
      split at h
      · rename_i hn
        cases h
        lift n to ℕ using hn.1
        have hdigit := digits_text n (by omega)
        exact_mod_cast hdigit
      · cases h
    | str text =>
      obtain ⟨n, hn, rfl⟩ := Option.map_eq_some_iff.mp h
      exact digits_text n (List.mem_range.mp (List.mem_of_find?_eq_some hn))
    | null | bool b | float q | arr items | obj fields => cases h
  zero := digits_text 0 (by decide)
  bool _ := rfl

def firstShapes : RuleLibrary where
  fields := digits
  loads _ := none
  validate r := firstShape digits (depth r) r

theorem firstShapes_exact : firstShapes.Exact where
  sound := firstShape_sound
  complete := firstShape_complete (le_refl _)

/-- Not below 5, under a conjunction. -/
def notBelowFive : JsonValue :=
  .obj [("all", .arr [.obj [("not", .obj [("op", .str "hours_lt"), ("value", .int 5)])]])]

/-- Under the same two nodes, an operator that there is not. -/
def notUnknown : JsonValue :=
  .obj [("all", .arr [.obj [("not", .obj [("op", .str "hours_gtte"), ("value", .int 5)])]])]

/-- At 6 hours the first matches and the second does not, above its `not` either. -/
theorem matchesApplicability_evaluates_six :
    matchesApplicability firstShapes (.value notBelowFive) 6 = true ∧
      matchesApplicability firstShapes (.value notUnknown) 6 = false := by
  have hread : firstShapes.validate notBelowFive = some (.all [.not (.hoursLt 5)]) := rfl
  have hnode : NodeOf (.obj [("op", .str "hours_gtte"), ("value", .int 5)]) notUnknown := by
    refine .all ?_ rfl (List.mem_singleton_self _) (.not ?_ rfl .here)
    · simp [SoleShape, List.lookup_cons]
    · simp [SoleShape, List.lookup_cons]
  have hout : ¬InGrammar digits (.obj [("op", .str "hours_gtte"), ("value", .int 5)]) := by
    intro h
    cases firstShapes_exact.complete h
  constructor
  · obtain ⟨node, hvalid, -, hmeans, -⟩ := (matchesApplicability_evaluates digits_lawful
      firstShapes_exact 6 notBelowFive).meaning ⟨_, firstShapes_exact.sound hread⟩
    cases hread.symm.trans hvalid
    rw [hmeans]
    simp only [Holds, List.mem_singleton, forall_eq]
    decide +kernel
  · exact (matchesApplicability_evaluates digits_lawful firstShapes_exact 6 notUnknown).outside
      rfl (fun text htext => by cases htext) _ hnode hout

/-- **The empty object is outside the grammar, and matches.** -/
theorem matches_empty_object : ¬InGrammar firstShapes.fields (.obj []) ∧
    matchesApplicability firstShapes (.value (.obj [])) 6 = true := by
  refine ⟨?_, rfl⟩
  rintro ⟨node, hnode⟩
  obtain ⟨fields, hfields, hne⟩ := hnode.object
  cases hfields
  exact hne rfl

end RateApplicability

end NewlifeCore
