import AlgorithmTrainer.Server.Checks

/-!
# `Server.ProblemForms` — loading a problem and saving it

An administrator loads a problem as `admin_problem_to_json` writes it and saves what `parse_admin_problem`
reads. `admin_forms_round_trip`: saving what was loaded changes and refuses nothing, and what is read off a
body is what it would be loaded as.
-/

namespace AlgorithmTrainer

/-! ## The limits -/

/-- A problem that an administrator may have written; its revision is a 64-bit integer. -/
structure Problem.WithinLimits (p : Problem) : Prop where
  slug : validProblemSlug p.id = true
  titled : p.title ≠ ""
  title : byteSize p.title ≤ 200
  description : validProblemText p.description = true
  inputFormat : validProblemText p.inputFormat = true
  outputFormat : validProblemText p.outputFormat = true
  tags : p.tags.length ≤ 50
  languages : p.languages.length ≤ 10
  examples : p.examples.length ≤ 20
  revision : 0 < p.revision ∧ p.revision ≤ maxInt64

/-- A stored hidden test that an administrator may have written. -/
structure ProblemTestCase.WithinLimits (t : ProblemTestCase) : Prop where
  input : validHiddenTestText t.input = true
  expectedOutput : validHiddenTestText t.expectedOutput = true
  id : 0 < t.id
  position : 0 ≤ t.position ∧ t.position ≤ maxInt64
  revision : 0 < t.revision ∧ t.revision ≤ maxInt64

/-! ## Saving what was loaded -/

section save
variable {p : Problem} {t : ProblemTestCase}

/-- The fields of a problem, as it is loaded. -/
def Problem.fields (p : Problem) : ProblemFields where
  title := p.title
  description := p.description
  inputFormat := p.inputFormat
  outputFormat := p.outputFormat
  difficulty := difficultyName p.difficulty
  tags := p.tags.map .string
  languages := p.languages.map .string
  examples := p.examples.map exampleToJson
  enabled := p.enabled

theorem fields_in (h : p.title ≠ "") : p.fields.In (adminProblemToJson p) where
  title := rfl
  given := h
  description := rfl
  inputFormat := rfl
  outputFormat := rfl
  difficulty := rfl
  tags := rfl
  languages := rfl
  examples := rfl
  enabled := rfl

theorem difficultyOf_name (difficulty : ProblemDifficulty) :
    difficultyOf (difficultyName difficulty) = .ok difficulty := by
  cases difficulty <;> rfl

theorem texts_strings (message : String) (texts : List String) :
    (texts.map Json.string).mapM (textOf message) = .ok texts := by
  induction texts with
  | nil => rfl
  | cons text texts ih =>
      rw [List.map_cons, List.mapM_cons, ih]
      rfl

theorem examples_toJson (message : String) (examples : List ProblemExample) :
    (examples.map exampleToJson).mapM (exampleOf message) = .ok examples := by
  induction examples with
  | nil => rfl
  | cons e examples ih =>
      rw [List.map_cons, List.mapM_cons, ih]
      rfl

theorem revisionOf_int {message : String} {revision : Int} (h : 0 < revision ∧ revision ≤ maxInt64) :
    revisionOf message (.int revision) = .ok revision := by
  have hmin : minInt64 ≤ revision := le_trans (by decide) (le_of_lt h.1)
  simp [revisionOf, Json.int64?, hmin, h.1, h.2]

/-- Saving a problem as it was loaded gives the problem, without its hidden tests. -/
theorem parse_adminProblemToJson (h : p.WithinLimits) :
    (parseAdminProblem (adminProblemToJson p) (some p.id)).run
      = .ok (.ok { p with hiddenTests := [] }) := by
  have hne : p.id ≠ "" := by
    intro hempty
    have hslug := h.slug
    rw [hempty] at hslug
    cases hslug
  have hrevision : (revisionAt "A positive revision is required when updating a problem"
      (adminProblemToJson p)).run = .ok (.ok p.revision) := by
    rw [@revisionAt_run _ (.int p.revision) _ rfl, revisionOf_int h.revision]
  rw [parseAdminProblem_some, checkedProblem_run hne (fields_in h.titled) hrevision]
  have hfit : p.fields.fit = true := by
    simp [ProblemFields.fit, Problem.fields, h.title, h.description, h.inputFormat, h.outputFormat, h.tags,
      h.languages, h.examples]
  unfold ProblemFields.problem
  rw [h.slug, hfit]
  simp only [Problem.fields, difficultyOf_name, texts_strings, examples_toJson]
  rfl

/-- The same for a hidden test. -/
theorem parse_adminProblemTestToJson (h : t.WithinLimits) :
    (parseAdminTest (adminProblemTestToJson t) t.id).run = .ok (.ok t) := by
  let f : TestFields := ⟨t.input, t.expectedOutput, t.position, t.enabled⟩
  have hmin : minInt64 ≤ t.position := le_trans (by decide) h.position.1
  have hf : f.In (adminProblemTestToJson t) :=
    ⟨rfl, rfl, ⟨.int t.position, rfl, by simp [Json.isInt64, hmin, h.position.2],
      by simp [Json.int64?, hmin, h.position.2, f]⟩, h.position.1, rfl⟩
  have hrevision : (revisionAt "A positive revision is required when updating a hidden test"
      (adminProblemTestToJson t)).run = .ok (.ok t.revision) := by
    rw [@revisionAt_run _ (.int t.revision) _ rfl, revisionOf_int h.revision]
  rw [parseAdminTest_run hf (fun _ => hrevision) fun hcreated => absurd h.id hcreated]
  simp only [TestFields.test, f, h.input, h.expectedOutput]
  rfl

end save

/-! ## Loading what was saved -/

/-- The value of a number. -/
def Json.number : Json → Option Rat
  | .int v => some v
  | .real v _ => some v
  | _ => none

/-- Two examples with the same input and output. -/
def SameExample (x y : Json) : Prop :=
  ∃ input output, x.member "input" = .ok (.string input) ∧ x.member "output" = .ok (.string output) ∧
    y.member "input" = .ok (.string input) ∧ y.member "output" = .ok (.string output)

/-- A serialised problem has the id of the path and the values that the body has in the fields that are read;
    numbers are compared by their values, and examples by their inputs and outputs. -/
structure Reproduces (json : Json) (pathId : String) (serialised : Json) : Prop where
  id : serialised.member "id" = .ok (.string pathId)
  same : ∀ key ∈ ["title", "description", "inputFormat", "outputFormat", "difficulty", "tags",
    "languages", "enabled"], ∃ value, json.member key = .ok value ∧ serialised.member key = .ok value
  revision : ∃ value value' v, json.member "revision" = .ok value ∧
    serialised.member "revision" = .ok value' ∧ value.number = some v ∧ value'.number = some v
  examples : ∃ values values', json.member "examples" = .ok (.array values) ∧
    serialised.member "examples" = .ok (.array values') ∧ List.Forall₂ SameExample values values'

section load
variable {json value : Json} {p : Problem} {f : ProblemFields} {id message : String}
  {revision : Except String Int}

theorem name_of_difficultyOf {name : String} {difficulty : ProblemDifficulty}
    (h : difficultyOf name = .ok difficulty) : difficultyName difficulty = name := by
  unfold difficultyOf at h
  by_cases heasy : (name == "Easy") = true
  · rw [if_pos heasy] at h
    cases h
    exact (beq_iff_eq.mp heasy).symm
  rw [if_neg heasy] at h
  by_cases hmedium : (name == "Medium") = true
  · rw [if_pos hmedium] at h
    cases h
    exact (beq_iff_eq.mp hmedium).symm
  rw [if_neg hmedium] at h
  by_cases hhard : (name == "Hard") = true
  · rw [if_pos hhard] at h
    cases h
    exact (beq_iff_eq.mp hhard).symm
  rw [if_neg hhard] at h
  cases h

/-- Elements that are read as texts are these texts. -/
theorem strings_of_texts {values : List Json} {texts : List String}
    (h : values.mapM (textOf message) = .ok texts) : texts.map Json.string = values := by
  induction values generalizing texts with
  | nil =>
      cases h
      rfl
  | cons value values ih =>
      rw [List.mapM_cons] at h
      obtain ⟨text, htext, h⟩ := except_bind_ok h
      obtain ⟨rest, hrest, h⟩ := except_bind_ok h
      cases h
      rw [List.map_cons, ih hrest]
      cases value with
      | string text' =>
          cases htext
          rfl
      | null | bool _ | int _ | real _ _ | array _ | object _ => cases htext

theorem same_of_exampleOf {e : ProblemExample} (h : exampleOf message value = .ok e) :
    SameExample value (exampleToJson e) := by
  unfold exampleOf exampleOfJson at h
  cases value with
  | object members =>
      cases hinput : (members.lookup "input").getD .null with
      | string input =>
          cases houtput : (members.lookup "output").getD .null with
          | string output =>
              simp only [hinput, houtput] at h
              cases h
              exact ⟨input, output, congrArg Except.ok hinput, congrArg Except.ok houtput, rfl, rfl⟩
          | null | bool _ | int _ | real _ _ | array _ | object _ =>
              simp only [hinput, houtput] at h
              cases h
      | null | bool _ | int _ | real _ _ | array _ | object _ =>
          simp only [hinput] at h
          cases h
  | null | bool _ | int _ | real _ _ | string _ | array _ => cases h

theorem same_of_examples {values : List Json} {examples : List ProblemExample}
    (h : values.mapM (exampleOf message) = .ok examples) :
    List.Forall₂ SameExample values (examples.map exampleToJson) := by
  induction values generalizing examples with
  | nil =>
      cases h
      exact .nil
  | cons value values ih =>
      rw [List.mapM_cons] at h
      obtain ⟨e, he, h⟩ := except_bind_ok h
      obtain ⟨rest, hrest, h⟩ := except_bind_ok h
      cases h
      exact .cons (same_of_exampleOf he) (ih hrest)

/-- A revision that is read is the value of the number. -/
theorem number_of_revisionOf {v : Int} (h : revisionOf message value = .ok v) :
    value.number = some (v : Rat) := by
  unfold revisionOf at h
  cases hvalue : value.int64? with
  | none =>
      rw [hvalue] at h
      cases h
  | some w =>
      rw [hvalue] at h
      dsimp only at h
      by_cases hpositive : 0 < w
      · rw [if_pos hpositive] at h
        cases h
        cases value with
        | int u =>
            by_cases hrange : minInt64 ≤ u ∧ u ≤ maxInt64
            · rw [Json.int64?, if_pos hrange] at hvalue
              cases hvalue
              rfl
            · rw [Json.int64?, if_neg hrange] at hvalue
              cases hvalue
        | real u text =>
            by_cases hrange : minInt64 ≤ u ∧ u ≤ maxInt64 ∧ u = (⌊u⌋ : Rat)
            · rw [Json.int64?, if_pos hrange] at hvalue
              cases hvalue
              exact congrArg some hrange.2.2
            · rw [Json.int64?, if_neg hrange] at hvalue
              cases hvalue
        | null | bool _ | string _ | array _ | object _ => cases hvalue
      · rw [if_neg hpositive] at h
        cases h

/-- What a problem that was made of fields has of them. -/
structure MadeOf (f : ProblemFields) (id : String) (revision : Except String Int) (p : Problem) : Prop where
  id : p.id = id
  title : p.title = f.title
  description : p.description = f.description
  inputFormat : p.inputFormat = f.inputFormat
  outputFormat : p.outputFormat = f.outputFormat
  enabled : p.enabled = f.enabled
  revision : revision = .ok p.revision
  difficulty : difficultyOf f.difficulty = .ok p.difficulty
  tags : f.tags.mapM (textOf "Tags must contain strings") = .ok p.tags
  languages : f.languages.mapM (textOf "Languages must contain strings") = .ok p.languages
  examples : f.examples.mapM (exampleOf "Examples must contain input and output strings")
    = .ok p.examples

theorem madeOf_of_problem (h : f.problem id revision = .ok p) : MadeOf f id revision p := by
  unfold ProblemFields.problem at h
  by_cases hslug : (!validProblemSlug id) = true
  · rw [if_pos hslug] at h
    cases h
  rw [if_neg hslug] at h
  by_cases hfit : (!f.fit) = true
  · rw [if_pos hfit] at h
    cases h
  rw [if_neg hfit] at h
  obtain ⟨v, hrevision, h⟩ := except_bind_ok h
  obtain ⟨difficulty, hdifficulty, h⟩ := except_bind_ok h
  obtain ⟨tags, htags, h⟩ := except_bind_ok h
  obtain ⟨languages, hlanguages, h⟩ := except_bind_ok h
  obtain ⟨examples, hexamples, h⟩ := except_bind_ok h
  cases h
  exact ⟨rfl, rfl, rfl, rfl, rfl, rfl, hrevision, hdifficulty, htags, hlanguages, hexamples⟩

/-- A problem that was made of fields has them, but for the examples, which are written anew. -/
theorem fields_of_madeOf (h : MadeOf f id revision p) :
    p.fields = { f with examples := p.examples.map exampleToJson } := by
  simp only [Problem.fields, h.title, h.description, h.inputFormat, h.outputFormat, h.enabled,
    name_of_difficultyOf h.difficulty, strings_of_texts h.tags, strings_of_texts h.languages]

/-- The id of a problem that was made of fields is a slug. -/
theorem slug_of_problem (h : f.problem id revision = .ok p) : validProblemSlug p.id = true := by
  rw [(madeOf_of_problem h).id]
  unfold ProblemFields.problem at h
  by_cases hslug : (!validProblemSlug id) = true
  · rw [if_pos hslug] at h
    cases h
  · simpa using hslug

/-- A body with fields has members. -/
theorem hasMembers_of_fields (h : f.In json) : json.hasMembers = true := by
  cases hkind : json.hasMembers with
  | true => rfl
  | false =>
      have htitle := h.title
      rw [member_error hkind] at htitle
      cases htitle

/-- A body that is accepted has the fields. -/
theorem fields_of_checked {readRevision : Check Int}
    (h : (checkedProblem json id readRevision).run = .ok (.ok p)) :
    id ≠ "" ∧ ∃ f : ProblemFields, f.In json := by
  unfold checkedProblem at h
  obtain ⟨_, hpassed, -⟩ := check_bind h
  exact problemFields_passed hpassed

/-- What is accepted of a body with a path id is made of its fields and its revision. -/
theorem fields_of_parsed (h : (parseAdminProblem json (some id)).run = .ok (.ok p)) :
    ∃ (f : ProblemFields) (value : Json), f.In json ∧ json.member "revision" = .ok value ∧
      f.problem id (revisionOf "A positive revision is required when updating a problem" value)
        = .ok p := by
  rw [parseAdminProblem_some] at h
  obtain ⟨hne, f, hf⟩ := fields_of_checked h
  obtain ⟨value, hvalue⟩ := member_of_hasMembers (hasMembers_of_fields hf) "revision"
  rw [checkedProblem_run hne hf (revisionAt_run hvalue)] at h
  exact ⟨f, value, hf, hvalue, Except.ok.inj h⟩

/-- The id of a problem that was accepted is a slug. -/
theorem slug_of_parsed {pathId : Option String}
    (h : (parseAdminProblem json pathId).run = .ok (.ok p)) : validProblemSlug p.id = true := by
  cases pathId with
  | some id =>
      obtain ⟨f, value, -, -, hproblem⟩ := fields_of_parsed h
      exact slug_of_problem hproblem
  | none =>
      rw [parseAdminProblem_none] at h
      obtain ⟨_, -, h⟩ := check_bind h
      obtain ⟨id, -, h⟩ := check_bind h
      obtain ⟨hne, f, hf⟩ := fields_of_checked h
      rw [@checkedProblem_run json f id (pure 1) (.ok 1) hne hf rfl] at h
      exact slug_of_problem (Except.ok.inj h)

/-- A problem that was read off a body is loaded with the values of the body. -/
theorem reproduces_of_parsed (h : (parseAdminProblem json (some id)).run = .ok (.ok p)) :
    Reproduces json id (adminProblemToJson p) := by
  obtain ⟨f, value, hf, hvalue, hproblem⟩ := fields_of_parsed h
  have hmade := madeOf_of_problem hproblem
  refine ⟨?_, ?_, ?_, ?_⟩
  · rw [← hmade.id]
    rfl
  · -- What is written has the fields again, up to the examples.
    have hwritten : p.fields.In (adminProblemToJson p) := fields_in (hmade.title ▸ hf.given)
    rw [fields_of_madeOf hmade] at hwritten
    simp only [List.forall_mem_cons, List.not_mem_nil, false_implies, implies_true, and_true]
    exact ⟨⟨_, hf.title, hwritten.title⟩, ⟨_, hf.description, hwritten.description⟩,
      ⟨_, hf.inputFormat, hwritten.inputFormat⟩, ⟨_, hf.outputFormat, hwritten.outputFormat⟩,
      ⟨_, hf.difficulty, hwritten.difficulty⟩, ⟨_, hf.tags, hwritten.tags⟩,
      ⟨_, hf.languages, hwritten.languages⟩, ⟨_, hf.enabled, hwritten.enabled⟩⟩
  · exact ⟨value, .int p.revision, p.revision, hvalue, rfl, number_of_revisionOf hmade.revision, rfl⟩
  · exact ⟨f.examples, p.examples.map exampleToJson, hf.examples, rfl, same_of_examples hmade.examples⟩

end load

/-- **Loading and saving.** A problem within the limits is saved as it was loaded, but for its hidden tests,
    and so is a hidden test; and what is accepted of a body is loaded with the body's values. -/
theorem admin_forms_round_trip :
    (∀ p : Problem, p.WithinLimits → (parseAdminProblem (adminProblemToJson p) (some p.id)).run
      = .ok (.ok { p with hiddenTests := [] })) ∧
    (∀ t : ProblemTestCase, t.WithinLimits →
      (parseAdminTest (adminProblemTestToJson t) t.id).run = .ok (.ok t)) ∧
    ∀ (json : Json) (pathId : String) (p : Problem),
      (parseAdminProblem json (some pathId)).run = .ok (.ok p) →
      Reproduces json pathId (adminProblemToJson p) :=
  ⟨fun _ h => parse_adminProblemToJson h, fun _ h => parse_adminProblemTestToJson h,
    fun _ _ _ h => reproduces_of_parsed h⟩

/-- A problem with a hidden test. -/
def additionProblem : Problem where
  id := "a-plus-b"
  title := "A + B"
  description := "Add two numbers."
  inputFormat := "Two numbers"
  outputFormat := "Their sum"
  tags := ["math"]
  languages := ["python", "cpp"]
  examples := [⟨"1 2", "3"⟩]
  revision := 2
  hiddenTests := [⟨"2 2", "4", 5, 0, true, 1⟩]

/-- What an administrator might send, with members that are not read. -/
def additionBody : Json := .object [("comment", .null), ("title", .string "A + B"),
  ("description", .string ""), ("inputFormat", .string ""), ("outputFormat", .string ""),
  ("difficulty", .string "Hard"), ("tags", .array []), ("languages", .array [.string "cpp"]),
  ("examples", .array [.object [("output", .string "3"), ("input", .string "1 2"), ("note", .null)]]),
  ("enabled", .bool false), ("revision", .int 3)]

theorem admin_forms_addition :
    (parseAdminProblem (adminProblemToJson additionProblem) (some "a-plus-b")).run
      = .ok (.ok { additionProblem with hiddenTests := [] }) ∧
    (parseAdminTest (adminProblemTestToJson ⟨"2 2", "4", 5, 0, true, 1⟩) 5).run
      = .ok (.ok ⟨"2 2", "4", 5, 0, true, 1⟩) ∧
    Reproduces additionBody "a-plus-b" (adminProblemToJson
      { id := "a-plus-b", title := "A + B", description := "", inputFormat := "", outputFormat := "",
        difficulty := .hard, languages := ["cpp"], examples := [⟨"1 2", "3"⟩], enabled := false,
        revision := 3 }) := by
  obtain ⟨hproblem, htest, hload⟩ := admin_forms_round_trip
  refine ⟨hproblem additionProblem ?_, htest ⟨"2 2", "4", 5, 0, true, 1⟩ ?_, hload additionBody _ _ rfl⟩
  · exact ⟨by decide, by decide, by decide, by decide, by decide, by decide, by decide, by decide,
      by decide, by decide⟩
  · exact ⟨by decide, by decide, by decide, by decide, by decide⟩

end AlgorithmTrainer
