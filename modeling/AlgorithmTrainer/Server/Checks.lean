import AlgorithmTrainer.Server.Admin

/-!
# `Server.Checks` — what the checks of a body come to

A check reads members of the body, and where their kinds are the ones it asked for, nothing that it reads
afterwards can throw. `parseAdminProblem_run` and `parseAdminTest_run` say what the two parsers of the
administrators' routes return from there on, as functions of what they have read.
-/

namespace AlgorithmTrainer

/-! ## Conditions -/

section conditions
variable {α β : Type} {message : String} {conditions : List (Except Exception Bool)}

theorem check_ok {x : Check α} {f : α → Check β} {a : α} (h : x.run = .ok (.ok a)) :
    (x >>= f).run = (f a).run := by
  rw [ExceptT.run_bind, h]
  rfl

theorem check_error {x : Check α} {f : α → Check β} (h : x.run = .ok (.error message)) :
    (x >>= f).run = .ok (.error message) := by
  rw [ExceptT.run_bind, h]
  rfl

theorem check_lift {x : Except Exception α} {f : α → Check β} {a : α} (h : x = .ok a) :
    ((liftM x : Check α) >>= f).run = (f a).run := by
  rw [h]
  rfl

theorem check_if {x : Check Unit} {f : Unit → Check β} {rejected : Bool}
    (h : x.run = .ok (if rejected then .error message else .ok ())) :
    (x >>= f).run = if rejected then .ok (.error message) else (f ()).run := by
  cases rejected with
  | true => exact check_error h
  | false => exact check_ok h

/-- Steps that do not throw. -/
theorem check_known {x : Check α} {f : α → Check β} {r : Except String α} {g : α → Except String β}
    (h : x.run = .ok r) (hf : ∀ a, (f a).run = .ok (g a)) : (x >>= f).run = .ok (r >>= g) := by
  cases r with
  | error message => exact check_error h
  | ok a => exact (check_ok h).trans (hf a)

/-- What a check returns, given what its conditions come to. -/
theorem rejectIf_run : (rejectIf message conditions).run =
    (conditions.anyM id).map fun rejected => if rejected then .error message else .ok () := by
  unfold rejectIf
  rw [ExceptT.run_bind]
  cases hany : conditions.anyM id with
  | error exception => rfl
  | ok rejected => cases rejected <;> rfl

theorem anyM_cons (b : Bool) (conditions : List (Except Exception Bool)) :
    (.ok b :: conditions : List (Except Exception Bool)).anyM id
      = if b = true then .ok true else conditions.anyM id := by
  cases b <;> rfl

/-- Each condition can be evaluated where those before it are false. -/
def Evaluates : List (Except Exception Bool) → Prop
  | [] => True
  | condition :: conditions => ∃ b, condition = .ok b ∧ (b = false → Evaluates conditions)

theorem Evaluates.anyM (h : Evaluates conditions) : ∃ rejected, conditions.anyM id = .ok rejected := by
  induction conditions with
  | nil => exact ⟨false, rfl⟩
  | cons condition conditions ih =>
      obtain ⟨b, rfl, hrest⟩ := h
      rw [anyM_cons]
      cases b with
      | true => exact ⟨true, rfl⟩
      | false =>
          obtain ⟨rejected, hrejected⟩ := ih (hrest rfl)
          exact ⟨rejected, by simpa using hrejected⟩

/-- Where the conditions are not met, each of them was found false. -/
theorem anyM_false (h : conditions.anyM id = .ok false) :
    ∀ condition ∈ conditions, condition = .ok false := by
  induction conditions with
  | nil => simp
  | cons condition conditions ih =>
      cases condition with
      | error exception => cases h
      | ok b =>
          rw [anyM_cons] at h
          cases b with
          | true => cases h
          | false =>
              intro c hc
              rcases List.mem_cons.mp hc with rfl | hc
              · rfl
              · exact ih (by simpa using h) c hc

/-- A check that is passed found its conditions false. -/
theorem rejectIf_false (h : (rejectIf message conditions).run = .ok (.ok ())) :
    ∀ condition ∈ conditions, condition = .ok false := by
  rw [rejectIf_run] at h
  cases hany : conditions.anyM id with
  | error exception =>
      rw [hany] at h
      cases h
  | ok rejected =>
      rw [hany] at h
      cases rejected with
      | true => cases h
      | false => exact anyM_false hany

/-- A check of conditions whose values are known. -/
theorem rejectIf_known (message : String) (values : List Bool) :
    (rejectIf message (values.map .ok)).run = .ok (if values.any id then .error message else .ok ()) := by
  have hany : (values.map (Except.ok (ε := Exception))).anyM id = .ok (values.any id) := by
    induction values with
    | nil => rfl
    | cons b values ih =>
        rw [List.map_cons, anyM_cons]
        cases b with
        | true => rfl
        | false => simpa using ih
  rw [rejectIf_run, hany]
  rfl

/-- A loop whose body does not throw. -/
theorem mapM_run {f : α → Check β} {g : α → Except String β} (hf : ∀ a, (f a).run = .ok (g a))
    (values : List α) : (values.mapM f).run = .ok (values.mapM g) := by
  induction values with
  | nil => rfl
  | cons a values ih =>
      rw [List.mapM_cons, List.mapM_cons, ExceptT.run_bind, hf a]
      cases g a with
      | error message => rfl
      | ok b =>
          show (values.mapM f >>= fun bs => pure (b :: bs)).run = _
          rw [ExceptT.run_bind, ih]
          cases values.mapM g <;> rfl

end conditions

/-! ## Members -/

/-- An object or `null`, of which members can be read. -/
def Json.hasMembers : Json → Bool
  | .object _ | .null => true
  | _ => false

/-- Where a condition `!json[key].is…()` is false, the member is of the kind. -/
theorem has_of_lacks {json : Json} {kind : Json → Bool} {key : String}
    (h : lacks json kind key = .ok false) : ∃ value, json.member key = .ok value ∧ kind value = true := by
  unfold lacks at h
  cases hmember : json.member key with
  | error exception =>
      rw [hmember] at h
      cases h
  | ok value =>
      refine ⟨value, rfl, ?_⟩
      rw [hmember] at h
      have hkind : (!(kind value)) = false := Except.ok.inj h
      simpa using hkind

theorem string_of_lacks {json : Json} {key : String} (h : lacks json Json.isString key = .ok false) :
    ∃ text, json.member key = .ok (.string text) := by
  obtain ⟨value, hmember, hkind⟩ := has_of_lacks h
  cases value with
  | string text => exact ⟨text, hmember⟩
  | null | bool _ | int _ | real _ _ | array _ | object _ => cases hkind

theorem array_of_lacks {json : Json} {key : String} (h : lacks json Json.isArray key = .ok false) :
    ∃ values, json.member key = .ok (.array values) := by
  obtain ⟨value, hmember, hkind⟩ := has_of_lacks h
  cases value with
  | array values => exact ⟨values, hmember⟩
  | null | bool _ | int _ | real _ _ | string _ | object _ => cases hkind

theorem bool_of_lacks {json : Json} {key : String} (h : lacks json Json.isBool key = .ok false) :
    ∃ b, json.member key = .ok (.bool b) := by
  obtain ⟨value, hmember, hkind⟩ := has_of_lacks h
  cases value with
  | bool b => exact ⟨b, hmember⟩
  | null | int _ | real _ _ | string _ | array _ | object _ => cases hkind

/-- The integer that `asInt64` reads where `isInt64` holds. -/
def Json.int64? : Json → Option Int
  | .int v => if minInt64 ≤ v ∧ v ≤ maxInt64 then some v else none
  | .real v _ => if minInt64 ≤ v ∧ v ≤ maxInt64 ∧ v = (⌊v⌋ : Rat) then some ⌊v⌋ else none
  | _ => none

section members
variable {json value : Json} {key message : String} {kind : Json → Bool}

theorem member_of_hasMembers (h : json.hasMembers = true) (key : String) :
    ∃ value, json.member key = .ok value := by
  cases json with
  | object members => exact ⟨_, rfl⟩
  | null => exact ⟨.null, rfl⟩
  | bool _ | int _ | real _ _ | string _ | array _ => cases h

theorem member_error (h : json.hasMembers = false) (key : String) :
    json.member key = .error .jsonLogicError := by
  cases json with
  | object _ | null => cases h
  | bool _ | int _ | real _ _ | string _ | array _ => rfl

theorem lacks_of (h : json.member key = .ok value) : lacks json kind key = .ok !(kind value) := by
  unfold lacks
  rw [h]
  rfl

theorem stringAt_of {text : String} (h : json.member key = .ok (.string text)) :
    stringAt json key = .ok text := by
  unfold stringAt
  rw [h]
  rfl

theorem boolAt_of {b : Bool} (h : json.member key = .ok (.bool b)) : boolAt json key = .ok b := by
  unfold boolAt
  rw [h]
  rfl

/-- Where `isInt64` holds, `asInt64` reads the value. -/
theorem int64_of (h : value.isInt64 = true) : ∃ v, value.int64? = some v ∧ value.asInt64 = .ok v := by
  cases value with
  | int v =>
      have hrange : minInt64 ≤ v ∧ v ≤ maxInt64 := of_decide_eq_true h
      exact ⟨v, if_pos hrange, if_pos hrange⟩
  | real v text =>
      have hrange : minInt64 ≤ v ∧ v ≤ maxInt64 ∧ v = (⌊v⌋ : Rat) := of_decide_eq_true h
      refine ⟨⌊v⌋, if_pos hrange, ?_⟩
      -- an integral value is its own floor and ceiling
      have hceil : ⌈v⌉ = ⌊v⌋ := by
        rw [hrange.2.2, Int.ceil_intCast, Int.floor_intCast]
      simp only [Json.asInt64, if_pos (And.intro hrange.1 hrange.2.1), hceil, ite_self]
  | null | bool _ | string _ | array _ | object _ => cases h

theorem int64_none (h : value.isInt64 = false) : value.int64? = none := by
  cases value with
  | int v => exact if_neg (of_decide_eq_false h)
  | real v text => exact if_neg (of_decide_eq_false h)
  | null | bool _ | string _ | array _ | object _ => rfl

/-- The revision that a body gives, or the message that refuses it. -/
def revisionOf (message : String) (value : Json) : Except String Int :=
  match value.int64? with
  | some revision => if 0 < revision then .ok revision else .error message
  | none => .error message

theorem revisionAt_run (h : json.member "revision" = .ok value) :
    (revisionAt message json).run = .ok (revisionOf message value) := by
  unfold revisionAt revisionOf
  rw [ExceptT.run_bind, rejectIf_run, lacks_of h, anyM_cons]
  cases hkind : value.isInt64 with
  | false =>
      rw [int64_none hkind]
      rfl
  | true =>
      obtain ⟨revision, hvalue, hread⟩ := int64_of hkind
      have hrevision : int64At json "revision" = .ok revision := by
        unfold int64At
        rw [h]
        exact hread
      rw [hvalue, hrevision]
      by_cases hpositive : 0 < revision
      · have hle : ¬ revision ≤ 0 := by omega
        simp only [if_pos hpositive]
        simp [List.anyM, hle]
        rfl
      · have hle : revision ≤ 0 := by omega
        simp only [if_neg hpositive]
        simp [List.anyM, hle]
        rfl

end members

/-! ## Problems -/

/-- What the first check of a problem asks the body for. -/
structure ProblemFields where
  title : String
  description : String
  inputFormat : String
  outputFormat : String
  difficulty : String
  tags : List Json
  languages : List Json
  examples : List Json
  enabled : Bool

/-- The body has these members. -/
structure ProblemFields.In (f : ProblemFields) (json : Json) : Prop where
  title : json.member "title" = .ok (.string f.title)
  given : f.title ≠ ""
  description : json.member "description" = .ok (.string f.description)
  inputFormat : json.member "inputFormat" = .ok (.string f.inputFormat)
  outputFormat : json.member "outputFormat" = .ok (.string f.outputFormat)
  difficulty : json.member "difficulty" = .ok (.string f.difficulty)
  tags : json.member "tags" = .ok (.array f.tags)
  languages : json.member "languages" = .ok (.array f.languages)
  examples : json.member "examples" = .ok (.array f.examples)
  enabled : json.member "enabled" = .ok (.bool f.enabled)

/-- The body's fields are not larger than an administrator may make them. -/
def ProblemFields.fit (f : ProblemFields) : Bool :=
  decide (byteSize f.title ≤ 200) && validProblemText f.description && validProblemText f.inputFormat
    && validProblemText f.outputFormat && decide (f.tags.length ≤ 50) && decide (f.languages.length ≤ 10)
    && decide (f.examples.length ≤ 20)

def difficultyOf (name : String) : Except String ProblemDifficulty :=
  if name == "Easy" then .ok .easy
  else if name == "Medium" then .ok .medium
  else if name == "Hard" then .ok .hard
  else .error "Difficulty must be Easy, Medium, or Hard"

def textOf (message : String) : Json → Except String String
  | .string text => .ok text
  | _ => .error message

def exampleOf (message : String) (value : Json) : Except String ProblemExample :=
  match exampleOfJson value with
  | some e => .ok e
  | none => .error message

/-- The problem that fields of the right kinds make. -/
def ProblemFields.problem (f : ProblemFields) (id : String) (revision : Except String Int) :
    Except String Problem :=
  if !validProblemSlug id then .error "Problem id must be a lowercase slug"
  else if !f.fit then .error "Problem metadata exceeds the allowed size"
  else do
    let revision ← revision
    let difficulty ← difficultyOf f.difficulty
    let tags ← f.tags.mapM (textOf "Tags must contain strings")
    let languages ← f.languages.mapM (textOf "Languages must contain strings")
    let examples ← f.examples.mapM (exampleOf "Examples must contain input and output strings")
    pure { id := id, title := f.title, description := f.description, inputFormat := f.inputFormat,
           outputFormat := f.outputFormat, difficulty := difficulty, tags := tags,
           languages := languages, examples := examples, enabled := f.enabled, revision := revision }

section problem
variable {json value : Json} {f : ProblemFields} {id key message : String} {pathId : Option String}

theorem textsAt_run {values : List Json} (h : json.member key = .ok (.array values)) :
    (textsAt message json key).run = .ok (values.mapM (textOf message)) := by
  unfold textsAt
  rw [h, ExceptT.run_bind]
  exact mapM_run (fun a => by cases a <;> rfl) values

theorem examplesAt_run {values : List Json} (h : json.member key = .ok (.array values)) :
    (examplesAt message json key).run = .ok (values.mapM (exampleOf message)) := by
  unfold examplesAt
  rw [h, ExceptT.run_bind]
  refine mapM_run (fun a => ?_) values
  unfold exampleOf
  cases exampleOfJson a <;> rfl

/-- The conditions of the first check. -/
def problemConditions (json : Json) (id : String) : List (Except Exception Bool) :=
  [pure (id == ""), lacks json Json.isString "title", (· == "") <$> stringAt json "title",
   lacks json Json.isString "description", lacks json Json.isString "inputFormat",
   lacks json Json.isString "outputFormat", lacks json Json.isString "difficulty",
   lacks json Json.isArray "tags", lacks json Json.isArray "languages",
   lacks json Json.isArray "examples", lacks json Json.isBool "enabled"]

/-- The conditions of the check of the sizes. -/
def problemSizes (json : Json) : List (Except Exception Bool) :=
  let tooLong := fun key => (fun text => !validProblemText text) <$> stringAt json key
  let tooMany := fun (maximum : Nat) key =>
    (fun value : Json => decide (maximum < value.size)) <$> json.member key
  [(fun title => decide (200 < byteSize title)) <$> stringAt json "title",
   tooLong "description", tooLong "inputFormat", tooLong "outputFormat",
   tooMany 50 "tags", tooMany 10 "languages", tooMany 20 "examples"]

/-- `parse_admin_problem` from where it has the id, with what it does for the revision. -/
def checkedProblem (json : Json) (id : String) (readRevision : Check Int) : Check Problem := do
  rejectIf "Problem fields are invalid or incomplete" (problemConditions json id)
  rejectIf "Problem id must be a lowercase slug" [pure !validProblemSlug id]
  rejectIf "Problem metadata exceeds the allowed size" (problemSizes json)
  let title ← stringAt json "title"
  let description ← stringAt json "description"
  let inputFormat ← stringAt json "inputFormat"
  let outputFormat ← stringAt json "outputFormat"
  let enabled ← boolAt json "enabled"
  let revision ← readRevision
  let name ← stringAt json "difficulty"
  let difficulty ←
    if name == "Easy" then pure ProblemDifficulty.easy
    else if name == "Medium" then pure ProblemDifficulty.medium
    else if name == "Hard" then pure ProblemDifficulty.hard
    else throw "Difficulty must be Easy, Medium, or Hard"
  let tags ← textsAt "Tags must contain strings" json "tags"
  let languages ← textsAt "Languages must contain strings" json "languages"
  let examples ← examplesAt "Examples must contain input and output strings" json "examples"
  pure { id := id, title := title, description := description, inputFormat := inputFormat,
         outputFormat := outputFormat, difficulty := difficulty, tags := tags,
         languages := languages, examples := examples, enabled := enabled, revision := revision }

theorem parseAdminProblem_some (json : Json) (id : String) :
    parseAdminProblem json (some id) = checkedProblem json id
      (revisionAt "A positive revision is required when updating a problem" json) := rfl

theorem parseAdminProblem_none (json : Json) :
    parseAdminProblem json none = (do
      rejectIf "Problem id must be a string" [lacks json Json.isString "id"]
      let id ← stringAt json "id"
      checkedProblem json id (pure 1)) := rfl

/-- The first check of a problem is passed where the body has the fields. -/
theorem problemFields_run (hne : id ≠ "") (hf : f.In json) :
    (rejectIf message (problemConditions json id)).run = .ok (.ok ()) := by
  have htitle : ((· == "") <$> stringAt json "title") = (.ok (f.title == "") : Except Exception Bool) := by
    rw [stringAt_of hf.title]
    rfl
  unfold problemConditions
  rw [htitle, lacks_of hf.title, lacks_of hf.description, lacks_of hf.inputFormat,
    lacks_of hf.outputFormat, lacks_of hf.difficulty, lacks_of hf.tags, lacks_of hf.languages,
    lacks_of hf.examples, lacks_of hf.enabled]
  have hvalues := rejectIf_known message
    [id == "", false, f.title == "", false, false, false, false, false, false, false, false]
  refine hvalues.trans ?_
  simp [hne, hf.given]

/-- The check of the sizes. -/
theorem problemSizes_run (hf : f.In json) :
    (rejectIf message (problemSizes json)).run
      = .ok (if !f.fit then .error message else .ok ()) := by
  unfold problemSizes
  dsimp only
  rw [stringAt_of hf.title, stringAt_of hf.description, stringAt_of hf.inputFormat,
    stringAt_of hf.outputFormat, hf.tags, hf.languages, hf.examples]
  have hvalues := rejectIf_known message
    [decide (200 < byteSize f.title), !validProblemText f.description, !validProblemText f.inputFormat,
     !validProblemText f.outputFormat, decide (50 < f.tags.length), decide (10 < f.languages.length),
     decide (20 < f.examples.length)]
  refine hvalues.trans ?_
  have hfit : [decide (200 < byteSize f.title), !validProblemText f.description,
      !validProblemText f.inputFormat, !validProblemText f.outputFormat, decide (50 < f.tags.length),
      decide (10 < f.languages.length), decide (20 < f.examples.length)].any id = !f.fit := by
    simp only [ProblemFields.fit, List.any_cons, List.any_nil, id_eq, Bool.not_and, Bool.or_assoc,
      Bool.or_false, ← decide_not, Nat.not_le]
  rw [hfit]

/-- The loops over the three lists. -/
theorem problemLists_run (hf : f.In json)
    (make : List String → List String → List ProblemExample → Problem) :
    (do
      let tags ← textsAt "Tags must contain strings" json "tags"
      let languages ← textsAt "Languages must contain strings" json "languages"
      let examples ← examplesAt "Examples must contain input and output strings" json "examples"
      pure (make tags languages examples) : Check Problem).run
      = .ok (do
        let tags ← f.tags.mapM (textOf "Tags must contain strings")
        let languages ← f.languages.mapM (textOf "Languages must contain strings")
        let examples ← f.examples.mapM (exampleOf "Examples must contain input and output strings")
        pure (make tags languages examples)) := by
  refine check_known (textsAt_run hf.tags) fun tags => ?_
  refine check_known (textsAt_run hf.languages) fun languages => ?_
  exact check_known (examplesAt_run hf.examples) fun examples => rfl

/-- **What a problem with these fields is parsed to**, given its id and what reading the revision gives. -/
theorem checkedProblem_run {readRevision : Check Int} {revision : Except String Int} (hne : id ≠ "")
    (hf : f.In json) (hrevision : readRevision.run = .ok revision) :
    (checkedProblem json id readRevision).run = .ok (f.problem id revision) := by
  unfold checkedProblem ProblemFields.problem
  have hslug : (rejectIf "Problem id must be a lowercase slug" [pure !validProblemSlug id]).run
      = .ok (if !validProblemSlug id then .error "Problem id must be a lowercase slug" else .ok ()) := by
    cases validProblemSlug id <;> rfl
  rw [check_ok (problemFields_run hne hf), check_if hslug, check_if (problemSizes_run hf)]
  by_cases hid : (!validProblemSlug id) = true
  · rw [if_pos hid, if_pos hid]
  rw [if_neg hid, if_neg hid]
  by_cases hfit : (!f.fit) = true
  · rw [if_pos hfit, if_pos hfit]
  rw [if_neg hfit, if_neg hfit, check_lift (stringAt_of hf.title), check_lift (stringAt_of hf.description),
    check_lift (stringAt_of hf.inputFormat), check_lift (stringAt_of hf.outputFormat),
    check_lift (boolAt_of hf.enabled)]
  refine check_known hrevision fun revision => ?_
  rw [check_lift (stringAt_of hf.difficulty)]
  dsimp only [difficultyOf]
  by_cases heasy : (f.difficulty == "Easy") = true
  · rw [if_pos heasy, if_pos heasy]
    exact problemLists_run hf _
  rw [if_neg heasy, if_neg heasy]
  by_cases hmedium : (f.difficulty == "Medium") = true
  · rw [if_pos hmedium, if_pos hmedium]
    exact problemLists_run hf _
  rw [if_neg hmedium, if_neg hmedium]
  by_cases hhard : (f.difficulty == "Hard") = true
  · rw [if_pos hhard, if_pos hhard]
    exact problemLists_run hf _
  rw [if_neg hhard, if_neg hhard]
  rfl

/-- Where the first check is passed, the body has the fields. -/
theorem problemFields_passed
    (h : (rejectIf message (problemConditions json id)).run = .ok (.ok ())) :
    id ≠ "" ∧ ∃ f : ProblemFields, f.In json := by
  have hfalse := rejectIf_false h
  simp only [problemConditions, List.forall_mem_cons] at hfalse
  obtain ⟨hid, htitle, hgiven, hdescription, hinput, houtput, hdifficulty, htags, hlanguages, hexamples,
    henabled, -⟩ := hfalse
  obtain ⟨title, htitle⟩ := string_of_lacks htitle
  obtain ⟨description, hdescription⟩ := string_of_lacks hdescription
  obtain ⟨inputFormat, hinput⟩ := string_of_lacks hinput
  obtain ⟨outputFormat, houtput⟩ := string_of_lacks houtput
  obtain ⟨difficulty, hdifficulty⟩ := string_of_lacks hdifficulty
  obtain ⟨tags, htags⟩ := array_of_lacks htags
  obtain ⟨languages, hlanguages⟩ := array_of_lacks hlanguages
  obtain ⟨examples, hexamples⟩ := array_of_lacks hexamples
  obtain ⟨enabled, henabled⟩ := bool_of_lacks henabled
  rw [stringAt_of htitle] at hgiven
  have hgiven : (title == "") = false := Except.ok.inj hgiven
  have hid : (id == "") = false := Except.ok.inj hid
  exact ⟨by simpa using hid, ⟨title, description, inputFormat, outputFormat, difficulty, tags, languages,
    examples, enabled⟩, htitle, by simpa using hgiven, hdescription, hinput, houtput, hdifficulty, htags,
    hlanguages, hexamples, henabled⟩

/-- The first check does not throw, on an object or `null`. -/
theorem problemFields_evaluates (h : json.hasMembers = true) :
    Evaluates (problemConditions json id) := by
  have hlacks : ∀ kind key, ∃ b, lacks json kind key = .ok b := by
    intro kind key
    obtain ⟨value, hmember⟩ := member_of_hasMembers h key
    exact ⟨_, lacks_of hmember⟩
  obtain ⟨b, htitle⟩ := hlacks Json.isString "title"
  refine ⟨_, rfl, fun _ => ⟨b, htitle, fun hb => ?_⟩⟩
  -- the title is read once it is known to be a text
  subst hb
  obtain ⟨title, hmember⟩ := string_of_lacks htitle
  refine ⟨title == "", by rw [stringAt_of hmember]; rfl, fun _ => ?_⟩
  have hrest : ∀ fields : List ((Json → Bool) × String),
      Evaluates (fields.map fun field => lacks json field.1 field.2) := by
    intro fields
    induction fields with
    | nil => trivial
    | cons field fields ih =>
        obtain ⟨b, hb⟩ := hlacks field.1 field.2
        exact ⟨b, hb, fun _ => ih⟩
  exact hrest [(Json.isString, "description"), (Json.isString, "inputFormat"),
    (Json.isString, "outputFormat"), (Json.isString, "difficulty"), (Json.isArray, "tags"),
    (Json.isArray, "languages"), (Json.isArray, "examples"), (Json.isBool, "enabled")]

end problem

/-! ## Hidden tests -/

/-- What the first check of a hidden test asks the body for. -/
structure TestFields where
  input : String
  expectedOutput : String
  position : Int
  enabled : Bool

/-- The body has these members. -/
structure TestFields.In (f : TestFields) (json : Json) : Prop where
  input : json.member "input" = .ok (.string f.input)
  expectedOutput : json.member "expectedOutput" = .ok (.string f.expectedOutput)
  position : ∃ value, json.member "position" = .ok value ∧ value.isInt64 = true ∧
    value.int64? = some f.position
  fromZero : 0 ≤ f.position
  enabled : json.member "enabled" = .ok (.bool f.enabled)

/-- The hidden test that fields of the right kinds make. -/
def TestFields.test (f : TestFields) (id : Int) (revision : Except String Int) :
    Except String ProblemTestCase :=
  if !(validHiddenTestText f.input && validHiddenTestText f.expectedOutput) then
    .error "Hidden-test input or output exceeds the allowed size"
  else do
    let revision ← revision
    pure { input := f.input, expectedOutput := f.expectedOutput, id := id, position := f.position,
           enabled := f.enabled, revision := revision }

/-- The conditions of the first check. -/
def testConditions (json : Json) : List (Except Exception Bool) :=
  [lacks json Json.isString "input", lacks json Json.isString "expectedOutput",
   lacks json Json.isInt64 "position",
   (fun position => decide (position < 0)) <$> int64At json "position",
   lacks json Json.isBool "enabled"]

section test
variable {json value : Json} {f : TestFields} {id : Int} {message : String}

theorem int64At_of {key : String} {v : Int} (h : json.member key = .ok value)
    (hkind : value.isInt64 = true) (hvalue : value.int64? = some v) : int64At json key = .ok v := by
  obtain ⟨w, hw, hread⟩ := int64_of hkind
  rw [hvalue] at hw
  cases hw
  unfold int64At
  rw [h]
  exact hread

/-- The first check of a hidden test is passed where the body has the fields. -/
theorem testFields_run (hf : f.In json) :
    (rejectIf message (testConditions json)).run = .ok (.ok ()) := by
  obtain ⟨value, hposition, hkind, hvalue⟩ := hf.position
  unfold testConditions
  rw [lacks_of hf.input, lacks_of hf.expectedOutput, lacks_of hposition,
    int64At_of hposition hkind hvalue, lacks_of hf.enabled]
  have hvalues := rejectIf_known message [false, false, !value.isInt64, decide (f.position < 0), false]
  refine hvalues.trans ?_
  simp [hkind, hf.fromZero]

/-- **What a hidden test with these fields is parsed to.** -/
theorem parseAdminTest_run {revision : Except String Int} (hf : f.In json)
    (hrevision : 0 < id → (revisionAt "A positive revision is required when updating a hidden test"
      json).run = .ok revision)
    (hcreated : ¬ 0 < id → revision = .ok 1) :
    (parseAdminTest json id).run = .ok (f.test id revision) := by
  have hsizes : (rejectIf "Hidden-test input or output exceeds the allowed size"
      [(fun text => !validHiddenTestText text) <$> stringAt json "input",
       (fun text => !validHiddenTestText text) <$> stringAt json "expectedOutput"]).run
      = .ok (if !(validHiddenTestText f.input && validHiddenTestText f.expectedOutput) then
        .error "Hidden-test input or output exceeds the allowed size" else .ok ()) := by
    rw [stringAt_of hf.input, stringAt_of hf.expectedOutput]
    have hvalues := rejectIf_known "Hidden-test input or output exceeds the allowed size"
      [!validHiddenTestText f.input, !validHiddenTestText f.expectedOutput]
    refine hvalues.trans ?_
    simp only [List.any_cons, List.any_nil, id_eq, Bool.not_and, Bool.or_false]
  obtain ⟨value, hposition, hkind, hvalue⟩ := hf.position
  have hfields : (rejectIf "Test input, expectedOutput, non-negative position, and enabled are required"
      (testConditions json)).run = .ok (.ok ()) := testFields_run hf
  unfold testConditions at hfields
  unfold parseAdminTest TestFields.test
  rw [check_ok hfields]
  dsimp only
  rw [check_if hsizes]
  by_cases hfit : (!(validHiddenTestText f.input && validHiddenTestText f.expectedOutput)) = true
  · rw [if_pos hfit, if_pos hfit]
  rw [if_neg hfit, if_neg hfit]
  by_cases hpositive : 0 < id
  · rw [if_pos hpositive]
    refine check_known (hrevision hpositive) fun revision => ?_
    rw [check_lift (stringAt_of hf.input), check_lift (stringAt_of hf.expectedOutput),
      check_lift (int64At_of hposition hkind hvalue), check_lift (boolAt_of hf.enabled)]
    rfl
  · rw [if_neg hpositive, hcreated hpositive]
    refine (check_ok rfl).trans ?_
    rw [check_lift (stringAt_of hf.input), check_lift (stringAt_of hf.expectedOutput),
      check_lift (int64At_of hposition hkind hvalue), check_lift (boolAt_of hf.enabled)]
    rfl

/-- Where the first check is passed, the body has the fields. -/
theorem testFields_passed (h : (rejectIf message (testConditions json)).run = .ok (.ok ())) :
    ∃ f : TestFields, f.In json := by
  have hfalse := rejectIf_false h
  simp only [testConditions, List.forall_mem_cons] at hfalse
  obtain ⟨hinput, houtput, hposition, hnegative, henabled, -⟩ := hfalse
  obtain ⟨input, hinput⟩ := string_of_lacks hinput
  obtain ⟨expectedOutput, houtput⟩ := string_of_lacks houtput
  obtain ⟨value, hmember, hkind⟩ := has_of_lacks hposition
  obtain ⟨enabled, henabled⟩ := bool_of_lacks henabled
  obtain ⟨position, hvalue, -⟩ := int64_of hkind
  rw [int64At_of hmember hkind hvalue] at hnegative
  have hnegative : decide (position < 0) = false := Except.ok.inj hnegative
  have hfromZero : 0 ≤ position := by simpa using hnegative
  exact ⟨⟨input, expectedOutput, position, enabled⟩, hinput, houtput, ⟨value, hmember, hkind, hvalue⟩,
    hfromZero, henabled⟩

/-- The first check does not throw, on an object or `null`. -/
theorem testConditions_evaluate (h : json.hasMembers = true) : Evaluates (testConditions json) := by
  have hlacks : ∀ kind key, ∃ b, lacks json kind key = .ok b := by
    intro kind key
    obtain ⟨value, hmember⟩ := member_of_hasMembers h key
    exact ⟨_, lacks_of hmember⟩
  obtain ⟨noInput, hinput⟩ := hlacks Json.isString "input"
  obtain ⟨noOutput, houtput⟩ := hlacks Json.isString "expectedOutput"
  obtain ⟨noPosition, hposition⟩ := hlacks Json.isInt64 "position"
  obtain ⟨noEnabled, henabled⟩ := hlacks Json.isBool "enabled"
  refine ⟨noInput, hinput, fun _ => ⟨noOutput, houtput, fun _ => ⟨noPosition, hposition, fun hkind => ?_⟩⟩⟩
  -- the position is read once it is known to be an integer
  subst hkind
  obtain ⟨value, hmember, hkind⟩ := has_of_lacks hposition
  obtain ⟨position, hvalue, -⟩ := int64_of hkind
  refine ⟨decide (position < 0), by rw [int64At_of hmember hkind hvalue]; rfl, fun _ => ?_⟩
  exact ⟨noEnabled, henabled, fun _ => trivial⟩

end test

end AlgorithmTrainer
