import AlgorithmTrainer.Server.Checks

/-!
# `Server.BodyKinds` — bodies of any kind

A body is any JSON value. `validate_submission` asks first whether it is an object; the other checks read its
members at once, which throws on an array, a text, a number and a boolean. `bodyParser_concludes_iff` says
that this is the only way in which a check throws.
-/

namespace AlgorithmTrainer

/-! ## The checks of a body -/

/-- The check ends with a value or a message, and not in an exception. -/
def Concludes {α : Type} (check : Check α) : Prop := ∃ result, check.run = .ok result

/-- The checks that handlers make of a body, with what they know besides. -/
inductive BodyParser where
  | problem (pathId : Option String)
  | test (id : Int)
  | register
  | login
  | submission

/-- The check concludes on a body. -/
def BodyParser.ConcludesOn (json : Json) : BodyParser → Prop
  | .problem pathId => Concludes (parseAdminProblem json pathId)
  | .test id => Concludes (parseAdminTest json id)
  | .register => Concludes (Handlers.credentials "Username and password are required" json)
  | .login => Concludes (Handlers.credentials "Invalid username or password" json)
  | .submission => Concludes (validateSubmission json)

/-- An object or `null`; for a submission anything, and so for a problem whose path has an empty id. -/
def BodyParser.admits (json : Json) : BodyParser → Bool
  | .problem pathId => pathId == some "" || json.hasMembers
  | .test _ | .register | .login => json.hasMembers
  | .submission => true

section concludes
variable {α β : Type} {json : Json} {message : String} {conditions : List (Except Exception Bool)}

theorem concludes_of_error {x : Check α} (f : α → Check β) (h : x.run = .ok (.error message)) :
    Concludes (x >>= f) := ⟨_, check_error h⟩

theorem concludes_of_ok {x : Check α} {f : α → Check β} {a : α} (h : x.run = .ok (.ok a))
    (hf : Concludes (f a)) : Concludes (x >>= f) := by
  obtain ⟨result, hresult⟩ := hf
  exact ⟨result, (check_ok h).trans hresult⟩

theorem concludes_of_read {x : Except Exception α} {f : α → Check β} {a : α} (h : x = .ok a)
    (hf : Concludes (f a)) : Concludes ((liftM x : Check α) >>= f) := by
  obtain ⟨result, hresult⟩ := hf
  exact ⟨result, (check_lift h).trans hresult⟩

theorem concludes_of_condition {f : Unit → Check β} (rejected : Bool) (hf : Concludes (f ())) :
    Concludes (rejectIf message [pure rejected] >>= f) := by
  cases rejected with
  | true => exact concludes_of_error f rfl
  | false => exact concludes_of_ok rfl hf

/-- A check whose conditions can be evaluated is passed, or its message is returned. -/
theorem Evaluates.rejectIf (h : Evaluates conditions) (message : String) :
    (AlgorithmTrainer.rejectIf message conditions).run = .ok (.ok ()) ∨
      (AlgorithmTrainer.rejectIf message conditions).run = .ok (.error message) := by
  obtain ⟨rejected, hrejected⟩ := h.anyM
  rw [rejectIf_run, hrejected]
  cases rejected with
  | true => exact Or.inr rfl
  | false => exact Or.inl rfl

/-- A check whose first condition throws. -/
theorem rejectIf_throws {exception : Exception} {f : Unit → Check α} :
    (rejectIf message (.error exception :: conditions) >>= f).run = .error exception := by
  rw [ExceptT.run_bind, rejectIf_run]
  rfl

theorem not_concludes {check : Check α} {exception : Exception} (h : check.run = .error exception) :
    ¬ Concludes check := by
  rintro ⟨result, hresult⟩
  rw [h] at hresult
  cases hresult

theorem lacks_error (h : json.hasMembers = false) (kind : Json → Bool) (key : String) :
    lacks json kind key = .error .jsonLogicError := by
  unfold lacks
  rw [member_error h]
  rfl

/-! ## Each of them -/

theorem checkedProblem_concludes {id : String} {readRevision : Check Int} (h : json.hasMembers = true)
    (hrevision : Concludes readRevision) : Concludes (checkedProblem json id readRevision) := by
  rcases (@problemFields_evaluates json id h).rejectIf "Problem fields are invalid or incomplete" with
    hpassed | hrejected
  · obtain ⟨hne, f, hf⟩ := problemFields_passed hpassed
    obtain ⟨revision, hrevision⟩ := hrevision
    exact ⟨_, checkedProblem_run hne hf hrevision⟩
  · exact concludes_of_error _ hrejected

theorem revisionAt_concludes (h : json.hasMembers = true) (message : String) :
    Concludes (revisionAt message json) := by
  obtain ⟨value, hmember⟩ := member_of_hasMembers h "revision"
  exact ⟨_, revisionAt_run hmember⟩

theorem parseAdminProblem_concludes (h : json.hasMembers = true) (pathId : Option String) :
    Concludes (parseAdminProblem json pathId) := by
  cases pathId with
  | some id => exact checkedProblem_concludes h (revisionAt_concludes h _)
  | none =>
      rw [parseAdminProblem_none]
      obtain ⟨value, hmember⟩ := member_of_hasMembers h "id"
      have hid : Evaluates [lacks json Json.isString "id"] := ⟨_, lacks_of hmember, fun _ => trivial⟩
      rcases hid.rejectIf "Problem id must be a string" with hpassed | hrejected
      · obtain ⟨id, hid⟩ := string_of_lacks (rejectIf_false hpassed _ List.mem_cons_self)
        obtain ⟨result, hresult⟩ := @checkedProblem_concludes json id (pure 1) h ⟨_, rfl⟩
        refine ⟨result, ?_⟩
        rw [check_ok hpassed, check_lift (stringAt_of hid), hresult]
      · exact concludes_of_error _ hrejected

theorem parseAdminTest_concludes (h : json.hasMembers = true) (id : Int) :
    Concludes (parseAdminTest json id) := by
  rcases (testConditions_evaluate h).rejectIf
    "Test input, expectedOutput, non-negative position, and enabled are required" with hpassed | hrejected
  · obtain ⟨f, hf⟩ := testFields_passed hpassed
    by_cases hpositive : 0 < id
    · obtain ⟨revision, hrevision⟩ := revisionAt_concludes h
        "A positive revision is required when updating a hidden test"
      exact ⟨_, parseAdminTest_run hf (fun _ => hrevision) fun hcreated => absurd hpositive hcreated⟩
    · exact ⟨_, parseAdminTest_run hf (fun hupdated => absurd hupdated hpositive) fun _ => rfl⟩
  · exact concludes_of_error _ hrejected

theorem credentials_concludes (h : json.hasMembers = true) (message : String) :
    Concludes (Handlers.credentials message json) := by
  obtain ⟨username, husername⟩ := member_of_hasMembers h "username"
  obtain ⟨password, hpassword⟩ := member_of_hasMembers h "password"
  have hboth : Evaluates [lacks json Json.isString "username", lacks json Json.isString "password"] :=
    ⟨_, lacks_of husername, fun _ => ⟨_, lacks_of hpassword, fun _ => trivial⟩⟩
  rcases hboth.rejectIf message with hpassed | hrejected
  · have hfalse := rejectIf_false hpassed
    obtain ⟨username, husername⟩ := string_of_lacks (hfalse _ List.mem_cons_self)
    obtain ⟨password, hpassword⟩ := string_of_lacks
      (hfalse _ (List.mem_cons_of_mem _ List.mem_cons_self))
    refine ⟨.ok (username, password), ?_⟩
    unfold Handlers.credentials
    rw [check_ok hpassed, check_lift (stringAt_of husername), check_lift (stringAt_of hpassword)]
    rfl
  · exact concludes_of_error _ hrejected

/-- A member that a submission must have, as a text. -/
theorem submissionField_run (h : json.hasMembers = true) (message field : String) :
    ((rejectIf message [not <$> json.isMember field, lacks json Json.isString field]).run
        = .ok (.ok ()) ∧ ∃ text, json.member field = .ok (.string text)) ∨
      (rejectIf message [not <$> json.isMember field, lacks json Json.isString field]).run
        = .ok (.error message) := by
  obtain ⟨value, hmember⟩ := member_of_hasMembers h field
  obtain ⟨isMember, hisMember⟩ : ∃ b, json.isMember field = .ok b := by
    cases json with
    | object members => exact ⟨_, rfl⟩
    | null => exact ⟨false, rfl⟩
    | bool _ | int _ | real _ _ | string _ | array _ => cases h
  have hfield : Evaluates [not <$> json.isMember field, lacks json Json.isString field] :=
    ⟨!isMember, by rw [hisMember]; rfl, fun _ => ⟨_, lacks_of hmember, fun _ => trivial⟩⟩
  rcases hfield.rejectIf message with hpassed | hrejected
  · have hfalse := rejectIf_false hpassed
    exact Or.inl ⟨hpassed, string_of_lacks (hfalse _ (List.mem_cons_of_mem _ List.mem_cons_self))⟩
  · exact Or.inr hrejected

theorem validateSubmission_concludes (json : Json) : Concludes (validateSubmission json) := by
  unfold validateSubmission
  by_cases hobject : json.isObject = true
  · have hmembers : json.hasMembers = true := by
      cases json with
      | object members => rfl
      | null | bool _ | int _ | real _ _ | string _ | array _ => cases hobject
    refine concludes_of_condition _ ?_
    simp only [List.forIn_cons, List.forIn_nil, bind_assoc, pure_bind]
    -- each field is a text, or its message is returned
    rcases submissionField_run hmembers ("problemId" ++ " must be a string") "problemId" with
      ⟨hpassed, problemId, hproblem⟩ | hrejected
    swap
    · exact concludes_of_error _ hrejected
    refine concludes_of_ok hpassed ?_
    rcases submissionField_run hmembers ("language" ++ " must be a string") "language" with
      ⟨hpassed, language, hlanguage⟩ | hrejected
    swap
    · exact concludes_of_error _ hrejected
    refine concludes_of_ok hpassed ?_
    rcases submissionField_run hmembers ("code" ++ " must be a string") "code" with
      ⟨hpassed, code, hcode⟩ | hrejected
    swap
    · exact concludes_of_error _ hrejected
    refine concludes_of_ok hpassed ?_
    refine concludes_of_read (stringAt_of hproblem) (concludes_of_read (stringAt_of hlanguage)
      (concludes_of_read (stringAt_of hcode) ?_))
    refine concludes_of_condition _ (concludes_of_condition _ (concludes_of_condition _
      (concludes_of_condition _ ?_)))
    exact ⟨_, rfl⟩
  · have hrejected : (rejectIf "Request body must be a JSON object" [pure !json.isObject]).run
        = .ok (.error "Request body must be a JSON object") := by
      rw [Bool.eq_false_iff.mpr hobject]
      rfl
    exact concludes_of_error _ hrejected

/-! ## Bodies without members -/

theorem parseAdminProblem_throws (h : json.hasMembers = false) {pathId : Option String}
    (hpath : pathId ≠ some "") : (parseAdminProblem json pathId).run = .error .jsonLogicError := by
  cases pathId with
  | none =>
      rw [parseAdminProblem_none, lacks_error h]
      exact rejectIf_throws
  | some id =>
      have hid : (id == "") = false := by
        rw [beq_eq_false_iff_ne]
        exact fun heq => hpath (congrArg some heq)
      rw [parseAdminProblem_some]
      unfold checkedProblem problemConditions
      rw [ExceptT.run_bind, rejectIf_run, hid, lacks_error h]
      rfl

/-- An empty id is refused before the body is looked at. -/
theorem parseAdminProblem_noId (json : Json) : (parseAdminProblem json (some "")).run
    = .ok (.error "Problem fields are invalid or incomplete") := by
  rw [parseAdminProblem_some]
  exact check_error rfl

theorem parseAdminTest_throws (h : json.hasMembers = false) (id : Int) :
    (parseAdminTest json id).run = .error .jsonLogicError := by
  unfold parseAdminTest
  rw [lacks_error h]
  exact rejectIf_throws

theorem credentials_throws (h : json.hasMembers = false) (message : String) :
    (Handlers.credentials message json).run = .error .jsonLogicError := by
  unfold Handlers.credentials
  rw [lacks_error h]
  exact rejectIf_throws

end concludes

/-- **Which bodies a check concludes on.** Each of the checks ends with a value or a message exactly on the
    objects and `null`, that of a submission on every body, and that of a problem also where the path has an
    empty id. -/
theorem bodyParser_concludes_iff (parser : BodyParser) (json : Json) :
    parser.ConcludesOn json ↔ parser.admits json = true := by
  cases hmembers : json.hasMembers with
  | true =>
      refine iff_of_true ?_ ?_
      · cases parser with
        | problem pathId => exact parseAdminProblem_concludes hmembers pathId
        | test id => exact parseAdminTest_concludes hmembers id
        | register => exact credentials_concludes hmembers _
        | login => exact credentials_concludes hmembers _
        | submission => exact validateSubmission_concludes json
      · cases parser <;> simp [BodyParser.admits, hmembers]
  | false =>
      cases parser with
      | problem pathId =>
          by_cases hpath : pathId = some ""
          · subst hpath
            exact iff_of_true ⟨_, parseAdminProblem_noId json⟩ rfl
          · refine iff_of_false (not_concludes (parseAdminProblem_throws hmembers hpath)) ?_
            simp [BodyParser.admits, hmembers, hpath]
      | test id =>
          refine iff_of_false (not_concludes (parseAdminTest_throws hmembers id)) ?_
          simp [BodyParser.admits, hmembers]
      | register =>
          refine iff_of_false (not_concludes (credentials_throws hmembers _)) ?_
          simp [BodyParser.admits, hmembers]
      | login =>
          refine iff_of_false (not_concludes (credentials_throws hmembers _)) ?_
          simp [BodyParser.admits, hmembers]
      | submission => exact iff_of_true (validateSubmission_concludes json) rfl

/-- **A body that is an array.** The check of a login reads a member of it. -/
theorem login_throws_on_array : ¬ ∀ (parser : BodyParser) (json : Json), parser.ConcludesOn json := by
  intro hclaim
  exact absurd (hclaim .login (.array [])) (not_concludes (credentials_throws rfl _))

end AlgorithmTrainer
