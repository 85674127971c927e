import AlgorithmTrainer.Executor.Record
import AlgorithmTrainer.Lib.Transfer
import AlgorithmTrainer.Server.Http

/-!
# `Executor.Message` — messages between the backend and the judge worker

A message is a JSON value, written compactly, after its size in four bytes. The JSON library is a parameter:
`writeString` and `parse`. What is relied on about the size of what it writes is `Compact`, the layout of
an object, and `Escaping`, the size of a string.

`request_fits_iff` says which work the backend can send to the judge worker at all.
-/

namespace AlgorithmTrainer

open Transfer

def maximumMessageSize : Nat := 2 * 1024 * 1024

/-! ## The size of what is written -/

/-- The letter of a short escape. -/
def shortEscape : Char → Option UInt8
  | '"' => some 34
  | '\\' => some 92
  | '\x08' => some 98
  | '\x0c' => some 102
  | '\n' => some 110
  | '\r' => some 114
  | '\t' => some 116
  | _ => none

/-- The size a character is written with: two bytes for a short escape, six for any other control character
    and for every other code point that is not ASCII, and twelve where that takes a surrogate pair. -/
def escapedCharSize (c : Char) : Nat :=
  if (shortEscape c).isSome then 2
  else if c.val < 0x20 then 6
  else if c.val < 0x80 then 1
  else if c.val < 0x10000 then 6
  else 12

def escapedSize (s : String) : Nat := (s.toList.map escapedCharSize).sum

/-- A byte is written with at most six bytes. -/
theorem escapedSize_le (s : String) : escapedSize s ≤ 6 * byteSize s := by
  have hchar : ∀ c : Char, escapedCharSize c ≤ 6 * c.utf8Size := by
    intro c
    have hfour := Char.utf8Size_eq_four_iff (c := c)
    have hpos := c.utf8Size_pos
    unfold escapedCharSize
    split
    · omega
    · split
      · omega
      · split
        · omega
        · split
          · omega
          · rename_i hlarge
            have := hfour.mpr (UInt32.lt_iff_toNat_lt.mpr (by
              have := mt UInt32.lt_iff_toNat_lt.mpr hlarge
              simp only [UInt32.reduceToNat] at this ⊢
              omega))
            omega
  rw [byteSize_eq_sum, escapedSize]
  induction s.toList with
  | nil => exact Nat.le_refl _
  | cons c l ih =>
      have := hchar c
      simp only [List.map_cons, List.sum_cons]
      omega

/-- Neither an array nor an object. -/
def Json.isScalar : Json → Bool
  | .array _ | .object _ => false
  | _ => true

/-- The space that a member takes in an object, with its colon and a comma. -/
def memberSize (writeString : Json → Bytes) (member : String × Json) : Nat :=
  (writeString (.string member.1)).length + 1 + (writeString member.2).length + 1

/-- The layout that a writer without indentation gives to an object, and the size of numbers and booleans. -/
structure Compact (writeString : Json → Bytes) : Prop where
  object : ∀ members : List (String × Json), members ≠ [] → (members.map Prod.fst).Nodup →
    (∀ m ∈ members, m.2.isScalar = true) →
    (writeString (.object members)).length = 1 + (members.map (memberSize writeString)).sum
  int : ∀ v, Json.minInt32 ≤ v → v ≤ Json.maxInt32 → (writeString (.int v)).length ≤ 11
  bool : ∀ b, (writeString (.bool b)).length ≤ 5

/-- The size of a string, between its quotes. -/
def Escaping (writeString : Json → Bytes) : Prop :=
  ∀ s, (writeString (.string s)).length = 2 + escapedSize s

/-- All that is relied on for responses: a byte of a string is written with at most six. -/
def BoundedEscapes (writeString : Json → Bytes) : Prop :=
  ∀ s, (writeString (.string s)).length ≤ 2 + 6 * byteSize s

theorem Escaping.bounded {writeString : Json → Bytes} (h : Escaping writeString) :
    BoundedEscapes writeString := by
  intro s
  rw [h]
  have := escapedSize_le s
  omega

/-! ## Sending and receiving -/

/-- `htonl`: the size in four bytes, the most significant first. -/
def encodedSize (size : Nat) : Bytes :=
  [.ofNat (size / 2 ^ 24), .ofNat (size / 2 ^ 16), .ofNat (size / 2 ^ 8), .ofNat size]

/-- `ntohl`. -/
def decodedSize (bytes : Bytes) : Nat := bytes.foldl (fun n b => 256 * n + b.toNat) 0

theorem decodedSize_encodedSize {size : Nat} (h : size < 2 ^ 32) :
    decodedSize (encodedSize size) = size := by
  simp only [decodedSize, encodedSize, List.foldl_cons, List.foldl_nil, UInt8.toNat_ofNat']
  omega

/-- A message as it is sent. -/
def frame (body : Bytes) : Bytes := encodedSize body.length ++ body

/-- The size is written, and then the body. -/
def writeFrame (schedule : Schedule) (body : Bytes) : Written UInt8 :=
  let header := writeAll schedule (encodedSize body.length)
  if header.success then
    let rest := writeAll header.schedule body
    { rest with accepted := header.accepted ++ rest.accepted }
  else header

theorem writeFrame_success (schedule : Schedule) (body : Bytes)
    (h : (writeFrame schedule body).success = true) :
    (writeFrame schedule body).accepted = frame body := by
  unfold writeFrame at h ⊢
  dsimp only at h ⊢
  split at h
  · rename_i hheader
    rw [if_pos hheader]
    show (writeAll schedule _).accepted ++ (writeAll _ body).accepted = frame body
    rw [(writeAll_spec _ _).2 hheader, (writeAll_spec _ _).2 h]
    rfl
  · rename_i hheader
    exact absurd h hheader

theorem writeFrame_of_not_failed {schedule : Schedule} (h : Attempt.failed ∉ schedule)
    (body : Bytes) : (writeFrame schedule body).success = true := by
  obtain ⟨hheader, hrest⟩ := writeAll_success h (encodedSize body.length)
  simp only [writeFrame, hheader, if_true]
  exact (writeAll_success hrest body).1

/-- `send_message`. -/
def sendMessage (writeString : Json → Bytes) (schedule : Schedule) (value : Json) :
    Written UInt8 :=
  let body := writeString value
  if maximumMessageSize < body.length then ⟨false, [], schedule⟩
  else writeFrame schedule body

/-- Without failures of `write`, `send_message` fails exactly where the message is too large. -/
theorem sendMessage_success {writeString : Json → Bytes} {schedule : Schedule}
    (h : Attempt.failed ∉ schedule) (value : Json) :
    (sendMessage writeString schedule value).success = true ↔
      (writeString value).length ≤ maximumMessageSize := by
  unfold sendMessage
  dsimp only
  split
  · rename_i hlarge
    exact ⟨fun h => (by cases h), fun hsmall => by omega⟩
  · rename_i hsmall
    exact ⟨fun _ => by omega, fun _ => writeFrame_of_not_failed h _⟩

/-! ## Requests -/

/-- The message that asks the judge worker to run a program. -/
def requestPayload (request : ExecutionRequest) : Json :=
  ((Json.null.set "language" (.string request.language)).set "source"
    (.string request.sourceCode)).set "input" (.string request.standardInput)

theorem requestPayload_eq (request : ExecutionRequest) : requestPayload request =
    .object [("language", .string request.language), ("source", .string request.sourceCode),
      ("input", .string request.standardInput)] := by
  simp [requestPayload, Json.set]

section requests
variable {writeString : Json → Bytes}

theorem length_requestPayload (hcompact : Compact writeString) (hescaping : Escaping writeString)
    (request : ExecutionRequest) : (writeString (requestPayload request)).length =
      38 + escapedSize request.language + escapedSize request.sourceCode
        + escapedSize request.standardInput := by
  have hlanguage : escapedSize "language" = 8 := by decide
  have hsource : escapedSize "source" = 6 := by decide
  have hinput : escapedSize "input" = 5 := by decide
  rw [requestPayload_eq, hcompact.object _ (List.cons_ne_nil _ _) (by simp)
    (by simp [Json.isScalar])]
  simp only [List.map_cons, List.map_nil, List.sum_cons, List.sum_nil, memberSize, hescaping _,
    hlanguage, hsource, hinput]
  omega

/-- **What the backend can send.** The message that is built from an accepted submission and the input of a
    hidden test is sent, whatever the transfers, exactly if their sizes with all escapes leave room for the
    rest of the message. -/
theorem request_fits_iff (hcompact : Compact writeString) (hescaping : Escaping writeString)
    {json : Json} {request : SubmissionRequest}
    (haccepted : (validateSubmission json).run = .ok (.ok request)) (input : String) :
    (∀ schedule, Attempt.failed ∉ schedule → (sendMessage writeString schedule
        (requestPayload ⟨request.language, request.code, input⟩)).success = true) ↔
      byteSize request.language + escapedSize request.code + escapedSize input
        ≤ maximumMessageSize - 38 := by
  have hlanguage : escapedSize request.language = byteSize request.language := by
    rcases (validateSubmission_accepted haccepted).1 with h | h <;> rw [h] <;> decide
  have hlength : (writeString (requestPayload ⟨request.language, request.code, input⟩)).length =
      38 + byteSize request.language + escapedSize request.code + escapedSize input := by
    rw [length_requestPayload hcompact hescaping, ← hlanguage]
  have hmaximum : maximumMessageSize = 2097152 := rfl
  constructor
  · intro hsent
    have hfits := (sendMessage_success List.not_mem_nil _).mp (hsent [] List.not_mem_nil)
    omega
  · intro hfits schedule hschedule
    exact (sendMessage_success hschedule _).mpr (by omega)

end requests

/-! ## A writer to compute with -/

def hexDigit (n : Nat) : UInt8 := if n < 10 then .ofNat (48 + n) else .ofNat (87 + n)

/-- `\uXXXX`. -/
def unicodeEscape (unit : Nat) : Bytes :=
  [92, 117, hexDigit (unit / 4096 % 16), hexDigit (unit / 256 % 16), hexDigit (unit / 16 % 16),
    hexDigit (unit % 16)]

def escapedChar (c : Char) : Bytes :=
  match shortEscape c with
  | some letter => [92, letter]
  | none =>
      let n := c.toNat
      if c.val < 0x20 then unicodeEscape n
      else if c.val < 0x80 then [.ofNat n]
      else if c.val < 0x10000 then unicodeEscape n
      else unicodeEscape (0xD800 + (n - 0x10000) / 1024 % 1024)
        ++ unicodeEscape (0xDC00 + (n - 0x10000) % 1024)

def quoted (s : String) : Bytes := 34 :: s.toList.flatMap escapedChar ++ [34]

def decimal (v : Int) : Bytes :=
  (if v < 0 then [45] else []) ++ (Nat.toDigits 10 v.natAbs).map fun c => .ofNat c.toNat

/-- Parts with commas between them. -/
def commas : List Bytes → Bytes
  | [] => []
  | [part] => part
  | part :: parts => part ++ 44 :: commas parts

/-- The members of an object in the order of their names, in which the library keeps them. -/
def inOrder (members : List (String × Bytes)) : List (String × Bytes) :=
  members.insertionSort fun a b => a.1 ≤ b.1

mutual

/-- A value, written as the library writes it without indentation. -/
def compactJson : Json → Bytes
  | .null => utf8 "null"
  | .bool b => utf8 (if b then "true" else "false")
  | .int v => decimal v
  | .real _ text => utf8 text
  | .string s => quoted s
  | .array elements => 91 :: commas (compactElements elements) ++ [93]
  | .object members =>
      123 :: commas ((inOrder (compactMembers members)).map fun m => quoted m.1 ++ 58 :: m.2) ++ [125]
def compactElements : List Json → List Bytes
  | [] => []
  | value :: rest => compactJson value :: compactElements rest
def compactMembers : List (String × Json) → List (String × Bytes)
  | [] => []
  | (key, value) :: rest => (key, compactJson value) :: compactMembers rest
end

theorem length_escapedChar (c : Char) : (escapedChar c).length = escapedCharSize c := by
  unfold escapedChar escapedCharSize
  cases shortEscape c with
  | some letter => rfl
  | none =>
      simp only [Option.isSome_none, Bool.false_eq_true, if_false]
      split
      · rfl
      · split
        · rfl
        · split <;> rfl

theorem compactJson_escaping : Escaping compactJson := by
  intro s
  have hchars : (s.toList.flatMap escapedChar).length = escapedSize s := by
    rw [List.length_flatMap, escapedSize]
    exact congrArg List.sum (List.map_congr_left fun c _ => length_escapedChar c)
  simp only [compactJson, quoted, List.length_append, List.length_cons, List.length_nil, hchars]
  omega

theorem length_commas {parts : List Bytes} (h : parts ≠ []) :
    (commas parts).length + 1 = (parts.map fun part => part.length + 1).sum := by
  induction parts with
  | nil => exact absurd rfl h
  | cons part parts ih =>
      match parts with
      | [] => simp [commas]
      | next :: parts =>
          have hrest := ih (List.cons_ne_nil _ _)
          simp only [commas, List.length_append, List.length_cons, List.map_cons,
            List.sum_cons] at hrest ⊢
          omega

theorem compactMembers_eq (members : List (String × Json)) :
    compactMembers members = members.map fun m => (m.1, compactJson m.2) := by
  induction members with
  | nil => rfl
  | cons m members ih =>
      obtain ⟨key, value⟩ := m
      rw [compactMembers, ih]
      rfl

theorem length_decimal {v : Int} (hmin : Json.minInt32 ≤ v) (hmax : v ≤ Json.maxInt32) :
    (decimal v).length ≤ 11 := by
  have hdigits : (Nat.toDigits 10 v.natAbs).length ≤ 10 := by
    refine (Nat.length_toDigits_le_iff (by decide) (by decide)).mpr ?_
    simp only [Json.minInt32, Json.maxInt32] at hmin hmax
    omega
  rw [decimal, List.length_append, List.length_map]
  split
  · rw [List.length_singleton]
    omega
  · rw [List.length_nil]
    omega

theorem compactJson_compact : Compact compactJson where
  object := by
    intro members hne _ _
    have hparts : (inOrder (compactMembers members)).map (fun m => quoted m.1 ++ 58 :: m.2) ≠ [] := by
      rw [← List.length_pos_iff, List.length_map, inOrder, List.length_insertionSort,
        compactMembers_eq, List.length_map]
      exact List.length_pos_iff.mpr hne
    have hsum := length_commas hparts
    have hperm := (List.perm_insertionSort (fun a b : String × Bytes => a.1 ≤ b.1)
      (compactMembers members)).map fun m => (quoted m.1 ++ 58 :: m.2).length + 1
    have hsizes : ((compactMembers members).map fun m => (quoted m.1 ++ 58 :: m.2).length + 1).sum
        = (members.map (memberSize compactJson)).sum := by
      rw [compactMembers_eq, List.map_map]
      refine congrArg List.sum (List.map_congr_left fun m _ => ?_)
      simp only [Function.comp_apply, memberSize, compactJson, List.length_append, List.length_cons]
      omega
    rw [List.map_map] at hsum
    have htotal := hsum.trans (hperm.sum_eq.trans hsizes)
    simp only [compactJson, List.length_append, List.length_cons, List.length_nil]
    omega
  int := fun v hmin hmax => length_decimal hmin hmax
  bool := by
    intro b
    cases b <;> decide

/-! ### A hidden test of accented letters -/

/-- An accepted submission. -/
def printRequest : Json :=
  .object [("problemId", .string "sum"), ("language", .string "python"), ("code", .string "print()")]

def printSubmission : SubmissionRequest := { problemId := "sum", language := "python", code := "print()" }

theorem printRequest_accepted : (validateSubmission printRequest).run = .ok (.ok printSubmission) := by
  rfl

/-- A text of `n` letters that UTF-8 writes in two bytes each. -/
def accents (n : Nat) : String := String.ofList (List.replicate n 'é')

theorem byteSize_accents (n : Nat) : byteSize (accents n) = 2 * n := by
  rw [byteSize_eq_sum, accents, String.toList_ofList, List.map_replicate, List.sum_replicate]
  show n * 2 = 2 * n
  omega

theorem escapedSize_accents (n : Nat) : escapedSize (accents n) = 6 * n := by
  rw [escapedSize, accents, String.toList_ofList, List.map_replicate, List.sum_replicate]
  show n * 6 = 6 * n
  omega

/-- **Work that the validators admit is not sent.** The input is within the limit of a hidden test, also in the
    body of the request that saves it, and every letter of it is escaped in six bytes. -/
theorem admitted_request_rejected : ¬ ∀ (writeString : Json → Bytes), Compact writeString →
    Escaping writeString → ∀ (json : Json) (request : SubmissionRequest),
    (validateSubmission json).run = .ok (.ok request) → ∀ input, validHiddenTestText input = true →
    ∀ schedule, Attempt.failed ∉ schedule → (sendMessage writeString schedule
      (requestPayload ⟨request.language, request.code, input⟩)).success = true := by
  intro hclaim
  obtain ⟨n, hn⟩ : ∃ n, n = 500000 := ⟨_, rfl⟩
  have hvalid : validHiddenTestText (accents n) = true := by
    rw [validHiddenTestText, byteSize_accents, hn]
    decide
  have hsent := hclaim compactJson compactJson_compact compactJson_escaping printRequest _
    printRequest_accepted (accents n) hvalid [] List.not_mem_nil
  have hfits := (sendMessage_success List.not_mem_nil _).mp hsent
  have hlength := length_requestPayload compactJson_compact compactJson_escaping
    ⟨printSubmission.language, printSubmission.code, accents n⟩
  rw [escapedSize_accents] at hlength
  have hmaximum : maximumMessageSize = 2097152 := rfl
  omega

/-- The request of a small hidden test is sent. -/
theorem request_fits_iff_small :
    (sendMessage compactJson [] (requestPayload ⟨"python", "print()", "1 2\n"⟩)).success = true :=
  (request_fits_iff compactJson_compact compactJson_escaping printRequest_accepted "1 2\n").mpr
    (by decide) [] List.not_mem_nil

end AlgorithmTrainer
