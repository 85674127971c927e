import AlgorithmTrainer.Judge.ProblemJudge

/-!
# `Judge.Traceback` — the exception that a traceback names

Python prints a traceback as blocks, one for each exception of a chain, and a block ends in the name of its
exception. `python_exception_name` takes the first line that looks like one.

`last_exception_iff` says for which texts that gives the category of the exception which terminated the
program, the last one.
-/

namespace AlgorithmTrainer

/-! ## Bytes of a text -/

theorem utf8_append (s t : String) : utf8 (s ++ t) = utf8 s ++ utf8 t := by
  simp [utf8, String.toByteArray_append]

/-- A text of ASCII characters has them for its bytes. -/
theorem utf8_ascii {name : Bytes} (h : ∀ c ∈ name, c < 128) :
    utf8 (String.ofList (name.map fun c => Char.ofNat c.toNat)) = name := by
  have hchar : ∀ n : Fin 128, String.utf8EncodeChar (Char.ofNat n) = [UInt8.ofNat n] := by decide
  have hencode : ∀ l : List Char, utf8 (String.ofList l) = l.flatMap String.utf8EncodeChar := by
    intro l
    simp [utf8, List.utf8Encode]
  rw [hencode]
  induction name with
  | nil => rfl
  | cons c name ih =>
      rw [List.map_cons, List.flatMap_cons, ih fun d hd => h d (List.mem_cons_of_mem _ hd)]
      have hc : c.toNat < 128 := UInt8.lt_iff_toNat_lt.mp (h c List.mem_cons_self)
      rw [hchar ⟨c.toNat, hc⟩, UInt8.ofNat_toNat]
      rfl

/-! ## Tracebacks -/

/-- The identifiers of Python, as UTF-8. Which characters outside ASCII may stand in one is left open. -/
structure IdentifierSyntax where
  holds : Bytes → Bool
  ascii : ∀ name, (∀ c ∈ name, c < 128) → (holds name = true ↔
    name ≠ [] ∧ (∀ c ∈ name, (isAlnumByte c || c == 95) = true) ∧ ∀ c ∈ name.head?, ¬ (48 ≤ c ∧ c ≤ 57))
  bytes : ∀ name, holds name = true →
    name ≠ [] ∧ ∀ c ∈ name, (isAlnumByte c || c == 95) = true ∨ 128 ≤ c

/-- An identifier that ends in `Error` or `Exception`. -/
structure ExceptionName (identifiers : IdentifierSyntax) (name : Bytes) : Prop where
  identifier : identifiers.holds name = true
  suffix : utf8 "Error" <:+ name ∨ utf8 "Exception" <:+ name

/-- The line is `Name` or `Name: message` after its leading whitespace. -/
def Shaped (identifiers : IdentifierSyntax) (line : Bytes) : Prop :=
  ∃ indent name rest, line = indent ++ (name ++ rest) ∧ (∀ c ∈ indent, isSpaceByte c = true) ∧
    ExceptionName identifiers name ∧ (rest = [] ∨ utf8 ": " <+: rest)

/-- A block of a traceback: its lines but the last, and what the last is made of. -/
structure TracebackBlock (identifiers : IdentifierSyntax) where
  lines : List Bytes
  name : Bytes
  message : Option Bytes
  unbroken : ∀ line ∈ lines, lineFeed ∉ line
  unshaped : ∀ line ∈ lines, ¬ Shaped identifiers line
  named : ExceptionName identifiers name
  messageUnbroken : ∀ m ∈ message, lineFeed ∉ m

namespace TracebackBlock

/-- `Name` or `Name: message`. -/
def lastLine {identifiers : IdentifierSyntax} (block : TracebackBlock identifiers) : Bytes :=
  block.name ++ (block.message.elim [] fun m => utf8 ": " ++ m)

def allLines {identifiers : IdentifierSyntax} (block : TracebackBlock identifiers) : List Bytes :=
  block.lines ++ [block.lastLine]

end TracebackBlock

/-- The lines of some blocks. -/
def tracebackLines {identifiers : IdentifierSyntax} (blocks : List (TracebackBlock identifiers)) :
    List Bytes :=
  blocks.flatMap TracebackBlock.allLines

/-- The text of some blocks, which ends in a line feed or not. -/
def tracebackText {identifiers : IdentifierSyntax} (blocks : List (TracebackBlock identifiers))
    (closed : Bool) : Bytes :=
  [lineFeed].intercalate (tracebackLines blocks ++ if closed then [[]] else [])

/-- The first of the lines that begins, after whitespace, with a word of ASCII letters, digits and underscores
    which ends in `Error` or `Exception` and reaches to a colon or to the end of the line. -/
def FirstNamed (lines : List Bytes) (name : Bytes) : Prop :=
  ∃ before line after, lines = before ++ line :: after ∧ lineExceptionName line = some name ∧
    ∀ l ∈ before, lineExceptionName l = none

def syntaxErrors : List Bytes := [utf8 "SyntaxError", utf8 "IndentationError", utf8 "TabError"]

/-- The category of an exception. -/
def nameCategory (name : Bytes) : Bytes :=
  if name = utf8 "MemoryError" then utf8 "Memory Limit Exceeded"
  else if name ∈ syntaxErrors then utf8 "Syntax Error"
  else utf8 "Exception: " ++ name

/-- The same name, or two names for an error of syntax. -/
def SameCategory (first last : Bytes) : Prop :=
  first = last ∨ (first ∈ syntaxErrors ∧ last ∈ syntaxErrors)

section tracebacks
variable {identifiers : IdentifierSyntax} {blocks : List (TracebackBlock identifiers)}
  {block : TracebackBlock identifiers}

/-! ### The lines of a text -/

theorem lastLine_unbroken (block : TracebackBlock identifiers) : lineFeed ∉ block.lastLine := by
  have hname : lineFeed ∉ block.name := by
    intro hmem
    rcases (identifiers.bytes _ block.named.identifier).2 _ hmem with h | h <;>
    · exact absurd h (by decide)
  unfold TracebackBlock.lastLine
  cases hmessage : block.message with
  | none => simpa using hname
  | some m =>
      have hm := block.messageUnbroken m hmessage
      show lineFeed ∉ block.name ++ (utf8 ": " ++ m)
      simp only [List.mem_append, not_or]
      exact ⟨hname, by decide, hm⟩

theorem tracebackLines_unbroken {line : Bytes} (h : line ∈ tracebackLines blocks) :
    lineFeed ∉ line := by
  obtain ⟨block, -, hline⟩ := List.mem_flatMap.mp h
  rcases List.mem_append.mp hline with hline | hline
  · exact block.unbroken line hline
  · rw [List.mem_singleton.mp hline]
    exact lastLine_unbroken block

theorem lineExceptionName_nil : lineExceptionName [] = none := rfl

/-- A line that is empty changes nothing. -/
theorem pythonExceptionName_text (hne : blocks ≠ []) (closed : Bool) :
    pythonExceptionName (tracebackText blocks closed)
      = (tracebackLines blocks).findSome? lineExceptionName := by
  have hsplit : (tracebackText blocks closed).splitOn lineFeed
      = tracebackLines blocks ++ if closed then [[]] else [] := by
    apply List.splitOn_intercalate
    · intro line hline
      rcases List.mem_append.mp hline with hline | hline
      · exact tracebackLines_unbroken hline
      · cases closed with
        | true => simp [List.mem_singleton.mp hline]
        | false => cases hline
    · cases blocks with
      | nil => exact absurd rfl hne
      | cons block blocks => simp [tracebackLines, TracebackBlock.allLines]
  rw [pythonExceptionName, hsplit, List.findSome?_append]
  cases closed with
  | true => simp [lineExceptionName_nil]
  | false => simp

theorem findSome_firstNamed {lines : List Bytes} {name : Bytes} :
    lines.findSome? lineExceptionName = some name ↔ FirstNamed lines name :=
  List.findSome?_eq_some_iff

/-- A name that is found consists of ASCII letters, digits and underscores. -/
theorem lineExceptionName_ascii {line name : Bytes} (h : lineExceptionName line = some name) :
    ∀ c ∈ name, c < 128 := by
  unfold lineExceptionName at h
  dsimp only at h
  split at h
  · rename_i hok
    cases h
    intro c hc
    simp only [Bool.and_eq_true, List.all_eq_true] at hok
    have hbyte := hok.1.2 c hc
    simp only [isAlnumByte, Bool.or_eq_true, Bool.and_eq_true, decide_eq_true_eq, beq_iff_eq] at hbyte
    grind
  · cases h

/-- The code reads the name off a line of this shape, if the name is in ASCII. -/
theorem lineExceptionName_shaped {indent name rest : Bytes} (hindent : ∀ c ∈ indent, isSpaceByte c = true)
    (hname : ExceptionName identifiers name) (hascii : ∀ c ∈ name, c < 128)
    (hrest : rest = [] ∨ utf8 ": " <+: rest) :
    lineExceptionName (indent ++ (name ++ rest)) = some name := by
  obtain ⟨hne, hbytes, -⟩ := (identifiers.ascii name hascii).mp hname.identifier
  -- No byte of the name is a space or a colon.
  have hword : ∀ c ∈ name, isSpaceByte c = false ∧ (c != 58) = true := by
    intro c hc
    have hbyte := hbytes c hc
    simp only [isAlnumByte, isSpaceByte, Bool.or_eq_true, Bool.and_eq_true, decide_eq_true_eq,
      beq_iff_eq, bne_iff_ne, Bool.or_eq_false_iff, Bool.and_eq_false_iff, decide_eq_false_iff_not,
      beq_eq_false_iff_ne] at hbyte ⊢
    grind
  have hdrop : (indent ++ (name ++ rest)).dropWhile isSpaceByte = name ++ rest := by
    rw [List.dropWhile_append_of_pos hindent]
    cases name with
    | nil => exact absurd rfl hne
    | cons c name =>
        rw [List.cons_append, List.dropWhile_cons_of_neg]
        rw [(hword c List.mem_cons_self).1]
        decide
  have htake : (name ++ rest).takeWhile (· != 58) = name := by
    rw [List.takeWhile_append_of_pos fun c hc => (hword c hc).2]
    rcases hrest with rfl | ⟨message, rfl⟩
    · simp
    · show name ++ [] = name
      exact List.append_nil name
  have hok : (!name.isEmpty && name.all fun c => isAlnumByte c || c == 95) = true := by
    rw [Bool.and_eq_true, List.all_eq_true]
    refine ⟨?_, hbytes⟩
    cases name with
    | nil => exact absurd rfl hne
    | cons c name => rfl
  unfold lineExceptionName
  dsimp only
  rw [hdrop, htake, hok]
  rcases hname.suffix with hsuffix | hsuffix
  · simp [hsuffix]
  · simp [hsuffix]

/-- A block is named by its last line, if the name is in ASCII and the code reads none off the other lines. -/
theorem firstNamed_firstBlock (block : TracebackBlock identifiers)
    (blocks : List (TracebackBlock identifiers)) (hascii : ∀ c ∈ block.name, c < 128)
    (hlines : ∀ line ∈ block.lines, lineExceptionName line = none) :
    FirstNamed (tracebackLines (block :: blocks)) block.name := by
  refine ⟨block.lines, block.lastLine, tracebackLines blocks, ?_, ?_, hlines⟩
  · simp [tracebackLines, TracebackBlock.allLines]
  · have hrest : (block.message.elim [] fun m => utf8 ": " ++ m) = [] ∨
        utf8 ": " <+: block.message.elim [] fun m => utf8 ": " ++ m := by
      cases block.message with
      | none => exact Or.inl rfl
      | some m => exact Or.inr (List.prefix_append _ _)
    exact @lineExceptionName_shaped identifiers [] _ _ (fun c hc => absurd hc List.not_mem_nil) block.named
      hascii hrest

/-! ### The category -/

theorem nameCategory_head (name : Bytes) :
    (nameCategory name).head? = some 77 ∨ (nameCategory name).head? = some 83 ∨
      (nameCategory name).head? = some 69 := by
  unfold nameCategory
  by_cases hmemory : name = utf8 "MemoryError"
  · rw [if_pos hmemory]
    exact Or.inl (by decide)
  · rw [if_neg hmemory]
    by_cases hgrammar : name ∈ syntaxErrors
    · rw [if_pos hgrammar]
      exact Or.inr (Or.inl (by decide))
    · rw [if_neg hgrammar]
      exact Or.inr (Or.inr rfl)

/-- Only `MemoryError` has the category of memory. -/
theorem nameCategory_memory {name : Bytes} :
    nameCategory name = utf8 "Memory Limit Exceeded" ↔ name = utf8 "MemoryError" := by
  unfold nameCategory
  by_cases hmemory : name = utf8 "MemoryError"
  · simp [hmemory]
  · rw [if_neg hmemory]
    refine ⟨fun h => ?_, fun h => absurd h hmemory⟩
    split at h
    · exact absurd h (by decide)
    · cases (congrArg List.head? h : some (69 : UInt8) = some 77)

theorem nameCategory_ofGrammar {name : Bytes} (h : name ∈ syntaxErrors) :
    nameCategory name = utf8 "Syntax Error" := by
  have hmemory : name ≠ utf8 "MemoryError" := fun he => absurd (he ▸ h) (by decide)
  rw [nameCategory, if_neg hmemory, if_pos h]

theorem nameCategory_other {name : Bytes} (hmemory : name ≠ utf8 "MemoryError")
    (hgrammar : name ∉ syntaxErrors) : nameCategory name = utf8 "Exception: " ++ name := by
  rw [nameCategory, if_neg hmemory, if_neg hgrammar]

theorem syntax_ne_exception (name : Bytes) : utf8 "Syntax Error" ≠ utf8 "Exception: " ++ name := by
  intro h
  cases (congrArg List.head? h : some (83 : UInt8) = some 69)

/-- Two names have one category only if they are the same, or both name an error of syntax. -/
theorem nameCategory_eq_iff {first last : Bytes} :
    nameCategory first = nameCategory last ↔ SameCategory first last := by
  constructor
  · intro h
    by_cases hfirst : first = utf8 "MemoryError"
    · rw [nameCategory_memory.mpr hfirst] at h
      exact Or.inl (hfirst.trans (nameCategory_memory.mp h.symm).symm)
    by_cases hlast : last = utf8 "MemoryError"
    · rw [nameCategory_memory.mpr hlast] at h
      exact absurd (nameCategory_memory.mp h) hfirst
    by_cases hs : first ∈ syntaxErrors <;> by_cases hs' : last ∈ syntaxErrors
    · exact Or.inr ⟨hs, hs'⟩
    · rw [nameCategory_ofGrammar hs, nameCategory_other hlast hs'] at h
      exact absurd h (syntax_ne_exception last)
    · rw [nameCategory_other hfirst hs, nameCategory_ofGrammar hs'] at h
      exact absurd h.symm (syntax_ne_exception first)
    · rw [nameCategory_other hfirst hs, nameCategory_other hlast hs'] at h
      exact Or.inl (List.append_cancel_left h)
  · rintro (rfl | ⟨hs, hs'⟩)
    · rfl
    · rw [nameCategory_ofGrammar hs, nameCategory_ofGrammar hs']

/-! ### The classification -/

variable {execution : ExecutionResult Bytes}

theorem classify_120 (htype : execution.errorType = none) (h120 : execution.exitCode = 120) :
    classifyRuntimeError execution = "Output Limit Exceeded" := by
  simp [classifyRuntimeError, htype, h120]

theorem classify_127 (htype : execution.errorType = none) (h127 : execution.exitCode = 127) :
    classifyRuntimeError execution = "Sandbox Runtime Error" := by
  simp [classifyRuntimeError, htype, h127]

theorem classify_alloc (htype : execution.errorType = none) (h120 : execution.exitCode ≠ 120)
    (h127 : execution.exitCode ≠ 127) (halloc : utf8 "std::bad_alloc" <:+: execution.standardError) :
    classifyRuntimeError execution = "Memory Limit Exceeded" := by
  simp [classifyRuntimeError, htype, h120, h127, halloc]

/-- The name that is found decides. -/
theorem classify_found (htype : execution.errorType = none) (h120 : execution.exitCode ≠ 120)
    (h127 : execution.exitCode ≠ 127) (halloc : ¬ utf8 "std::bad_alloc" <:+: execution.standardError)
    {name : Bytes} (hname : pythonExceptionName execution.standardError = some name)
    (hascii : ∀ c ∈ name, c < 128) :
    utf8 (classifyRuntimeError execution) = nameCategory name := by
  unfold classifyRuntimeError
  simp only [htype, beq_iff_eq, h120, h127, if_false, hname, halloc, decide_false, Bool.or_false,
    Option.some.injEq, Bool.or_eq_true, or_assoc]
  by_cases hmemory : name = utf8 "MemoryError"
  · rw [if_pos hmemory, nameCategory, if_pos hmemory]
  · rw [if_neg hmemory]
    by_cases hgrammar : name ∈ syntaxErrors
    · rw [if_pos (by simpa [syntaxErrors] using hgrammar), nameCategory_ofGrammar hgrammar]
    · rw [if_neg (by simpa [syntaxErrors] using hgrammar), nameCategory_other hmemory hgrammar, utf8_append,
        utf8_ascii hascii]

theorem classify_unnamed (htype : execution.errorType = none) (h120 : execution.exitCode ≠ 120)
    (h127 : execution.exitCode ≠ 127) (halloc : ¬ utf8 "std::bad_alloc" <:+: execution.standardError)
    (hname : pythonExceptionName execution.standardError = none) :
    classifyRuntimeError execution = if 128 ≤ execution.exitCode
      then "Terminated by " ++ signalName (execution.exitCode - 128) else "Runtime Error" := by
  simp [classifyRuntimeError, htype, h120, h127, hname, halloc]

/-- Without a name, the category is one that no name has. -/
theorem classify_unfound (htype : execution.errorType = none) (h120 : execution.exitCode ≠ 120)
    (h127 : execution.exitCode ≠ 127) (halloc : ¬ utf8 "std::bad_alloc" <:+: execution.standardError)
    (hname : pythonExceptionName execution.standardError = none) (name : Bytes) :
    utf8 (classifyRuntimeError execution) ≠ nameCategory name := by
  have hhead : (utf8 (classifyRuntimeError execution)).head? = some 84 ∨
      (utf8 (classifyRuntimeError execution)).head? = some 82 := by
    rw [classify_unnamed htype h120 h127 halloc hname]
    split
    · rw [utf8_append]
      exact Or.inl rfl
    · exact Or.inr (by decide)
  intro h
  rw [h] at hhead
  rcases nameCategory_head name with hn | hn | hn <;>
  · rw [hn] at hhead
    simp at hhead

/-- **When the category is that of the last exception.** For a text of one or more blocks, exactly if the
    first line with a name to it has the category of the last block's name; or, where the text mentions
    `std::bad_alloc`, if the last block names a `MemoryError`. -/
theorem last_exception_iff (blocks : List (TracebackBlock identifiers))
    (last : TracebackBlock identifiers) (closed : Bool) (execution : ExecutionResult Bytes)
    (htype : execution.errorType = none) (h120 : execution.exitCode ≠ 120)
    (h127 : execution.exitCode ≠ 127)
    (htext : execution.standardError = tracebackText (blocks ++ [last]) closed) :
    utf8 (classifyRuntimeError execution) = nameCategory last.name ↔
      if utf8 "std::bad_alloc" <:+: execution.standardError then last.name = utf8 "MemoryError"
      else ∃ first, FirstNamed (tracebackLines (blocks ++ [last])) first ∧
        SameCategory first last.name := by
  by_cases halloc : utf8 "std::bad_alloc" <:+: execution.standardError
  · rw [if_pos halloc, classify_alloc htype h120 h127 halloc, eq_comm, nameCategory_memory]
  · rw [if_neg halloc]
    have hfind : pythonExceptionName execution.standardError
        = (tracebackLines (blocks ++ [last])).findSome? lineExceptionName := by
      rw [htext]
      exact pythonExceptionName_text (by simp) closed
    cases hname : pythonExceptionName execution.standardError with
    | none =>
        refine ⟨fun h => absurd h (classify_unfound htype h120 h127 halloc hname _), ?_⟩
        rintro ⟨first, hfirst, -⟩
        rw [hfind, findSome_firstNamed.mpr hfirst] at hname
        cases hname
    | some name =>
        have hfirst : FirstNamed (tracebackLines (blocks ++ [last])) name :=
          findSome_firstNamed.mp (hfind.symm.trans hname)
        have hnamed := hfirst
        obtain ⟨-, line, -, -, hline, -⟩ := hnamed
        rw [classify_found htype h120 h127 halloc hname (lineExceptionName_ascii hline),
          nameCategory_eq_iff]
        refine ⟨fun h => ⟨name, hfirst, h⟩, ?_⟩
        rintro ⟨first, hfirst', hsame⟩
        obtain rfl := Option.some.inj
          ((findSome_firstNamed.mpr hfirst').symm.trans (hfind.symm.trans hname))
        exact hsame

end tracebacks

/-! ### A chain of two exceptions -/

/-- Identifiers of ASCII characters only. -/
def asciiIdentifiers : IdentifierSyntax where
  holds name := !name.isEmpty && name.all (fun c => isAlnumByte c || c == 95)
    && name.head?.all fun c => !(48 ≤ c && c ≤ 57)
  ascii name _ := by
    cases name with
    | nil => simp
    | cons c name =>
        simp only [List.isEmpty_cons, Bool.not_false, Bool.true_and, Bool.and_eq_true, List.all_eq_true,
          List.head?_cons, Option.all_some, ne_eq, reduceCtorEq, not_false_eq_true, true_and,
          Option.mem_def, Option.some.injEq, forall_eq', Bool.not_eq_true', Bool.and_eq_false_iff,
          decide_eq_false_iff_not, not_and_or]
  bytes name h := by
    simp only [Bool.and_eq_true, List.all_eq_true] at h
    refine ⟨?_, fun c hc => Or.inl (h.1.2 c hc)⟩
    rintro rfl
    simp at h

/-- A block whose lines the code reads no name off. -/
def asciiBlock (lines : List Bytes) (name message : Bytes)
    (hlines : ∀ line ∈ lines, lineFeed ∉ line ∧ lineExceptionName line = none)
    (hname : asciiIdentifiers.holds name = true ∧ utf8 "Error" <:+ name) (hmessage : lineFeed ∉ message) :
    TracebackBlock asciiIdentifiers where
  lines := lines
  name := name
  message := some message
  unbroken line h := (hlines line h).1
  unshaped line h := by
    rintro ⟨indent, name, rest, rfl, hindent, hnamed, hrest⟩
    have hascii : ∀ c ∈ name, c < 128 := by
      intro c hc
      have hbyte := ((asciiIdentifiers.bytes name hnamed.identifier).2 c hc)
      have hholds := hnamed.identifier
      simp only [asciiIdentifiers, Bool.and_eq_true, List.all_eq_true] at hholds
      have hword := hholds.1.2 c hc
      simp only [isAlnumByte, Bool.or_eq_true, Bool.and_eq_true, decide_eq_true_eq, beq_iff_eq] at hword
      grind
    have hnone := (hlines _ h).2
    rw [lineExceptionName_shaped hindent hnamed hascii hrest] at hnone
    cases hnone
  named := ⟨hname.1, Or.inl hname.2⟩
  messageUnbroken m hm := Option.some.inj hm ▸ hmessage

/-- The first exception. -/
def valueErrorBlock : TracebackBlock asciiIdentifiers :=
  asciiBlock [utf8 "Traceback (most recent call last):", utf8 "    int(key)"] (utf8 "ValueError")
    (utf8 "invalid literal") (by decide) (by decide) (by decide)

/-- The exception of its handler. -/
def keyErrorBlock : TracebackBlock asciiIdentifiers :=
  asciiBlock [[], utf8 "During handling of the above exception, another exception occurred:", [],
    utf8 "Traceback (most recent call last):", utf8 "    table[key]"] (utf8 "KeyError") (utf8 "'x'")
    (by decide) (by decide) (by decide)

/-- An execution that exits with 1 and prints these blocks. -/
def chained (blocks : List (TracebackBlock asciiIdentifiers)) : ExecutionResult Bytes :=
  ⟨1, [], tracebackText blocks true, false, none⟩

set_option maxRecDepth 4000 in
/-- **A chain is reported under its first exception**, though the second terminated the program. -/
theorem chain_reported_first : ¬ ∀ (identifiers : IdentifierSyntax)
    (blocks : List (TracebackBlock identifiers)) (last : TracebackBlock identifiers) (closed : Bool)
    (execution : ExecutionResult Bytes), execution.errorType = none → execution.exitCode ≠ 120 →
    execution.exitCode ≠ 127 →
    execution.standardError = tracebackText (blocks ++ [last]) closed →
    utf8 (classifyRuntimeError execution) = nameCategory last.name := by
  intro hclaim
  have hcategory := hclaim asciiIdentifiers [valueErrorBlock] keyErrorBlock true
    (chained [valueErrorBlock, keyErrorBlock]) rfl (by decide) (by decide) rfl
  exact absurd hcategory (by decide)

set_option maxRecDepth 4000 in
/-- A chain of one kind of exception is reported under it. -/
theorem last_exception_iff_same :
    utf8 (classifyRuntimeError (chained [keyErrorBlock, keyErrorBlock]))
      = nameCategory keyErrorBlock.name :=
  (last_exception_iff [keyErrorBlock] keyErrorBlock true (chained [keyErrorBlock, keyErrorBlock]) rfl
    (by decide) (by decide) rfl).mpr (by
      rw [if_neg (by decide)]
      exact ⟨utf8 "KeyError", firstNamed_firstBlock keyErrorBlock [keyErrorBlock] (by decide) (by decide),
        Or.inl rfl⟩)

end AlgorithmTrainer
