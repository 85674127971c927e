import Mathlib.Data.Rat.Floor

/-!
# `Json` — JSON values with the JSON library's accessors

Request bodies, response bodies and the JSON columns of the database are values of `Json`. The accessors
throw where the library does: a member is read off an object or off `null` only, and `asString`,
`asInt64` and `asBool` convert what they can and throw on the rest.
-/

namespace AlgorithmTrainer

/-- What a C++ function can throw. -/
inductive Exception where
  /-- `std::get` on a variant that holds another alternative. -/
  | badVariantAccess
  /-- A type assertion of the JSON library. -/
  | jsonLogicError
  /-- Any other `std::exception`. -/
  | standard (what : String)
  /-- A thrown value that is no `std::exception`. -/
  | unknown
deriving DecidableEq, Repr

/-- A bind that ends well has a first part that does. -/
theorem except_bind_ok {ε α β : Type} {x : Except ε α} {f : α → Except ε β} {b : β}
    (h : (x >>= f) = .ok b) : ∃ a, x = .ok a ∧ f a = .ok b := by
  cases x with
  | error error => cases h
  | ok a => exact ⟨a, rfl, h⟩

/-- A JSON value. A double is kept as its exact value and the text it prints as; a later member of an
    object that repeats a key never arises, so members are an association list. -/
inductive Json where
  | null
  | bool (value : Bool)
  | int (value : Int)
  | real (value : Rat) (text : String)
  | string (value : String)
  | array (elements : List Json)
  | object (members : List (String × Json))

def minInt64 : Int := -2 ^ 63
def maxInt64 : Int := 2 ^ 63 - 1

/-- The bytes of a text, as `std::string::size` counts them. -/
def byteSize (s : String) : Nat := s.utf8ByteSize

theorem byteSize_eq_sum (s : String) : byteSize s = (s.toList.map Char.utf8Size).sum := by
  obtain ⟨l, rfl⟩ := s.exists_eq_ofList
  rw [String.toList_ofList, byteSize, ← String.size_toByteArray, String.toByteArray_ofList]
  induction l with
  | nil => rfl
  | cons c l ih =>
      rw [List.utf8Encode_cons, ByteArray.size_append, ih, List.map_cons, List.sum_cons]
      congr 1
      exact (congrArg ByteArray.size String.toByteArray_ofList).symm.trans
        String.utf8ByteSize_singleton

namespace Json

instance : Inhabited Json := ⟨.null⟩

/-! ## Accessors -/

/-- `json[key]`. -/
def member (json : Json) (key : String) : Except Exception Json :=
  match json with
  | .object members => .ok ((members.lookup key).getD .null)
  | .null => .ok .null
  | _ => .error .jsonLogicError

/-- `json.isMember(key)`. -/
def isMember (json : Json) (key : String) : Except Exception Bool :=
  match json with
  | .object members => .ok (members.lookup key).isSome
  | .null => .ok false
  | _ => .error .jsonLogicError

def isString : Json → Bool
  | .string _ => true
  | _ => false

def isBool : Json → Bool
  | .bool _ => true
  | _ => false

def isArray : Json → Bool
  | .array _ => true
  | _ => false

def isObject : Json → Bool
  | .object _ => true
  | _ => false

/-- An integer in range, or a double that holds one. -/
def isInt64 : Json → Bool
  | .int v => decide (minInt64 ≤ v ∧ v ≤ maxInt64)
  | .real v _ => decide (minInt64 ≤ v ∧ v ≤ maxInt64 ∧ v = (⌊v⌋ : Rat))
  | _ => false

def asString : Json → Except Exception String
  | .string s => .ok s
  | .null => .ok ""
  | .bool b => .ok (if b then "true" else "false")
  | .int v => .ok (toString v)
  | .real _ text => .ok text
  | _ => .error .jsonLogicError

def asInt64 : Json → Except Exception Int
  | .int v => if minInt64 ≤ v ∧ v ≤ maxInt64 then .ok v else .error .jsonLogicError
  | .real v _ =>
      if minInt64 ≤ v ∧ v ≤ maxInt64 then .ok (if 0 ≤ v then ⌊v⌋ else ⌈v⌉)
      else .error .jsonLogicError
  | .null => .ok 0
  | .bool b => .ok (if b then 1 else 0)
  | _ => .error .jsonLogicError

/-- The bounds of a C++ `int`. -/
def minInt32 : Int := -2 ^ 31
def maxInt32 : Int := 2 ^ 31 - 1

/-- An integer in the range of `int`, or a double that holds one. -/
def isInt : Json → Bool
  | .int v => decide (minInt32 ≤ v ∧ v ≤ maxInt32)
  | .real v _ => decide (minInt32 ≤ v ∧ v ≤ maxInt32 ∧ v = (⌊v⌋ : Rat))
  | _ => false

def asInt : Json → Except Exception Int
  | .int v => if minInt32 ≤ v ∧ v ≤ maxInt32 then .ok v else .error .jsonLogicError
  | .real v _ =>
      if minInt32 ≤ v ∧ v ≤ maxInt32 then .ok (if 0 ≤ v then ⌊v⌋ else ⌈v⌉)
      else .error .jsonLogicError
  | .null => .ok 0
  | .bool b => .ok (if b then 1 else 0)
  | _ => .error .jsonLogicError

def asBool : Json → Except Exception Bool
  | .bool b => .ok b
  | .null => .ok false
  | .int v => .ok (decide (v ≠ 0))
  | .real v _ => .ok (decide (v ≠ 0))
  | _ => .error .jsonLogicError

/-- The values a range-based `for` visits. -/
def elements : Json → List Json
  | .array elements => elements
  | .object members => members.map Prod.snd
  | _ => []

def size (json : Json) : Nat := json.elements.length

/-! ## Building -/

/-- `json[key] = value` on an object or on `null`. -/
def set (json : Json) (key : String) (value : Json) : Json :=
  match json with
  | .object members => .object (members.filter (fun m => m.1 != key) ++ [(key, value)])
  | _ => .object [(key, value)]

/-- `json[key] = value` where the value is there. -/
def setSome (json : Json) (key : String) : Option Json → Json
  | some value => json.set key value
  | none => json

/-- An array of texts. -/
def strings (values : List String) : Json := .array (values.map .string)

/-! ## What a `jsonb` column can hold -/

mutual

/-- No text in the value contains U+0000, which `jsonb` rejects. -/
def storable : Json → Bool
  | .string s => !s.toList.contains '\x00'
  | .array elements => storableElements elements
  | .object members => storableMembers members
  | _ => true
def storableElements : List Json → Bool
  | [] => true
  | value :: rest => value.storable && storableElements rest
def storableMembers : List (String × Json) → Bool
  | [] => true
  | (key, value) :: rest =>
      !key.toList.contains '\x00' && value.storable && storableMembers rest
end

end Json
end AlgorithmTrainer
