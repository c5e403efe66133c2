namespace WireSchema

/-! The schema of a wire format: named enums and records, independent of any language.

An enum lists cases with values of one kind.  A record lists fields, each with a type and
with the key under which the field travels.  A type may refer to enums and records by name,
in any order and also in circles.
-/

inductive Backing where
  | integer
  | string
deriving DecidableEq

def Backing.name : Backing → String
  | .integer => "integer"
  | .string => "string"

/-- The value of an enum case.  Integers are 64 bits wide, with sign. -/
inductive CaseValue where
  | integer (value : Int64)
  | string (text : String)
deriving DecidableEq

def CaseValue.backing : CaseValue → Backing
  | .integer _ => .integer
  | .string _ => .string

/-- The decimal numeral of an integer value, the same in every language. -/
def numeral (value : Int64) : String := toString value.toInt

structure EnumCase where
  name : String
  value : CaseValue
deriving DecidableEq

structure EnumType where
  name : String
  backing : Backing
  cases : List EnumCase := []
deriving DecidableEq

/-- The scalar types that need no declaration. -/
inductive Primitive where
  | string
  | integer
  | float
  | boolean
  | datetime
  | mixed
deriving DecidableEq

inductive TypeRef where
  | primitive (scalar : Primitive)
  | named (name : String)
  | list (element : TypeRef)
  | nullable (inner : TypeRef)
  | union (members : List TypeRef)

namespace TypeRef

mutual
def decideEq : (left right : TypeRef) → Decidable (left = right)
  | .primitive left, .primitive right =>
      decidable_of_iff (left = right) (by simp)
  | .named left, .named right => decidable_of_iff (left = right) (by simp)
  | .list left, .list right =>
      match decideEq left right with
      | isTrue same => isTrue (by rw [same])
      | isFalse different => isFalse (by simpa using different)
  | .nullable left, .nullable right =>
      match decideEq left right with
      | isTrue same => isTrue (by rw [same])
      | isFalse different => isFalse (by simpa using different)
  | .union left, .union right =>
      match decideMembersEq left right with
      | isTrue same => isTrue (by rw [same])
      | isFalse different => isFalse (by simpa using different)
  | .primitive _, .named _ | .primitive _, .list _ | .primitive _, .nullable _
  | .primitive _, .union _ | .named _, .primitive _ | .named _, .list _
  | .named _, .nullable _ | .named _, .union _ | .list _, .primitive _
  | .list _, .named _ | .list _, .nullable _ | .list _, .union _
  | .nullable _, .primitive _ | .nullable _, .named _ | .nullable _, .list _
  | .nullable _, .union _ | .union _, .primitive _ | .union _, .named _
  | .union _, .list _ | .union _, .nullable _ => isFalse (by simp)

def decideMembersEq : (left right : List TypeRef) → Decidable (left = right)
  | [], [] => isTrue rfl
  | [], _ :: _ | _ :: _, [] => isFalse (by simp)
  | left :: lefts, right :: rights =>
      match decideEq left right, decideMembersEq lefts rights with
      | isTrue same, isTrue sameRest => isTrue (by rw [same, sameRest])
      | isFalse different, _ => isFalse (by simp [different])
      | _, isFalse different => isFalse (by simp [different])
end

instance : DecidableEq TypeRef := decideEq

mutual
/-- The names a type refers to, from left to right. -/
def names : TypeRef → List String
  | .primitive _ => []
  | .named name => [name]
  | .list inner | .nullable inner => inner.names
  | .union members => memberNames members

def memberNames : List TypeRef → List String
  | [] => []
  | member :: rest => member.names ++ memberNames rest
end

end TypeRef

/-- A field of a record.  Its `key` names it in the serialized payload. -/
structure Field where
  name : String
  type : TypeRef
  key : String
deriving DecidableEq

structure RecordType where
  name : String
  fields : List Field := []
deriving DecidableEq

inductive TypeDecl where
  | enum (decl : EnumType)
  | record (decl : RecordType)
deriving DecidableEq

namespace TypeDecl

def name : TypeDecl → String
  | .enum decl => decl.name
  | .record decl => decl.name

def enum? : TypeDecl → Option EnumType
  | .enum decl => some decl
  | .record _ => none

def record? : TypeDecl → Option RecordType
  | .enum _ => none
  | .record decl => some decl

end TypeDecl

end WireSchema
