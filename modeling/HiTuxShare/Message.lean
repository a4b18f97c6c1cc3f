import Mathlib.Data.List.Basic
import Mathlib.Tactic.Common

set_option autoImplicit true

/-- One item of a message field, tagged with the type it was added under. -/
inductive FieldValue where
  | string (value : String)
  | bool (value : Bool)
  | int32 (value : Int32)
  | int64 (value : Int)
  | raw (bytes : List UInt8)
  deriving DecidableEq

/-- A command code and named fields. Items added under one name keep their order. -/
structure Message (κ : Type u) where
  what : κ
  fields : List (String × FieldValue)
  deriving DecidableEq

namespace Message

def ofWhat (what : κ) : Message κ := ⟨what, []⟩

def add (m : Message κ) (name : String) (value : FieldValue) : Message κ :=
  { m with fields := m.fields ++ [(name, value)] }

def addString (m : Message κ) (name : String) (value : String) : Message κ :=
  m.add name (.string value)

def addBool (m : Message κ) (name : String) (value : Bool) : Message κ :=
  m.add name (.bool value)

def addInt32 (m : Message κ) (name : String) (value : Int32) : Message κ :=
  m.add name (.int32 value)

def addInt64 (m : Message κ) (name : String) (value : Int) : Message κ :=
  m.add name (.int64 value)

def addData (m : Message κ) (name : String) (bytes : List UInt8) : Message κ :=
  m.add name (.raw bytes)

/-- The items of one name and one type. -/
def items (m : Message κ) (pick : FieldValue → Option α) (name : String) : List α :=
  m.fields.filterMap fun f => if f.1 = name then pick f.2 else none

def asString : FieldValue → Option String
  | .string s => some s
  | _ => none

def asBool : FieldValue → Option Bool
  | .bool b => some b
  | _ => none

def asInt32 : FieldValue → Option Int32
  | .int32 v => some v
  | _ => none

def asInt64 : FieldValue → Option Int
  | .int64 v => some v
  | _ => none

def asRaw : FieldValue → Option (List UInt8)
  | .raw bytes => some bytes
  | _ => none

/-- All items of a string field, as a loop over `FindString(name, i)` reads them. -/
def strings (m : Message κ) (name : String) : List String := m.items asString name

def findString (m : Message κ) (name : String) : Option String := (m.strings name).head?

def findBool (m : Message κ) (name : String) : Option Bool := (m.items asBool name).head?

def findInt32 (m : Message κ) (name : String) : Option Int32 := (m.items asInt32 name).head?

def findInt64 (m : Message κ) (name : String) : Option Int := (m.items asInt64 name).head?

def findData (m : Message κ) (name : String) : Option (List UInt8) := (m.items asRaw name).head?

def hasName (m : Message κ) (name : String) : Bool := m.fields.any fun f => f.1 = name

/-- The field goes with all its items. -/
def removeName (m : Message κ) (name : String) : Message κ :=
  { m with fields := m.fields.filter fun f => f.1 ≠ name }

@[simp] theorem items_add_self (m : Message κ) (pick : FieldValue → Option α) (name : String)
    (value : FieldValue) :
    (m.add name value).items pick name = m.items pick name ++ (pick value).toList := by
  cases h : pick value <;> simp [items, add, h]

theorem items_add_of_ne (m : Message κ) (pick : FieldValue → Option α) (value : FieldValue)
    (h : name' ≠ name) : (m.add name' value).items pick name = m.items pick name := by
  simp [items, add, h]

@[simp] theorem items_removeName_self (m : Message κ) (pick : FieldValue → Option α)
    (name : String) : (m.removeName name).items pick name = [] := by
  rw [items, removeName, List.filterMap_filter, List.filterMap_eq_nil_iff]
  intro f _
  by_cases hf : f.1 = name <;> simp [hf]

theorem items_removeName_of_ne (m : Message κ) (pick : FieldValue → Option α)
    (h : name' ≠ name) : (m.removeName name').items pick name = m.items pick name := by
  simp only [items, removeName, List.filterMap_filter]
  apply List.filterMap_congr
  intro f _
  by_cases hf : f.1 = name'
  · simp [hf, h]
  · simp [hf]

end Message
