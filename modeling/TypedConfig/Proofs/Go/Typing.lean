import TypedConfig.Go.Source

namespace TypedConfig.Go

def GoType.Takes (t own : GoType) : Prop :=
  t = own ∨ t = .any

def GoType.TakesNil (t : GoType) : Prop :=
  t = .any ∨ ∃ element, t = .slice element

mutual

/-- A literal of a record has a type that is declared, sets only fields that the type has, and
gives each a literal of its type. The name of the type may be elided where only one type can
stand. Numbers have the type they are made for, whatever constants Go would convert. -/
def Literal.HasType (ds : List Declaration) : Literal → GoType → Prop
  | .nil, t => t.TakesNil
  | .boolean _, t => t.Takes .bool
  | .integer _, t => t.Takes .int64
  | .float _, t => t.Takes .float64
  | .string _, t => t.Takes .string
  | .duration _, t => t.Takes .duration
  | .bytes _, t => t.Takes (.slice .byte)
  | .slice element items, t => t.Takes (.slice element) ∧ ItemsHaveType ds element items
  | .record (some name) fields, t =>
    t.Takes (.named name) ∧
      ∃ declared, .record name declared ∈ ds ∧ FieldsHaveTypes ds declared fields
  | .record none fields, t =>
    ∃ name, t = .named name ∧
      ∃ declared, .record name declared ∈ ds ∧ FieldsHaveTypes ds declared fields
  | .records name elements, t =>
    t.Takes (.slice (.named name)) ∧ (∃ declared, .record name declared ∈ ds) ∧
      ItemsHaveType ds (.named name) elements

def ItemsHaveType (ds : List Declaration) (element : GoType) : List Literal → Prop
  | [] => True
  | item :: rest => item.HasType ds element ∧ ItemsHaveType ds element rest

def FieldsHaveTypes (ds : List Declaration) (declared : List Field) :
    List (String × Literal) → Prop
  | [] => True
  | (name, value) :: rest =>
    (∃ f ∈ declared, f.name = name ∧ value.HasType ds f.type) ∧ FieldsHaveTypes ds declared rest

end

/-- The value of every variable has the type that is stated, or some type if none is. -/
def SourceFile.ValuesTyped (f : SourceFile) : Prop :=
  ∀ members, .group members ∈ f.declarations → ∀ v ∈ members, ∀ l ∈ v.value,
    ∃ t, (∀ stated ∈ v.type, t = stated) ∧ l.HasType f.declarations t

end TypedConfig.Go
