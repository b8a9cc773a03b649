import TypedConfig.Go.Source
import Mathlib.Data.List.Nodup

namespace TypedConfig.Go

inductive Signature where
  | type (name : String) (fields : List Field)
  | function (receiver : Option String) (name : String)
  | variables (names : List String)

def Declaration.signature : Declaration → Signature
  | .record name fields => .type name fields
  | .placeholder name => .type name []
  | .accessor a => .function a.receiver a.name
  | .group members => .variables (members.map (·.name))

namespace Signature

def names : Signature → List String
  | .type name _ | .function none name => [name]
  | .function (some _) _ => []
  | .variables names => names

def fields : Signature → List Field
  | .type _ fields => fields
  | _ => []

def methods : Signature → List (String × String)
  | .function (some receiver) name => [(receiver, name)]
  | _ => []

end Signature

def GoType.recordName? : GoType → Option String
  | .named name => some name
  | .slice element => element.recordName?
  | _ => none

namespace SourceFile

def signatures (f : SourceFile) : List Signature :=
  f.declarations.map Declaration.signature

/-- All identifiers of the package are distinct, and so are the fields of each type and the methods
of each receiver. -/
def DeclaresOnce (f : SourceFile) : Prop :=
  (f.signatures.flatMap Signature.names).Nodup ∧
    (∀ s ∈ f.signatures, (s.fields.map Field.name).Nodup) ∧
    (f.signatures.flatMap Signature.methods).Nodup

instance (f : SourceFile) : Decidable f.DeclaresOnce :=
  inferInstanceAs (Decidable (_ ∧ _ ∧ _))

/-- The record types in the fields of types are declared. -/
def TypesDeclared (f : SourceFile) : Prop :=
  ∀ s ∈ f.signatures, ∀ field ∈ s.fields, ∀ name ∈ field.type.recordName?,
    ∃ fields, .type name fields ∈ f.signatures

end SourceFile

end TypedConfig.Go
