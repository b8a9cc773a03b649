import TypedConfig.Go.Literal
import TypedConfig.Go.Accessor

namespace TypedConfig.Go

inductive Package where
  | math | os | strconv | time
  deriving DecidableEq, Repr

def Package.name : Package → String
  | .math => "math"
  | .os => "os"
  | .strconv => "strconv"
  | .time => "time"

def Package.all : List Package :=
  [.math, .os, .strconv, .time]

structure Field where
  name : String
  type : GoType

structure Variable where
  name : String
  type : Option GoType
  value : Option Literal

/-- A look-up by name with the configured value as its fallback. Tables have no fallback, since
their values are behind methods of their own. -/
structure Accessor where
  receiver : Option String
  name : String
  type : GoType
  kind : Kind
  variableName : String
  fallback : Option Literal

inductive Declaration where
  | record (name : String) (fields : List Field)
  | placeholder (name : String)
  | accessor (accessor : Accessor)
  | group (members : List Variable)

structure SourceFile where
  package : String
  imports : List Package
  declarations : List Declaration

def Field.text (f : Field) : String :=
  tabs 1 ++ f.name ++ " " ++ f.type.text

def Variable.text (v : Variable) : String :=
  tabs 1 ++ v.name ++ (v.type.map (" " ++ ·.text)).getD "" ++
    (v.value.map (" = " ++ ·.text 1)).getD ""

def Accessor.parts (a : Accessor) : AccessorParts :=
  ⟨a.receiver, a.name, a.type.text, some a.kind, a.variableName,
    (a.fallback.map (·.text 1)).getD ""⟩

def withoutLineEnd (s : String) : String :=
  String.ofList ((s.toList.reverse.dropWhile (· == '\n')).reverse)

def Declaration.text : Declaration → String
  | .record name fields =>
    "\n".intercalate (("type " ++ name ++ " struct \x7b") :: fields.map Field.text ++ ["\x7d"])
  | .placeholder name => "type " ++ name ++ " struct\x7b\x7d"
  | .accessor a => withoutLineEnd a.parts.text
  | .group members => "\n".intercalate ("var (" :: members.map Variable.text ++ [")"])

def fileText (package : String) (imports blocks : List String) : String :=
  "// Code generated by confgen. DO NOT EDIT.\n\npackage " ++ package ++ "\n" ++
    (if imports.isEmpty then ""
     else
      "\nimport (\n" ++ String.join (imports.map fun name => "\t\"" ++ name ++ "\"\n") ++ ")\n") ++
    String.join (blocks.map fun block => "\n" ++ block ++ "\n")

def SourceFile.text (f : SourceFile) : String :=
  fileText f.package (f.imports.map Package.name) (f.declarations.map Declaration.text)

end TypedConfig.Go
