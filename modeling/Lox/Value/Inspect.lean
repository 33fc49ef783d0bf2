import Lox.Store
import Lox.Text.Quoted

/-!
# Inspecting values

A second text for values that shows their kind and, for classes and objects,
what they are made of. Unlike the printed text it tells a string from a name and
shows the names of fields and methods, but never their values, which may lead
back to the object itself.
-/

namespace Lox.Value

/-- Inspected numbers always look like fractions or have an exponent. -/
def inspectLayout : Number.Layout where
  infinity := "inf"
  bounds := some (-4, 15)
  wholeMark := ".0"
  mantissaMark := ""
  plus := ""
  exponentWidth := 1
  tie := .away

/-- A kind with its content in parentheses. -/
def labelled (label content : String) : String :=
  label ++ "(" ++ content ++ ")"

/-- A name between quotes. -/
def quotedName (name : String) : String :=
  Quoted.quote name

/-- Names between brackets. -/
def nameList (names : List String) : String :=
  "[" ++ ", ".intercalate (names.map quotedName) ++ "]"

/-- A record with a title and named parts. -/
def record (title : String) (parts : List (String × String)) : String :=
  let shown := parts.map fun part => part.1 ++ ": " ++ part.2
  title ++ " \x7b " ++ ", ".intercalate shown ++ " \x7d"

/-- What a class is made of. -/
def inspectClass (cls : Class) : String :=
  record "LoxClass" [
    ("name", quotedName cls.name),
    ("superclass",
      match cls.superclass? with
      | none => "None"
      | some superclass => labelled "Some" (quotedName superclass.name)),
    ("methods", nameList cls.own.methods.names)]

/-- What an object is made of. -/
def inspectObject (store : Store) (object : Instance) : String :=
  let content :=
    record "LoxInstance" [
      ("class", quotedName object.cls.name),
      ("fields", nameList (store.fieldsOf object.reference).names)]
  record "RefCell" [("value", content)]

/-- The inspected text of a value. -/
def inspect (store : Store) : Value → String
  | .nil => "Nil"
  | .bool flag => labelled "Bool" (toString flag)
  | .number amount => labelled "Number" (inspectLayout.render amount)
  | .string text => labelled "String" (Quoted.quote text)
  | .native host => labelled "NativeFunction" ("<native fn " ++ host.name ++ ">")
  | .function closure => labelled "Function" ("<fn " ++ closure.name ++ ">")
  | .cls found => labelled "Class" (inspectClass found)
  | .object found => labelled "Instance" (inspectObject store found)

end Lox.Value
