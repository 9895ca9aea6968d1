/-
# Types in C++

Annotations are expressions: a name, `Optional[T]`, `[T]` for lists, `(T, U)` for tuples and `{K: V}` for
dictionaries.  `resolveType` gives the C++ type of an annotation and `paramText` the declaration of a
parameter, which fixes how its argument is passed.
-/
import MysToCpp.Cpp.Expr

namespace MysToCpp.Cpp

def typeName (name : String) : String := if name = "str" then "String" else name

def template (name : String) (args : List String) : String := name ++ "<" ++ commas args ++ ">"

/-- The key type of a dictionary, which is a name. -/
def keyType (key : Expr) : Lowered String :=
  match key.name? with
  | some name => .ok (typeName name)
  | none => unsupported key.span

/-- `Optional[T]` for a name `T`. -/
def optionalType (span : Span) (value index : Expr) : Lowered String :=
  match value.name?, index.name? with
  | some name, some inner =>
    if name = "Optional" then .ok (template "std::optional" [typeName inner]) else unsupported span
  | _, _ => unsupported span

mutual

/-- The C++ type of an annotation. -/
def resolveType : Expr → Lowered String
  | .name _ id => .ok (typeName id)
  | .subscript span value index => optionalType span value index
  | .list _ [element] => do
    let text ← resolveType element
    .ok (template "List" [text])
  | .list span elements => .error (.unsupported (.mixedList elements.length) span)
  | .tuple _ elements => do
    let texts ← resolveTypes elements
    .ok (template "Tuple" texts)
  | .dict _ [key] [value] => do
    let k ← keyType key
    let v ← resolveType value
    .ok (template "Dict" [k, v])
  | other => unsupported other.span

def resolveTypes : List Expr → Lowered (List String)
  | [] => .ok []
  | e :: rest => do
    let text ← resolveType e
    let texts ← resolveTypes rest
    .ok (text :: texts)

end

/-- The type of a result; without an annotation, or with `None`, there is none. -/
def returnType : Option Expr → Lowered String
  | none | some (.constant _ .none) => .ok "void"
  | some hint => resolveType hint

/-- A type that is no container, as an element of one: values of classes are shared. -/
def elementName (name : String) : String :=
  if name = "str" then "String"
  else if isPrimitive name then name
  else template "std::shared_ptr" [name]

/-- The type of an element of a container that is passed to a function. -/
def elementType (e : Expr) : Lowered String :=
  match e.name? with
  | some name => .ok (elementName name)
  | none => resolveType e

def elementTypes : List Expr → Lowered (List String)
  | [] => .ok []
  | e :: rest => do
    let text ← elementType e
    let texts ← elementTypes rest
    .ok (text :: texts)

/-- The type of a parameter: numbers are passed by value, all else by reference. -/
def paramType : Expr → Lowered String
  | .name _ id => .ok (if isPrimitive id then id else elementName id ++ "&")
  | .list _ [element] => do
    let text ← elementType element
    .ok (template "List" [text] ++ "&")
  | .tuple _ elements => do
    let texts ← elementTypes elements
    .ok (template "Tuple" texts ++ "&")
  | .list span _ => unsupported span
  | hint => do
    let text ← resolveType hint
    .ok (text ++ "&")

/-- The declaration of a parameter of `function`. -/
def paramText (function : String) (param : Param) : Lowered String :=
  match param.hint with
  | none => .error (.misdeclared (.untypedParam function param.name.name))
  | some hint =>
    match param.default with
    | some default => unsupported default.span
    | none =>
      if param.kind ≠ .positional then unsupported param.span
      else do
        let text ← paramType hint
        .ok (text ++ " " ++ param.name.name)

def paramTexts (function : String) (params : List Param) : Lowered (List String) :=
  params.mapM (paramText function)

end MysToCpp.Cpp
