/-
# Modules in C++

The C++ text of a module: a header, the prototypes of all functions in the order of their definitions,
and the texts of all statements, with empty lines between them.  Since the prototypes come first, a
function can call one that is defined behind it.
-/
import MysToCpp.Cpp.Stmt

namespace MysToCpp.Cpp

open Text (indent)

def preamble : String := "#include \"mys.hpp\""

def importText : String := "#include \"todo\""

/-- The head of a function, and what its body starts with. -/
structure Signature where
  prototype : String
  prelude : List String
  deriving DecidableEq, Repr, Inhabited

/-- Result, name and parameters of a function. -/
def prototype (result name : String) (params : List String) : String :=
  result ++ " " ++ name ++ "(" ++ commas params ++ ")"

def startsWith (start s : String) : Bool := start.toList.isPrefixOf s.toList

def firstParam (f : FunctionDef) : String :=
  match f.params with
  | p :: _ => p.name.name
  | [] => ""

/-- The signature of `main`, for its parameters by their text.  It takes nothing, or the arguments of the
program as a list of strings, which it makes from those that C++ passes. -/
def mainSignature (f : FunctionDef) (params : List String) : Lowered Signature :=
  match params with
  | [] => .ok ⟨prototype "int" "main" [], []⟩
  | [param] =>
    if startsWith "List<String>& " param then
      .ok ⟨prototype "int" "main" ["int __argc", "const char *__argv[]"],
        [indent ("auto " ++ firstParam f ++ " = create_args(__argc, __argv);")]⟩
    else .error (.misdeclared .mainParams)
  | _ => .error (.misdeclared .mainParams)

def signature (f : FunctionDef) : Lowered Signature := do
  let result ← returnType f.returns
  let params ← paramTexts f.name.name f.params
  if f.name.name = "main" then
    if result = "void" then mainSignature f params else .error (.misdeclared .mainResult)
  else .ok ⟨prototype result f.name.name params, []⟩

/-- What the body of a function ends with. -/
def epilogue (name : String) : List String :=
  if name = "main" then ["", indent "return 0;"] else []

/-- The prototype and the text of a function. -/
def functionText (f : FunctionDef) : Lowered (String × String) := do
  let sig ← signature f
  let body ← lowerStmts f.body
  .ok (sig.prototype, unlines (sig.prototype :: "\x7b" ::
    (sig.prelude ++ body.map indent ++ epilogue f.name.name) ++ ["\x7d"]))

/-- The head of a method; `__init__` makes a constructor. -/
def methodHead (className : String) (method : FunctionDef) (params : String) : Lowered String :=
  if method.name.name = "__init__" then .ok (className ++ "(" ++ params ++ ")")
  else do
    let result ← returnType method.returns
    .ok (result ++ " " ++ method.name.name ++ "(" ++ params ++ ")")

/-- The name of the first parameter, if there is one, is `self`. -/
def takesSelf (method : FunctionDef) : Bool :=
  (method.params.head?.map (·.name.name)) = some "self"

/-- The text of a method that stands at `span`. -/
def methodText (className : String) (span : Span) (method : FunctionDef) : Lowered String :=
  if !takesSelf method then .error (.misdeclared .missingSelf)
  else if !method.decorators.isEmpty then .error (.unsupported .decoratedMethod span)
  else if method.isAsync then unsupported span
  else do
    let params ← paramTexts method.name.name (method.params.drop 1)
    let body ← lowerStmts method.body
    let head ← methodHead className method (commas params)
    .ok (head ++ "\n\x7b\n" ++ unlines (body.map indent) ++ "\n\x7d")

/-- The texts of the methods of a class; its other statements are left out. -/
def methodTexts (className : String) : List Stmt → Lowered (List String)
  | [] => .ok []
  | .functionDef span method :: rest => do
    let text ← methodText className span method
    let texts ← methodTexts className rest
    .ok (indent text :: texts)
  | _ :: rest => methodTexts className rest

/-- The text of a class that stands at `span`; it has neither bases nor decorators. -/
def classText (span : Span) (c : ClassDef) : Lowered String :=
  if !c.bases.isEmpty || !c.keywords.isEmpty || !c.decorators.isEmpty then unsupported span
  else do
    let methods ← methodTexts c.name.name c.body
    .ok ("\n\n".intercalate (("class " ++ c.name.name ++ " \x7b") :: "public:" :: methods ++ ["\x7d;"]))

/-- What a statement of a module adds to it: a text, and a prototype if it is a function. -/
structure Declaration where
  prototype : Option String
  text : String
  deriving DecidableEq, Repr, Inhabited

/-- What a statement of a module adds to it. -/
def declare : Stmt → Lowered Declaration
  | .functionDef span f =>
    if f.isAsync || !f.decorators.isEmpty then unsupported span
    else do
      let (proto, text) ← functionText f
      .ok ⟨some proto, text⟩
  | .classDef span c => do
    let text ← classText span c
    .ok ⟨none, text⟩
  | .importModules .. | .importFrom .. => .ok ⟨none, importText⟩
  | stmt => do
    let text ← lowerStmt stmt
    .ok ⟨none, text⟩

def declarations (body : List Stmt) : Lowered (List Declaration) := body.mapM declare

def prototypes (ds : List Declaration) : List String :=
  ds.filterMap fun d => d.prototype.map (· ++ ";")

def assemble (ds : List Declaration) : String :=
  "\n\n".intercalate (preamble :: prototypes ds ++ ds.map (·.text)) ++ "\n"

/-- The C++ text of a module. -/
def translate (m : Module) : Lowered String := do
  let ds ← declarations m.body
  .ok (assemble ds)

end MysToCpp.Cpp
