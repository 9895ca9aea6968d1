/-
# Statements in C++

The C++ text of a statement, without indentation of its own; `blockOf` indents what stands in a block.
A statement that does nothing has an empty text.
-/
import MysToCpp.Cpp.TypeName
import MysToCpp.Tree.Stmt

namespace MysToCpp.Cpp

open Text (indent dedent)

def unlines (texts : List String) : String := "\n".intercalate texts

def blockOf (texts : List String) : String := indent (unlines texts)

/-- Declares the variables of a tuple target from the tuple `value`, the first at index `i`. -/
def tupleParts : Nat → List String → List String
  | _, [] => []
  | i, name :: rest =>
    ("auto " ++ name ++ " = std::get<" ++ toString i ++ ">(*value.m_tuple);") :: tupleParts (i + 1) rest

/-- An assignment of a value by its text; a tuple target declares variables. -/
def assignText (span : Span) (value : String) : List Expr → Lowered String
  | [.tuple _ elements] => do
    let names ← lowerExprs elements
    .ok (unlines (("auto value = " ++ value ++ ";") :: tupleParts 0 names))
  | [target] => do
    let text ← lowerExpr target
    .ok (text ++ " = " ++ value ++ ";")
  | _ => .error (.unsupported .manyTargets span)

def listElements? : Expr → Option (List Expr)
  | .list _ elements => some elements
  | _ => none

def declareList (target : String) (hint value : Expr) : Lowered String := do
  let type ← resolveType hint
  match listElements? value with
  | some elements => do
    let texts ← lowerExprs elements
    .ok ("auto " ++ target ++ " = " ++ type ++ "(\x7b" ++ commas texts ++ "\x7d);")
  | none => do
    let text ← lowerExpr value
    .ok (type ++ " " ++ target ++ " = " ++ text ++ ";")

/-- A declaration whose type has a constructor. -/
def declareObject (target : String) (hint value : Expr) : Lowered String := do
  let type ← resolveType hint
  let text ← lowerExpr value
  .ok ("auto " ++ target ++ " = " ++ type ++ "(" ++ text ++ ");")

/-- A declaration of a variable with a value. -/
def declareText (target : String) (hint value : Expr) : Lowered String :=
  match hint with
  | .list .. => declareList target hint value
  | .name _ type =>
    if isPrimitive type then do
      let text ← lowerExpr value
      .ok (type ++ " " ++ target ++ " = " ++ text ++ ";")
    else if type = "str" then do
      let text ← lowerExpr value
      .ok ("String " ++ target ++ "(" ++ text ++ ");")
    else declareObject target hint value
  | _ => declareObject target hint value

/-- A declaration of a variable, which needs a value. -/
def declaration (span : Span) (target hint : Expr) (value : Option Expr) : Lowered String := do
  let name ← lowerExpr target
  match value with
  | some v => declareText name hint v
  | none => .error (.unsupported (.uninitialized name) span)

/-- `target op= value` for texts. -/
def updateText (span : Span) (op : BinaryOp) (target value : String) : Lowered String :=
  if op = .pow then .ok (target ++ " = " ++ powerText target value ++ ";")
  else match binaryToken? op with
    | some token => .ok (target ++ " " ++ token ++ "= " ++ value ++ ";")
    | none => unsupported span

/-- The variable of a loop; several are bound at once. -/
def loopVariable : Expr → Lowered String
  | .tuple _ elements => do
    let texts ← lowerExprs elements
    .ok ("[" ++ commas texts ++ "]")
  | target => lowerExpr target

/-- A header with its block in braces. -/
def braced (header body : String) : String := unlines [header ++ " \x7b", body, "\x7d"]

/-- A condition with its blocks; an empty `else` is left out. -/
def ifText (test body orelse : String) : String :=
  if orelse = "" then braced ("if (" ++ test ++ ")") body
  else unlines ["if (" ++ test ++ ") \x7b", body, "\x7d else \x7b", orelse, "\x7d"]

/-- A block with handlers; without any, its statements stand alone. -/
def guarded (body : String) (handlers : List String) : String :=
  if handlers.isEmpty then dedent body
  else unlines ["try \x7b", body, unlines handlers, "\x7d"]

/-- Code with a block that runs behind it in any case; the block is written twice. -/
def finalized (code final : String) : String :=
  if final = "" then code
  else unlines ["try \x7b", indent code, final, "\x7d catch (...) \x7b", final, indent "throw;", "\x7d"]

/-- The type that a handler catches. -/
def caughtType : Option Expr → Lowered String
  | some kind => lowerExpr kind
  | none => .ok "std::exception"

/-- A handler with its block; the caught value has a name in any case. -/
def handlerText (type : String) (name : Option Ident) (body : String) : String :=
  "\x7d catch (" ++ type ++ "& " ++ ((name.map (·.name)).getD "e") ++ ") \x7b\n" ++ body

/-- The variables that the items of a `with` statement declare. -/
def bindings : List WithItem → Lowered (List String)
  | [] => .ok []
  | item :: rest =>
    match item.target with
    | none => unsupported item.context.span
    | some target => do
      let name ← lowerExpr target
      let value ← lowerExpr item.context
      let others ← bindings rest
      .ok (("auto " ++ name ++ " = " ++ value ++ ";") :: others)

mutual

/-- The C++ text of a statement. -/
def lowerStmt : Stmt → Lowered String
  | .expr _ value => do
    let text ← lowerExpr value
    .ok (text ++ ";")
  | .assign span targets value => do
    let text ← lowerExpr value
    assignText span text targets
  | .annAssign span target hint value => declaration span target hint value
  | .augAssign span target op value => do
    let t ← lowerExpr target
    let v ← lowerExpr value
    updateText span op t v
  | .ret _ (some value) => do
    let text ← lowerExpr value
    .ok ("return " ++ text ++ ";")
  | .ret span none => .error (.unsupported .bareReturn span)
  | .pass _ => .ok ""
  | .breakLoop _ => .ok "break;"
  | .continueLoop _ => .ok "continue;"
  | .assert _ test _ => do
    let text ← lowerExpr test
    .ok ("ASSERT(" ++ text ++ ");")
  | .raise _ none _ => .ok "throw;"
  | .raise _ (some exception) _ => do
    let text ← lowerExpr exception
    .ok ("throw " ++ text ++ ";")
  | .ifElse _ test body orelse => do
    let t ← lowerExpr test
    let b ← lowerStmts body
    let o ← lowerStmts orelse
    .ok (ifText t (blockOf b) (blockOf o))
  | .whileLoop span test body orelse =>
    if !orelse.isEmpty then unsupported span
    else do
      let t ← lowerExpr test
      let b ← lowerStmts body
      .ok (braced ("while (" ++ t ++ ")") (blockOf b))
  | .forLoop span target source body orelse isAsync =>
    if isAsync || !orelse.isEmpty then unsupported span
    else do
      let v ← loopVariable target
      let s ← lowerExpr source
      let b ← lowerStmts body
      .ok (braced ("for (auto " ++ v ++ ": " ++ s ++ ")") (blockOf b))
  | .tryBlock span body handlers orelse final =>
    if !orelse.isEmpty then unsupported span
    else do
      let b ← lowerStmts body
      let hs ← lowerHandlers handlers
      let f ← lowerStmts final
      .ok (finalized (guarded (blockOf b) hs) (blockOf f))
  | .withBlock span items body isAsync =>
    if isAsync then unsupported span
    else do
      let bound ← bindings items
      let b ← lowerStmts body
      .ok (unlines ["\x7b", indent (unlines bound), blockOf b, "\x7d"])
  | other => unsupported other.span

def lowerStmts : List Stmt → Lowered (List String)
  | [] => .ok []
  | stmt :: rest => do
    let text ← lowerStmt stmt
    let texts ← lowerStmts rest
    .ok (text :: texts)

def lowerHandler : Handler → Lowered String
  | ⟨kind, name, body, _⟩ => do
    let type ← caughtType kind
    let b ← lowerStmts body
    .ok (handlerText type name (blockOf b))

def lowerHandlers : List Handler → Lowered (List String)
  | [] => .ok []
  | h :: rest => do
    let text ← lowerHandler h
    let texts ← lowerHandlers rest
    .ok (text :: texts)

end

end MysToCpp.Cpp
