/-
# Expressions in C++

The C++ text of an expression.  Operations are written in parentheses, `self` is `this`, `print` writes
to the output stream, and of a subscript only the container is kept.  A string that starts with a
sentinel is C++ code to be taken over as it is, without its margin.
-/
import MysToCpp.Cpp.Error
import MysToCpp.Cpp.Literal
import MysToCpp.Text.Lines
import MysToCpp.Tree.Expr

namespace MysToCpp.Cpp

def unsupported {α : Type} (span : Span) : Lowered α := .error (.unsupported .construct span)

def commas (texts : List String) : String := ", ".intercalate texts

/-- What strings with C++ code start with. -/
def embeddedSentinel : String := "mys-embedded-c++"

/-- C++ code from a string, between comments that mark it. -/
def embedded (code : List Char) : String :=
  "/* mys-embedded-c++ start */\n\n" ++ .ofList (Text.trim (Text.dropMargin code)) ++
    "\n\n/* mys-embedded-c++ stop */"

/-- A string literal, or the C++ code in it. -/
def stringText (s : String) : String :=
  let cs := s.toList
  let sentinel := embeddedSentinel.toList
  if sentinel.isPrefixOf cs then embedded (cs.drop sentinel.length) else quote s

def constantText (span : Span) : Constant → Lowered String
  | .text s => .ok (stringText s)
  | .bool b => .ok (if b then "true" else "false")
  | .int n => .ok (toString n)
  | .float x => .ok (floatLiteral x)
  | .none => .ok "None"
  | .bytes _ => .error (.unsupported .bytes span)
  | .ellipsis => .error (.unsupported .ellipsis span)

/-- An operation in parentheses. -/
def operation (left token right : String) : String :=
  "(" ++ left ++ " " ++ token ++ " " ++ right ++ ")"

/-- A power, as a call. -/
def powerText (base exponent : String) : String := "ipow(" ++ base ++ ", " ++ exponent ++ ")"

def binaryText (span : Span) (op : BinaryOp) (left right : String) : Lowered String :=
  if op = .pow then .ok (powerText left right)
  else match binaryToken? op with
    | some token => .ok (operation left token right)
    | none => unsupported span

/-- A boolean operator between several operands, grouped to the left. -/
def boolText (span : Span) (op : BoolOp) : List String → Lowered String
  | [] => unsupported span
  | first :: rest => .ok (rest.foldl (fun text value => operation text (boolToken op) value) first)

def compareText (span : Span) (op : CompareOp) (left right : String) : Lowered String :=
  match op with
  | .isIn => .ok ("contains(" ++ left ++ ", " ++ right ++ ")")
  | .notIn => .ok ("!contains(" ++ left ++ ", " ++ right ++ ")")
  | _ =>
    match compareToken? op with
    | some token => .ok (left ++ " " ++ token ++ " " ++ right)
    | none => unsupported span

/-- Writes the arguments of `print` to the output stream, with blanks between them. -/
def printText (args : List String) : String :=
  match args with
  | [] => "std::cout << std::endl"
  | _ => "std::cout << " ++ " << \" \" << ".intercalate args ++ " << std::endl"

/-- A call of a function by its text. -/
def callText (func : String) (args : List String) : String :=
  if func = "print" then printText args else func ++ "(" ++ commas args ++ ")"

/-- A call; keyword arguments have no C++ form. -/
def callOrFail (func : String) (args : List String) : List KeywordArg → Lowered String
  | [] => .ok (callText func args)
  | k :: _ => unsupported k.span

/-- An attribute of a value by its text. -/
def memberText (value attr : String) : String :=
  if value = "self" then "this->" ++ attr else value ++ "." ++ attr

mutual

/-- The C++ text of an expression. -/
def lowerExpr : Expr → Lowered String
  | .name _ id => .ok id
  | .constant span c => constantText span c
  | .binary span left op right => do
    let l ← lowerExpr left
    let r ← lowerExpr right
    binaryText span op l r
  | .boolOp span op values => do
    let texts ← lowerExprs values
    boolText span op texts
  | .unary span op operand =>
    match unaryToken? op with
    | some token => do
      let text ← lowerExpr operand
      .ok (token ++ text)
    | none => unsupported span
  | .compare span left [op] [right] => do
    let l ← lowerExpr left
    let r ← lowerExpr right
    compareText span op l r
  | .call _ func args keywords => do
    let f ← lowerExpr func
    let texts ← lowerExprs args
    callOrFail f texts keywords
  | .member _ value attr => do
    let text ← lowerExpr value
    .ok (memberText text attr.name)
  | .subscript _ value _ => lowerExpr value
  | .tuple _ elements => do
    let texts ← lowerExprs elements
    .ok ("Tuple<todo>(\x7b" ++ commas texts ++ "\x7d)")
  | .list _ elements => do
    let texts ← lowerExprs elements
    .ok ("List<todo>(\x7b" ++ commas texts ++ "\x7d)")
  | .dict .. => .ok "MakeDict<todo>(\x7b\x7d)"
  | .lambda span .. => .error (.unsupported .lambda span)
  | other => unsupported other.span

def lowerExprs : List Expr → Lowered (List String)
  | [] => .ok []
  | e :: rest => do
    let text ← lowerExpr e
    let texts ← lowerExprs rest
    .ok (text :: texts)

end

end MysToCpp.Cpp
