import TurtleGraphics.Instruction.Basic
import TurtleGraphics.Signature
import TurtleGraphics.Text.Quoted
/-!
Labelled trees: expressions, conditions and instructions in one form.

A caller may put a tree together from any parts. Putting it together checks how many parts there are
and that an operator is one of the language, but not of what sort the parts are, so there are trees
that stand for no expression. Trees can be compared, displayed and written as canonical text. As
everywhere in displays and comparisons, a truth value equals the number one or zero.
-/
set_option autoImplicit false

namespace TurtleGraphics

namespace Instruction.Kind

/-- The name of a kind in displays. -/
def displayName : Kind → String
  | move => "Move"
  | rotate => "Rotate"
  | lift => "Lift"
  | place => "Place"
  | set => "Set"
  | conditional => "If"
  | loop => "While"
  | close => "End"
  | blank => "Empty"

/-- How many operands a kind takes. -/
def arity : Kind → Nat
  | move | rotate | conditional | loop => 1
  | set => 2
  | lift | place | close | blank => 0

end Instruction.Kind

namespace Tree

inductive Label where
  /-- A node that stands for nothing in particular. -/
  | abstract
  | value
  | arithmetic
  | comparison
  | negation
  | combination
  | instruction (k : Instruction.Kind)
  deriving DecidableEq, Repr

def Label.displayName : Label → String
  | abstract => "Node"
  | value => "Value"
  | arithmetic => "Arithmetic"
  | comparison => "Comparison"
  | negation => "Negation"
  | combination => "Combination"
  | instruction k => k.displayName

/-- All labels there are. -/
def Label.all : List Label :=
  [abstract, value, arithmetic, comparison, negation, combination] ++
    Instruction.Kind.all.map instruction

def Label.ofDisplayName? (name : String) : Option Label :=
  all.find? fun label => label.displayName == name

end Tree

inductive Tree where
  | int (n : Int)
  | text (s : String)
  | bool (b : Bool)
  | node (label : Tree.Label) (parts : List Tree)

namespace Tree

/-- The number that a leaf counts as. -/
def toInt? : Tree → Option Int
  | int n => some n
  | bool b => some (if b then 1 else 0)
  | _ => none

mutual

def same : Tree → Tree → Bool
  | text s, text t => s == t
  | node label parts, node other others => label == other && sameParts parts others
  | a, b =>
    match a.toInt?, b.toInt? with
    | some m, some n => m == n
    | _, _ => false

def sameParts : List Tree → List Tree → Bool
  | [], [] => true
  | a :: parts, b :: others => a.same b && sameParts parts others
  | _, _ => false

end

instance : BEq Tree := ⟨same⟩

/-- The trees without repetitions. -/
def distinct (trees : List Tree) : List Tree :=
  trees.foldl (fun kept a => if kept.any a.same then kept else kept ++ [a]) []

mutual

def display : Tree → String
  | int n => Numeral.text n
  | text s => Text.quoted s
  | bool b => Text.displayBool b
  | node label parts =>
    label.displayName ++ "(" ++ Text.commaSeparated (displayParts parts) ++ ")"

def displayParts : List Tree → List String
  | [] => []
  | a :: parts => a.display :: displayParts parts

end

/-- The display of a sequence of trees. A single one is followed by a comma. -/
def displaySequence (trees : List Tree) : String :=
  match displayParts trees with
  | [item] => "(" ++ item ++ ",)"
  | items => "(" ++ Text.commaSeparated items ++ ")"

/-- The text of a node whose parts have the given texts. -/
def writeNode (label : Label) (parts : List String) (displayed : String) : String :=
  match label, parts with
  | .value, value :: _ => value
  | .arithmetic, [left, op, right] => "(" ++ left ++ ")" ++ op ++ "(" ++ right ++ ")"
  | .comparison, [left, op, right] | .combination, [left, op, right] =>
    "(" ++ left ++ ") " ++ op ++ " (" ++ right ++ ")"
  | .negation, [operand] => "!(" ++ operand ++ ")"
  | .instruction k, operands => " ".intercalate (k.keywords.take 1 ++ operands)
  | _, _ => displayed

mutual

/-- The canonical text of a tree. -/
def write : Tree → String
  | int n => Numeral.text n
  | text s => s
  | bool b => Text.displayBool b
  | node label parts => writeNode label (writeParts parts) (display (node label parts))

def writeParts : List Tree → List String
  | [] => []
  | a :: parts => a.write :: writeParts parts

end

/-- Why parts cannot be put together. -/
inductive Fault where
  /-- A node of this label does not take so many parts. -/
  | partCount (parts : List Tree)
  /-- This part stands where an operator should. -/
  | noOperator (part : Tree)
  | signature (e : Signature.Fault)

def Fault.message : Fault → String
  | partCount parts => displaySequence parts
  | noOperator part => part.write
  | signature e => e.message

/-- Whether `part` is one of `spellings`. -/
def isOneOf (part : Tree) (spellings : List (List Char)) : Bool :=
  match part with
  | text s => spellings.contains s.toList
  | _ => false

/-- The parts that the parameters of a label get. A parameter without a part gets a false one. -/
def partsFor (s : Signature) (parts : List Tree) : Except Fault (List Tree) :=
  match s.bind parts [] with
  | .ok arguments => .ok (arguments.map fun a => a.getD (bool false))
  | .error e => .error (.signature e)

/-- A value is given, and perhaps whether it names a variable. -/
def valueSignature : Signature :=
  .constructor Label.value.displayName ["value"] ["is_variable"] false

/-- An operation takes an operator called `middle` between its operands. -/
def operationSignature (label : Label) (middle : String) : Signature :=
  .constructor label.displayName ["left", middle, "right"] [] false

/-- A node whose second part is an operator. -/
def buildOperation (label : Label) (middle : String) (spellings : List (List Char))
    (parts : List Tree) : Except Fault Tree :=
  match partsFor (operationSignature label middle) parts with
  | .error e => .error e
  | .ok parts =>
    let op := (parts[1]?).getD (bool false)
    if isOneOf op spellings then .ok (node label parts) else .error (.noOperator op)

/-- A node with as many parts as `arity` says. -/
def buildPlain (label : Label) (arity : Nat) (parts : List Tree) : Except Fault Tree :=
  if parts.length = arity then .ok (node label parts) else .error (.partCount parts)

/-- Puts a node together. A value that is not said to be a variable is none. -/
def build (label : Label) (parts : List Tree) : Except Fault Tree :=
  match label with
  | .abstract => buildPlain label 0 parts
  | .value => (partsFor valueSignature parts).map (node label)
  | .arithmetic => buildOperation label "operator" (Operator.all.map Operator.spelling) parts
  | .comparison => buildOperation label "comparator" (Comparator.all.map Comparator.spelling) parts
  | .negation => buildPlain label 1 parts
  | .combination => buildOperation label "combiner" (Combiner.all.map Combiner.spelling) parts
  | .instruction k => buildPlain label k.arity parts

/-- The message that refuses to change a part of a node. -/
def immutableMessage (label : Label) : String := label.displayName ++ " is immutable"

/-- The label of a node. -/
def label? : Tree → Option Label
  | node label _ => some label
  | _ => none

/-- The sort of a tree, as messages name it. -/
def sortName : Tree → String
  | int _ => "int"
  | text _ => "str"
  | bool _ => "bool"
  | node label _ => label.displayName

end Tree

end TurtleGraphics
