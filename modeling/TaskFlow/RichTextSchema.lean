import TaskFlow.ImportRows
import TaskFlow.InternalLinks

/-! # The schema of rich text

A document is a tree of nodes of a closed list of types, each with its attributes, and of text with
marks.  Which node may be in which is not asked for.

An attribute that is null is one that is not there, and so are no marks and no content.
-/
namespace TaskFlow
namespace RichTextSchema
open RichText (MAX_TEXT_LENGTH Text trim)
open ImportRows (utf16Length)

inductive NodeType where
  | doc
  | paragraph
  | text
  | hardBreak
  | horizontalRule
  | blockquote
  | bulletList
  | orderedList
  | listItem
  | heading
  | codeBlock
  | taskList
  | taskItem
  | mention
  | pageLink
  deriving DecidableEq, Repr

inductive LinkTarget where
  | blank
  | self
  deriving DecidableEq, Repr

inductive Mark where
  | bold
  | italic
  | strike
  | code
  | underline
  | link (href : Text) (target : Option LinkTarget)
  deriving DecidableEq, Repr

structure Attributes where
  start : Option Nat := none
  level : Option Nat := none
  language : Option Text := none
  checked : Option Bool := none
  userId : Option String := none
  pageId : Option String := none
  label : Option Text := none
  deriving DecidableEq, Repr

inductive Node where
  | node (type : NodeType) (attrs : Attributes) (text : Option Text) (marks : List Mark)
      (content : List Node)
  deriving Repr

def Node.type : Node → NodeType
  | .node type _ _ _ _ => type

def Node.attrs : Node → Attributes
  | .node _ attrs _ _ _ => attrs

def Node.text : Node → Option Text
  | .node _ _ text _ _ => text

def Node.marks : Node → List Mark
  | .node _ _ _ marks _ => marks

def Node.content : Node → List Node
  | .node _ _ _ _ content => content

/-! ### What is accepted -/

def MAX_DEPTH : Nat := 32

def MAX_NODES : Nat := 10000

/-- `z.string().trim().min(1).max(max)` -/
def validLabel (max : Nat) (label : Text) : Bool :=
  1 ≤ utf16Length (trim label) ∧ utf16Length (trim label) ≤ max

/-- `NODE_ATTRIBUTES`: the attributes that a node of the type must or may have, and no other. -/
def validAttributes (type : NodeType) (attrs : Attributes) : Bool :=
  match type with
  | .orderedList => attrs = { start := attrs.start }
  | .heading =>
    attrs = { level := attrs.level } && attrs.level.any fun level => 1 ≤ level && level ≤ 6
  | .codeBlock =>
    attrs = { language := attrs.language } &&
      attrs.language.all fun language => utf16Length language ≤ 40
  | .taskItem => attrs = { checked := attrs.checked } && attrs.checked.isSome
  | .mention =>
    attrs = { userId := attrs.userId, label := attrs.label } &&
      attrs.userId.any Backlinks.isValidId && attrs.label.any (validLabel 120)
  | .pageLink =>
    attrs = { pageId := attrs.pageId, label := attrs.label } &&
      attrs.pageId.any Backlinks.isValidId && attrs.label.any (validLabel 500)
  | _ => attrs = {}

/-- `SafeUrl`, where `isSafe` says that a text is a URL of a safe scheme. -/
def validMark (isSafe : Text → Bool) : Mark → Bool
  | .link href _ => utf16Length href ≤ 2048 && isSafe href
  | _ => true

def validText (type : NodeType) (text : Option Text) : Bool :=
  (text.isSome = (type = .text)) && text.all fun text => utf16Length text ≤ MAX_TEXT_LENGTH

section
variable (isSafe : Text → Bool)

mutual

def BaseNodeSchema : Node → Bool
  | .node type attrs text marks content =>
    validAttributes type attrs && validText type text &&
      (marks.length ≤ 16 && marks.all (validMark isSafe)) && BaseNodeSchemas content

def BaseNodeSchemas : List Node → Bool
  | [] => true
  | node :: nodes => BaseNodeSchema node && BaseNodeSchemas nodes

end

mutual

/-- `measure`: the nodes, and how deep they are. -/
def measure : Node → Nat × Nat
  | .node _ _ _ _ content => ((measures content).1 + 1, (measures content).2 + 1)

def measures : List Node → Nat × Nat
  | [] => (0, 0)
  | node :: nodes =>
    ((measure node).1 + (measures nodes).1, max (measure node).2 (measures nodes).2)

end

def RichTextDocument (document : Node) : Bool :=
  BaseNodeSchema isSafe document && document.type = .doc &&
    ((measure document).2 ≤ MAX_DEPTH && (measure document).1 ≤ MAX_NODES)

end

/-! ### What the editor looks for -/

mutual

/-- The nodes under a node and itself, as they are walked. -/
def walk : Node → List Node
  | .node type attrs text marks content =>
    .node type attrs text marks content :: walks content

def walks : List Node → List Node
  | [] => []
  | node :: nodes => walk node ++ walks nodes

end

def hasPageLink (document : Node) : Bool :=
  (walks document.content).any fun node => node.type = .pageLink

structure PendingMention where
  userId : String
  label : Text
  deriving DecidableEq, Repr

def Node.mentions (node : Node) : Option PendingMention :=
  match node.type, node.attrs.userId, node.attrs.label with
  | .mention, some userId, some label => some ⟨userId, label⟩
  | _, _, _ => none

/-- Of each user, the first mention. -/
def extractMentions (document : Node) : List PendingMention :=
  ((walks document.content).filterMap Node.mentions).foldl (fun found mention =>
    if found.any (·.userId = mention.userId) then found else found ++ [mention]) []

/-- Adjacent runs of text carry different marks, and each run one mark at most. -/
def separate (document : Node) : Bool :=
  (walk document).all fun node =>
    node.content.all (fun run => run.type ≠ .text || run.marks.length ≤ 1) &&
      (node.content.zip node.content.tail).all fun runs =>
        !(runs.1.type = .text && runs.2.type = .text && runs.1.marks = runs.2.marks)

end RichTextSchema
end TaskFlow
