import TaskFlow.Binary64
import TaskFlow.RichTextCompose

/-! # Two readers of a page's fragment

A page's content is a Yjs fragment.  The server reads it for the public page and the export
(`renderFragment`).  The mobile app makes a document of it, and sanitizes that as it does every
document (`sanitizeRichText`, `yjsFragmentToRichTextDocument`).  Each keeps what the schema allows.

A run of text has its marks as attributes: the mark's name, which may have a hash behind it, mapped
to `true` or to the mark's attributes.
-/
namespace TaskFlow
namespace FragmentReaders
open RichTextSchema (MAX_DEPTH MAX_NODES NodeType validLabel)
open RichTextCompose (isLineTerminator)
open RichText (Text trim)
open ImportRows (utf16Length)

/-! ### The fragment -/

/-- What an attribute is mapped to. -/
inductive Value where
  | undefined
  | null
  | boolean (value : Bool)
  | number (value : Binary64.Number)
  | string (value : Text)
  /-- An array or an object. -/
  | other
  deriving DecidableEq

/-- `Object.entries` -/
abbrev Entries := List (Text × Value)

/-- What a mark's name is mapped to: `true`, or an object, which may be `{}`. -/
inductive MarkValue where
  | true_
  | object (entries : Entries)
  deriving DecidableEq

/-- One insertion of a delta. -/
structure Segment where
  insert : Text
  attributes : List (Text × MarkValue)

inductive Child where
  | element (nodeName : Text) (attributes : Entries) (children : List Child)
  | text (delta : List Segment)
  | hook

/-! ### The schema -/

/-- What a schema makes of a value, or of `undefined`. -/
abbrev Schema := Value → Option Value

def boolean : Schema
  | .boolean value => some (.boolean value)
  | _ => none

/-- `z.number().int().min(min)`, and `.max` where there is one. -/
def integer (min : ℤ) (max : Option ℤ) : Schema
  | .number (.finite x) =>
    if x.value.isInt && min ≤ x.value && max.all (x.value ≤ ·) then some (.number (.finite x))
    else none
  | _ => none

/-- `z.string()` with its checks, which may change the text. -/
def string (check : Text → Option Text) : Schema
  | .string value => (check value).map .string
  | _ => none

def optional (schema : Schema) : Schema
  | .undefined => some .undefined
  | value => schema value

def nullable (schema : Schema) : Schema
  | .null => some .null
  | value => schema value

def valueAt (data : Entries) (key : Text) : Value := (data.lookup key).getD .undefined

def parseField (data : Entries) (field : Text × Schema) : Option (Text × Value) :=
  (field.2 (valueAt data field.1)).map (field.1, ·)

/-- `z.object(shape).strict()`: each key's schema accepts what is there, and no other key is. -/
def strictObject (shape : List (Text × Schema)) (data : Entries) : Option Entries :=
  if data.all fun entry => shape.any (·.1 = entry.1) then
    (shape.mapM (parseField data)).map fun parsed =>
      parsed.filter fun entry => entry.2 ≠ .undefined || data.any (·.1 = entry.1)
  else none

/-- `z.string().refine(isValidId, …)` -/
def validId : Schema :=
  string fun value => if Backlinks.isValidId (String.ofList value) then some value else none

/-- `z.string().trim().min(1).max(max)` -/
def label (max : Nat) : Schema :=
  string fun value => if validLabel max value then some (trim value) else none

def NODE_ATTRIBUTES : NodeType → List (Text × Schema)
  | .orderedList => [("start".toList, optional (integer 0 none))]
  | .heading => [("level".toList, integer 1 (some 6))]
  | .codeBlock =>
    [("language".toList, optional (nullable (string fun value =>
      if utf16Length value ≤ 40 then some value else none)))]
  | .taskItem => [("checked".toList, boolean)]
  | .mention => [("userId".toList, validId), ("label".toList, label 120)]
  | .pageLink => [("pageId".toList, validId), ("label".toList, label 500)]
  | _ => []

def NodeType.name : NodeType → Text
  | .doc => "doc".toList
  | .paragraph => "paragraph".toList
  | .text => "text".toList
  | .hardBreak => "hardBreak".toList
  | .horizontalRule => "horizontalRule".toList
  | .blockquote => "blockquote".toList
  | .bulletList => "bulletList".toList
  | .orderedList => "orderedList".toList
  | .listItem => "listItem".toList
  | .heading => "heading".toList
  | .codeBlock => "codeBlock".toList
  | .taskList => "taskList".toList
  | .taskItem => "taskItem".toList
  | .mention => "mention".toList
  | .pageLink => "pageLink".toList

def NODE_TYPES : List NodeType :=
  [.doc, .paragraph, .text, .hardBreak, .horizontalRule, .blockquote, .bulletList, .orderedList,
    .listItem, .heading, .codeBlock, .taskList, .taskItem, .mention, .pageLink]

/-- `isKnownNodeType`, and which it is. -/
def knownNodeType (nodeName : Text) : Option NodeType :=
  NODE_TYPES.find? fun type => NodeType.name type = nodeName

/-- What the schema of the type makes of the attributes. -/
def parseAttributes (type : NodeType) (attrs : Entries) : Option Entries :=
  strictObject (NODE_ATTRIBUTES type) attrs

structure PlainMark where
  type : Text
  attrs : Option Entries
  deriving DecidableEq

/-- The marks with no attributes. -/
def SIMPLE_MARKS : List Text :=
  ["bold".toList, "italic".toList, "strike".toList, "code".toList, "underline".toList]

/-- `SafeUrl`, where `isSafe` says that a text is a URL of a safe scheme. -/
def SafeUrl (isSafe : Text → Bool) : Schema :=
  string fun value => if utf16Length value ≤ 2048 && isSafe value then some value else none

def linkTarget : Schema :=
  optional (nullable (string fun value =>
    if value = "_blank".toList ∨ value = "_self".toList then some value else none))

instance lawfulBEqText : LawfulBEq (List Char) := inferInstance

def MarkSchema (isSafe : Text → Bool) (mark : PlainMark) : Option PlainMark :=
  if mark.type ∈ SIMPLE_MARKS then
    if mark.attrs = none then some mark else none
  else if mark.type = "link".toList then
    mark.attrs.bind fun attrs =>
      (strictObject [("href".toList, SafeUrl isSafe), ("target".toList, linkTarget)] attrs).map
        fun attrs => ⟨mark.type, some attrs⟩
  else none

/-! ### Nodes -/

/-- A node as JSON, before or after it was sanitized, or as it is rendered.  What is empty is left
out. -/
inductive PlainNode where
  | node (type : Text) (attrs : Entries) (text : Option Text) (marks : List PlainMark)
      (content : List PlainNode)

/-- `{ type: 'text', text, marks }` -/
def textNode (text : Text) (marks : List PlainMark) : PlainNode :=
  .node (NodeType.name .text) [] (some text) marks []

def doc (content : List PlainNode) : PlainNode := .node (NodeType.name .doc) [] none [] content

mutual

/-- `measure`: the nodes, and how deep they are. -/
def measure : PlainNode → Nat × Nat
  | .node _ _ _ _ content => ((measures content).1 + 1, (measures content).2 + 1)

def measures : List PlainNode → Nat × Nat
  | [] => (0, 0)
  | node :: nodes =>
    ((measure node).1 + (measures nodes).1, max (measure node).2 (measures nodes).2)

end

mutual

/-- The tree of nodes, with the texts and the marks. -/
def withoutAttrs : PlainNode → PlainNode
  | .node type _ text marks content => .node type [] text marks (allWithoutAttrs content)

def allWithoutAttrs : List PlainNode → List PlainNode
  | [] => []
  | node :: nodes => withoutAttrs node :: allWithoutAttrs nodes

end

/-! ### The mobile app's reading -/

def markOf : Text × MarkValue → PlainMark
  | (type, .true_) => ⟨type, none⟩
  | (type, .object value) => ⟨type, some value⟩

def textRunsFrom (delta : List Segment) : List PlainNode :=
  delta.filterMap fun op =>
    if op.insert = [] then none else some (textNode op.insert (op.attributes.map markOf))

mutual

def nodesFrom : Child → List PlainNode
  | .text delta => textRunsFrom delta
  | .hook => []
  | .element nodeName attributes children =>
    [.node nodeName attributes none [] (allNodesFrom children)]

def allNodesFrom : List Child → List PlainNode
  | [] => []
  | child :: children => nodesFrom child ++ allNodesFrom children

end

def yjsFragmentToRichTextDocument (fragment : List Child) : PlainNode :=
  doc (allNodesFrom fragment)

section
variable (isSafe : Text → Bool)

def sanitizeMarks (marks : List PlainMark) : List PlainMark := marks.filterMap (MarkSchema isSafe)

mutual

/-- A node of a known type whose attributes its schema accepts, and the nodes counted so far. -/
def sanitizeNode : PlainNode → Nat → Nat → Option PlainNode × Nat
  | .node type attrs text marks content, count, depth =>
    if MAX_DEPTH < depth ∨ MAX_NODES ≤ count then (none, count)
    else
      match knownNodeType type with
      | none => (none, count)
      | some .text =>
        match text with
        | none => (none, count + 1)
        | some text => (some (textNode text (sanitizeMarks isSafe marks)), count + 1)
      | some known =>
        match parseAttributes known attrs with
        | none => (none, count + 1)
        | some data =>
          let (content, count) := sanitizeNodes content (count + 1) (depth + 1)
          (some (.node type data none [] content), count)

def sanitizeNodes : List PlainNode → Nat → Nat → List PlainNode × Nat
  | [], count, _ => ([], count)
  | raw :: content, count, depth =>
    let (child, count) := sanitizeNode raw count depth
    let (children, count) := sanitizeNodes content count depth
    (child.toList ++ children, count)

end

def sanitizeRichText (input : PlainNode) : Option PlainNode :=
  match (sanitizeNode isSafe input 0 1).1 with
  | some (.node type attrs text marks content) =>
    if type = NodeType.name .doc then some (.node type attrs text marks content) else none
  | none => none

/-! ### The server's reading -/

/-- `[a-zA-Z0-9+/=]` -/
def isHashChar (c : Char) : Bool := c.isAlphanum || c ∈ ['+', '/', '=']

/-- `/(.*)(--[a-zA-Z0-9+/=]{8})$/`, and its first group: what is before the hash, in its line. -/
def MARK_HASH_SUFFIX (attributeKey : Text) : Option Text :=
  match attributeKey.reverse.splitAt 8 with
  | (hash, '-' :: '-' :: before) =>
    if hash.all isHashChar then some (before.takeWhile (!isLineTerminator ·)).reverse else none
  | _ => none

def baseMarkName (attributeKey : Text) : Text := (MARK_HASH_SUFFIX attributeKey).getD attributeKey

def candidate : Text × MarkValue → PlainMark
  | (key, .object (entry :: entries)) => ⟨baseMarkName key, some (entry :: entries)⟩
  | (key, _) => ⟨baseMarkName key, none⟩

def marksOf (segment : Segment) : List PlainMark :=
  segment.attributes.filterMap fun entry => MarkSchema isSafe (candidate entry)

def renderText (delta : List Segment) : List PlainNode :=
  delta.filterMap fun segment =>
    if segment.insert = [] then none
    else some (textNode segment.insert (marksOf isSafe segment))

/-- A node of a known type whose attributes its schema accepts, as they are. -/
def renderElement (nodeName : Text) (attrs : Entries) (content : List PlainNode) :
    Option PlainNode :=
  (knownNodeType nodeName).bind fun type =>
    (parseAttributes type attrs).map fun _ => .node nodeName attrs none [] content

mutual

def renderChild : Child → List PlainNode
  | .element nodeName attributes children =>
    (renderElement nodeName attributes (renderChildren children)).toList
  | .text delta => renderText isSafe delta
  | .hook => []

def renderChildren : List Child → List PlainNode
  | [] => []
  | child :: children => renderChild child ++ renderChildren children

end

def renderFragment (fragment : List Child) : PlainNode := doc (renderChildren isSafe fragment)

end

end FragmentReaders
end TaskFlow
