import Mathlib.Data.List.Dedup

/-! # Rich text

A document is a tree of nodes.  Services store its plain text beside it and
read two things off it when they write an event: who is mentioned, and which
links a message contains.

A rule stores text, never a document.  `plainParagraph` is the one document a
stored text becomes, and no such document mentions anybody
(`mentionedUserIds_plainParagraph`).
-/
namespace TaskFlow
namespace RichText

abbrev Text := List Char

inductive NodeType where
  | doc
  | paragraph
  | heading
  | blockquote
  | codeBlock
  | listItem
  | taskItem
  | horizontalRule
  | text
  | mention
  /-- Any other node or mark container. -/
  | other (name : String)
  deriving DecidableEq, Repr

/-- The attributes that are read: the label and the user of a mention. -/
structure Attributes where
  label : Option Text := none
  userId : Option String := none
  deriving DecidableEq, Repr

inductive RichTextNode where
  | node (type : NodeType) (text : Option Text) (attrs : Attributes)
      (content : List RichTextNode)
  deriving Repr

/-- Nodes that end a line. -/
def BLOCK_NODES : List NodeType :=
  [.paragraph, .heading, .blockquote, .codeBlock, .listItem, .taskItem, .horizontalRule]

def MAX_TEXT_LENGTH : Nat := 100000

/-- The one document a stored text becomes: a single plain paragraph. -/
def plainParagraph (text : Text) : RichTextNode :=
  .node .doc none {} [.node .paragraph none {} [.node .text (some text) {} []]]

/-! ### Plain text -/

mutual

/-- The text of a node and of everything under it, in order. -/
def walkText : RichTextNode → Text
  | .node type text attrs content =>
    text.getD [] ++
      (if type = .mention then
        match attrs.label with
        | some label => '@' :: label
        | none => []
      else []) ++
      walkTexts content ++
      (if type ∈ BLOCK_NODES then ['\n'] else [])

def walkTexts : List RichTextNode → Text
  | [] => []
  | node :: nodes => walkText node ++ walkTexts nodes

end

/-- White space to `trim` and `\s`. -/
def isSpace (c : Char) : Bool :=
  c.toNat ∈ [0x09, 0x0A, 0x0B, 0x0C, 0x0D, 0x20, 0xA0, 0x1680, 0x2028, 0x2029, 0x202F, 0x205F,
    0x3000, 0xFEFF] ∨ (0x2000 ≤ c.toNat ∧ c.toNat ≤ 0x200A)

/-- Runs of characters that satisfy `p` become one `c`. -/
def squeeze (p : Char → Bool) (c : Char) : Text → Text
  | [] => []
  | x :: xs =>
    if p x then
      match xs with
      | [] => [c]
      | y :: _ => if p y then squeeze p c xs else c :: squeeze p c xs
    else x :: squeeze p c xs

def trim (text : Text) : Text :=
  ((text.dropWhile isSpace).reverse.dropWhile isSpace).reverse

/-- The plain text of a document. -/
def flattenToText (node : RichTextNode) : Text :=
  let spaces := squeeze (fun c => c = ' ' ∨ c = '\t') ' ' (walkText node)
  let lines := squeeze (· = '\n') '\n' spaces
  (trim lines).take MAX_TEXT_LENGTH

/-! ### Mentions -/

mutual

def walkMentions : RichTextNode → List String
  | .node type _ attrs content =>
    (if type = .mention then attrs.userId.toList else []) ++ walkMentionses content

def walkMentionses : List RichTextNode → List String
  | [] => []
  | node :: nodes => walkMentions node ++ walkMentionses nodes

end

/-- Every user a document mentions, each once, in the order of first mention. -/
def mentionedUserIds (node : RichTextNode) : List String :=
  (walkMentions node).reverse.dedup.reverse

@[simp] theorem mentionedUserIds_plainParagraph (text : Text) :
    mentionedUserIds (plainParagraph text) = [] := rfl

/-! ### Links -/

/-- `https?` in either case, then `://`: what is left after it. -/
def afterScheme (text : Text) : Option Text :=
  match (text.take 8).map Char.toLower with
  | 'h' :: 't' :: 't' :: 'p' :: 's' :: ':' :: '/' :: '/' :: _ => some (text.drop 8)
  | 'h' :: 't' :: 't' :: 'p' :: ':' :: '/' :: '/' :: _ => some (text.drop 7)
  | _ => none

/-- A character a link may contain. -/
def isLinkChar (c : Char) : Bool :=
  !(isSpace c || c == '<' || c == '>' || c == '"' || c == '\'')

/-- A character dropped from the end of a link. -/
def isTrailing (c : Char) : Bool :=
  c ∈ ['.', ',', ';', ':', '!', '?', ')', ']']

/-- The link that starts a text, if one does. -/
def linkAt (text : Text) : Option Text :=
  match afterScheme text with
  | none => none
  | some rest =>
    let body := rest.takeWhile isLinkChar
    if body.isEmpty then none
    else some (text.take (text.length - rest.length + body.length))

/-- Every link of a text, left to right without overlap.  `skip` characters are
inside a link already found. -/
def matchLinks (skip : Nat) : Text → List Text
  | [] => []
  | c :: cs =>
    match skip with
    | skip + 1 => matchLinks skip cs
    | 0 =>
      match linkAt (c :: cs) with
      | some link => link :: matchLinks (link.length - 1) cs
      | none => matchLinks 0 cs

/-- The first `limit` links of a text, each once. -/
def extractUrls (text : Text) (limit : Nat) : List Text :=
  let candidates := (matchLinks 0 text).map fun link =>
    (link.reverse.dropWhile isTrailing).reverse
  candidates.reverse.dedup.reverse.take limit

example : extractUrls "see HTTPS://a.io/x?y, (http://b.io) and http:// alone".toList 3 =
    ["HTTPS://a.io/x?y".toList, "http://b.io".toList] := by
  decide +kernel

end RichText
end TaskFlow
