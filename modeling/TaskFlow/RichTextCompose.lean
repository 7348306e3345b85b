import Mathlib.Data.List.Sort
import TaskFlow.LeftmostLexer
import TaskFlow.RichTextSchema

/-! # Rich text as plain text

The mobile app has a page edited as plain text: `serializeToText` writes the document, and
`parseFormattedText` reads one from the text when it is saved.  Marks and mentions are found in a
line from the left, and a line's beginning says what block it is of.

Nothing is escaped.
-/
namespace TaskFlow
namespace RichTextCompose
open LeftmostLexer RichTextSchema
open RichText (Text isSpace)

/-- A node with nothing but its content. -/
def block (type : NodeType) (content : List Node) : Node := .node type {} none [] content

def textRun (text : Text) (marks : List Mark) : Node := .node .text {} (some text) marks []

def mentionRun (mention : PendingMention) : Node :=
  .node .mention { userId := some mention.userId, label := some mention.label } none [] []

/-! ### The inline patterns -/

/-- What `.` does not match. -/
def isLineTerminator (c : Char) : Bool := c.toNat ∈ [0x0A, 0x0D, 0x2028, 0x2029]

/-- `(.*?)`, up to the mark that closes it. -/
def upTo (close : Text) : Text → Option Text
  | [] => none
  | c :: text =>
    if close.isPrefixOf (c :: text) then some []
    else if isLineTerminator c then none
    else (upTo close text).map (c :: ·)

/-- `(.+?)` between two marks. -/
def delimited (delimiter : Text) (mark : Mark) : Pattern Char Node := fun text =>
  if delimiter.isPrefixOf text then
    match text.drop delimiter.length with
    | [] => none
    | c :: rest =>
      if isLineTerminator c then none
      else (upTo delimiter rest).map fun captured =>
        (delimiter.length + (c :: captured).length + delimiter.length,
          textRun (c :: captured) [mark])
  else none

def BOLD_PATTERN : Pattern Char Node := delimited ['*', '*'] .bold

def STRIKE_PATTERN : Pattern Char Node := delimited ['~', '~'] .strike

def UNDERLINE_PATTERN : Pattern Char Node := delimited ['_', '_'] .underline

def ITALIC_PATTERN : Pattern Char Node := delimited ['*'] .italic

def CODE_PATTERN : Pattern Char Node
  | '`' :: text =>
    let captured := text.takeWhile (· ≠ '`')
    match text.dropWhile (· ≠ '`') with
    | '`' :: _ =>
      if captured = [] then none else some (captured.length + 2, textRun captured [.code])
    | _ => none
  | _ => none

/-- `https?://` or `mailto:` -/
def scheme (text : Text) : Option Text :=
  ["https://".toList, "http://".toList, "mailto:".toList].find? fun scheme =>
    scheme.isPrefixOf text

/-- `[^\s)]` -/
def isHrefChar (c : Char) : Bool := !(isSpace c || c = ')')

/-- A scheme with some characters, and what is behind them. -/
def hrefAt (text : Text) : Option (Text × Text) :=
  (scheme text).bind fun scheme =>
    let rest := text.drop scheme.length
    if rest.takeWhile isHrefChar = [] then none
    else some (scheme ++ rest.takeWhile isHrefChar, rest.dropWhile isHrefChar)

def LINK_PATTERN : Pattern Char Node
  | '[' :: text =>
    let label := text.takeWhile (· ≠ ']')
    if label = [] then none
    else
      match text.dropWhile (· ≠ ']') with
      | ']' :: '(' :: rest =>
        match hrefAt rest with
        | some (href, ')' :: _) =>
          some (label.length + href.length + 4, textRun label [.link href none])
        | _ => none
      | _ => none
  | _ => none

def mentionAt (mention : PendingMention) : Pattern Char Node := fun text =>
  let marker := '@' :: mention.label
  if marker.isPrefixOf text then some (marker.length, mentionRun mention) else none

def patterns (mentions : List PendingMention) : List (Pattern Char Node) :=
  mentions.map mentionAt ++ [BOLD_PATTERN, STRIKE_PATTERN, UNDERLINE_PATTERN, CODE_PATTERN,
    ITALIC_PATTERN, LINK_PATTERN]

def parseInline (text : Text) (mentions : List PendingMention) : List Node :=
  let runs := lex (patterns mentions) (textRun · []) text
  if runs = [] then [textRun [] []] else runs

def paragraphOf (line : Text) (mentions : List PendingMention) : Node :=
  block .paragraph (parseInline line mentions)

/-! ### The beginnings of lines -/

/-- `\s+(.*)$` -/
def afterSpaces : Text → Option Text
  | [] => none
  | c :: text =>
    if isSpace c then
      let rest := text.dropWhile isSpace
      if rest.any isLineTerminator then none else some rest
    else none

def BULLET_LIST_LINE : Text → Option Text
  | c :: text => if c = '-' ∨ c = '*' then afterSpaces text else none
  | [] => none

def ORDERED_LIST_LINE (line : Text) : Option Text :=
  if (line.takeWhile Char.isDigit) = [] then none
  else
    match line.dropWhile Char.isDigit with
    | '.' :: text => afterSpaces text
    | _ => none

/-- Whether the item is checked, and its text. -/
def TASK_LIST_LINE : Text → Option (Bool × Text)
  | c :: d :: text =>
    if (c = '-' ∨ c = '*') ∧ isSpace d then
      match text.dropWhile isSpace with
      | '[' :: x :: ']' :: rest =>
        if x ∈ [' ', 'x', 'X'] then (afterSpaces rest).map (decide (x ≠ ' '), ·) else none
      | _ => none
    else none
  | _ => none

def HEADING_LINE (line : Text) : Option (Nat × Text) :=
  let level := (line.takeWhile (· = '#')).length
  if 1 ≤ level ∧ level ≤ 6 then (afterSpaces (line.dropWhile (· = '#'))).map (level, ·) else none

def BLOCKQUOTE_LINE : Text → Option Text
  | '>' :: text =>
    let rest := if (text.take 1).any isSpace then text.drop 1 else text
    if rest.any isLineTerminator then none else some rest
  | _ => none

/-- `[\w-]` -/
def isLanguageChar (c : Char) : Bool := c.isAlphanum || c = '_' || c = '-'

def CODE_FENCE_LINE : Text → Option Text
  | '`' :: '`' :: '`' :: text =>
    let rest := text.dropWhile isSpace
    if (rest.dropWhile isLanguageChar).all isSpace then some (rest.takeWhile isLanguageChar)
    else none
  | _ => none

def HORIZONTAL_RULE_LINE (line : Text) : Bool := 3 ≤ line.length && line.all (· = '-')

/-! ### Blocks -/

/-- The lines that match, as long as they do, and what is left. -/
def collect {γ : Type} (match? : Text → Option γ) : List Text → List γ × List Text
  | [] => ([], [])
  | line :: lines =>
    match match? line with
    | some found => (found :: (collect match? lines).1, (collect match? lines).2)
    | none => ([], line :: lines)

def listItem (mentions : List PendingMention) (line : Text) : Node :=
  block .listItem [paragraphOf line mentions]

def taskItem (mentions : List PendingMention) (item : Bool × Text) : Node :=
  .node .taskItem { checked := some item.1 } none [] [paragraphOf item.2 mentions]

/-- A bullet that is no task. -/
def bulletLine (line : Text) : Option Text :=
  if (TASK_LIST_LINE line).isSome then none else BULLET_LIST_LINE line

/-- A code block up to its closing fence, or to the end. -/
def codeBlock (language : Text) (lines : List Text) : Node × List Text :=
  let isCode (line : Text) : Bool := (CODE_FENCE_LINE line).isNone
  (.node .codeBlock { language := if language = [] then none else some language } none []
      [textRun (['\n'].intercalate (lines.takeWhile isCode)) []],
    (lines.dropWhile isCode).drop 1)

/-- The block that a line begins, and the lines that are left. -/
def nextBlock (mentions : List PendingMention) (line : Text) (lines : List Text) :
    Node × List Text :=
  match CODE_FENCE_LINE line with
  | some language => codeBlock language lines
  | none =>
    if HORIZONTAL_RULE_LINE line then (block .horizontalRule [], lines)
    else if (TASK_LIST_LINE line).isSome then
      let items := collect TASK_LIST_LINE (line :: lines)
      (block .taskList (items.1.map (taskItem mentions)), items.2)
    else if (BULLET_LIST_LINE line).isSome then
      let items := collect bulletLine (line :: lines)
      (block .bulletList (items.1.map (listItem mentions)), items.2)
    else if (ORDERED_LIST_LINE line).isSome then
      let items := collect ORDERED_LIST_LINE (line :: lines)
      (block .orderedList (items.1.map (listItem mentions)), items.2)
    else
      match HEADING_LINE line with
      | some (level, text) =>
        (.node .heading { level := some level } none [] (parseInline text mentions), lines)
      | none =>
        if (BLOCKQUOTE_LINE line).isSome then
          let paragraphs := collect BLOCKQUOTE_LINE (line :: lines)
          (block .blockquote (paragraphs.1.map (paragraphOf · mentions)), paragraphs.2)
        else (paragraphOf line mentions, lines)

/-- A block takes a line at least: there is fuel for all lines. -/
def parseBlocks (mentions : List PendingMention) : Nat → List Text → List Node
  | fuel + 1, line :: lines =>
    (nextBlock mentions line lines).1 ::
      parseBlocks mentions fuel (nextBlock mentions line lines).2
  | _, _ => []

/-- There is a line, so there is a block. -/
def parseFormattedText (text : Text) (mentions : List PendingMention) : Node :=
  let lines := text.splitOn '\n'
  block .doc (parseBlocks mentions lines.length lines)

/-! ### Writing a document -/

def MARK_PRIORITY : Mark → Nat
  | .link .. => 0
  | .code => 1
  | .bold => 2
  | .strike => 3
  | .underline => 4
  | .italic => 5

def wrapForMark (text : Text) : Mark → Text
  | .bold => ['*', '*'] ++ text ++ ['*', '*']
  | .italic => ['*'] ++ text ++ ['*']
  | .strike => ['~', '~'] ++ text ++ ['~', '~']
  | .code => ['`'] ++ text ++ ['`']
  | .underline => ['_', '_'] ++ text ++ ['_', '_']
  | .link href _ => ['['] ++ text ++ [']', '('] ++ href ++ [')']

def serializeRun (node : Node) : Text :=
  match node.type with
  | .mention => '@' :: node.attrs.label.getD []
  | .pageLink => node.attrs.label.getD []
  | .text =>
    let text := node.text.getD []
    match (node.marks.insertionSort fun a b => MARK_PRIORITY a ≤ MARK_PRIORITY b).head? with
    | some primary => wrapForMark text primary
    | none => text
  | _ => []

def serializeInline (nodes : List Node) : Text := nodes.flatMap serializeRun

/-- An item is written with its first child only. -/
def itemText (item : Node) : Text := serializeInline (item.content.head?.elim [] Node.content)

def serializeBlock (node : Node) : List Text :=
  match node.type with
  | .paragraph => [serializeInline node.content]
  | .heading =>
    [List.replicate (min (max (node.attrs.level.getD 1) 1) 6) '#' ++
      ' ' :: serializeInline node.content]
  | .blockquote => node.content.map fun child => '>' :: ' ' :: serializeInline child.content
  | .codeBlock =>
    let text := node.content.flatMap fun child => child.text.getD []
    (['`', '`', '`'] ++ node.attrs.language.getD []) :: text.splitOn '\n' ++ [['`', '`', '`']]
  | .horizontalRule => [['-', '-', '-']]
  | .bulletList => node.content.map fun item => '-' :: ' ' :: itemText item
  | .orderedList => node.content.mapIdx fun index item =>
    Nat.toDigits 10 (index + 1) ++ '.' :: ' ' :: itemText item
  | .taskList => node.content.map fun item =>
    ['-', ' ', '[', if item.attrs.checked = some true then 'x' else ' ', ']', ' '] ++ itemText item
  | _ => []

def serializeToText (document : Node) : Text :=
  ['\n'].intercalate (document.content.flatMap serializeBlock)

/-- What is left of a page that is saved as it was opened. -/
def saved (document : Node) : Node :=
  parseFormattedText (serializeToText document) (extractMentions document)

end RichTextCompose
end TaskFlow
