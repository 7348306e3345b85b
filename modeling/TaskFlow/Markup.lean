import Mathlib.Data.List.Basic

/-! # Markup with escaped texts

A document is written tag by tag, with the values of attributes and the texts between
tags escaped.  `scan` reads the tags of any text by its angle brackets and quotes, and
`scan_render` says that it reads a written document back, whatever its values and texts
are: no text can end a value or begin a tag.
-/
namespace Markup

/-! ### Escaping -/

def escapeChar (c : Char) : List Char :=
  if c = '&' then ['&', 'a', 'm', 'p', ';']
  else if c = '<' then ['&', 'l', 't', ';']
  else if c = '>' then ['&', 'g', 't', ';']
  else if c = '"' then ['&', 'q', 'u', 'o', 't', ';']
  else if c = '\'' then ['&', 'a', 'p', 'o', 's', ';']
  else [c]

/-- The predefined entities in place of the characters that mean something in markup. -/
def escape (text : List Char) : List Char := text.flatMap escapeChar

def unescape : List Char → List Char
  | '&' :: 'a' :: 'm' :: 'p' :: ';' :: rest => '&' :: unescape rest
  | '&' :: 'l' :: 't' :: ';' :: rest => '<' :: unescape rest
  | '&' :: 'g' :: 't' :: ';' :: rest => '>' :: unescape rest
  | '&' :: 'q' :: 'u' :: 'o' :: 't' :: ';' :: rest => '"' :: unescape rest
  | '&' :: 'a' :: 'p' :: 'o' :: 's' :: ';' :: rest => '\'' :: unescape rest
  | c :: rest => c :: unescape rest
  | [] => []

@[simp] theorem escape_nil : escape [] = [] := rfl

theorem escape_cons (c : Char) (text : List Char) :
    escape (c :: text) = escapeChar c ++ escape text := rfl

theorem unescape_cons {c : Char} (h : c ≠ '&') (rest : List Char) :
    unescape (c :: rest) = c :: unescape rest := by
  conv_lhs => unfold unescape
  split <;> simp_all

theorem unescape_escapeChar (c : Char) (rest : List Char) :
    unescape (escapeChar c ++ rest) = c :: unescape rest := by
  unfold escapeChar
  split_ifs with hamp hlt hgt hquot hapos
  · subst hamp
    rfl
  · subst hlt
    rfl
  · subst hgt
    rfl
  · subst hquot
    rfl
  · subst hapos
    rfl
  · exact unescape_cons hamp rest

/-- A text without reserved characters is its own escaped form. -/
theorem escape_eq_self {text : List Char}
    (h : ∀ c ∈ text, c ∉ ['&', '<', '>', '"', '\'']) : escape text = text := by
  induction text with
  | nil => rfl
  | cons c text ih =>
    have hc : escapeChar c = [c] := by
      have := h c List.mem_cons_self
      simp only [List.mem_cons, List.not_mem_nil, or_false, not_or] at this
      simp [escapeChar, this]
    rw [escape_cons, hc, ih fun c' hc' => h c' (List.mem_cons_of_mem _ hc')]
    rfl

theorem unescape_escape (text : List Char) : unescape (escape text) = text := by
  induction text with
  | nil => rfl
  | cons c text ih => rw [escape_cons, unescape_escapeChar, ih]

/-- The characters that end a value or a text. -/
def Reserved (c : Char) : Prop := c = '<' ∨ c = '>' ∨ c = '"'

theorem not_reserved_of_mem_escape {c : Char} {text : List Char} (h : c ∈ escape text) :
    ¬Reserved c := by
  obtain ⟨c', -, hc⟩ := List.mem_flatMap.mp h
  unfold escapeChar at hc
  rintro (rfl | rfl | rfl)
  all_goals
    split_ifs at hc with _ h₂ h₃ h₄
    all_goals simp at hc
    first | exact h₂ hc.symm | exact h₃ hc.symm | exact h₄ hc.symm

/-! ### Tags -/

/-- A tag and the text up to the next one. -/
structure Tag where
  /-- With the slash, if the tag ends an element. -/
  name : List Char
  attributes : List (List Char × List Char)
  /-- What stands before the closing bracket: nothing, a slash or a question mark. -/
  ending : List Char
  text : List Char
  deriving DecidableEq, Repr

def renderAttribute (a : List Char × List Char) : List Char :=
  ' ' :: a.1 ++ '=' :: '"' :: escape a.2 ++ ['"']

/-- The tag without its opening bracket. -/
def Tag.body (tag : Tag) : List Char :=
  (tag.name ++ (tag.attributes.flatMap renderAttribute ++ tag.ending)) ++ '>' :: escape tag.text

def Tag.render (tag : Tag) : List Char := '<' :: tag.body

def render (tags : List Tag) : List Char := tags.flatMap Tag.render

/-- A character of a name. -/
def isName (c : Char) : Bool := c ∉ [' ', '/', '?', '<', '>', '"']

/-- The first character of a name may also be a slash or a question mark. -/
def tagName : List Char → List Char
  | [] => []
  | c :: cs => c :: cs.takeWhile isName

/-- Keys and values in turn. -/
def readAttributes : List (List Char) → List (List Char × List Char)
  | key :: value :: rest => ((key.drop 1).dropLast, unescape value) :: readAttributes rest
  | _ => []

def readTag (segment : List Char) : Tag :=
  let content := segment.takeWhile (· ≠ '>')
  let name := tagName content
  let pieces := (content.drop name.length).splitOn '"'
  ⟨name, readAttributes pieces, pieces.getLastD [],
    unescape ((segment.dropWhile (· ≠ '>')).drop 1)⟩

/-- The tags of a text. -/
def scan (document : List Char) : List Tag := (document.splitOn '<').tail.map readTag

def isPlain (c : Char) : Bool := c ∉ ['<', '>', '"']

/-- Whether the tag's name, its keys and its ending can be told apart, whatever its
values and its text are. -/
def Tag.check (tag : Tag) : Bool :=
  (match tag.name with
  | [] => false
  | c :: cs => isPlain c && cs.all isName) &&
  tag.attributes.all (fun a => a.1.all isPlain) && tag.ending.all (· ∈ ['/', '?'])

/-- The tag's name, its keys and its ending cannot be taken for something else. -/
structure Tag.WellFormed (tag : Tag) : Prop where
  name : ∃ c cs, tag.name = c :: cs ∧ ¬Reserved c ∧ ∀ c ∈ cs, isName c
  keys : ∀ a ∈ tag.attributes, ∀ c ∈ a.1, ¬Reserved c
  ending : ∀ c ∈ tag.ending, c = '/' ∨ c = '?'

section
variable {tag : Tag} {tags : List Tag} {attributes : List (List Char × List Char)}
  {ending : List Char}

theorem render_cons (tag : Tag) (tags : List Tag) :
    render (tag :: tags) = tag.render ++ render tags := List.flatMap_cons

theorem render_append (tags tags' : List Tag) :
    render (tags ++ tags') = render tags ++ render tags' := List.flatMap_append

theorem not_reserved_of_isName {c : Char} (h : isName c) : ¬Reserved c := by
  rintro (rfl | rfl | rfl) <;> cases h

theorem not_reserved_of_ending {c : Char} (h : c = '/' ∨ c = '?') : ¬Reserved c := by
  rintro (rfl | rfl | rfl) <;> rcases h with h | h <;> cases h

theorem not_reserved_of_isPlain {c : Char} (h : isPlain c) : ¬Reserved c := by
  rintro (rfl | rfl | rfl) <;> cases h

theorem Tag.wellFormed_of_check (h : tag.check = true) : tag.WellFormed := by
  unfold Tag.check at h
  rw [Bool.and_eq_true, Bool.and_eq_true] at h
  obtain ⟨⟨hname, hkeys⟩, hending⟩ := h
  refine ⟨?_, ?_, ?_⟩
  · split at hname
    next => cases hname
    next c cs heq =>
      rw [Bool.and_eq_true, List.all_eq_true] at hname
      exact ⟨c, cs, heq, not_reserved_of_isPlain hname.1, hname.2⟩
  · intro a ha c hc
    exact not_reserved_of_isPlain (List.all_eq_true.mp (List.all_eq_true.mp hkeys a ha) c hc)
  · intro c hc
    simpa using List.all_eq_true.mp hending c hc

/-- Keys and values are told apart by the quotes. -/
theorem splitOn_attributes
    (hkeys : ∀ a ∈ attributes, ∀ c ∈ a.1, ¬Reserved c)
    (hending : ∀ c ∈ ending, ¬Reserved c) :
    (attributes.flatMap renderAttribute ++ ending).splitOn '"' =
      attributes.flatMap (fun a => [' ' :: a.1 ++ ['='], escape a.2]) ++
        [ending] := by
  induction attributes with
  | nil =>
    rw [List.flatMap_nil, List.nil_append, List.splitOn_eq_singleton]
    · rfl
    · exact fun h => hending _ h (Or.inr (Or.inr rfl))
  | cons a attributes ih =>
    have hkey : '"' ∉ ' ' :: a.1 ++ ['='] := by
      have := hkeys a List.mem_cons_self '"'
      simpa [Reserved] using this
    have hvalue : '"' ∉ escape a.2 :=
      fun h => not_reserved_of_mem_escape h (Or.inr (Or.inr rfl))
    have hrest := ih fun a' ha => hkeys a' (List.mem_cons_of_mem _ ha)
    have hsplit : renderAttribute a ++ (attributes.flatMap renderAttribute ++ ending) =
        (' ' :: a.1 ++ ['=']) ++ '"' ::
          (escape a.2 ++ '"' :: (attributes.flatMap renderAttribute ++ ending)) := by
      simp [renderAttribute]
    rw [List.flatMap_cons, List.append_assoc, hsplit, List.splitOn_append_cons_self,
      List.splitOn_append_cons_self, List.splitOn_eq_singleton hkey,
      List.splitOn_eq_singleton hvalue, hrest]
    rfl

theorem readAttributes_pieces (attributes : List (List Char × List Char)) (ending : List Char) :
    readAttributes (attributes.flatMap (fun a =>
      [' ' :: a.1 ++ ['='], escape a.2]) ++ [ending]) = attributes := by
  induction attributes with
  | nil => rfl
  | cons a attributes ih =>
    show ((' ' :: (a.1 ++ ['='])).drop 1 |>.dropLast, unescape (escape a.2)) ::
      readAttributes (attributes.flatMap (fun a =>
        [' ' :: a.1 ++ ['='], escape a.2]) ++ [ending]) = a :: attributes
    rw [ih, unescape_escape, List.drop_succ_cons, List.drop_zero, List.dropLast_concat]

theorem takeWhile_append_cons {α : Type} {p : α → Bool} {l r : List α} {c : α}
    (hl : ∀ x ∈ l, p x) (hc : p c = false) : (l ++ c :: r).takeWhile p = l := by
  rw [List.takeWhile_append_of_pos hl, List.takeWhile_cons_of_neg (by simp [hc]),
    List.append_nil]

theorem dropWhile_append_cons {α : Type} {p : α → Bool} {l r : List α} {c : α}
    (hl : ∀ x ∈ l, p x) (hc : p c = false) : (l ++ c :: r).dropWhile p = c :: r := by
  rw [List.dropWhile_append_of_pos hl, List.dropWhile_cons_of_neg (by simp [hc])]

/-- The name ends before the attributes and the ending. -/
theorem takeWhile_isName {cs : List Char} (hname : ∀ c ∈ cs, isName c)
    (hending : ∀ c ∈ ending, c = '/' ∨ c = '?') :
    (cs ++ (attributes.flatMap renderAttribute ++ ending)).takeWhile isName = cs := by
  rw [List.takeWhile_append_of_pos hname]
  cases attributes with
  | nil =>
    cases ending with
    | nil => simp
    | cons c ending =>
      have hc : isName c = false := by
        rcases hending c List.mem_cons_self with rfl | rfl <;> rfl
      simp [hc]
  | cons a attributes =>
    have hspace : isName ' ' = false := rfl
    simp [renderAttribute, hspace]

/-- Nothing before the closing bracket is reserved but quotes. -/
theorem Tag.WellFormed.content (h : tag.WellFormed) :
    ∀ c ∈ tag.name ++ (tag.attributes.flatMap renderAttribute ++ tag.ending),
      c ≠ '<' ∧ c ≠ '>' := by
  have hfree {c : Char} (hc : ¬Reserved c) : c ≠ '<' ∧ c ≠ '>' :=
    ⟨fun h => hc (Or.inl h), fun h => hc (Or.inr (Or.inl h))⟩
  obtain ⟨first, cs, hname, hfirst, hcs⟩ := h.name
  intro c hc
  rw [hname, List.mem_append, List.mem_append, List.mem_cons, List.mem_flatMap] at hc
  rcases hc with (rfl | hc) | ⟨a, hattribute, hc⟩ | hc
  · exact hfree hfirst
  · exact hfree (not_reserved_of_isName (hcs c hc))
  · simp only [renderAttribute, List.cons_append, List.mem_cons, List.mem_append,
      List.not_mem_nil, or_false] at hc
    rcases hc with rfl | (hc | rfl | rfl | hc) | rfl
    · exact ⟨by decide, by decide⟩
    · exact hfree (h.keys a hattribute c hc)
    · exact ⟨by decide, by decide⟩
    · exact ⟨by decide, by decide⟩
    · exact hfree (not_reserved_of_mem_escape hc)
    · exact ⟨by decide, by decide⟩
  · exact hfree (not_reserved_of_ending (h.ending c hc))

theorem Tag.WellFormed.readTag (h : tag.WellFormed) : readTag tag.body = tag := by
  have hcontent : ∀ c ∈ tag.name ++ (tag.attributes.flatMap renderAttribute ++ tag.ending),
      (decide (c ≠ '>')) = true := fun c hc => decide_eq_true (h.content c hc).2
  obtain ⟨first, cs, hname, -, hcs⟩ := h.name
  have htagName : tagName (tag.name ++ (tag.attributes.flatMap renderAttribute ++ tag.ending)) =
      tag.name := by
    rw [hname, List.cons_append, tagName, takeWhile_isName hcs h.ending]
  rw [Markup.readTag, Tag.body]
  simp only [takeWhile_append_cons hcontent (decide_eq_false (not_not.mpr rfl)),
    dropWhile_append_cons hcontent (decide_eq_false (not_not.mpr rfl)), htagName,
    List.drop_left, List.drop_succ_cons, List.drop_zero, unescape_escape,
    splitOn_attributes h.keys fun c hc => not_reserved_of_ending (h.ending c hc),
    readAttributes_pieces, List.getLastD_concat]

theorem Tag.WellFormed.body (h : tag.WellFormed) : '<' ∉ tag.body := by
  intro hmem
  rw [Tag.body, List.mem_append, List.mem_cons] at hmem
  rcases hmem with hmem | heq | hmem
  · exact (h.content _ hmem).1 rfl
  · cases heq
  · exact not_reserved_of_mem_escape hmem (Or.inl rfl)

theorem splitOn_render {first : List Char} (hfirst : '<' ∉ first)
    (h : ∀ tag ∈ tags, tag.WellFormed) :
    (first ++ render tags).splitOn '<' = first :: tags.map Tag.body := by
  induction tags generalizing first with
  | nil => rw [render, List.flatMap_nil, List.append_nil, List.splitOn_eq_singleton hfirst]; rfl
  | cons tag tags ih =>
    have hrest := ih (h tag List.mem_cons_self).body fun t ht => h t (List.mem_cons_of_mem _ ht)
    rw [render, List.flatMap_cons, Tag.render, List.cons_append, ← render,
      List.splitOn_append_cons_self, List.splitOn_eq_singleton hfirst, hrest]
    rfl

/-- **A written document is read back**. -/
theorem scan_render (h : ∀ tag ∈ tags, tag.WellFormed) : scan (render tags) = tags := by
  have hsplit := splitOn_render List.not_mem_nil h
  rw [List.nil_append] at hsplit
  rw [scan, hsplit, List.tail_cons, List.map_map]
  refine (List.map_congr_left fun tag htag => ?_).trans (List.map_id tags)
  exact (h tag htag).readTag

end

end Markup
