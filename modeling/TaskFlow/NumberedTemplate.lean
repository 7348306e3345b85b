import Mathlib.Data.List.Basic
import Mathlib.Data.List.Range
import Mathlib.Data.Nat.Digits.Defs

/-! # Templates with numbered holes

A template is text with holes, and `fill` writes a `$` and a number into each, one number after
another.  Where no text has a `$` and no digit follows a hole (`Clean`), the numbers are read off
the text again (`placeholders_fill`).

An emitter builds a text and pushes a value for each of its holes.  `Emits` says that an emitter
writes a template, whatever has been pushed before; emitters compose as their templates do.
-/
namespace TaskFlow.Template

inductive Piece where
  | text (chars : List Char)
  | hole
  deriving DecidableEq

/-- The placeholder of a number. -/
def numbered (n : ℕ) : List Char := '$' :: Nat.toDigits 10 n

def fill : ℕ → List Piece → List Char
  | _, [] => []
  | n, .text chars :: rest => chars ++ fill n rest
  | n, .hole :: rest => numbered n ++ fill (n + 1) rest

def holes : List Piece → ℕ
  | [] => 0
  | .text _ :: rest => holes rest
  | .hole :: rest => holes rest + 1

theorem holes_append (a b : List Piece) : holes (a ++ b) = holes a + holes b := by
  induction a with
  | nil => exact (Nat.zero_add _).symm
  | cons piece a ih =>
    cases piece with
    | text chars => exact ih
    | hole =>
      rw [List.cons_append, holes, holes, ih]
      omega

theorem fill_append (n : ℕ) (a b : List Piece) :
    fill n (a ++ b) = fill n a ++ fill (n + holes a) b := by
  induction a generalizing n with
  | nil => rfl
  | cons piece a ih =>
    cases piece with
    | text chars => rw [List.cons_append, fill, fill, ih, List.append_assoc, holes]
    | hole =>
      rw [List.cons_append, fill, fill, ih, List.append_assoc, holes]
      congr 3
      omega

/-! ### Reading the numbers -/

/-- The numbers behind the dollar signs of a text. -/
def placeholders : List Char → List ℕ
  | [] => []
  | c :: rest =>
    if c = '$' ∧ rest.head?.any Char.isDigit then
      Nat.ofDigitChars 10 (rest.takeWhile Char.isDigit) 0 :: placeholders rest
    else placeholders rest

theorem placeholders_append {chars : List Char} (h : '$' ∉ chars) (rest : List Char) :
    placeholders (chars ++ rest) = placeholders rest := by
  induction chars with
  | nil => rfl
  | cons c chars ih =>
    have hc : c ≠ '$' := (List.ne_of_not_mem_cons h).symm
    rw [List.cons_append, placeholders, if_neg fun h => hc h.1,
      ih (List.not_mem_of_not_mem_cons h)]

/-- No digit follows. -/
def Ends (rest : List Char) : Prop := ∀ c ∈ rest.head?, c.isDigit = false

theorem isDigit_toDigits {n : ℕ} {c : Char} (h : c ∈ Nat.toDigits 10 n) : c.isDigit = true :=
  Nat.isDigit_of_mem_toDigits (by omega) (by omega) h

theorem placeholders_numbered (n : ℕ) {rest : List Char} (h : Ends rest) :
    placeholders (numbered n ++ rest) = n :: placeholders rest := by
  obtain ⟨d, ds, hdigits⟩ := List.exists_cons_of_ne_nil (Nat.toDigits_ne_nil (b := 10) (n := n))
  have hd : d.isDigit = true := isDigit_toDigits (hdigits ▸ List.mem_cons_self)
  have hdollar : '$' ∉ Nat.toDigits 10 n := fun h => by cases isDigit_toDigits h
  have htake : (Nat.toDigits 10 n ++ rest).takeWhile Char.isDigit = Nat.toDigits 10 n := by
    rw [List.takeWhile_append_of_pos fun c hc => isDigit_toDigits hc]
    cases rest with
    | nil => simp
    | cons c rest => rw [List.takeWhile_cons_of_neg (by rw [h c rfl]; decide), List.append_nil]
  have hhead : (Nat.toDigits 10 n ++ rest).head?.any Char.isDigit = true := by
    rw [hdigits]
    exact hd
  rw [numbered, List.cons_append, placeholders, if_pos ⟨rfl, hhead⟩, htake,
    Nat.ofDigitChars_ten_toDigits, placeholders_append hdollar]

/-- No text has a dollar sign, and text that begins with no digit follows each hole. -/
inductive Clean : List Piece → Prop
  | nil : Clean []
  | text {chars : List Char} {rest : List Piece} (hchars : '$' ∉ chars) (hrest : Clean rest) :
      Clean (.text chars :: rest)
  | last : Clean [.hole]
  | hole {c : Char} {chars : List Char} {rest : List Piece} (hc : c.isDigit = false)
      (hrest : Clean (.text (c :: chars) :: rest)) : Clean (.hole :: .text (c :: chars) :: rest)

theorem Clean.append {a b : List Piece} {c : Char} {chars : List Char} (ha : Clean a)
    (hc : c.isDigit = false) (hb : Clean (.text (c :: chars) :: b)) :
    Clean (a ++ .text (c :: chars) :: b) := by
  induction ha with
  | nil => exact hb
  | text hchars _ ih => exact .text hchars ih
  | last => exact .hole hc hb
  | hole hc' _ ih => exact .hole hc' ih

/-- **The numbers of a clean template are read off its text**, each once and in order. -/
theorem placeholders_fill {pieces : List Piece} (h : Clean pieces) (n : ℕ) :
    placeholders (fill n pieces) = List.range' n (holes pieces) := by
  induction h generalizing n with
  | nil => rfl
  | text hchars _ ih => rw [fill, placeholders_append hchars, ih, holes]
  | last =>
    rw [fill, placeholders_numbered n fun _ h => by cases h]
    rfl
  | @hole c chars rest hc _ ih =>
    have hends : Ends (fill (n + 1) (.text (c :: chars) :: rest)) := by
      intro d hd
      cases hd
      exact hc
    rw [fill, placeholders_numbered n hends, ih]
    rfl

/-! ### Templates side by side -/

theorem holes_intercalate (separator : List Char) (templates : List (List Piece)) :
    holes ([.text separator].intercalate templates) = holes templates.flatten := by
  induction templates with
  | nil => rfl
  | cons first rest ih =>
    cases rest with
    | nil => rw [List.intercalate_singleton, List.flatten_singleton]
    | cons second rest =>
      rw [List.intercalate_cons_cons, holes_append, holes_append, ih, holes, holes]
      simp only [List.flatten_cons, holes_append, Nat.add_zero]

theorem Clean.intercalate {c : Char} {separator : List Char} {templates : List (List Piece)}
    (hc : c.isDigit = false) (hseparator : '$' ∉ c :: separator)
    (h : ∀ template ∈ templates, Clean template) :
    Clean ([.text (c :: separator)].intercalate templates) := by
  induction templates with
  | nil => exact .nil
  | cons first rest ih =>
    obtain ⟨hfirst, hrest⟩ := List.forall_mem_cons.mp h
    cases rest with
    | nil =>
      rw [List.intercalate_singleton]
      exact hfirst
    | cons second rest =>
      rw [List.intercalate_cons_cons, List.append_assoc]
      exact hfirst.append hc (.text hseparator (ih hrest))

/-! ### Emitters -/

section
variable {Value ε : Type}

abbrev Emitter (Value ε α : Type) := StateT (List Value) (Except ε) α

variable (first : ℕ)

/-- The emitter writes the template and pushes a value for each hole, whatever has been pushed. -/
def Emits (emitter : Emitter Value ε (List Char)) (template : List Piece) : Prop :=
  ∀ pushed : List Value, ∃ more,
    emitter pushed = .ok (fill (first + pushed.length) template, pushed ++ more) ∧
      more.length = holes template

/-- The emitter writes the texts of the templates, whatever is put between them. -/
def EmitsAll (emitter : Emitter Value ε (List (List Char))) (templates : List (List Piece)) :
    Prop :=
  ∀ pushed : List Value, ∃ parts more, emitter pushed = .ok (parts, pushed ++ more) ∧
    more.length = holes templates.flatten ∧ parts.length = templates.length ∧
      ∀ separator : List Char, separator.intercalate parts =
        fill (first + pushed.length) ([.text separator].intercalate templates)

variable {first} {emitter : Emitter Value ε (List Char)} {template : List Piece}

theorem Emits.text (chars : List Char) :
    Emits first (pure chars : Emitter Value ε (List Char)) [.text chars] := by
  intro pushed
  refine ⟨[], ?_, rfl⟩
  rw [fill, fill, List.append_nil, List.append_nil]
  rfl

/-- What is written is the text, however it is cut into pieces. -/
theorem Emits.of_fill {template' : List Piece} (h : Emits first emitter template)
    (hfill : ∀ n, fill n template' = fill n template) (hholes : holes template' = holes template) :
    Emits first emitter template' := by
  intro pushed
  obtain ⟨more, hrun, hmore⟩ := h pushed
  exact ⟨more, by rw [hrun, hfill], by rw [hmore, hholes]⟩

/-- Text around a template. -/
theorem Emits.around (h : Emits first emitter template) (before behind : List Char) :
    Emits first (emitter >>= fun chars => pure (before ++ chars ++ behind))
      (.text before :: template ++ [.text behind]) := by
  intro pushed
  obtain ⟨more, hrun, hmore⟩ := h pushed
  refine ⟨more, ?_, ?_⟩
  · show (emitter pushed >>= _) = _
    rw [hrun, fill_append, fill, fill, fill, List.append_nil]
    rfl
  · rw [holes_append, hmore]
    rfl

/-- A computation before an emitter that pushes nothing. -/
theorem Emits.lift {α : Type} {value : Except ε α} {a : α} {next : α → Emitter Value ε (List Char)}
    (ha : value = .ok a) (h : Emits first (next a) template) :
    Emits first ((liftM value : Emitter Value ε α) >>= next) template := by
  subst ha
  exact h

theorem EmitsAll.nil : EmitsAll first (pure [] : Emitter Value ε (List (List Char))) [] := by
  intro pushed
  refine ⟨[], [], ?_, rfl, rfl, fun _ => rfl⟩
  rw [List.append_nil]
  rfl

theorem EmitsAll.cons {others : Emitter Value ε (List (List Char))}
    {templates : List (List Piece)} (h : Emits first emitter template)
    (hothers : EmitsAll first others templates) :
    EmitsAll first (do
      let part ← emitter
      let parts ← others
      return part :: parts) (template :: templates) := by
  intro pushed
  obtain ⟨more, hrun, hmore⟩ := h pushed
  obtain ⟨parts, more', hrun', hmore', hlength, hparts⟩ := hothers (pushed ++ more)
  refine ⟨fill (first + pushed.length) template :: parts, more ++ more', ?_, ?_,
    congrArg (· + 1) hlength, fun separator => ?_⟩
  · show (emitter pushed >>= _) = _
    rw [hrun]
    show (others (pushed ++ more) >>= _) = _
    rw [hrun', List.append_assoc]
    rfl
  · rw [List.length_append, List.flatten_cons, holes_append, hmore, hmore']
  · have hfirst := hparts separator
    rw [List.length_append, hmore, ← Nat.add_assoc] at hfirst
    cases parts with
    | nil =>
      obtain rfl := List.length_eq_zero_iff.mp hlength.symm
      rw [List.intercalate_singleton, List.intercalate_singleton]
    | cons second parts =>
      obtain ⟨t, ts, rfl⟩ := List.exists_cons_of_length_eq_add_one hlength.symm
      rw [List.intercalate_cons_cons, List.intercalate_cons_cons, hfirst, fill_append,
        fill_append, holes_append]
      simp only [fill, holes, List.append_nil, List.append_assoc, Nat.add_zero]

theorem EmitsAll.mapM {α : Type} {emit : α → Emitter Value ε (List Char)} {values : List α}
    {templates : α → List Piece}
    (h : ∀ value ∈ values, Emits first (emit value) (templates value)) :
    EmitsAll first (values.mapM emit) (values.map templates) := by
  induction values with
  | nil => exact .nil
  | cons value values ih =>
    obtain ⟨hvalue, hvalues⟩ := List.forall_mem_cons.mp h
    rw [List.mapM_cons, List.map_cons]
    exact .cons hvalue (ih hvalues)

/-- Text around templates with a separator between them. -/
theorem EmitsAll.joined {others : Emitter Value ε (List (List Char))}
    {templates : List (List Piece)} (h : EmitsAll first others templates)
    (before separator behind : List Char) :
    Emits first (others >>= fun parts => pure (before ++ separator.intercalate parts ++ behind))
      (.text before :: [.text separator].intercalate templates ++ [.text behind]) := by
  intro pushed
  obtain ⟨parts, more, hrun, hmore, -, hparts⟩ := h pushed
  refine ⟨more, ?_, ?_⟩
  · show (others pushed >>= _) = _
    rw [hrun, fill_append, fill, ← hparts, fill, fill, List.append_nil]
    rfl
  · rw [holes_append, holes, holes_intercalate, hmore]
    rfl

end

end TaskFlow.Template
