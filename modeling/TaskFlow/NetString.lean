import Mathlib.Data.List.Basic

/-! # Length-prefixed texts

A text is written as its length in bytes, a colon and itself, and a missing one
as a dash.  So texts that follow each other can be told apart whatever they
contain: `decode_encode` reads the first one back, and `flatMap_encode_inj` says
that the concatenation of a fixed number of them determines each.
-/
namespace NetString

/-- The UTF-8 bytes of a text. -/
def utf8 (text : List Char) : List UInt8 := text.flatMap String.utf8EncodeChar

/-- The length of a text in bytes. -/
def octets (text : List Char) : Nat := (utf8 text).length

def encode : Option (List Char) → List Char
  | none => ['-']
  | some text => Nat.toDigits 10 (octets text) ++ ':' :: text

/-- The characters that make up the first `n` bytes of a text, and the rest. -/
def takeOctets : Nat → List Char → Option (List Char × List Char)
  | 0, rest => some ([], rest)
  | _ + 1, [] => none
  | n + 1, c :: cs =>
    if c.utf8Size ≤ n + 1 then
      (takeOctets (n + 1 - c.utf8Size) cs).map fun (text, rest) => (c :: text, rest)
    else none

/-- The first text of a concatenation, and the rest. -/
def decode (s : List Char) : Option (Option (List Char) × List Char) :=
  match s.dropWhile Char.isDigit with
  | '-' :: rest => some (none, rest)
  | ':' :: rest =>
    (takeOctets (Nat.ofDigitChars 10 (s.takeWhile Char.isDigit) 0) rest).map
      fun (text, rest) => (some text, rest)
  | _ => none

@[simp] theorem utf8_nil : utf8 [] = [] := rfl

theorem utf8_cons (c : Char) (text : List Char) :
    utf8 (c :: text) = String.utf8EncodeChar c ++ utf8 text := rfl

theorem utf8_append (text text' : List Char) : utf8 (text ++ text') = utf8 text ++ utf8 text' :=
  List.flatMap_append

@[simp] theorem octets_nil : octets [] = 0 := rfl

@[simp] theorem octets_cons (c : Char) (text : List Char) :
    octets (c :: text) = c.utf8Size + octets text := by
  rw [octets, utf8_cons, List.length_append, String.length_utf8EncodeChar, octets]

theorem utf8_inj {text text' : List Char} (h : utf8 text = utf8 text') : text = text' := by
  refine String.ofList_injective (String.toByteArray_inj.mp ?_)
  rw [String.toByteArray_ofList, String.toByteArray_ofList]
  exact congrArg List.toByteArray h

theorem takeOctets_append (text rest : List Char) :
    takeOctets (octets text) (text ++ rest) = some (text, rest) := by
  induction text with
  | nil => rw [octets_nil, List.nil_append, takeOctets]
  | cons c text ih =>
    have hc := c.utf8Size_pos
    obtain ⟨n, hn⟩ : ∃ n, c.utf8Size + octets text = n + 1 :=
      ⟨c.utf8Size + octets text - 1, by omega⟩
    have hrest : n + 1 - c.utf8Size = octets text := by omega
    rw [octets_cons, hn, List.cons_append, takeOctets, if_pos (by omega), hrest, ih]
    rfl

theorem decode_encode (x : Option (List Char)) (rest : List Char) :
    decode (encode x ++ rest) = some (x, rest) := by
  cases x with
  | none => rfl
  | some text =>
    have hdigits : ∀ c ∈ Nat.toDigits 10 (octets text), c.isDigit = true := fun c hc =>
      Nat.isDigit_of_mem_toDigits (by decide) (by decide) hc
    have hsplit : encode (some text) ++ rest =
        Nat.toDigits 10 (octets text) ++ (':' :: (text ++ rest)) := by simp [encode]
    have hcolon : ¬(':').isDigit = true := by decide
    rw [hsplit, decode, List.dropWhile_append_of_pos hdigits, List.takeWhile_append_of_pos hdigits,
      List.dropWhile_cons_of_neg hcolon, List.takeWhile_cons_of_neg hcolon, List.append_nil,
      Nat.ofDigitChars_ten_toDigits]
    simp only [takeOctets_append, Option.map_some]

/-- What follows an encoded text does not change it. -/
theorem encode_append_inj {x y : Option (List Char)} {rest rest' : List Char}
    (h : encode x ++ rest = encode y ++ rest') : x = y ∧ rest = rest' := by
  have hdecode := decode_encode x rest
  rw [h, decode_encode y rest', Option.some.injEq, Prod.mk.injEq] at hdecode
  exact ⟨hdecode.1.symm, hdecode.2.symm⟩

/-- **A fixed number of texts is determined by its encoding.** -/
theorem flatMap_encode_inj : ∀ {xs ys : List (Option (List Char))}, xs.length = ys.length →
    xs.flatMap encode = ys.flatMap encode → xs = ys
  | [], [], _, _ => rfl
  | x :: xs, y :: ys, hlen, h => by
    rw [List.flatMap_cons, List.flatMap_cons] at h
    obtain ⟨rfl, hrest⟩ := encode_append_inj h
    rw [flatMap_encode_inj (Nat.succ.inj hlen) hrest]
  | [], _ :: _, hlen, _ => absurd hlen (by simp)
  | _ :: _, [], hlen, _ => absurd hlen (by simp)

end NetString
