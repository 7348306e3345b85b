import Mathlib.Data.Char
import TaskFlow.LexOrder

/-! # Fractional index ranks

Lists and cards carry a rank, sorted lexicographically within their parent.  A
rank is an integer part followed by a fraction.  The integer part describes
itself: its first character encodes sign and length, so `integerPartOf` splits
a rank without a separator.  The fraction is read as the digits after a point
and never ends in the zero digit.

`between` produces a rank between two neighbours: a neighbouring integer where
one fits, else a `midpoint` of two fractions.

A string is the list of its characters.  `charAt` past the end is `none`, which
stands for the empty string, and comparing strings is comparing the lists.
-/
namespace TaskFlow
namespace Rank

/-- 62 digits in ASCII order. -/
def RANK_DIGITS : List Char :=
  "0123456789ABCDEFGHIJKLMNOPQRSTUVWXYZabcdefghijklmnopqrstuvwxyz".toList

def BASE : Int := 62

def ZERO : Char := '0'

def LAST : Char := 'z'

/-- Index of a digit, or -1.  The empty string, which `charAt` returns past the
end, is found at index 0 of any string. -/
def digitValue : Option Char → Int
  | none => 0
  | some char => if char ∈ RANK_DIGITS then RANK_DIGITS.idxOf char else -1

/-- The digit at `value`, or the empty string out of range. -/
def digitAt (value : Int) : List Char :=
  if 0 ≤ value then RANK_DIGITS[value.toNat]?.toList else []

/-- The integer denoting zero, and the rank of the first item in an empty list. -/
def ZERO_INTEGER : List Char := ['a', ZERO]

/-- The most negative integer the encoding can express. -/
def SMALLEST_INTEGER : List Char := 'A' :: List.replicate 26 ZERO

/-- The length past which a list should be renormalized. -/
def RANK_REBALANCE_THRESHOLD : Nat := 24

/-! ### Errors -/

/-- `JSON.stringify` of a string. -/
def jsonStringify (value : List Char) : String :=
  let hex (n : Nat) : Char := Nat.digitChar n
  let escape (c : Char) : List Char :=
    if c = '"' then ['\\', '"']
    else if c = '\\' then ['\\', '\\']
    else if c.toNat = 8 then ['\\', 'b']
    else if c.toNat = 9 then ['\\', 't']
    else if c.toNat = 10 then ['\\', 'n']
    else if c.toNat = 12 then ['\\', 'f']
    else if c.toNat = 13 then ['\\', 'r']
    else if c.toNat < 32 then ['\\', 'u', '0', '0', hex (c.toNat / 16), hex (c.toNat % 16)]
    else [c]
  String.ofList (['"'] ++ value.flatMap escape ++ ['"'])

/-- Why a rank was refused. -/
inductive InvalidRankError where
  | noIntegerPart (rank : List Char)
  | notARank (label : String) (value : List Char)
  | outOfOrder (before after : List Char)
  | exhaustedAbove
  | exhaustedBelow
  deriving DecidableEq, Repr

def InvalidRankError.message : InvalidRankError → String
  | .noIntegerPart rank => "Rank " ++ jsonStringify rank ++ " has no well-formed integer part."
  | .notARank label value => label ++ " is not a valid rank: " ++ jsonStringify value
  | .outOfOrder before after =>
      "Cannot generate a rank between " ++ jsonStringify before ++ " and " ++
        jsonStringify after ++ ": the neighbours are equal or out of order."
  | .exhaustedAbove => "Rank space exhausted above; the list needs a rebalance."
  | .exhaustedBelow => "Rank space exhausted below; the list needs a rebalance."

/-! ### The integer part -/

/-- Total length of the integer whose first character is `head`, or -1 when
`head` does not describe one. -/
def integerLength : Option Char → Int
  | none => -1
  | some head =>
    if 'a' ≤ head ∧ head ≤ 'z' then (head.toNat : Int) - 'a'.toNat + 2
    else if 'A' ≤ head ∧ head ≤ 'Z' then ('Z'.toNat : Int) - head.toNat + 2
    else -1

/-- Splits the integer part off the front of a rank. -/
def integerPartOf (rank : List Char) : Except InvalidRankError (List Char) :=
  let length := integerLength rank[0]?
  if length < 0 ∨ rank.length < length then .error (.noIntegerPart rank)
  else .ok (rank.take length.toNat)

/-- The carry loop of `incrementInteger`, from the last digit on: the digits it
leaves and whether the carry is still set. -/
def incrementDigits : List Char → List Char × Bool
  | [] => ([], true)
  | d :: ds =>
    match incrementDigits ds with
    | (rest, false) => (d :: rest, false)
    | (rest, true) =>
      let next := digitValue (some d) + 1
      if next = BASE then (ZERO :: rest, true) else (digitAt next ++ rest, false)

/-- The next integer after `x`, or `none` when the encoding is exhausted. -/
def incrementInteger : List Char → Option (List Char)
  | [] => some [Char.ofNat 0]
  | head :: ds =>
    match incrementDigits ds with
    | (digits, false) => some (head :: digits)
    | (digits, true) =>
      -- The digits wrapped, so the integer needs a different head.
      if head = 'Z' then some ZERO_INTEGER
      else if head = 'z' then none
      else
        let nextHead := Char.ofNat (head.toNat + 1)
        if 'a' < nextHead then some (nextHead :: (digits ++ [ZERO]))
        else some (nextHead :: digits.dropLast)

/-- The borrow loop of `decrementInteger`. -/
def decrementDigits : List Char → List Char × Bool
  | [] => ([], true)
  | d :: ds =>
    match decrementDigits ds with
    | (rest, false) => (d :: rest, false)
    | (rest, true) =>
      let next := digitValue (some d) - 1
      if next = -1 then (LAST :: rest, true) else (digitAt next ++ rest, false)

/-- The previous integer before `x`, or `none` when the encoding is exhausted. -/
def decrementInteger : List Char → Option (List Char)
  | [] => some [Char.ofNat 0xFFFF]
  | head :: ds =>
    match decrementDigits ds with
    | (digits, false) => some (head :: digits)
    | (digits, true) =>
      if head = 'a' then some ['Z', LAST]
      else if head = 'A' then none
      else
        let nextHead := Char.ofNat (head.toNat - 1)
        if nextHead < 'Z' then some (nextHead :: (digits ++ [LAST]))
        else some (nextHead :: digits.dropLast)

/-! ### Validation -/

/-- True when `value` is a well-formed rank. -/
def isRank (value : List Char) : Bool :=
  if value.length = 0 then false
  else
    let length := integerLength value[0]?
    if length < 0 ∨ value.length < length then false
    else if value.any (fun char => digitValue (some char) < 0) then false
    else (value.drop length.toNat).getLast? ≠ some ZERO

def requireRank (value : List Char) (label : String) : Except InvalidRankError Unit :=
  if isRank value then .ok () else .error (.notARank label value)

/-! ### Generation -/

/-- How long a prefix of `b` equals `a` continued with zero digits. -/
def sharedLength : List Char → List Char → Nat
  | _, [] => 0
  | a, c :: b => if a.headD ZERO = c then sharedLength a.tail b + 1 else 0

theorem sharedLength_le : ∀ a b : List Char, sharedLength a b ≤ b.length
  | _, [] => Nat.le_refl 0
  | a, c :: b => by
      rw [sharedLength]
      split
      · exact Nat.succ_le_succ (sharedLength_le a.tail b)
      · exact Nat.zero_le _

/-- The midpoint of two fractional digit strings, where `[]` denotes 0 and
`none` denotes 1. -/
def midpoint (a : List Char) (b : Option (List Char)) : List Char :=
  let shared := b.elim 0 (sharedLength a)
  if 0 < shared then
    -- Copy the common prefix and recurse on what remains.
    (b.getD []).take shared ++ midpoint (a.drop shared) (b.map (List.drop shared))
  else
    let low := if a = [] then 0 else digitValue a[0]?
    let high := b.elim BASE (fun b => digitValue b[0]?)
    -- A digit fits between them.
    if 1 < high - low then digitAt ((low + high + 1) / 2)
    -- `b`'s first digit alone sits between them.
    else if b.any (fun b => 1 < b.length) then (b.getD []).take 1
    -- Keep `a`'s digit and find a position beyond `a`'s remaining precision.
    else digitAt low ++ midpoint (a.drop 1) none
termination_by a.length + b.elim 0 (fun b => b.length + 1)
decreasing_by
  · rename_i h
    cases b with
    | none => exact absurd h (Nat.lt_irrefl 0)
    | some b =>
      have hle := sharedLength_le a b
      change 0 < sharedLength a b at h
      change (a.drop (sharedLength a b)).length + ((b.drop (sharedLength a b)).length + 1) < _
      simp only [List.length_drop, Option.elim]
      omega
  · rename_i h _
    cases b with
    | none =>
      cases a with
      | nil => exact absurd (show 1 < BASE - 0 by decide) h
      | cons c a => simp
    | some b => simp; omega

/-- A rank above `before`, with nothing after it. -/
def afterRank (before : List Char) : Except InvalidRankError (List Char) := do
  let integer ← integerPartOf before
  match incrementInteger integer with
  | some incremented => return incremented
  | none => return integer ++ midpoint (before.drop integer.length) none

/-- A rank below `after`, with nothing before it. -/
def beforeRank (after : List Char) : Except InvalidRankError (List Char) := do
  let integer ← integerPartOf after
  let fraction := after.drop integer.length
  if integer = SMALLEST_INTEGER then return integer ++ midpoint [] (some fraction)
  if integer < after then return integer
  match decrementInteger integer with
  | some decremented => return decremented
  | none => throw .exhaustedBelow

/-- A rank strictly between `before` and `after`, where `none` is an end of the
list. -/
def between (before after : Option (List Char)) : Except InvalidRankError (List Char) := do
  if let some before := before then requireRank before "before"
  if let some after := after then requireRank after "after"
  match before, after with
  | none, none => return ZERO_INTEGER
  | none, some after => beforeRank after
  | some before, none => afterRank before
  | some before, some after =>
    if after ≤ before then throw (.outOfOrder before after)
    let integerBefore ← integerPartOf before
    let integerAfter ← integerPartOf after
    if integerBefore = integerAfter then
      return integerBefore ++
        midpoint (before.drop integerBefore.length) (some (after.drop integerAfter.length))
    match incrementInteger integerBefore with
    | none => throw .exhaustedAbove
    | some incremented =>
      if incremented < after then return incremented
      return integerBefore ++ midpoint (before.drop integerBefore.length) none

/-- The rank for the first item in an empty list. -/
def initialRank : List Char := ZERO_INTEGER

/-- The loop of `rankSequence`: `count` more ranks after `cursor`. -/
def rankSequenceFrom (cursor : Option (List Char)) :
    Nat → Except InvalidRankError (List (List Char))
  | 0 => return []
  | count + 1 => do
    let rank ← between cursor none
    return rank :: (← rankSequenceFrom (some rank) count)

/-- `count` ascending ranks, evenly spaced. -/
def rankSequence (count : Nat) : Except InvalidRankError (List (List Char)) :=
  rankSequenceFrom none count

/-- True when a list's ranks have degenerated far enough to be worth rewriting. -/
def needsRebalance (ranks : List (List Char)) : Bool :=
  ranks.any (fun rank => RANK_REBALANCE_THRESHOLD ≤ rank.length)

example : (rankSequence 64).toOption.map (fun ranks => (ranks[61]?, ranks[62]?)) =
    some (some "az".toList, some "b00".toList) := by decide +kernel

end Rank
end TaskFlow
