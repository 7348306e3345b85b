import Mathlib.Data.List.Basic

/-! # Lexers that take the leftmost match

Several patterns look for something to take of a text.  `lex` takes what begins first, where two
begin at one place what the pattern listed first takes, and goes on behind it; what lies between is
plain.

Where a value prints as what was taken for it, the values of a text print as the text (`print_lex`).
The other way round, a list of values is read from its print if and only if it is `Legible`: nothing
is taken before a value that is to be taken, nor anything else in its place (`lex_print_iff`).
-/
namespace TaskFlow
namespace LeftmostLexer

variable {α β : Type}

/-- What a pattern takes of a text, at its beginning: how much, and the value of it. -/
abbrev Pattern (α β : Type) := List α → Option (Nat × β)

structure Match (β : Type) where
  index : Nat
  length : Nat
  value : β

def Match.shift (m : Match β) : Match β := { m with index := m.index + 1 }

/-! ### The next match -/

/-- The first match of a pattern. -/
@[grind =] def exec (p : Pattern α β) : List α → Option (Match β)
  | [] => (p []).map fun taken => ⟨0, taken.1, taken.2⟩
  | x :: xs =>
    match p (x :: xs) with
    | some taken => some ⟨0, taken.1, taken.2⟩
    | none => (exec p xs).map Match.shift

theorem exec_nil {p : Pattern α β} :
    exec p [] = (p []).map fun taken => ⟨0, taken.1, taken.2⟩ := rfl

theorem exec_cons_of_some {p : Pattern α β} {x : α} {xs : List α} {taken : Nat × β}
    (h : p (x :: xs) = some taken) : exec p (x :: xs) = some ⟨0, taken.1, taken.2⟩ := by
  rw [exec, h]

theorem exec_cons_of_none {p : Pattern α β} {x : α} {xs : List α} (h : p (x :: xs) = none) :
    exec p (x :: xs) = (exec p xs).map Match.shift := by
  rw [exec, h]

/-- The one of two matches that begins first. -/
@[grind =] def consider (best next : Option (Match β)) : Option (Match β) :=
  match best, next with
  | none, next => next
  | some best, none => some best
  | some best, some next => if next.index < best.index then some next else some best

def nextMatch (patterns : List (Pattern α β)) (text : List α) : Option (Match β) :=
  patterns.foldl (fun best p => consider best (exec p text)) none

/-- What the first of the patterns takes that takes anything. -/
def anyOf (patterns : List (Pattern α β)) : Pattern α β := fun text =>
  patterns.findSome? fun p => p text

theorem map_shift_eq_zero {found : Option (Match β)} {n : Nat} {b : β} :
    found.map Match.shift ≠ some ⟨0, n, b⟩ := by
  intro h
  obtain ⟨m, -, hm⟩ := Option.map_eq_some_iff.mp h
  cases (Match.mk.inj hm).1

theorem map_shift_eq_succ {found : Option (Match β)} {index n : Nat} {b : β} :
    found.map Match.shift = some ⟨index + 1, n, b⟩ ↔ found = some ⟨index, n, b⟩ := by
  rw [Option.map_eq_some_iff]
  constructor
  · rintro ⟨⟨i, n, b⟩, hm, hshift⟩
    obtain ⟨hi, rfl, rfl⟩ := Match.mk.inj hshift
    obtain rfl : i = index := Nat.succ.inj hi
    exact hm
  · exact fun h => ⟨_, h, rfl⟩

theorem exec_eq_some_iff {p : Pattern α β} {text : List α} {m : Match β} :
    exec p text = some m ↔ m.index ≤ text.length ∧
      p (text.drop m.index) = some (m.length, m.value) ∧ ∀ i < m.index, p (text.drop i) = none := by
  induction text generalizing m with
  | nil =>
    obtain ⟨index, length, value⟩ := m
    rw [exec_nil, Option.map_eq_some_iff]
    constructor
    · rintro ⟨taken, htaken, hm⟩
      obtain ⟨rfl, rfl, rfl⟩ := Match.mk.inj hm
      exact ⟨Nat.le_refl _, htaken, fun i hi => absurd hi (Nat.not_lt_zero i)⟩
    · rintro ⟨hindex, htaken, -⟩
      obtain rfl : index = 0 := Nat.le_zero.mp hindex
      exact ⟨_, htaken, rfl⟩
  | cons x xs ih =>
    obtain ⟨index, length, value⟩ := m
    cases hp : p (x :: xs) with
    | some taken =>
      rw [exec_cons_of_some hp]
      constructor
      · intro h
        obtain ⟨rfl, rfl, rfl⟩ := Match.mk.inj (Option.some.inj h)
        exact ⟨Nat.zero_le _, hp, fun i hi => absurd hi (Nat.not_lt_zero i)⟩
      · rintro ⟨-, htaken, hbefore⟩
        cases index with
        | zero =>
          obtain rfl := Option.some.inj (hp.symm.trans htaken)
          rfl
        | succ index => cases hp.symm.trans (hbefore 0 (Nat.zero_lt_succ index))
    | none =>
      rw [exec_cons_of_none hp]
      cases index with
      | zero =>
        refine ⟨fun h => absurd h map_shift_eq_zero, fun h => ?_⟩
        cases hp.symm.trans h.2.1
      | succ index =>
        rw [map_shift_eq_succ, ih]
        constructor
        · rintro ⟨hindex, htaken, hbefore⟩
          refine ⟨Nat.succ_le_succ hindex, htaken, fun i hi => ?_⟩
          cases i with
          | zero => exact hp
          | succ i => exact hbefore i (Nat.lt_of_succ_lt_succ hi)
        · rintro ⟨hindex, htaken, hbefore⟩
          exact ⟨Nat.le_of_succ_le_succ hindex, htaken,
            fun i hi => hbefore (i + 1) (Nat.succ_lt_succ hi)⟩

theorem exec_eq_none_iff {p : Pattern α β} {text : List α} :
    exec p text = none ↔ ∀ i ≤ text.length, p (text.drop i) = none := by
  induction text with
  | nil =>
    rw [exec_nil, Option.map_eq_none_iff]
    refine ⟨fun h i _ => by rwa [List.drop_nil], fun h => h 0 (Nat.le_refl _)⟩
  | cons x xs ih =>
    cases hp : p (x :: xs) with
    | some taken =>
      rw [exec_cons_of_some hp]
      refine ⟨fun h => ?_, fun h => ?_⟩
      · cases h
      · cases hp.symm.trans (h 0 (Nat.zero_le _))
    | none =>
      rw [exec_cons_of_none hp, Option.map_eq_none_iff, ih]
      constructor
      · intro h i hi
        cases i with
        | zero => exact hp
        | succ i => exact h i (Nat.le_of_succ_le_succ hi)
      · exact fun h i hi => h (i + 1) (Nat.succ_le_succ hi)

/-- Behind what is before a match, the match is at the beginning. -/
theorem exec_drop {p : Pattern α β} {text : List α} {m : Match β} (h : exec p text = some m) :
    exec p (text.drop m.index) = some ⟨0, m.length, m.value⟩ := by
  obtain ⟨-, htaken, -⟩ := (exec_eq_some_iff).mp h
  exact (exec_eq_some_iff).mpr ⟨Nat.zero_le _, htaken, fun i hi => absurd hi (Nat.not_lt_zero i)⟩

/-! ### All patterns together -/

theorem consider_shift (best next : Option (Match β)) :
    consider (best.map Match.shift) (next.map Match.shift) =
      (consider best next).map Match.shift := by
  cases best with
  | none => rfl
  | some best =>
    cases next with
    | none => rfl
    | some next =>
      simp only [consider, Option.map_some, Match.shift, Nat.add_lt_add_iff_right]
      split <;> rfl

/-- A match at the beginning is not outdone. -/
theorem foldl_consider_zero {text : List α} (patterns : List (Pattern α β)) (n : Nat) (b : β) :
    patterns.foldl (fun best p => consider best (exec p text)) (some ⟨0, n, b⟩) =
      some ⟨0, n, b⟩ := by
  induction patterns with
  | nil => rfl
  | cons p patterns ih =>
    rw [List.foldl_cons]
    cases exec p text with
    | none => exact ih
    | some m =>
      rw [consider, if_neg (Nat.not_lt_zero _)]
      exact ih

theorem index_pos_of_exec {p : Pattern α β} {text : List α} (hp : p text = none) :
    ∀ m ∈ exec p text, 0 < m.index := by
  intro m hm
  refine Nat.pos_of_ne_zero fun hzero => ?_
  have htaken := ((exec_eq_some_iff).mp hm).2.1
  rw [hzero, List.drop_zero, hp] at htaken
  cases htaken

theorem index_pos_of_consider {best next : Option (Match β)} (hbest : ∀ m ∈ best, 0 < m.index)
    (hnext : ∀ m ∈ next, 0 < m.index) : ∀ m ∈ consider best next, 0 < m.index := by
  intro m hm
  cases best with
  | none => exact hnext m hm
  | some best =>
    cases next with
    | none => exact hbest m hm
    | some next =>
      rw [consider] at hm
      split at hm
      · exact hnext m hm
      · exact hbest m hm

/-- Where a pattern takes something at the beginning, the first one that does has the next match. -/
theorem foldl_consider_of_anyOf {text : List α} {n : Nat} {b : β}
    {patterns : List (Pattern α β)} {best : Option (Match β)}
    (hbest : ∀ m ∈ best, 0 < m.index) (h : anyOf patterns text = some (n, b)) :
    patterns.foldl (fun best p => consider best (exec p text)) best = some ⟨0, n, b⟩ := by
  induction patterns generalizing best with
  | nil => cases h
  | cons p patterns ih =>
    rw [List.foldl_cons]
    rw [anyOf, List.findSome?_cons] at h
    cases hp : p text with
    | some taken =>
      rw [hp] at h
      obtain rfl := Option.some.inj h
      have hexec : exec p text = some ⟨0, n, b⟩ := (exec_eq_some_iff).mpr
        ⟨Nat.zero_le _, hp, fun i hi => absurd hi (Nat.not_lt_zero i)⟩
      have hfirst : consider best (exec p text) = some ⟨0, n, b⟩ := by
        rw [hexec]
        cases best with
        | none => rfl
        | some m => rw [consider, if_pos (hbest m rfl)]
      rw [hfirst]
      exact foldl_consider_zero patterns n b
    | none =>
      rw [hp] at h
      exact ih (index_pos_of_consider hbest (index_pos_of_exec hp)) h

/-- Where none takes anything at the beginning, the matches are those behind it. -/
theorem foldl_consider_cons {x : α} {xs : List α} {patterns : List (Pattern α β)}
    (h : ∀ p ∈ patterns, p (x :: xs) = none) (best : Option (Match β)) :
    patterns.foldl (fun best p => consider best (exec p (x :: xs))) (best.map Match.shift) =
      (patterns.foldl (fun best p => consider best (exec p xs)) best).map Match.shift := by
  induction patterns generalizing best with
  | nil => rfl
  | cons p patterns ih =>
    have hexec := exec_cons_of_none (h p List.mem_cons_self)
    rw [List.foldl_cons, List.foldl_cons, hexec, consider_shift]
    exact ih (fun p hp => h p (List.mem_cons_of_mem _ hp)) _

theorem foldl_consider_nil {patterns : List (Pattern α β)} (h : ∀ p ∈ patterns, p [] = none)
    (best : Option (Match β)) :
    patterns.foldl (fun best p => consider best (exec p [])) best = best := by
  induction patterns with
  | nil => rfl
  | cons p patterns ih =>
    have hexec : exec p [] = none := by
      rw [exec_nil, h p List.mem_cons_self]
      rfl
    rw [List.foldl_cons, hexec]
    refine Eq.trans ?_ (ih fun p hp => h p (List.mem_cons_of_mem _ hp))
    cases best <;> rfl

/-- The next match is that of the patterns as one. -/
theorem nextMatch_eq_exec (patterns : List (Pattern α β)) (text : List α) :
    nextMatch patterns text = exec (anyOf patterns) text := by
  induction text with
  | nil =>
    rw [exec_nil]
    cases h : anyOf patterns [] with
    | some taken => exact foldl_consider_of_anyOf (fun _ h => by cases h) h
    | none => exact foldl_consider_nil (List.findSome?_eq_none_iff.mp h) none
  | cons x xs ih =>
    cases h : anyOf patterns (x :: xs) with
    | some taken =>
      rw [exec_cons_of_some h]
      exact foldl_consider_of_anyOf (fun _ h => by cases h) h
    | none =>
      rw [exec_cons_of_none h]
      refine (foldl_consider_cons (List.findSome?_eq_none_iff.mp h) none).trans ?_
      exact congrArg (Option.map Match.shift) ih

/-! ### Lexing -/

/-- Plain text, unless there is none. -/
def plainly (plain : List α → β) (text : List α) : List β :=
  if text = [] then [] else [plain text]

/-- Matches are taken as long as there are any. -/
@[grind =] def tokens (patterns : List (Pattern α β)) (plain : List α → β) :
    Nat → List α → List β
  | 0, text => plainly plain text
  | fuel + 1, text =>
    match nextMatch patterns text with
    | none => plainly plain text
    | some m => plainly plain (text.take m.index) ++
        m.value :: tokens patterns plain fuel (text.drop (m.index + m.length))

def lex (patterns : List (Pattern α β)) (plain : List α → β) (text : List α) : List β :=
  tokens patterns plain text.length text

/-- Where the lexer stands as it goes through a text: it takes what there is to take there, and goes
on by one where there is nothing. -/
inductive Reaches (patterns : List (Pattern α β)) : List α → List α → Prop where
  | here (text : List α) : Reaches patterns text text
  | pass {x : α} {xs rest : List α} (hnone : anyOf patterns (x :: xs) = none)
      (h : Reaches patterns xs rest) : Reaches patterns (x :: xs) rest
  | take {text rest : List α} {n : Nat} {b : β} (htaken : anyOf patterns text = some (n, b))
      (h : Reaches patterns (text.drop n) rest) : Reaches patterns text rest

/-- A value prints as what was taken for it, which is something. -/
structure Lawful (patterns : List (Pattern α β)) (plain : List α → β) (print : β → List α) :
    Prop where
  print_plain : ∀ text, print (plain text) = text
  taken : ∀ p ∈ patterns, ∀ text n b, p text = some (n, b) →
    0 < n ∧ n ≤ text.length ∧ print b = text.take n

/-- Each value is what the first pattern that takes anything takes of its print, or it is plain text
that none takes anything of, and after which one does. -/
def Legible (patterns : List (Pattern α β)) (plain : List α → β) (print : β → List α) :
    List β → Prop
  | [] => True
  | b :: bs => Legible patterns plain print bs ∧
    (anyOf patterns (print b ++ bs.flatMap print) = some ((print b).length, b) ∨
      ∃ text ≠ [], b = plain text ∧
        (∀ i < text.length, anyOf patterns ((text ++ bs.flatMap print).drop i) = none) ∧
        (bs = [] ∨ (anyOf patterns (bs.flatMap print)).isSome))

section
variable {patterns : List (Pattern α β)} {plain : List α → β} {print : β → List α}

theorem nextMatch_drop {text : List α} {m : Match β} (h : nextMatch patterns text = some m) :
    nextMatch patterns (text.drop m.index) = some ⟨0, m.length, m.value⟩ := by
  rw [nextMatch_eq_exec] at h ⊢
  exact exec_drop h

theorem Lawful.of_nextMatch (hl : Lawful patterns plain print) {text : List α} {m : Match β}
    (h : nextMatch patterns text = some m) :
    0 < m.length ∧ m.index + m.length ≤ text.length ∧
      print m.value = (text.drop m.index).take m.length := by
  rw [nextMatch_eq_exec] at h
  obtain ⟨hindex, htaken, -⟩ := (exec_eq_some_iff).mp h
  obtain ⟨p, hp, htaken⟩ := List.exists_of_findSome?_eq_some htaken
  obtain ⟨hpos, hlength, hprint⟩ := hl.taken p hp _ _ _ htaken
  rw [List.length_drop] at hlength
  exact ⟨hpos, by omega, hprint⟩

theorem Lawful.nextMatch_nil (hl : Lawful patterns plain print) :
    nextMatch patterns [] = none := by
  rw [Option.eq_none_iff_forall_ne_some]
  intro m h
  obtain ⟨hpos, hlength, -⟩ := hl.of_nextMatch h
  rw [List.length_nil] at hlength
  omega

/-- More fuel than there is text makes no difference. -/
theorem Lawful.tokens_eq_lex (hl : Lawful patterns plain print) {fuel : Nat} {text : List α}
    (h : text.length ≤ fuel) : tokens patterns plain fuel text = lex patterns plain text := by
  have hmore : ∀ fuel fuel' (text : List α), text.length ≤ fuel → text.length ≤ fuel' →
      tokens patterns plain fuel text = tokens patterns plain fuel' text := by
    intro fuel
    induction fuel with
    | zero =>
      intro fuel' text h _
      obtain rfl := List.length_eq_zero_iff.mp (Nat.le_zero.mp h)
      cases fuel' with
      | zero => rfl
      | succ fuel' => rw [tokens, tokens, hl.nextMatch_nil]
    | succ fuel ih =>
      intro fuel' text h h'
      cases fuel' with
      | zero =>
        obtain rfl := List.length_eq_zero_iff.mp (Nat.le_zero.mp h')
        rw [tokens, tokens, hl.nextMatch_nil]
      | succ fuel' =>
        rw [tokens, tokens]
        cases hm : nextMatch patterns text with
        | none => rfl
        | some m =>
          obtain ⟨hpos, hlength, -⟩ := hl.of_nextMatch hm
          have hless : (text.drop (m.index + m.length)).length + 1 ≤ text.length := by
            rw [List.length_drop]
            omega
          simp only []
          rw [ih fuel' _ (by omega) (by omega)]
  exact hmore _ _ text h (Nat.le_refl _)

theorem Lawful.lex_of_none (hl : Lawful patterns plain print) {text : List α}
    (h : nextMatch patterns text = none) : lex patterns plain text = plainly plain text := by
  rw [← hl.tokens_eq_lex (Nat.le_succ text.length), tokens, h]

theorem Lawful.lex_of_some (hl : Lawful patterns plain print) {text : List α} {m : Match β}
    (h : nextMatch patterns text = some m) :
    lex patterns plain text = plainly plain (text.take m.index) ++
      m.value :: lex patterns plain (text.drop (m.index + m.length)) := by
  rw [← hl.tokens_eq_lex (Nat.le_succ text.length), tokens, h]
  refine congrArg (fun bs => plainly plain (text.take m.index) ++ m.value :: bs)
    (hl.tokens_eq_lex ?_)
  rw [List.length_drop]
  omega

theorem Lawful.lex_of_zero (hl : Lawful patterns plain print) {text : List α} {n : Nat} {b : β}
    (h : nextMatch patterns text = some ⟨0, n, b⟩) :
    lex patterns plain text = b :: lex patterns plain (text.drop n) := by
  rw [hl.lex_of_some h]
  simp only [List.take_zero, plainly, if_pos, List.nil_append, Nat.zero_add]

/-- What is before a match is plain text. -/
theorem Lawful.lex_of_pos (hl : Lawful patterns plain print) {text : List α} {m : Match β}
    (h : nextMatch patterns text = some m) (hpos : 0 < m.index) :
    lex patterns plain text =
      plain (text.take m.index) :: lex patterns plain (text.drop m.index) := by
  have hne : text.take m.index ≠ [] := by
    intro hnil
    have hlength := congrArg List.length hnil
    have hbounds := hl.of_nextMatch h
    rw [List.length_take, List.length_nil] at hlength
    omega
  rw [hl.lex_of_some h, hl.lex_of_zero (nextMatch_drop h), List.drop_drop]
  simp only [plainly, if_neg hne, List.singleton_append]

theorem Lawful.print_plainly (hl : Lawful patterns plain print) (text : List α) :
    (plainly plain text).flatMap print = text := by
  unfold plainly
  split
  · next hnil => rw [hnil, List.flatMap_nil]
  · rw [List.flatMap_singleton, hl.print_plain]

/-- The values of a text print as the text. -/
theorem Lawful.print_lex (hl : Lawful patterns plain print) (text : List α) :
    (lex patterns plain text).flatMap print = text := by
  induction hn : text.length using Nat.strongRecOn generalizing text with
  | _ n ih =>
    cases hm : nextMatch patterns text with
    | none =>
      rw [hl.lex_of_none hm]
      exact hl.print_plainly text
    | some m =>
      obtain ⟨hpos, hlength, hprint⟩ := hl.of_nextMatch hm
      have hrest := ih (text.drop (m.index + m.length)).length
        (by rw [List.length_drop]; omega) _ rfl
      rw [hl.lex_of_some hm, List.flatMap_append, List.flatMap_cons, hl.print_plainly, hrest,
        hprint, ← List.drop_drop, List.take_append_drop, List.take_append_drop]

theorem Lawful.lex_nil (hl : Lawful patterns plain print) : lex patterns plain [] = [] :=
  hl.lex_of_none hl.nextMatch_nil

/-! ### What is taken -/

theorem Lawful.anyOf_nil (hl : Lawful patterns plain print) : anyOf patterns [] = none := by
  have hnext := hl.nextMatch_nil
  rw [nextMatch_eq_exec, exec_nil, Option.map_eq_none_iff] at hnext
  exact hnext

theorem nextMatch_eq_zero_iff {text : List α} {n : Nat} {b : β} :
    nextMatch patterns text = some ⟨0, n, b⟩ ↔ anyOf patterns text = some (n, b) := by
  rw [nextMatch_eq_exec, exec_eq_some_iff]
  exact ⟨fun h => h.2.1, fun h => ⟨Nat.zero_le _, h, fun i hi => absurd hi (Nat.not_lt_zero i)⟩⟩

/-- One character that is passed does not matter, where plain text is all right. -/
theorem Lawful.forall_lex_cons (hl : Lawful patterns plain print) {P : β → Prop}
    (hplain : ∀ piece, P (plain piece)) {x : α} {xs : List α}
    (h : anyOf patterns (x :: xs) = none) :
    (∀ b ∈ lex patterns plain (x :: xs), P b) ↔ ∀ b ∈ lex patterns plain xs, P b := by
  have hpiece (text : List α) : ∀ b ∈ plainly plain text, P b := by
    intro b hb
    unfold plainly at hb
    split at hb
    · cases hb
    · obtain rfl := List.mem_singleton.mp hb
      exact hplain text
  have hnext : nextMatch patterns (x :: xs) = (nextMatch patterns xs).map Match.shift := by
    rw [nextMatch_eq_exec, nextMatch_eq_exec, exec_cons_of_none h]
  cases hm : nextMatch patterns xs with
  | none =>
    rw [hm] at hnext
    rw [hl.lex_of_none hm, hl.lex_of_none hnext]
    exact iff_of_true (hpiece _) (hpiece _)
  | some m =>
    rw [hm] at hnext
    have hindex : m.shift.index + m.shift.length = m.index + m.length + 1 :=
      Nat.add_right_comm m.index 1 m.length
    rw [hl.lex_of_some hm, hl.lex_of_some hnext, hindex, List.drop_succ_cons,
      List.forall_mem_append, List.forall_mem_append, and_iff_right (hpiece _),
      and_iff_right (hpiece _)]
    rfl

/-- **All values are right if and only if what is taken is, wherever the lexer stands.** -/
theorem Lawful.forall_lex_iff (hl : Lawful patterns plain print) {P : β → Prop}
    (hplain : ∀ piece, P (plain piece)) (text : List α) :
    (∀ b ∈ lex patterns plain text, P b) ↔
      ∀ rest n b, Reaches patterns text rest → anyOf patterns rest = some (n, b) → P b := by
  induction hn : text.length using Nat.strongRecOn generalizing text with
  | _ length ih =>
    cases text with
    | nil =>
      rw [hl.lex_nil]
      refine iff_of_true (List.forall_mem_nil _) fun rest n b hreach htaken => ?_
      cases hreach with
      | here => cases hl.anyOf_nil.symm.trans htaken
      | take hother => cases hl.anyOf_nil.symm.trans hother
    | cons x xs =>
      cases hany : anyOf patterns (x :: xs) with
      | none =>
        rw [hl.forall_lex_cons hplain hany, ih xs.length (by simp [← hn]) xs rfl]
        constructor
        · intro h rest n b hreach htaken
          cases hreach with
          | here => cases hany.symm.trans htaken
          | pass _ hreach => exact h rest n b hreach htaken
          | take hother => cases hany.symm.trans hother
        · exact fun h rest n b hreach => h rest n b (.pass hany hreach)
      | some taken =>
        obtain ⟨k, value⟩ := taken
        have hzero := nextMatch_eq_zero_iff.mpr hany
        have hpos := (hl.of_nextMatch hzero).1
        rw [hl.lex_of_zero hzero, List.forall_mem_cons,
          ih ((x :: xs).drop k).length (by rw [List.length_drop]; simp_all; omega) _ rfl]
        constructor
        · rintro ⟨hvalue, h⟩ rest n b hreach htaken
          cases hreach with
          | here =>
            obtain ⟨-, rfl⟩ := Prod.mk.inj (Option.some.inj (hany.symm.trans htaken))
            exact hvalue
          | pass hnone => cases hany.symm.trans hnone
          | take hother hreach =>
            obtain ⟨rfl, -⟩ := Prod.mk.inj (Option.some.inj (hany.symm.trans hother))
            exact h rest n b hreach htaken
        · exact fun h => ⟨h _ _ _ (.here _) hany,
            fun rest n b hreach => h rest n b (.take hany hreach)⟩

/-! ### Reading what was printed -/

variable {b : β} {bs : List β}

theorem index_nextMatch_eq_iff {text rest : List α} :
    (nextMatch patterns (text ++ rest)).map Match.index = some text.length ↔
      (∀ i < text.length, anyOf patterns ((text ++ rest).drop i) = none) ∧
        (anyOf patterns rest).isSome := by
  rw [nextMatch_eq_exec, Option.map_eq_some_iff]
  constructor
  · rintro ⟨m, hm, hindex⟩
    obtain ⟨-, htaken, hbefore⟩ := (exec_eq_some_iff).mp hm
    rw [hindex] at htaken hbefore
    rw [List.drop_left] at htaken
    exact ⟨hbefore, by rw [htaken]; rfl⟩
  · rintro ⟨hbefore, htaken⟩
    obtain ⟨taken, htaken⟩ := Option.isSome_iff_exists.mp htaken
    refine ⟨⟨text.length, taken.1, taken.2⟩, (exec_eq_some_iff).mpr ⟨?_, ?_, hbefore⟩, rfl⟩
    · rw [List.length_append]
      exact Nat.le_add_right _ _
    · rw [List.drop_left, htaken]

theorem Lawful.nextMatch_eq_none_iff (hl : Lawful patterns plain print) {text : List α} :
    nextMatch patterns text = none ↔ ∀ i < text.length, anyOf patterns (text.drop i) = none := by
  rw [nextMatch_eq_exec, exec_eq_none_iff]
  refine ⟨fun h i hi => h i (Nat.le_of_lt hi), fun h i hi => ?_⟩
  rcases Nat.lt_or_eq_of_le hi with hi | rfl
  · exact h i hi
  · rw [List.drop_length, hl.anyOf_nil]

/-- Legibility in terms of the next match. -/
theorem Lawful.legible_cons_iff (hl : Lawful patterns plain print) :
    Legible patterns plain print (b :: bs) ↔ Legible patterns plain print bs ∧
      (nextMatch patterns (print b ++ bs.flatMap print) = some ⟨0, (print b).length, b⟩ ∨
        ∃ text ≠ [], b = plain text ∧ (nextMatch patterns (text ++ bs.flatMap print)).map
          Match.index = if bs = [] then none else some text.length) := by
  rw [Legible, nextMatch_eq_zero_iff]
  refine and_congr_right' (or_congr_right (exists_congr fun text => and_congr_right' ?_))
  refine and_congr_right' ?_
  by_cases hbs : bs = []
  · rw [if_pos hbs, Option.map_eq_none_iff, hl.nextMatch_eq_none_iff, hbs, List.flatMap_nil,
      List.append_nil]
    exact and_iff_left (.inl rfl)
  · rw [if_neg hbs, index_nextMatch_eq_iff, or_iff_right hbs]

/-- Where nothing is taken, plain text is all there may be. -/
theorem Lawful.lex_print_of_none (hl : Lawful patterns plain print)
    (hm : nextMatch patterns (print b ++ bs.flatMap print) = none) :
    lex patterns plain (print b ++ bs.flatMap print) = b :: bs ↔
      Legible patterns plain print (b :: bs) := by
  rw [hl.lex_of_none hm, hl.legible_cons_iff]
  constructor
  · intro h
    unfold plainly at h
    split at h
    · cases h
    · next hne =>
      obtain ⟨hb, rfl⟩ := List.cons.inj h
      rw [List.flatMap_nil, List.append_nil] at hne hb hm
      refine ⟨trivial, .inr ⟨print b, hne, hb.symm, ?_⟩⟩
      rw [List.flatMap_nil, List.append_nil, hm]
      rfl
  · rintro ⟨-, h | ⟨text, hne, rfl, hindex⟩⟩
    · cases hm.symm.trans h
    · rw [hl.print_plain] at hm ⊢
      rw [hm] at hindex
      by_cases hbs : bs = []
      · rw [hbs, List.flatMap_nil, List.append_nil, plainly, if_neg hne]
      · rw [if_neg hbs] at hindex
        cases hindex

/-- Where something is taken at the beginning, it is the value. -/
theorem Lawful.lex_print_of_zero (hl : Lawful patterns plain print) {n : Nat} {value : β}
    (ih : lex patterns plain (bs.flatMap print) = bs ↔ Legible patterns plain print bs)
    (hm : nextMatch patterns (print b ++ bs.flatMap print) = some ⟨0, n, value⟩) :
    lex patterns plain (print b ++ bs.flatMap print) = b :: bs ↔
      Legible patterns plain print (b :: bs) := by
  rw [hl.lex_of_zero hm, hl.legible_cons_iff]
  constructor
  · intro h
    obtain ⟨rfl, hlex⟩ := List.cons.inj h
    have hn : (print value).length = n := by
      obtain ⟨-, hlength, hprint⟩ := hl.of_nextMatch hm
      rw [hprint, List.length_take, List.length_drop]
      exact Nat.min_eq_left (by omega)
    rw [← hn, List.drop_left] at hlex
    exact ⟨ih.mp hlex, .inl (hn ▸ hm)⟩
  · rintro ⟨hlegible, h | ⟨text, hne, rfl, hindex⟩⟩
    · obtain ⟨-, rfl, rfl⟩ := Match.mk.inj (Option.some.inj (hm.symm.trans h))
      rw [List.drop_left, ih.mpr hlegible]
    · rw [hl.print_plain] at hm
      rw [hm] at hindex
      split at hindex
      · cases hindex
      · exact absurd (List.length_eq_zero_iff.mp (Option.some.inj hindex).symm) hne

/-- Where something is taken later on, the value is the plain text before it. -/
theorem Lawful.lex_print_of_pos (hl : Lawful patterns plain print) {m : Match β}
    (ih : lex patterns plain (bs.flatMap print) = bs ↔ Legible patterns plain print bs)
    (hm : nextMatch patterns (print b ++ bs.flatMap print) = some m) (hpos : 0 < m.index) :
    lex patterns plain (print b ++ bs.flatMap print) = b :: bs ↔
      Legible patterns plain print (b :: bs) := by
  obtain ⟨-, hlength, -⟩ := hl.of_nextMatch hm
  rw [hl.lex_of_pos hm hpos, hl.legible_cons_iff]
  constructor
  · intro h
    obtain ⟨hb, hlex⟩ := List.cons.inj h
    have hprint : print b = (print b ++ bs.flatMap print).take m.index := by
      conv_lhs => rw [← hb]
      exact hl.print_plain _
    have hindex : (print b).length = m.index := by
      rw [hprint, List.length_take]
      exact Nat.min_eq_left (by omega)
    have hdrop : (print b ++ bs.flatMap print).drop m.index = bs.flatMap print := by
      rw [← hindex, List.drop_left]
    have hnext := hl.lex_of_zero (nextMatch_drop hm)
    rw [hdrop] at hlex hnext
    have hbs : bs ≠ [] := fun hnil => by
      rw [← hlex, hnext] at hnil
      cases hnil
    have hne : print b ≠ [] := List.ne_nil_of_length_pos (hindex ▸ hpos)
    refine ⟨ih.mp hlex, .inr ⟨print b, hne, ?_, ?_⟩⟩
    · conv_rhs => rw [hprint]
      exact hb.symm
    · rw [hm, if_neg hbs, hindex]
      rfl
  · rintro ⟨hlegible, h | ⟨text, hne, rfl, hindex⟩⟩
    · obtain rfl := Option.some.inj (hm.symm.trans h)
      exact absurd hpos (Nat.lt_irrefl 0)
    · rw [hl.print_plain] at hm ⊢
      rw [hm] at hindex
      split at hindex
      · cases hindex
      · have hat : m.index = text.length := Option.some.inj hindex
        rw [hat, List.take_left, List.drop_left, ih.mpr hlegible]

/-- **Values are read from their print if and only if they are legible.** -/
theorem Lawful.lex_print_iff (hl : Lawful patterns plain print) (bs : List β) :
    lex patterns plain (bs.flatMap print) = bs ↔ Legible patterns plain print bs := by
  induction bs with
  | nil => exact iff_of_true hl.lex_nil trivial
  | cons b bs ih =>
    rw [List.flatMap_cons]
    cases hm : nextMatch patterns (print b ++ bs.flatMap print) with
    | none => exact hl.lex_print_of_none hm
    | some m =>
      rcases Nat.eq_zero_or_pos m.index with hzero | hpos
      · obtain ⟨index, n, value⟩ := m
        obtain rfl : index = 0 := hzero
        exact hl.lex_print_of_zero ih hm
      · exact hl.lex_print_of_pos ih hm hpos

end

end LeftmostLexer
end TaskFlow
