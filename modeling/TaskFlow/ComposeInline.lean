import TaskFlow.RichTextCompose

/-! # Inline runs as text

What a pattern takes is what the run it makes is written as, so the runs of a line are written as
the line (`serializeInline_parseInline`).  Runs are read from what they are written as if and only
if they are `ReadBack`: at each run with a mark and each mention it is the next match, and no match
begins before the end of a run without one.
-/
namespace TaskFlow
namespace RichTextCompose
open LeftmostLexer RichTextSchema
open RichText (Text isSpace)

theorem serializeRun_textRun_nil (text : Text) : serializeRun (textRun text []) = text := rfl

theorem serializeRun_textRun (text : Text) (mark : Mark) :
    serializeRun (textRun text [mark]) = wrapForMark text mark := rfl

/-- What is taken is what the run is written as, which is something. -/
def Taken (text : Text) (n : Nat) (run : Node) : Prop :=
  (∃ rest, text = serializeRun run ++ rest) ∧ n = (serializeRun run).length ∧
    serializeRun run ≠ []

/-! ### The patterns -/

theorem append_of_upTo {close text captured : Text} (h : upTo close text = some captured) :
    ∃ rest, text = captured ++ close ++ rest := by
  induction text generalizing captured with
  | nil => cases h
  | cons c text ih =>
    rw [upTo] at h
    split at h
    · next hclose =>
      obtain rfl := Option.some.inj h
      obtain ⟨rest, hrest⟩ := List.isPrefixOf_iff_prefix.mp hclose
      exact ⟨rest, hrest.symm⟩
    · split at h
      · cases h
      · obtain ⟨inner, hinner, rfl⟩ := Option.map_eq_some_iff.mp h
        obtain ⟨rest, rfl⟩ := ih hinner
        exact ⟨rest, rfl⟩

theorem taken_delimited {delimiter text : Text} {mark : Mark} {n : Nat} {run : Node}
    (hmark : ∀ text, wrapForMark text mark = delimiter ++ text ++ delimiter)
    (h : delimited delimiter mark text = some (n, run)) : Taken text n run := by
  unfold delimited at h
  split at h
  · next hopen =>
    obtain ⟨inner, rfl⟩ := List.isPrefixOf_iff_prefix.mp hopen
    rw [List.drop_left] at h
    split at h
    · cases h
    · next c inner =>
      split at h
      · cases h
      · obtain ⟨captured, hcaptured, hrun⟩ := Option.map_eq_some_iff.mp h
        obtain ⟨rest, rfl⟩ := append_of_upTo hcaptured
        obtain ⟨rfl, rfl⟩ := Prod.mk.inj hrun
        unfold Taken
        rw [serializeRun_textRun, hmark]
        refine ⟨⟨rest, by simp⟩, by simp; omega, by simp⟩
  · cases h

theorem taken_CODE_PATTERN {text : Text} {n : Nat} {run : Node}
    (h : CODE_PATTERN text = some (n, run)) : Taken text n run := by
  unfold CODE_PATTERN at h
  split at h
  · next text =>
    simp only [] at h
    split at h
    · next rest hrest =>
      split at h
      · cases h
      · obtain ⟨rfl, rfl⟩ := Prod.mk.inj (Option.some.inj h)
        have happend : text.takeWhile (· ≠ '`') ++ text.dropWhile (· ≠ '`') = text :=
          List.takeWhile_append_dropWhile
        rw [hrest] at happend
        unfold Taken
        rw [serializeRun_textRun, wrapForMark]
        refine ⟨⟨rest, ?_⟩, by simp, by simp⟩
        conv_lhs => rw [← happend]
        simp
    · cases h
  · cases h

theorem append_of_hrefAt {text href rest : Text} (h : hrefAt text = some (href, rest)) :
    text = href ++ rest := by
  obtain ⟨scheme, hscheme, h⟩ := Option.bind_eq_some_iff.mp h
  have hprefix : scheme.isPrefixOf text = true := by
    unfold RichTextCompose.scheme at hscheme
    exact List.find?_some (p := fun scheme : Text => scheme.isPrefixOf text) hscheme
  obtain ⟨inner, rfl⟩ := List.isPrefixOf_iff_prefix.mp hprefix
  rw [List.drop_left] at h
  simp only [] at h
  split at h
  · cases h
  · obtain ⟨rfl, rfl⟩ := Prod.mk.inj (Option.some.inj h)
    rw [List.append_assoc, List.takeWhile_append_dropWhile]

theorem taken_LINK_PATTERN {text : Text} {n : Nat} {run : Node}
    (h : LINK_PATTERN text = some (n, run)) : Taken text n run := by
  unfold LINK_PATTERN at h
  split at h
  · next text =>
    simp only [] at h
    split at h
    · cases h
    · split at h
      · next rest hrest =>
        split at h
        · next href rest hhref =>
          obtain ⟨rfl, rfl⟩ := Prod.mk.inj (Option.some.inj h)
          have happend : text.takeWhile (· ≠ ']') ++ text.dropWhile (· ≠ ']') = text :=
            List.takeWhile_append_dropWhile
          rw [hrest, append_of_hrefAt hhref] at happend
          unfold Taken
          rw [serializeRun_textRun, wrapForMark]
          refine ⟨⟨rest, ?_⟩, by simp; omega, by simp⟩
          conv_lhs => rw [← happend]
          simp
        · cases h
      · cases h
  · cases h

theorem taken_mentionAt {mention : PendingMention} {text : Text} {n : Nat} {run : Node}
    (h : mentionAt mention text = some (n, run)) : Taken text n run := by
  unfold mentionAt at h
  simp only [] at h
  split at h
  · next hmarker =>
    obtain ⟨rfl, rfl⟩ := Prod.mk.inj (Option.some.inj h)
    obtain ⟨rest, hrest⟩ := List.isPrefixOf_iff_prefix.mp hmarker
    exact ⟨⟨rest, hrest.symm⟩, rfl, List.cons_ne_nil _ _⟩
  · cases h

theorem taken_of_mem {mentions : List PendingMention} {p : Pattern Char Node}
    (hp : p ∈ patterns mentions) {text : Text} {n : Nat} {run : Node}
    (h : p text = some (n, run)) : Taken text n run := by
  rcases List.mem_append.mp hp with hp | hp
  · obtain ⟨mention, -, rfl⟩ := List.mem_map.mp hp
    exact taken_mentionAt h
  · simp only [List.mem_cons, List.not_mem_nil, or_false] at hp
    rcases hp with rfl | rfl | rfl | rfl | rfl | rfl
    · exact taken_delimited (fun _ => rfl) h
    · exact taken_delimited (fun _ => rfl) h
    · exact taken_delimited (fun _ => rfl) h
    · exact taken_CODE_PATTERN h
    · exact taken_delimited (fun _ => rfl) h
    · exact taken_LINK_PATTERN h

/-! ### A line of runs -/

theorem lawful (mentions : List PendingMention) :
    Lawful (patterns mentions) (textRun · []) serializeRun where
  print_plain := serializeRun_textRun_nil
  taken p hp text n run h := by
    obtain ⟨⟨rest, rfl⟩, rfl, hne⟩ := taken_of_mem hp h
    refine ⟨List.length_pos_of_ne_nil hne, ?_, ?_⟩
    · rw [List.length_append]
      exact Nat.le_add_right _ _
    · rw [List.take_left]

/-- One run may be empty, where it is the only one. -/
def ReadBack (mentions : List PendingMention) (runs : List Node) : Prop :=
  runs = [textRun [] []] ∨
    (runs ≠ [] ∧ Legible (patterns mentions) (textRun · []) serializeRun runs)

/-- The runs of a line are written as the line. -/
theorem serializeInline_parseInline (text : Text) (mentions : List PendingMention) :
    serializeInline (parseInline text mentions) = text := by
  have hprint := (lawful mentions).print_lex text
  unfold parseInline
  simp only []
  split
  · next hnil =>
    rw [hnil] at hprint
    exact hprint
  · exact hprint

theorem parseInline_serializeInline_iff {mentions : List PendingMention} {runs : List Node} :
    parseInline (serializeInline runs) mentions = runs ↔ ReadBack mentions runs := by
  have hiff := (lawful mentions).lex_print_iff runs
  unfold parseInline ReadBack
  simp only []
  rw [← hiff]
  change (if lex _ _ (runs.flatMap serializeRun) = [] then _ else _) = runs ↔ _
  split
  · next hnil =>
    rw [hnil]
    constructor
    · exact fun h => .inl h.symm
    · rintro (h | ⟨hne, h⟩)
      · exact h.symm
      · exact absurd h.symm hne
  · next hne =>
    constructor
    · exact fun h => .inr ⟨h ▸ hne, h⟩
    · rintro (h | ⟨-, h⟩)
      · subst h
        exact absurd (lawful mentions).lex_nil hne
      · exact h

end RichTextCompose
end TaskFlow
