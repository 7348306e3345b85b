import TaskFlow.FragmentReaders

/-! # When the two readers of a fragment agree

Where nothing is too deep or too much, the mobile app keeps of each node what the server renders, or
less: it does not strip the hash off a mark's name, it makes attributes of `{}` where a mark has
none, and it has no text for an element that is named `text`.  Each of the three loses a mark or a
node (`ReadOf`), so the two readings are the same just when none of them is there
(`same_reading_iff`).
-/
namespace TaskFlow
namespace FragmentReaders
open RichTextSchema (MAX_DEPTH MAX_NODES NodeType)
open RichText (Text)

variable {isSafe : Text → Bool}

/-! ### What both read alike -/

/-- No allowed mark has a hash, and none of the simple marks is mapped to `{}`. -/
structure PlainAttribute (isSafe : Text → Bool) (entry : Text × MarkValue) : Prop where
  unhashed : MARK_HASH_SUFFIX entry.1 = none ∨ MarkSchema isSafe (candidate entry) = none
  filled : entry.1 ∈ SIMPLE_MARKS → entry.2 ≠ .object []

def PlainDelta (isSafe : Text → Bool) (delta : List Segment) : Prop :=
  ∀ segment ∈ delta, segment.insert ≠ [] →
    ∀ entry ∈ segment.attributes, PlainAttribute isSafe entry

mutual

/-- No element that the schema allows is named `text`, and the marks under it are plain. -/
def Plain (isSafe : Text → Bool) : Child → Prop
  | .element nodeName attributes children =>
    ∀ type, knownNodeType nodeName = some type → (parseAttributes type attributes).isSome →
      type ≠ .text ∧ AllPlain isSafe children
  | .text delta => PlainDelta isSafe delta
  | .hook => True

def AllPlain (isSafe : Text → Bool) : List Child → Prop
  | [] => True
  | child :: children => Plain isSafe child ∧ AllPlain isSafe children

end

/-! ### Sanitizing within the bounds -/

section
variable (isSafe : Text → Bool)

mutual

/-- What `sanitizeNode` makes of a node where nothing is too deep or too much. -/
def keep : PlainNode → Option PlainNode
  | .node type attrs text marks content =>
    match knownNodeType type with
    | none => none
    | some .text => text.map fun text => textNode text (sanitizeMarks isSafe marks)
    | some known =>
      (parseAttributes known attrs).map fun data => .node type data none [] (keepAll content)

def keepAll : List PlainNode → List PlainNode
  | [] => []
  | node :: nodes => (keep node).toList ++ keepAll nodes

end

end

theorem keepAll_append (nodes nodes' : List PlainNode) :
    keepAll isSafe (nodes ++ nodes') = keepAll isSafe nodes ++ keepAll isSafe nodes' := by
  induction nodes with
  | nil => rw [List.nil_append, keepAll, List.nil_append]
  | cons node nodes ih => rw [List.cons_append, keepAll, keepAll, ih, List.append_assoc]

section
variable {type text : Text} {known : NodeType} {attrs data : Entries} {marks : List PlainMark}
  {content : List PlainNode} {count depth : Nat}

theorem keep_known (hknown : knownNodeType type = some known) (htext : known ≠ .text)
    (value : Option Text) :
    keep isSafe (.node type attrs value marks content) =
      (parseAttributes known attrs).map fun data =>
        .node type data none [] (keepAll isSafe content) := by
  rw [keep, hknown]
  cases known <;> first | rfl | exact absurd rfl htext

theorem sanitizeNode_refused (hbound : ¬(MAX_DEPTH < depth ∨ MAX_NODES ≤ count))
    (hknown : knownNodeType type = some known) (htext : known ≠ .text)
    (hattrs : parseAttributes known attrs = none) (value : Option Text) :
    sanitizeNode isSafe (.node type attrs value marks content) count depth = (none, count + 1) := by
  unfold sanitizeNode
  rw [if_neg hbound, hknown]
  cases known <;> first | exact absurd rfl htext | simp only [hattrs]

theorem sanitizeNode_known (hbound : ¬(MAX_DEPTH < depth ∨ MAX_NODES ≤ count))
    (hknown : knownNodeType type = some known) (htext : known ≠ .text)
    (hattrs : parseAttributes known attrs = some data) (value : Option Text) :
    sanitizeNode isSafe (.node type attrs value marks content) count depth =
      (some (.node type data none [] (sanitizeNodes isSafe content (count + 1) (depth + 1)).1),
        (sanitizeNodes isSafe content (count + 1) (depth + 1)).2) := by
  unfold sanitizeNode
  rw [if_neg hbound, hknown]
  cases known <;> first | exact absurd rfl htext | simp only [hattrs]

end

mutual

theorem sanitizeNode_eq : ∀ (raw : PlainNode) (count depth : Nat),
    count + (measure raw).1 ≤ MAX_NODES → depth + (measure raw).2 ≤ MAX_DEPTH + 1 →
    ∃ counted ≤ (measure raw).1,
      sanitizeNode isSafe raw count depth = (keep isSafe raw, count + counted)
  | .node type attrs text marks content, count, depth, hnodes, hdepth => by
    rw [measure] at hnodes hdepth ⊢
    have hbound : ¬(MAX_DEPTH < depth ∨ MAX_NODES ≤ count) := by omega
    cases hknown : knownNodeType type with
    | none => exact ⟨0, Nat.zero_le _, by unfold sanitizeNode keep; rw [if_neg hbound, hknown]; rfl⟩
    | some known =>
      by_cases htext : known = .text
      · refine ⟨1, by omega, ?_⟩
        subst htext
        unfold sanitizeNode keep
        rw [if_neg hbound, hknown]
        cases text <;> rfl
      · rw [keep_known hknown htext]
        cases hattrs : parseAttributes known attrs with
        | none => exact ⟨1, by omega, sanitizeNode_refused hbound hknown htext hattrs text⟩
        | some data =>
          obtain ⟨counted, hle, heq⟩ :=
            sanitizeNodes_eq content (count + 1) (depth + 1) (by omega) (by omega)
          refine ⟨1 + counted, by omega, ?_⟩
          rw [sanitizeNode_known hbound hknown htext hattrs, heq, Nat.add_assoc]
          rfl

theorem sanitizeNodes_eq : ∀ (content : List PlainNode) (count depth : Nat),
    count + (measures content).1 ≤ MAX_NODES → depth + (measures content).2 ≤ MAX_DEPTH + 1 →
    ∃ counted ≤ (measures content).1,
      sanitizeNodes isSafe content count depth = (keepAll isSafe content, count + counted)
  | [], count, depth, _, _ => ⟨0, Nat.zero_le _, rfl⟩
  | raw :: content, count, depth, hnodes, hdepth => by
    rw [measures] at hnodes hdepth
    obtain ⟨counted, hle, heq⟩ := sanitizeNode_eq raw count depth (by omega) (by omega)
    obtain ⟨counted', hle', heq'⟩ :=
      sanitizeNodes_eq content (count + counted) depth (by omega) (by omega)
    refine ⟨counted + counted', by rw [measures]; omega, ?_⟩
    rw [sanitizeNodes, heq, keepAll]
    simp only [heq', Nat.add_assoc]

end

/-! ### What is lost -/

mutual

/-- The nodes and the marks of a tree. -/
def weight : PlainNode → Nat
  | .node _ _ _ marks content => weights content + marks.length + 1

def weights : List PlainNode → Nat
  | [] => 0
  | node :: nodes => weight node + weights nodes

end

theorem weights_append (nodes nodes' : List PlainNode) :
    weights (nodes ++ nodes') = weights nodes + weights nodes' := by
  induction nodes with
  | nil => rw [List.nil_append, weights, Nat.zero_add]
  | cons node nodes ih => rw [List.cons_append, weights, weights, ih, Nat.add_assoc]

theorem allWithoutAttrs_append (nodes nodes' : List PlainNode) :
    allWithoutAttrs (nodes ++ nodes') = allWithoutAttrs nodes ++ allWithoutAttrs nodes' := by
  induction nodes with
  | nil => rw [List.nil_append, allWithoutAttrs, List.nil_append]
  | cons node nodes ih =>
    rw [List.cons_append, allWithoutAttrs, allWithoutAttrs, ih, List.cons_append]

mutual

theorem weight_withoutAttrs : ∀ node : PlainNode, weight (withoutAttrs node) = weight node
  | .node _ _ _ _ content => by rw [withoutAttrs, weight, weight, weights_allWithoutAttrs content]

theorem weights_allWithoutAttrs : ∀ nodes : List PlainNode,
    weights (allWithoutAttrs nodes) = weights nodes
  | [] => rfl
  | node :: nodes => by
    rw [allWithoutAttrs, weights, weights, weight_withoutAttrs node, weights_allWithoutAttrs nodes]

end

/-- What was read is what is rendered where all is plain, and less where not. -/
def ReadOf (plain : Prop) (read rendered : List PlainNode) : Prop :=
  plain ∧ allWithoutAttrs read = allWithoutAttrs rendered ∨
    ¬plain ∧ weights read < weights rendered

namespace ReadOf
variable {plain plain' : Prop} {read read' rendered rendered' : List PlainNode}

theorem weights_le (h : ReadOf plain read rendered) : weights read ≤ weights rendered := by
  rcases h with ⟨-, heq⟩ | ⟨-, hlt⟩
  · rw [← weights_allWithoutAttrs read, heq, weights_allWithoutAttrs]
  · exact hlt.le

theorem eq_iff (h : ReadOf plain read rendered) :
    allWithoutAttrs read = allWithoutAttrs rendered ↔ plain := by
  rcases h with ⟨hplain, heq⟩ | ⟨hplain, hlt⟩
  · exact iff_of_true heq hplain
  · refine iff_of_false (fun heq => ?_) hplain
    rw [← weights_allWithoutAttrs read, heq, weights_allWithoutAttrs] at hlt
    exact lt_irrefl _ hlt

theorem append (h : ReadOf plain read rendered) (h' : ReadOf plain' read' rendered') :
    ReadOf (plain ∧ plain') (read ++ read') (rendered ++ rendered') := by
  have hle := h.weights_le
  have hle' := h'.weights_le
  rcases h with ⟨hplain, heq⟩ | ⟨hplain, hlt⟩
  · rcases h' with ⟨hplain', heq'⟩ | ⟨hplain', hlt'⟩
    · exact .inl ⟨⟨hplain, hplain'⟩, by
        rw [allWithoutAttrs_append, allWithoutAttrs_append, heq, heq']⟩
    · refine .inr ⟨fun hboth => hplain' hboth.2, ?_⟩
      rw [weights_append, weights_append]
      omega
  · refine .inr ⟨fun hboth => hplain hboth.1, ?_⟩
    rw [weights_append, weights_append]
    omega

/-- The attributes of a node are not compared. -/
theorem node (h : ReadOf plain read rendered) (type : Text) (attrs attrs' : Entries) :
    ReadOf plain [.node type attrs none [] read] [.node type attrs' none [] rendered] := by
  rcases h with ⟨hplain, heq⟩ | ⟨hplain, hlt⟩
  · refine .inl ⟨hplain, ?_⟩
    simp only [allWithoutAttrs, withoutAttrs, heq]
  · refine .inr ⟨hplain, ?_⟩
    simp only [weights, weight]
    omega

theorem congr (h : ReadOf plain read rendered) (hiff : plain ↔ plain') :
    ReadOf plain' read rendered := by
  rwa [← propext hiff]

end ReadOf

/-! ### Marks -/

/-- A name with a hash behind it is no mark's name. -/
theorem not_simple_of_hash {key stem : Text} (h : MARK_HASH_SUFFIX key = some stem) :
    key ∉ SIMPLE_MARKS ∧ key ≠ "link".toList := by
  have hnone : ∀ name ∈ "link".toList :: SIMPLE_MARKS, MARK_HASH_SUFFIX name = none := by decide
  constructor
  · intro hmem
    rw [hnone key (List.mem_cons_of_mem _ hmem)] at h
    exact absurd h (Option.some_ne_none stem).symm
  · rintro rfl
    rw [hnone _ List.mem_cons_self] at h
    exact absurd h (Option.some_ne_none stem).symm

theorem markSchema_unknown {key : Text} (hsimple : key ∉ SIMPLE_MARKS) (hlink : key ≠ "link".toList)
    (attrs : Option Entries) : MarkSchema isSafe ⟨key, attrs⟩ = none := by
  rw [MarkSchema, if_neg hsimple, if_neg hlink]

theorem markSchema_markOf_of_hash {entry : Text × MarkValue} {stem : Text}
    (h : MARK_HASH_SUFFIX entry.1 = some stem) : MarkSchema isSafe (markOf entry) = none := by
  obtain ⟨hsimple, hlink⟩ := not_simple_of_hash h
  obtain ⟨key, value⟩ := entry
  cases value with
  | true_ => exact markSchema_unknown hsimple hlink none
  | object entries => exact markSchema_unknown hsimple hlink (some entries)

theorem candidate_eq_markOf {entry : Text × MarkValue} (h : MARK_HASH_SUFFIX entry.1 = none)
    (hfilled : entry.2 ≠ .object []) : candidate entry = markOf entry := by
  obtain ⟨key, value⟩ := entry
  have hbase : baseMarkName key = key := by rw [baseMarkName, h, Option.getD_none]
  cases value with
  | true_ => rw [candidate, markOf, hbase]; exact fun _ _ => MarkValue.noConfusion
  | object entries =>
    cases entries with
    | nil => exact absurd rfl hfilled
    | cons entry entries => rw [candidate, markOf, hbase]

/-- Both readers make the same of an attribute, or only the server has a mark. -/
theorem attribute_cases (entry : Text × MarkValue) :
    PlainAttribute isSafe entry ∧
        MarkSchema isSafe (markOf entry) = MarkSchema isSafe (candidate entry) ∨
      ¬PlainAttribute isSafe entry ∧ MarkSchema isSafe (markOf entry) = none ∧
        (MarkSchema isSafe (candidate entry)).isSome := by
  cases hhash : MARK_HASH_SUFFIX entry.1 with
  | some stem =>
    have hread : MarkSchema isSafe (markOf entry) = none := markSchema_markOf_of_hash hhash
    cases hmark : MarkSchema isSafe (candidate entry) with
    | none =>
      exact .inl ⟨⟨.inr hmark, fun h => absurd h (not_simple_of_hash hhash).1⟩, hread⟩
    | some mark =>
      refine .inr ⟨fun hplain => ?_, hread, rfl⟩
      rcases hplain.unhashed with h | h
      · exact absurd (hhash.symm.trans h) (Option.some_ne_none stem)
      · exact absurd (hmark.symm.trans h) (Option.some_ne_none mark)
  | none =>
    by_cases hempty : entry.2 = .object []
    · obtain ⟨key, value⟩ := entry
      cases hempty
      have hbase : baseMarkName key = key := by rw [baseMarkName, hhash, Option.getD_none]
      by_cases hsimple : key ∈ SIMPLE_MARKS
      · refine .inr ⟨fun hplain => hplain.filled hsimple rfl, ?_, ?_⟩
        · simp [MarkSchema, markOf, hsimple]
        · simp [MarkSchema, candidate, hbase, hsimple]
      · refine .inl ⟨⟨.inl hhash, fun h => absurd h hsimple⟩, ?_⟩
        by_cases hlink : key = "link".toList
        · subst hlink
          rfl
        · rw [markOf, candidate, hbase, markSchema_unknown hsimple hlink,
            markSchema_unknown hsimple hlink]
          exact fun _ _ h => by cases h
    · exact .inl ⟨⟨.inl hhash, fun _ => hempty⟩, by rw [candidate_eq_markOf hhash hempty]⟩

/-- Two readings of a list are the same, or the first is shorter. -/
theorem filterMap_cases {α β : Type} {read rendered : α → Option β} {plain : α → Prop}
    (h : ∀ x, plain x ∧ read x = rendered x ∨
      ¬plain x ∧ read x = none ∧ (rendered x).isSome) :
    ∀ xs : List α, (∀ x ∈ xs, plain x) ∧ xs.filterMap read = xs.filterMap rendered ∨
      ¬(∀ x ∈ xs, plain x) ∧ (xs.filterMap read).length < (xs.filterMap rendered).length
  | [] => .inl ⟨fun _ hx => absurd hx List.not_mem_nil, rfl⟩
  | x :: xs => by
    rcases h x with ⟨hplain, heq⟩ | ⟨hplain, hread, hrendered⟩
    · rw [List.forall_mem_cons]
      rcases filterMap_cases h xs with ⟨hall, hxs⟩ | ⟨hall, hlt⟩
      · exact .inl ⟨⟨hplain, hall⟩, by rw [List.filterMap_cons, heq, hxs, List.filterMap_cons]⟩
      · refine .inr ⟨fun hboth => hall hboth.2, ?_⟩
        rw [List.filterMap_cons, heq, List.filterMap_cons]
        cases rendered x with
        | none => exact hlt
        | some y => exact Nat.succ_lt_succ hlt
    · obtain ⟨y, hy⟩ := Option.isSome_iff_exists.mp hrendered
      refine .inr ⟨fun hboth => hplain (hboth x List.mem_cons_self), ?_⟩
      rw [List.filterMap_cons_none hread, List.filterMap_cons_some hy, List.length_cons]
      rcases filterMap_cases h xs with ⟨-, hxs⟩ | ⟨-, hlt⟩
      · rw [hxs]
        exact Nat.lt_succ_self _
      · exact hlt.trans (Nat.lt_succ_self _)

/-! ### Text -/

theorem keep_textNode (text : Text) (marks : List PlainMark) :
    keep isSafe (textNode text marks) = some (textNode text (sanitizeMarks isSafe marks)) := rfl

theorem readOf_segment (segment : Segment) :
    ReadOf (∀ entry ∈ segment.attributes, PlainAttribute isSafe entry)
      [textNode segment.insert (sanitizeMarks isSafe (segment.attributes.map markOf))]
      [textNode segment.insert (marksOf isSafe segment)] := by
  rw [sanitizeMarks, List.filterMap_map, marksOf]
  rcases filterMap_cases attribute_cases segment.attributes with ⟨hall, heq⟩ | ⟨hall, hlt⟩
  · exact .inl ⟨hall, by rw [← heq]; rfl⟩
  · refine .inr ⟨hall, ?_⟩
    simp only [textNode, weights, weight]
    exact Nat.add_lt_add_right (Nat.succ_lt_succ (Nat.add_lt_add_left hlt 0)) 0

theorem readOf_delta : ∀ delta : List Segment,
    ReadOf (PlainDelta isSafe delta) (keepAll isSafe (textRunsFrom delta))
      (renderText isSafe delta)
  | [] => .inl ⟨fun _ h => absurd h List.not_mem_nil, rfl⟩
  | segment :: delta => by
    have ih := readOf_delta delta
    rw [textRunsFrom, renderText] at ih ⊢
    have hplain : PlainDelta isSafe (segment :: delta) ↔
        (segment.insert ≠ [] → ∀ entry ∈ segment.attributes, PlainAttribute isSafe entry) ∧
          PlainDelta isSafe delta := List.forall_mem_cons
    by_cases hinsert : segment.insert = []
    · simp only [List.filterMap_cons, if_pos hinsert]
      exact ih.congr (by simp [hplain, hinsert])
    · simp only [List.filterMap_cons, if_neg hinsert]
      rw [keepAll, keep_textNode]
      exact ((readOf_segment segment).append ih).congr (by simp [hplain, hinsert])

/-! ### Elements -/

mutual

theorem readOf_child : ∀ child : Child,
    ReadOf (Plain isSafe child) (keepAll isSafe (nodesFrom child)) (renderChild isSafe child)
  | .text delta => readOf_delta delta
  | .hook => .inl ⟨trivial, rfl⟩
  | .element nodeName attributes children => by
    have ih := readOf_children children
    rw [nodesFrom, keepAll, keepAll, List.append_nil, renderChild, renderElement, keep, Plain]
    cases hknown : knownNodeType nodeName with
    | none => exact .inl ⟨fun _ h => absurd h (Option.some_ne_none _).symm, rfl⟩
    | some type =>
      simp only [Option.some.injEq, forall_eq', Option.bind_some]
      cases hattrs : parseAttributes type attributes with
      | none =>
        refine .inl ⟨fun h => absurd h Bool.false_ne_true, ?_⟩
        cases type <;> simp only [hattrs, Option.map_none, Option.toList_none]
      | some data =>
        by_cases htext : type = .text
        · subst htext
          refine .inr ⟨fun h => (h rfl).1 rfl, ?_⟩
          simp only [Option.map_none, Option.map_some, Option.toList_none, Option.toList_some,
            weights, weight]
          omega
        · have hnode := (ih.node nodeName data attributes).congr
            (show AllPlain isSafe children ↔
              ((some data).isSome = true → type ≠ .text ∧ AllPlain isSafe children) by
                simp [htext])
          cases type <;> first
            | exact absurd rfl htext
            | simpa only [hattrs, Option.map_some, Option.toList_some] using hnode

theorem readOf_children : ∀ children : List Child,
    ReadOf (AllPlain isSafe children) (keepAll isSafe (allNodesFrom children))
      (renderChildren isSafe children)
  | [] => .inl ⟨trivial, rfl⟩
  | child :: children => by
    rw [allNodesFrom, keepAll_append, renderChildren]
    exact (readOf_child child).append (readOf_children children)

end

/-- What the app makes of a document within the bounds. -/
theorem sanitizeRichText_doc {content : List PlainNode}
    (hnodes : (measure (doc content)).1 ≤ MAX_NODES)
    (hdepth : (measure (doc content)).2 ≤ MAX_DEPTH) :
    sanitizeRichText isSafe (doc content) = some (doc (keepAll isSafe content)) := by
  obtain ⟨counted, -, heq⟩ :=
    @sanitizeNode_eq isSafe (doc content) 0 1 (by omega) (by omega)
  have hkeep : keep isSafe (doc content) = some (doc (keepAll isSafe content)) := rfl
  rw [sanitizeRichText, heq, hkeep]
  rfl

/-- **Of a fragment within the bounds, the two readings have the same nodes, texts and marks just
when all of it is plain.** -/
theorem same_reading_iff (fragment : List Child)
    (hnodes : (measure (yjsFragmentToRichTextDocument fragment)).1 ≤ MAX_NODES)
    (hdepth : (measure (yjsFragmentToRichTextDocument fragment)).2 ≤ MAX_DEPTH) :
    (sanitizeRichText isSafe (yjsFragmentToRichTextDocument fragment)).map withoutAttrs =
        some (withoutAttrs (renderFragment isSafe fragment)) ↔
      AllPlain isSafe fragment := by
  rw [← (readOf_children fragment).eq_iff, yjsFragmentToRichTextDocument,
    sanitizeRichText_doc hnodes hdepth, renderFragment, Option.map_some, Option.some_inj, doc, doc,
    withoutAttrs, withoutAttrs]
  simp

/-- A paragraph with a word that has one mark. -/
def markedWord (mark : Text) (value : MarkValue) : List Child :=
  [.element "paragraph".toList [] [.text [⟨"word".toList, [(mark, value)]⟩]]]

theorem same_reading_bold :
    (sanitizeRichText (fun _ => true)
      (yjsFragmentToRichTextDocument (markedWord "bold".toList .true_))).map withoutAttrs =
      some (withoutAttrs (renderFragment (fun _ => true) (markedWord "bold".toList .true_))) := by
  refine (same_reading_iff _ (by decide) (by decide)).mpr ⟨fun type htype _ => ?_, trivial⟩
  have hparagraph : knownNodeType "paragraph".toList = some .paragraph := by decide
  cases hparagraph.symm.trans htype
  refine ⟨by decide, fun segment hsegment _ entry hentry => ?_, trivial⟩
  cases List.mem_singleton.mp hsegment
  cases List.mem_singleton.mp hentry
  exact ⟨.inl (by decide), fun _ h => by cases h⟩

/-- The editor maps `bold` to `{}`: the server renders the word in bold, and the app without. -/
theorem bold_lost : ¬∀ (isSafe : Text → Bool) (fragment : List Child),
    (measure (yjsFragmentToRichTextDocument fragment)).1 ≤ MAX_NODES →
    (measure (yjsFragmentToRichTextDocument fragment)).2 ≤ MAX_DEPTH →
    (sanitizeRichText isSafe (yjsFragmentToRichTextDocument fragment)).map withoutAttrs =
      some (withoutAttrs (renderFragment isSafe fragment)) := by
  intro h
  have hbold := h (fun _ => true) (markedWord "bold".toList (.object [])) (by decide) (by decide)
  have hweights := congrArg (Option.map weight) hbold
  revert hweights
  decide

end FragmentReaders
end TaskFlow
