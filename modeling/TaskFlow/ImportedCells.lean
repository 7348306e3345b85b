import TaskFlow.CardExport
import TaskFlow.ImportNames
import TaskFlow.SeparatedText

/-! # What a cell comes back as

A text comes back stripped, and without an apostrophe before a formula, as if that were the guard
of the export (`carried`).  A cell of several names comes back as the entries that each name is
split into.  For every field of a row, the cells of which it comes back are told apart.
-/
namespace TaskFlow
namespace CardExport
open RichText (Text trim isSpace)
open ImportRows CsvFormat ImportTable SeparatedText

/-! ### Texts -/

@[simp] theorem trim_trim (value : Text) : trim (trim value) = trim value := strip_strip value

theorem unneutralize_cons (c : Char) (rest : Text) :
    unneutralize (c :: rest) = if c = '\'' ∧ formulaLead rest = true then rest else c :: rest := by
  by_cases hc : c = '\''
  · subst hc
    by_cases hrest : formulaLead rest = true <;> simp [unneutralize, hrest]
  · rw [if_neg fun h => hc h.1, unneutralize]
    intro rest' h
    exact hc (List.cons.inj h).1

theorem formulaLead_cons {c : Char} {rest : Text} (h : formulaLead (c :: rest) = true)
    (rest' : Text) : formulaLead (c :: rest') = true := h

theorem not_isSpace_of_formulaLead {c : Char} {rest : Text} (h : formulaLead (c :: rest) = true) :
    isSpace c = false ∧ c ≠ '\'' := by
  simp only [formulaLead, decide_eq_true_eq] at h
  obtain rfl | rfl | rfl | rfl := h <;> decide

theorem unneutralize_eq_nil {value : Text} : unneutralize value = [] ↔ value = [] := by
  cases value with
  | nil => simp [unneutralize]
  | cons c rest =>
    rw [unneutralize_cons]
    split
    · rename_i h
      have hrest : rest ≠ [] := by
        rintro rfl
        exact absurd h.2 (by decide)
      simp [hrest]
    · rfl

theorem length_unneutralize_le (value : Text) : (unneutralize value).length ≤ value.length := by
  cases value with
  | nil => exact Nat.le_refl _
  | cons c rest =>
    rw [unneutralize_cons]
    split
    · exact Nat.le_succ _
    · exact Nat.le_refl _

/-- What a text comes back as. -/
def carried (value : Text) : Text := unneutralize (trim value)

/-- A guarded formula keeps its guard when it is trimmed. -/
theorem trim_neutralize_of_formulaLead {value : Text} (h : formulaLead value = true) :
    trim (neutralize value) = '\'' :: trim value ∧ formulaLead (trim value) = true := by
  cases value with
  | nil => exact absurd h (by decide)
  | cons c rest =>
    obtain ⟨hspace, -⟩ := not_isSpace_of_formulaLead h
    have htrim : trim (c :: rest) = c :: rest.rdropWhile isSpace := strip_cons_of_not hspace rest
    have hguard : trim ('\'' :: c :: rest) = '\'' :: (c :: rest).rdropWhile isSpace :=
      strip_cons_of_not (by decide) _
    rw [neutralize, if_pos h, htrim, hguard, rdropWhile_cons_of_not hspace]
    exact ⟨rfl, h⟩

/-- The guard is taken off again, and trimming is all that is left of the way. -/
theorem unneutralize_trim_neutralize (value : Text) :
    unneutralize (trim (neutralize value)) = carried value := by
  by_cases h : formulaLead value = true
  · obtain ⟨hguard, hlead⟩ := trim_neutralize_of_formulaLead h
    rw [hguard, unneutralize_cons, if_pos ⟨rfl, hlead⟩, carried]
    cases htrim : trim value with
    | nil => rfl
    | cons c rest =>
      rw [htrim] at hlead
      rw [unneutralize_cons, if_neg fun h => (not_isSpace_of_formulaLead hlead).2 h.1]
  · rw [neutralize, if_neg h, carried]

theorem trim_neutralize_eq_nil {value : Text} : trim (neutralize value) = [] ↔ trim value = [] := by
  rw [← unneutralize_eq_nil, unneutralize_trim_neutralize, carried, unneutralize_eq_nil]

/-- No white space around it, and no apostrophe before a formula. -/
def Plain (value : Text) : Prop := trim value = value ∧ unneutralize value = value

instance (value : Text) : Decidable (Plain value) := inferInstanceAs (Decidable (_ ∧ _))

/-- The texts that come back as they are. -/
theorem carried_eq_self {value : Text} : carried value = value ↔ Plain value := by
  constructor
  · intro h
    have hlength : value.length ≤ (trim value).length :=
      calc value.length = (unneutralize (trim value)).length := congrArg List.length h.symm
        _ ≤ (trim value).length := length_unneutralize_le _
    have htrim : trim value = value := strip_of_length hlength
    exact ⟨htrim, by rwa [carried, htrim] at h⟩
  · rintro ⟨htrim, hplain⟩
    rw [carried, htrim, hplain]

/-! ### Entries of a cell -/

def isSeparator (c : Char) : Bool := c = ';' ∨ c = ','

theorem splitAt_eq_splitOnP (isMark : Char → Bool) (value : Text) :
    splitAt isMark value = value.splitOnP isMark := by
  induction value with
  | nil => rfl
  | cons c rest ih =>
    rw [List.splitOnP_cons_eq_if_modifyHead, splitAt, ih]
    obtain ⟨entry, entries, hentries⟩ := List.exists_cons_of_ne_nil
      (List.splitOnP_ne_nil isMark rest)
    rw [hentries, List.modifyHead_cons]

theorem splitCell_eq_entries (value : Text) :
    splitCell value = entries isSpace isSeparator value := by
  rw [splitCell, splitAt_eq_splitOnP]
  rfl

theorem isSeparator_of_isSpace (c : Char) (hc : isSpace c = true) : isSeparator c = false := by
  by_contra h
  simp only [Bool.not_eq_false, isSeparator, decide_eq_true_eq] at h
  obtain rfl | rfl := h <;> exact absurd hc (by decide)

theorem splitCell_trim (value : Text) : splitCell (trim value) = splitCell value := by
  rw [splitCell_eq_entries, splitCell_eq_entries]
  exact entries_strip isSeparator_of_isSpace value

theorem splitCell_joinNames (names : List Text) :
    splitCell (joinNames names) = names.flatMap splitCell := by
  rw [splitCell_eq_entries, joinNames, entries_intercalate isSeparator_of_isSpace (by decide)
    (List.forall_mem_singleton.mpr (by decide))]
  exact List.flatMap_congr fun name _ => (splitCell_eq_entries name).symm

/-- The guard of a joined cell is on its first name. -/
@[grind =] def guardFirst : List Text → List Text
  | [] => []
  | name :: names => neutralize name :: names

theorem neutralize_append (name : Text) {rest : Text} (hrest : formulaLead rest = false) :
    neutralize (name ++ rest) = neutralize name ++ rest := by
  cases name with
  | nil => rw [List.nil_append, neutralize, hrest]; rfl
  | cons c name =>
    by_cases h : formulaLead (c :: name) = true
    · rw [List.cons_append, neutralize, if_pos (formulaLead_cons h _), neutralize, if_pos h]
      rfl
    · rw [List.cons_append, neutralize, if_neg fun h' => h (formulaLead_cons h' _), neutralize,
        if_neg h]
      rfl

theorem neutralize_joinNames (names : List Text) :
    neutralize (joinNames names) = joinNames (guardFirst names) := by
  cases names with
  | nil => rfl
  | cons name names =>
    cases names with
    | nil => simp [joinNames, guardFirst]
    | cons name' names =>
      rw [joinNames, guardFirst, joinNames, List.intercalate_cons_cons,
        List.intercalate_cons_cons, List.append_assoc, List.append_assoc,
        neutralize_append _ (by rfl)]

/-- The entries that are read of a cell of several names. -/
def entriesOf (names : List Text) : List Text := (guardFirst names).flatMap splitCell

theorem splitCell_neutralize_joinNames (names : List Text) :
    splitCell (neutralize (joinNames names)) = entriesOf names := by
  rw [neutralize_joinNames, splitCell_joinNames, entriesOf]

/-! ### What is sent of a cell -/

theorem cellValue_neutralize {column : ImportColumn}
    (hcolumn : column ≠ .assignees ∧ column ≠ .labels) (value : Text) :
    cellValue column (neutralize value) =
      if trim value = [] then none else some (.text (trim (neutralize value))) := by
  simp [cellValue, trim_neutralize_eq_nil, hcolumn.1, hcolumn.2]

/-- The entries that the client splits a cell into are not split again. -/
theorem splitList_cellValue {column : ImportColumn}
    (hcolumn : column = .assignees ∨ column = .labels) (cell : Text) :
    splitList (cellValue column cell) = some (splitCell cell) := by
  have hentries : ∀ entry ∈ splitCell cell, trim entry = entry ∧ entry ≠ [] :=
    fun entry hentry => strip_entry (by rwa [splitCell_eq_entries] at hentry)
  rw [cellValue]
  by_cases hblank : trim cell = []
  · rw [if_pos hblank, ← splitCell_trim cell, hblank]
    rfl
  · simp only [hblank, if_false, hcolumn, if_true, splitCell_trim]
    by_cases hlength : (splitCell cell).length > 0
    · have hall : ((splitCell cell).map some).any (·.isNone) = false := by simp
      have hstrip : (splitCell cell).map trim = splitCell cell :=
        (List.map_congr_left fun entry hentry => (hentries entry hentry).1).trans (List.map_id _)
      have hkeep : (splitCell cell).filter (· ≠ []) = splitCell cell :=
        List.filter_eq_self.mpr fun entry hentry => decide_eq_true (hentries entry hentry).2
      rw [if_pos hlength, splitList, hall]
      simp only [Bool.false_eq_true, if_false, List.filterMap_map]
      rw [show (splitCell cell).filterMap (id ∘ some) = splitCell cell from List.filterMap_some,
        hstrip, hkeep]
    · rw [if_neg hlength, splitList, List.length_eq_zero_iff.mp (Nat.eq_zero_of_not_pos hlength)]

/-! ### Fields -/

theorem checkTitle_neutralize (value : Text) :
    checkTitle (cellValue .title (neutralize value)) =
      if (carried value).length = 0 then .error "\"title\" is required.".toList
      else if 500 < utf16Length (carried value) then
        .error "\"title\" must be 500 characters or fewer.".toList
      else .ok (carried value) := by
  rw [cellValue_neutralize (by decide)]
  by_cases hblank : trim value = []
  · rw [if_pos hblank, carried, hblank]
    rfl
  · have hne : (carried value).length ≠ 0 := fun h =>
      hblank ((unneutralize_eq_nil).mp (List.length_eq_zero_iff.mp h))
    rw [if_neg hblank, checkTitle, trim_trim, unneutralize_trim_neutralize, if_neg hne, if_neg hne]
    by_cases hlong : 500 < utf16Length (carried value)
    · rw [if_pos hlong, if_pos hlong]
      rfl
    · rw [if_neg hlong, if_neg hlong]
      rfl

/-- The title comes back. -/
theorem checkTitle_eq_ok {title : Text} :
    checkTitle (cellValue .title (neutralize title)) = .ok title ↔
      Plain title ∧ title ≠ [] ∧ utf16Length title ≤ 500 := by
  rw [checkTitle_neutralize, ← carried_eq_self]
  constructor
  · intro h
    split at h
    · cases h
    · rename_i hne
      split at h
      · cases h
      · rename_i hlength
        have hcarried := Except.ok.inj h
        rw [hcarried] at hne hlength
        exact ⟨hcarried, fun hnil => hne (congrArg List.length hnil), Nat.not_lt.mp hlength⟩
  · rintro ⟨hcarried, hne, hlength⟩
    rw [hcarried, if_neg (mt List.length_eq_zero_iff.mp hne), if_neg (Nat.not_lt.mpr hlength)]

theorem checkDescription_neutralize (value : Text) :
    checkDescription (cellValue .description (neutralize value)) =
      if MAX_IMPORT_DESCRIPTION < utf16Length (carried value) then
        .error "\"description\" must be 10000 characters or fewer.".toList
      else .ok (if (carried value).length = 0 then none else some (carried value)) := by
  rw [cellValue_neutralize (by decide)]
  by_cases hblank : trim value = []
  · rw [if_pos hblank, carried, hblank]
    rfl
  · rw [if_neg hblank, checkDescription, trim_trim, unneutralize_trim_neutralize]
    by_cases hlong : MAX_IMPORT_DESCRIPTION < utf16Length (carried value)
    · rw [if_pos hlong, if_pos hlong]
      rfl
    · rw [if_neg hlong, if_neg hlong]
      rfl

/-- The description comes back, or none where there is none. -/
theorem checkDescription_eq_ok {text : Text} :
    (∃ description, checkDescription (cellValue .description (neutralize text)) =
      .ok description ∧ description.getD [] = text) ↔
      Plain text ∧ utf16Length text ≤ MAX_IMPORT_DESCRIPTION := by
  rw [checkDescription_neutralize, ← carried_eq_self]
  have hgetD : (if (carried text).length = 0 then none else some (carried text)).getD [] =
      carried text := by
    split
    · rename_i h
      exact (List.length_eq_zero_iff.mp h).symm
    · rfl
  constructor
  · rintro ⟨description, h, htext⟩
    split at h
    · cases h
    · rename_i hlength
      rw [← Except.ok.inj h, hgetD] at htext
      rw [htext] at hlength
      exact ⟨htext, Nat.not_lt.mp hlength⟩
  · rintro ⟨hcarried, hlength⟩
    rw [if_neg (by rw [hcarried]; exact Nat.not_lt.mpr hlength)]
    exact ⟨_, rfl, hgetD.trans hcarried⟩

/-- The name of a cell stands for this among the entries. -/
def Stands (engine : Engine) (entries : List Entry) (name : Text) (id : Id) : Prop :=
  trim name ≠ [] ∧ Named engine entries (carried name) id

instance (engine : Engine) (entries : List Entry) (name : Text) (id : Id) :
    Decidable (Stands engine entries name id) := inferInstanceAs (Decidable (_ ∧ _))

section
variable {engine : Engine} {vocab : ResolvedVocabulary} {entries : List Entry} {name : Text}

theorem checkStatus_text {value : Text} (hvalue : value ≠ []) :
    checkStatus engine vocab (some (.text value)) =
      match vocab.statuses.resolve engine (unneutralize value) with
      | none => .error (quoting "Unknown status " value ".")
      | some statusId => .ok (some statusId) := by
  cases value with
  | nil => exact absurd rfl hvalue
  | cons c rest => rfl

theorem checkStatus_eq_ok {id : Id}
    (hstatuses : vocab.statuses = NameLookup.ofEntries engine entries) :
    checkStatus engine vocab (cellValue .status (neutralize name)) = .ok (some id) ↔
      Stands engine entries name id := by
  rw [cellValue_neutralize (by decide), Stands]
  by_cases hblank : trim name = []
  · rw [if_pos hblank]
    exact iff_of_false (by simp [checkStatus]) fun h => h.1 hblank
  · have hvalue : trim (neutralize name) ≠ [] := mt (trim_neutralize_eq_nil).mp hblank
    rw [if_neg hblank, checkStatus_text hvalue, unneutralize_trim_neutralize, hstatuses,
      ← resolve_ofEntries]
    cases (NameLookup.ofEntries engine entries).resolve engine (carried name) <;> simp [hblank]

theorem checkSprint_eq_ok {id : Id}
    (hsprints : vocab.sprints = NameLookup.ofEntries engine entries) :
    checkSprint engine vocab (cellValue .sprint (neutralize name)) = .ok (some id) ↔
      Stands engine entries name id := by
  rw [cellValue_neutralize (by decide), Stands]
  by_cases hblank : trim name = []
  · rw [if_pos hblank]
    exact iff_of_false (by simp [checkSprint]) fun h => h.1 hblank
  · have hvalue : trim (neutralize name) ≠ [] := mt (trim_neutralize_eq_nil).mp hblank
    rw [if_neg hblank, checkSprint, trim_trim, if_pos hvalue, unneutralize_trim_neutralize,
      hsprints, ← resolve_ofEntries]
    cases hresolve : (NameLookup.ofEntries engine entries).resolve engine (carried name) with
    | some _ => simp [hresolve, hblank]
    | none =>
      by_cases hclosed : engine.toLowerCase (carried name) ∈ vocab.closedSprintNames <;>
        simp [hresolve, hclosed]

/-- The list of a row is the one its name stands for, or else the import's own. -/
theorem resolveList_eq {id : Id} (hlists : vocab.lists = NameLookup.ofEntries engine entries) :
    resolveList engine vocab (cellValue .list (neutralize name)) = id ↔
      Stands engine entries name id ∨
        (∀ id', ¬Stands engine entries name id') ∧ vocab.listId = id := by
  rw [cellValue_neutralize (by decide)]
  by_cases hblank : trim name = []
  · rw [if_pos hblank]
    simp [resolveList, Stands, hblank]
  · have hvalue : trim (neutralize name) ≠ [] := mt (trim_neutralize_eq_nil).mp hblank
    rw [if_neg hblank, resolveList, trim_trim, if_pos hvalue, unneutralize_trim_neutralize, hlists]
    simp only [Stands, ne_eq, hblank, not_false_eq_true, true_and, ← resolve_ofEntries]
    cases (NameLookup.ofEntries engine entries).resolve engine (carried name) <;> simp

end

/-! ### Fields of several names -/

/-- The entries of a cell stand for these ids, each for one of them. -/
def NamesAll (stands : Text → Id → Prop) (entries : List Text) (ids : List Id) : Prop :=
  (∀ entry ∈ entries, ∃ id, stands entry id) ∧
    ∀ id, id ∈ ids ↔ ∃ entry ∈ entries, stands entry id

theorem namesAll_iff {stands : Text → Id → Prop} {find : Text → Option Id}
    (hfind : ∀ entry id, find entry = some id ↔ stands entry id) {entries : List Text}
    {ids : List Id} :
    (∀ entry ∈ entries, (find entry).isSome = true) ∧
        (∀ id, id ∈ entries.filterMap find ↔ id ∈ ids) ↔
      NamesAll stands entries ids := by
  simp only [NamesAll, List.mem_filterMap, Option.isSome_iff_exists, hfind]
  exact and_congr_right fun _ => forall_congr' fun _ => Iff.comm

section
variable {engine : Engine} {vocab : ResolvedVocabulary} {names : List Text}

theorem checkAssignees_eq_ok {ids : List Id} :
    (∃ assigneeIds, checkAssignees engine vocab
        (cellValue .assignees (neutralize (joinNames names))) = .ok assigneeIds ∧
        ∀ id, id ∈ assigneeIds ↔ id ∈ ids) ↔
      NamesAll (fun email id => vocab.members.get (engine.toLowerCase email) = some id)
        (entriesOf names) ids := by
  rw [checkAssignees, splitList_cellValue (.inl rfl), splitCell_neutralize_joinNames,
    ← namesAll_iff fun _ _ => Iff.rfl]
  simp only
  cases hunknown : (entriesOf names).find? fun email =>
      (vocab.members.get (engine.toLowerCase email)).isNone with
  | some email =>
    have hnone : vocab.members.get (engine.toLowerCase email) = none := by
      simpa using List.find?_some hunknown
    refine iff_of_false (by simp) fun h => ?_
    have hsome := h.1 email (List.mem_of_find?_eq_some hunknown)
    rw [hnone] at hsome
    cases hsome
  | none =>
    have hall : ∀ email ∈ entriesOf names,
        (vocab.members.get (engine.toLowerCase email)).isSome = true := by
      simpa [Option.isSome_iff_ne_none] using hunknown
    refine ⟨?_, fun h => ⟨_, rfl, h.2⟩⟩
    rintro ⟨_, hids, hmem⟩
    cases hids
    exact ⟨hall, hmem⟩

theorem bind_eq_ok {α β : Type} {x : Checked α} {f : α → Checked β} {b : β} :
    x >>= f = .ok b ↔ ∃ a, x = .ok a ∧ f a = .ok b := by
  cases x <;> simp [bind, Except.bind]

/-- Labels are resolved one by one, and all of them. -/
theorem resolveLabels_eq_ok {labels : List Entry}
    (hlabels : vocab.labels = NameLookup.ofEntries engine labels)
    (entries : List Text) (labelIds : List Id) :
    let find := fun entry =>
      (NameLookup.ofEntries engine labels).resolve engine (unneutralize entry)
    resolveLabels engine vocab false entries = .ok labelIds ↔
      (∀ entry ∈ entries, (find entry).isSome = true) ∧ entries.filterMap find = labelIds := by
  intro find
  induction entries generalizing labelIds with
  | nil => simp [resolveLabels]
  | cons entry entries ih =>
    have hentry : vocab.labels.resolve engine (unneutralize entry) = find entry := by rw [hlabels]
    rw [resolveLabels, hentry, List.forall_mem_cons, List.filterMap_cons]
    cases find entry with
    | none => simp
    | some id =>
      simp only [bind_eq_ok, ih, Option.isSome_some, true_and]
      constructor
      · rintro ⟨_, ⟨hall, rfl⟩, hids⟩
        exact ⟨hall, Except.ok.inj hids⟩
      · rintro ⟨hall, hids⟩
        exact ⟨_, ⟨hall, rfl⟩, congrArg Except.ok hids⟩

theorem checkLabels_eq_ok {labels : List Entry} {ids : List Id}
    (hlabels : vocab.labels = NameLookup.ofEntries engine labels) :
    (∃ labelIds, checkLabels engine vocab false (cellValue .labels (neutralize (joinNames names))) =
        .ok labelIds ∧ ∀ id, id ∈ labelIds ↔ id ∈ ids) ↔
      (entriesOf names).length ≤ MAX_IMPORT_LIST ∧
        NamesAll (fun entry id => Named engine labels (unneutralize entry) id)
          (entriesOf names) ids := by
  rw [checkLabels, splitList_cellValue (.inr rfl), splitCell_neutralize_joinNames,
    ← namesAll_iff fun entry id => resolve_ofEntries labels (unneutralize entry) id]
  simp only
  by_cases hmany : MAX_IMPORT_LIST < (entriesOf names).length
  · rw [if_pos hmany]
    exact iff_of_false (by simp) fun h => absurd hmany (Nat.not_lt.mpr h.1)
  · rw [if_neg hmany]
    simp only [resolveLabels_eq_ok hlabels]
    constructor
    · rintro ⟨_, ⟨hall, rfl⟩, hmem⟩
      exact ⟨Nat.not_lt.mp hmany, hall, hmem⟩
    · rintro ⟨-, hall, hmem⟩
      exact ⟨_, ⟨hall, rfl⟩, hmem⟩

end

/-! ### Priorities and dates -/

section
variable {engine : Engine}

theorem checkPriority_text (ascii : LowersAscii engine) (priority : Option Priority) :
    checkPriority engine (cellValue .priority
      (neutralize ((priority.map Priority.text).getD []))) = .ok priority := by
  cases priority with
  | none => rfl
  | some priority =>
    have hlower : engine.toLowerCase priority.text = priority.text := by
      have hall : priority.text.all (fun c => c.toNat < 128) = true := by
        cases priority <;> decide
      rw [ascii _ (by simpa using List.all_eq_true.mp hall)]
      cases priority <;> rfl
    have hcell : cellValue .priority (neutralize priority.text) = some (.text priority.text) := by
      cases priority <;> decide
    have hplain : unneutralize priority.text = priority.text := by cases priority <;> rfl
    have hread : Priority.ofText priority.text = some priority := by cases priority <;> rfl
    have hcheck : checkPriority engine (some (.text priority.text)) = .ok (some priority) := by
      rw [checkPriority, hplain, hlower, hread]
      cases priority <;> decide
    rw [Option.map_some, Option.getD_some, hcell, hcheck]

/-- The year of an instant, in the calendar of `toISOString`. -/
def yearOf (time : Instant) : ℤ := (Filter.civilFromDays (time.1 / Filter.msPerDay)).1

theorem isSpace_of_isDigit {c : Char} (h : c.isDigit = true) : isSpace c = false := by
  have hrange : 48 ≤ c.toNat ∧ c.toNat ≤ 57 := Char.isDigit_iff_toNat.mp h
  simp only [isSpace, List.mem_cons, List.not_mem_nil, or_false, decide_eq_false_iff_not]
  omega

theorem isDigit_of_mem_padStart {width n : ℕ} {c : Char} (hc : c ∈ Filter.padStart width n) :
    c.isDigit = true := by
  rw [Filter.padStart, List.mem_append] at hc
  obtain hc | hc := hc
  · rw [List.eq_of_mem_replicate hc]
    decide
  · exact Nat.isDigit_of_mem_toDigits (by decide) (by decide) hc

theorem trim_of_forall {value : Text} (h : ∀ c ∈ value, isSpace c = false) :
    trim value = value := by
  cases value with
  | nil => rfl
  | cons c rest =>
    refine (strip_cons_of_not (h c List.mem_cons_self) rest).trans (congrArg (c :: ·) ?_)
    exact List.rdropWhile_eq_self_iff.mpr fun hne =>
      by simp [h _ (List.mem_cons_of_mem _ (List.getLast_mem hne))]

theorem all_isDigit_padStart (width n : ℕ) : (Filter.padStart width n).all (·.isDigit) = true :=
  List.all_eq_true.mpr fun _ hc => isDigit_of_mem_padStart hc

/-- What is behind a field and its mark. -/
theorem drop_field {field : Text} {width : ℕ} (h : field.length = width) (c : Char) (rest : Text) :
    (field ++ c :: rest).drop (width + 1) = rest := by
  rw [← List.drop_drop, List.drop_left' h, List.drop_one, List.tail_cons]

section
variable {year month day ms : ℕ}

theorem isSpace_of_mem_isoText {c : Char} (hc : c ∈ Filter.isoText year month day ms) :
    isSpace c = false := by
  have hdigits : ∀ {width n : ℕ}, c ∈ Filter.padStart width n → isSpace c = false :=
    fun h => isSpace_of_isDigit (isDigit_of_mem_padStart h)
  simp only [Filter.isoText, List.mem_append, List.mem_cons, List.not_mem_nil, or_false] at hc
  obtain h | rfl | h | rfl | h | rfl | h | rfl | h | rfl | h | rfl | h | rfl := hc
  all_goals first | exact hdigits h | decide

theorem isDateShaped_isoText (hyear : year ≤ 9999) (hmonth : month ≤ 12) (hday : day ≤ 31) :
    isDateShaped (Filter.isoText year month day ms) = true := by
  have hyears : (Filter.padStart 4 year).length = 4 :=
    Filter.length_padStart (by omega) (by omega)
  have hmonths : (Filter.padStart 2 month).length = 2 :=
    Filter.length_padStart (by omega) (by omega)
  have hdays : (Filter.padStart 2 day).length = 2 := Filter.length_padStart (by omega) (by omega)
  rw [Filter.isoText]
  generalize 'T' :: _ = rest
  have h5 : (Filter.padStart 4 year ++ '-' :: (Filter.padStart 2 month ++ '-' ::
      (Filter.padStart 2 day ++ rest))).drop 5 =
      Filter.padStart 2 month ++ '-' :: (Filter.padStart 2 day ++ rest) := drop_field hyears _ _
  have h7 : (Filter.padStart 2 month ++ '-' :: (Filter.padStart 2 day ++ rest)).drop 2 =
      '-' :: (Filter.padStart 2 day ++ rest) := List.drop_left' hmonths
  have h8 := drop_field hmonths '-' (Filter.padStart 2 day ++ rest)
  rw [← h5, List.drop_drop] at h7 h8
  simp only [isDateShaped, h5, h7, h8, List.take_left' hyears, List.drop_left' hyears,
    List.take_left' hmonths, List.take_left' hdays, all_isDigit_padStart, List.head?_cons,
    and_self, and_true, decide_eq_true_eq, List.length_append, List.length_cons, hyears, hmonths,
    hdays]
  omega

theorem formulaLead_isoText (hyear : year ≤ 9999) :
    formulaLead (Filter.isoText year month day ms) = false := by
  have hlength : (Filter.padStart 4 year).length = 4 :=
    Filter.length_padStart (by omega) (by omega)
  have hdigits := all_isDigit_padStart 4 year
  rw [Filter.isoText]
  cases hyears : Filter.padStart 4 year with
  | nil => rw [hyears] at hlength; cases hlength
  | cons c rest =>
    rw [hyears, List.all_cons, Bool.and_eq_true] at hdigits
    by_contra h
    simp only [List.cons_append, formulaLead, Bool.not_eq_false, decide_eq_true_eq] at h
    obtain rfl | rfl | rfl | rfl := h <;> exact absurd hdigits.1 (by decide)

end

/-- A text that begins with a sign is guarded, and is no date then. -/
theorem isDateShaped_guarded (rest : Text) : isDateShaped ('\'' :: rest) = false := by
  have hguard : ('\'' : Char).isDigit = false := by decide
  simp [isDateShaped, hguard]

theorem formulaLead_dueDateText {time : Instant} (hyear : ¬(0 ≤ yearOf time ∧ yearOf time ≤ 9999)) :
    formulaLead (dueDateText time) = true := by
  have hsign : ∃ c rest, Filter.isoYear (yearOf time) = c :: rest ∧ (c = '-' ∨ c = '+') := by
    rw [Filter.isoYear, if_neg hyear]
    refine ⟨_, _, rfl, ?_⟩
    split
    · exact .inl rfl
    · exact .inr rfl
  obtain ⟨c, rest, hisoYear, hc⟩ := hsign
  obtain ⟨rest', htext⟩ : ∃ rest', dueDateText time = Filter.isoYear (yearOf time) ++ rest' := by
    rw [dueDateText, Filter.toISOString]
    simp only [List.append_assoc]
    exact ⟨_, rfl⟩
  rw [htext, hisoYear]
  obtain rfl | rfl := hc <;> rfl

theorem checkDueDate_text {value : Text} (hvalue : value ≠ []) :
    checkDueDate engine (some (.text value)) =
      if isDateShaped value then
        match engine.newDate value with
        | none => .error (quoting "Invalid dueDate " value ".")
        | some time => .ok (some time)
      else .error (quoting "Invalid dueDate " value ".") := by
  cases value with
  | nil => exact absurd rfl hvalue
  | cons c rest => rfl

theorem newDate_of_isoTime {value : Text} {time : ℤ} (h : Filter.isoTime value = some time) :
    engine.newDate value = some time := by
  unfold Engine.newDate
  simp only [h]

/-- A date whose year has four digits comes back; any other begins with a sign, is guarded as a
formula, and is not read. -/
theorem checkDueDate_eq_ok (dueDate : Option Instant) :
    checkDueDate engine (cellValue .dueDate
        (neutralize ((dueDate.map dueDateText).getD []))) = .ok (dueDate.map (·.1)) ↔
      ∀ time ∈ dueDate, 0 ≤ yearOf time ∧ yearOf time ≤ 9999 := by
  cases dueDate with
  | none => exact iff_of_true rfl fun _ h => absurd h (Option.not_mem_none _)
  | some time =>
    simp only [Option.map_some, Option.getD_some, Option.mem_some_iff, forall_eq']
    rw [cellValue_neutralize (by decide)]
    by_cases hyear : 0 ≤ yearOf time ∧ yearOf time ≤ 9999
    · refine iff_of_true ?_ hyear
      obtain ⟨year, month, day, ms, hparts, htime, htext⟩ := Filter.exists_isoText hyear
      have hdue : dueDateText time = Filter.isoText year month day ms := by rw [dueDateText, htext]
      have hshaped : isDateShaped (Filter.isoText year month day ms) = true :=
        isDateShaped_isoText hparts.1 hparts.2.1 hparts.2.2.1
      have hread : engine.newDate (Filter.isoText year month day ms) = some time.1 :=
        newDate_of_isoTime (Filter.isoTime_of_isoText time.2 hparts htime htext)
      have htrim : trim (Filter.isoText year month day ms) = Filter.isoText year month day ms :=
        trim_of_forall fun _ hc => isSpace_of_mem_isoText hc
      have hne : Filter.isoText year month day ms ≠ [] := by
        intro h
        rw [h] at hshaped
        cases hshaped
      have hguard : neutralize (Filter.isoText year month day ms) =
          Filter.isoText year month day ms :=
        if_neg (by rw [formulaLead_isoText hparts.1]; exact Bool.false_ne_true)
      rw [hdue, hguard, htrim, if_neg hne, checkDueDate_text hne, if_pos hshaped, hread]
    · refine iff_of_false ?_ hyear
      have hlead := formulaLead_dueDateText hyear
      obtain ⟨hguard, hlead'⟩ := trim_neutralize_of_formulaLead hlead
      have hne : trim (dueDateText time) ≠ [] := by
        intro h
        rw [h] at hlead'
        cases hlead'
      rw [if_neg hne, hguard, checkDueDate_text (List.cons_ne_nil _ _), isDateShaped_guarded]
      simp

end

end CardExport
end TaskFlow
