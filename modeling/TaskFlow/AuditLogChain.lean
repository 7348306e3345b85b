import Mathlib.Data.List.Dedup
import TaskFlow.AuditLog

/-! # The trigger and the verifier agree

While a transaction holds the lock on an organization's head, the rows it has
inserted continue the chain from the committed head to the one it sees.  So a
commit appends to the chain, and the committed rows of an organization are a
chain from the empty head to the committed one, which the verifier accepts.
-/
namespace TaskFlow
namespace AuditLog
open AuditChain NetString ReadCommitted StepSystem
variable {Jsonb Inet : Type} {casts : Casts Jsonb Inet} {sha256 : Bytes → Bytes}

/-! ### Rows that continue a chain -/

/-- Rows the trigger makes in turn lead from one head to another. -/
def Continues (casts : Casts Jsonb Inet) (sha256 : Bytes → Bytes) :
    Head → List (AuditRow Jsonb Inet) → Head → Prop
  | head, [], head' => head = head'
  | head, row :: rows, head' => row = chainEntry casts sha256 row.toNewEntry head ∧
      Continues casts sha256 ⟨row.seq, row.hash⟩ rows head'

section
variable {head head' head'' : Head} {rows rows' : List (AuditRow Jsonb Inet)}

theorem Continues.append (h : Continues casts sha256 head rows head')
    (h' : Continues casts sha256 head' rows' head'') :
    Continues casts sha256 head (rows ++ rows') head'' := by
  induction rows generalizing head with
  | nil =>
    obtain rfl : head = head' := h
    exact h'
  | cons row rows ih => exact ⟨h.1, ih h.2⟩

theorem continues_one (entry : NewEntry Jsonb Inet) :
    Continues casts sha256 head [chainEntry casts sha256 entry head]
      ⟨(chainEntry casts sha256 entry head).seq, (chainEntry casts sha256 entry head).hash⟩ :=
  ⟨rfl, rfl⟩

/-- The sequence numbers have no gap. -/
theorem Continues.seq_eq (h : Continues casts sha256 head rows head') :
    rows.map AuditRow.seq = List.range' (head.seq + 1) rows.length ∧
      head'.seq = head.seq + rows.length := by
  induction rows generalizing head with
  | nil =>
    obtain rfl : head = head' := h
    exact ⟨rfl, rfl⟩
  | cons row rows ih =>
    obtain ⟨hrow, hrest⟩ := h
    have hseq : row.seq = head.seq + 1 := by rw [hrow]; rfl
    obtain ⟨hmap, hlast⟩ := ih hrest
    rw [hseq] at hmap hlast
    refine ⟨?_, hlast.trans (by rw [List.length_cons, Nat.add_assoc, Nat.add_comm 1])⟩
    rw [List.map_cons, hmap, hseq, List.length_cons, List.range'_succ]

theorem Continues.sorted (h : Continues casts sha256 head rows head') :
    rows.Pairwise fun a b => a.seq < b.seq := by
  have hpair : (rows.map AuditRow.seq).Pairwise (· < ·) := by
    rw [h.seq_eq.1]
    exact List.pairwise_lt_range'
  exact List.pairwise_map.mp hpair

theorem Continues.hash_eq (h : Continues casts sha256 head rows head') :
    (rows.getLast?.map AuditRow.hash).getD head.hash = head'.hash := by
  induction rows generalizing head with
  | nil =>
    obtain rfl : head = head' := h
    rfl
  | cons row rows ih =>
    rw [← ih h.2]
    cases rows <;> simp [List.getLast?_cons]

end

/-! ### The verifier's side -/

/-- What the trigger hashes is what the verifier hashes. -/
theorem chainText_eq (row : AuditRow Jsonb Inet) :
    utf8 (chainText casts row.toNewEntry row.seq) =
      canonicalBytes (chainRow casts row).toAuditChainEntry := by
  have hfield : chainField = field := by
    funext v
    cases v <;> rfl
  simp [chainText, canonicalBytes, AuditChainEntry.fields, chainRow, hfield]

theorem digitValue_of_isDigit {c : Char} (h : c.isDigit = true) :
    digitValue c = some (c.toNat - '0'.toNat) ∧ c.toNat - '0'.toNat < 10 := by
  have hle : '0' ≤ c ∧ c ≤ '9' := by simpa [Char.isDigit, Char.le_def] using h
  rw [Char.isDigit_iff_toNat] at h
  have h0 : '0'.toNat = 48 := rfl
  have h9 : '9'.toNat = 57 := rfl
  exact ⟨if_pos hle, by omega⟩

theorem digits_ten {cs : List Char} (hne : cs ≠ []) (hcs : ∀ c ∈ cs, c.isDigit = true) :
    digits 10 cs = some (Nat.ofDigitChars 10 cs 0) := by
  rw [digits, if_neg hne]
  generalize 0 = value
  clear hne
  induction cs generalizing value with
  | nil => rfl
  | cons c cs ih =>
    obtain ⟨hc, hlt⟩ := digitValue_of_isDigit (hcs c List.mem_cons_self)
    rw [List.foldl_cons, Nat.ofDigitChars_cons, ← ih fun c hc => hcs c (List.mem_cons_of_mem _ hc)]
    simp only [Option.bind_eq_bind, Option.bind_some, hc, if_pos hlt]

theorem dropWhile_of_isDigit {cs : List Char} (h : ∀ c ∈ cs, c.isDigit = true) :
    cs.dropWhile isWhiteSpace = cs := by
  cases cs with
  | nil => rfl
  | cons c cs =>
    have hc := Char.isDigit_iff_toNat.mp (h c List.mem_cons_self)
    have h0 : '0'.toNat = 48 := rfl
    have h9 : '9'.toNat = 57 := rfl
    have hspace : ¬isWhiteSpace c = true := by
      simp only [isWhiteSpace, List.mem_cons, List.not_mem_nil, Bool.or_eq_true, Bool.and_eq_true,
        decide_eq_true_eq, or_false]
      omega
    rw [List.dropWhile_cons_of_neg hspace]

/-- `BigInt` reads the decimal text of a number. -/
theorem bigInt_toString (n : Nat) : bigInt (toString n) = some n := by
  have hdigit : ∀ c ∈ Nat.toDigits 10 n, c.isDigit = true := fun c hc =>
    Nat.isDigit_of_mem_toDigits (by decide) (by decide) hc
  have htext : (((toString n).toList.dropWhile isWhiteSpace).reverse.dropWhile
      isWhiteSpace).reverse = Nat.toDigits 10 n := by
    rw [show (toString n).toList = Nat.toDigits 10 n from Nat.toList_repr,
      dropWhile_of_isDigit hdigit, dropWhile_of_isDigit (by simpa using hdigit),
      List.reverse_reverse]
  unfold bigInt
  rw [htext]
  split
  case h_1 heq => exact absurd heq Nat.toDigits_ne_nil
  case h_10 =>
    rw [digits_ten Nat.toDigits_ne_nil hdigit, Nat.ofDigitChars_ten_toDigits]
    rfl
  -- No other form of an integer is made of digits alone.
  all_goals
    rename_i heq
    simp [heq, Char.isDigit] at hdigit

/-- Rows that continue a chain are linked for the verifier. -/
theorem Continues.linked {head head' : Head} {rows : List (AuditRow Jsonb Inet)}
    {expected : Option Int} (h : Continues casts sha256 head rows head')
    (hhash : head.seq = 0 → head.hash = [])
    (hexpected : ∀ n ∈ expected, ((head.seq + 1 : Nat) : Int) = n) :
    Linked sha256 head.hash expected (rows.map (chainRow casts)) := by
  induction rows generalizing head expected with
  | nil => trivial
  | cons row rows ih =>
    obtain ⟨hrow, hrest⟩ := h
    have hseq : row.seq = head.seq + 1 := by rw [hrow]; rfl
    have hprev : row.prevHash = if head.seq = 0 then none else some head.hash := by rw [hrow]; rfl
    have hdigest : row.hash =
        sha256 (head.hash ++ utf8 (chainText casts row.toNewEntry row.seq)) := by
      rw [hseq, hrow]
      rfl
    refine ⟨?_, ?_, row.seq, bigInt_toString row.seq, hseq ▸ hexpected, ih hrest ?_ ?_⟩
    · change row.prevHash.getD [] = head.hash
      by_cases h0 : head.seq = 0
      · rw [hprev, if_pos h0, hhash h0]
        rfl
      · rw [hprev, if_neg h0]
        rfl
    · rw [auditEntryHash, ← chainText_eq, ← hdigest]
      rfl
    · exact fun h0 => absurd (hseq ▸ h0) (Nat.succ_ne_zero _)
    · rintro n ⟨⟩
      push_cast
      rfl

/-! ### What a transaction has written -/

/-- The head of an organization's chain. -/
def headAt (rows : Rows Jsonb Inet) (orgId : Uuid) : Head := (headOf rows orgId).getD ⟨0, []⟩

/-- The rows a transaction has inserted for an organization, in order. -/
def written (writes : List (Key × Option (Record Jsonb Inet))) (orgId : Uuid) :
    List (AuditRow Jsonb Inet) :=
  ((writes.filterMap fun write =>
    match write.2 with
    | some (.auditLog row) => some row
    | _ => none).filter fun row => row.orgId = orgId).reverse

/-- The row that is about to be inserted. -/
def Phase.rowFor (orgId : Uuid) : Phase Jsonb Inet → List (AuditRow Jsonb Inet)
  | .inserting row => if row.orgId = orgId then [row] else []
  | _ => []

section
variable {rows c c' : Rows Jsonb Inet} {orgId : Uuid}
  {writes : List (Key × Option (Record Jsonb Inet))}

theorem headAt_congr (h : rows (.chainHead orgId) = c (.chainHead orgId)) :
    headAt rows orgId = headAt c orgId := by
  rw [headAt, headOf, h]
  rfl

@[simp] theorem headAt_update_self {head : Head} :
    headAt (Function.update rows (.chainHead orgId) (some (.chainHead head))) orgId = head := by
  rw [headAt, headOf, Function.update_self]
  rfl

theorem headAt_update_of_ne {k : Key} {v : Option (Record Jsonb Inet)} (h : k ≠ .chainHead orgId) :
    headAt (Function.update rows k v) orgId = headAt rows orgId :=
  headAt_congr (Function.update_of_ne h.symm _ _)

@[simp] theorem written_nil : written ([] : List (Key × Option (Record Jsonb Inet))) orgId = [] :=
  rfl

@[simp] theorem written_head {k : Key} {head : Head} :
    written ((k, some (.chainHead head)) :: writes) orgId = written writes orgId := rfl

theorem written_row {k : Key} {row : AuditRow Jsonb Inet} :
    written ((k, some (.auditLog row)) :: writes) orgId =
      written writes orgId ++ if row.orgId = orgId then [row] else [] := by
  by_cases h : row.orgId = orgId <;> simp [written, h]

theorem mem_written {row : AuditRow Jsonb Inet} :
    row ∈ written writes orgId ↔
      row.orgId = orgId ∧ ∃ k, (k, some (.auditLog row)) ∈ writes := by
  simp only [written, List.mem_reverse, List.mem_filter, List.mem_filterMap, decide_eq_true_eq]
  constructor
  · rintro ⟨⟨⟨k, v⟩, hmem, heq⟩, horg⟩
    refine ⟨horg, k, ?_⟩
    split at heq
    · rename_i hv
      obtain rfl := Option.some.inj heq
      exact hv ▸ hmem
    · cases heq
  · rintro ⟨horg, k, hmem⟩
    exact ⟨⟨_, hmem, rfl⟩, horg⟩

/-- A write of a transaction: a head, or a row that was not there and is not
written again. -/
inductive Written (writes : List (Key × Option (Record Jsonb Inet))) (c : Rows Jsonb Inet) :
    Key → Option (Record Jsonb Inet) → Prop where
  | head (orgId : Uuid) (head : Head) : Written writes c (.chainHead orgId) (some (.chainHead head))
  | row (row : AuditRow Jsonb Inet) : c row.key = none →
      overlay writes c row.key = some (.auditLog row) →
      Written writes c row.key (some (.auditLog row))

/-- What holds of a session whatever the others do. -/
structure Session (casts : Casts Jsonb Inet) (sha256 : Bytes → Bytes) (phase : Phase Jsonb Inet)
    (writes : List (Key × Option (Record Jsonb Inet))) (own : Key → Prop)
    (c : Rows Jsonb Inet) : Prop where
  locked : ∀ k ∈ writes.map Prod.fst, own k
  wrote : ∀ k v, (k, v) ∈ writes → Written writes c k v
  head : ∀ orgId, written writes orgId ++ phase.rowFor orgId ≠ [] → own (.chainHead orgId)
  continues : ∀ orgId, Continues casts sha256 (headAt c orgId)
    (written writes orgId ++ phase.rowFor orgId) (headAt (overlay writes c) orgId)
  advancing : ∀ entry head, phase = .advancing entry head →
    own (.chainHead entry.orgId) ∧ headOf (overlay writes c) entry.orgId = some head

theorem Session.idle (own : Key → Prop) (c : Rows Jsonb Inet) :
    Session casts sha256 .ready [] own c where
  locked := fun _ h => absurd h List.not_mem_nil
  wrote := fun _ _ h => absurd h List.not_mem_nil
  head := fun _ h => absurd rfl h
  continues := fun _ => rfl
  advancing := fun _ _ h => by cases h

theorem Session.frame {phase : Phase Jsonb Inet} {own : Key → Prop}
    (h : Session casts sha256 phase writes own c) (hc : ∀ k, own k → c k = c' k) :
    Session casts sha256 phase writes own c' := by
  refine ⟨h.locked, fun k v hkv => ?_, h.head, fun orgId => ?_, fun entry head hphase => ?_⟩
  · have hk := hc k (h.locked k (List.mem_map_of_mem hkv))
    cases h.wrote k v hkv with
    | head => exact .head _ _
    | row row hnone hrow => exact .row row (hk ▸ hnone) (overlay_congr hk ▸ hrow)
  · by_cases hown : own (.chainHead orgId)
    · rw [← headAt_congr (hc _ hown), ← headAt_congr (overlay_congr (hc _ hown))]
      exact h.continues orgId
    · have hnil : written writes orgId ++ phase.rowFor orgId = [] := by
        by_contra hne
        exact hown (h.head orgId hne)
      rw [hnil]
      exact (headAt_congr (overlay_of_notMem (fun hmem => hown (h.locked _ hmem)) _)).symm
  · obtain ⟨hown, hhead⟩ := h.advancing entry head hphase
    refine ⟨hown, ?_⟩
    rw [← hhead, headOf, headOf, overlay_congr (hc _ hown)]

/-! ### One statement -/

/-- What a statement that goes on does. -/
inductive Runs (casts : Casts Jsonb Inet) (sha256 : Bytes → Bytes) (rows : Rows Jsonb Inet) :
    Phase Jsonb Inet → List Key → List (Key × Option (Record Jsonb Inet)) →
      Phase Jsonb Inet → Prop where
  | seed {entry : NewEntry Jsonb Inet} : rows (.chainHead entry.orgId) = none →
      Runs casts sha256 rows .ready []
        [(.chainHead entry.orgId, some (.chainHead ⟨0, []⟩))] (.locking entry)
  | seeded {entry : NewEntry Jsonb Inet} : Runs casts sha256 rows .ready [] [] (.locking entry)
  | lock {entry : NewEntry Jsonb Inet} {head : Head} : headOf rows entry.orgId = some head →
      Runs casts sha256 rows (.locking entry) [.chainHead entry.orgId] [] (.advancing entry head)
  | advance {entry : NewEntry Jsonb Inet} {head : Head} {row : AuditRow Jsonb Inet} :
      row = chainEntry casts sha256 entry head →
      Runs casts sha256 rows (.advancing entry head) []
        [(.chainHead entry.orgId, some (.chainHead ⟨row.seq, row.hash⟩))] (.inserting row)
  | insert {row : AuditRow Jsonb Inet} : rows row.key = none →
      Runs casts sha256 rows (.inserting row) [] [(row.key, some (.auditLog row))] .ready

theorem runs_of_statement {phase next : Phase Jsonb Inet} {input : Input Jsonb Inet}
    {held : Key → Bool} {locks : List Key} {new : List (Key × Option (Record Jsonb Inet))}
    (h : statement casts sha256 phase input rows held = some (.run locks new next)) :
    Runs casts sha256 rows phase locks new next := by
  unfold statement at h
  split at h
  · split at h <;> cases h
    · rename_i hnone
      exact .seed hnone
    · exact .seeded
  · split at h <;> cases h
    rename_i hhead
    exact .lock hhead
  · split at h <;> cases h
    exact .advance rfl
  · split at h <;> cases h
    rename_i hnone
    exact .insert hnone
  all_goals cases h

/-- A transaction ends ready for the next one, and commits between inserts. -/
theorem ready_of_end {phase next : Phase Jsonb Inet} {input : Input Jsonb Inet}
    {held : Key → Bool} :
    (statement casts sha256 phase input rows held = some (.commit next) →
      phase = .ready ∧ next = .ready) ∧
    (statement casts sha256 phase input rows held = some (.rollback next) → next = .ready) := by
  constructor <;>
  · intro h
    unfold statement at h
    split at h
    all_goals
      repeat' split at h
      all_goals cases h
    all_goals simp

theorem Written.run {k : Key} {v : Option (Record Jsonb Inet)} (h : Written writes c k v)
    {new : List (Key × Option (Record Jsonb Inet))}
    (hnew : ∀ k' ∈ new.map Prod.fst, overlay writes c k' = none ∨ ∃ orgId, k' = .chainHead orgId) :
    Written (new ++ writes) c k v := by
  cases h with
  | head => exact .head _ _
  | row row hnone hrow =>
    refine .row row hnone ?_
    rw [overlay_append, overlay_of_notMem, hrow]
    intro hmem
    rcases hnew _ hmem with hnone | ⟨orgId, hhead⟩
    · rw [hnone] at hrow
      cases hrow
    · cases hhead

/-- A key the transaction sees no row for is not one it has written. -/
theorem Session.notMem_of_none {phase : Phase Jsonb Inet} {own : Key → Prop}
    (h : Session casts sha256 phase writes own c) {row : AuditRow Jsonb Inet}
    (hnone : overlay writes c row.key = none) : c row.key = none := by
  by_cases hmem : row.key ∈ writes.map Prod.fst
  · obtain ⟨⟨k, v⟩, hkv, hk⟩ := List.mem_map.mp hmem
    cases h.wrote k v hkv with
    | head => cases hk
    | row row' _ hrow =>
      rw [show row'.key = row.key from hk, hnone] at hrow
      cases hrow
  · rwa [overlay_of_notMem hmem] at hnone

theorem session_run {phase next : Phase Jsonb Inet} {own : Key → Prop} {locks : List Key}
    {new : List (Key × Option (Record Jsonb Inet))}
    (h : Session casts sha256 phase writes own c)
    (hrun : Runs casts sha256 (overlay writes c) phase locks new next) :
    Session casts sha256 next (new ++ writes) (fun k => own k ∨ k ∈ locks ++ new.map Prod.fst)
      c := by
  have hlocked : ∀ k ∈ (new ++ writes).map Prod.fst, own k ∨ k ∈ locks ++ new.map Prod.fst := by
    intro k hk
    rw [List.map_append, List.mem_append] at hk
    rcases hk with hk | hk
    · exact Or.inr (List.mem_append_right _ hk)
    · exact Or.inl (h.locked k hk)
  cases hrun with
  -- a head that was not there reads as the genesis, before and after it is seeded
  | @seed entry hnone =>
    have hgenesis (orgId : Uuid) : headAt (overlay ((.chainHead entry.orgId,
        some (.chainHead ⟨0, []⟩)) :: writes) c) orgId = headAt (overlay writes c) orgId := by
      by_cases horg : entry.orgId = orgId
      · subst horg
        rw [overlay_cons, headAt_update_self, headAt, headOf, hnone]
        rfl
      · exact headAt_update_of_ne (fun heq => horg (Key.chainHead.inj heq))
    refine ⟨hlocked, fun k v hkv => ?_, fun orgId hne => Or.inl (h.head orgId hne), fun orgId => ?_,
      fun _ _ hphase => by cases hphase⟩
    · rcases List.mem_cons.mp hkv with heq | hkv
      · cases heq
        exact .head _ _
      · exact (h.wrote k v hkv).run (List.forall_mem_singleton.mpr (Or.inr ⟨_, rfl⟩))
    · rw [List.singleton_append, hgenesis orgId]
      exact h.continues orgId
  | seeded =>
    exact ⟨hlocked, h.wrote, fun orgId hne => Or.inl (h.head orgId hne), h.continues,
      fun _ _ hphase => by cases hphase⟩
  | lock hhead =>
    refine ⟨hlocked, h.wrote, fun orgId hne => Or.inl (h.head orgId hne), h.continues, ?_⟩
    rintro entry head ⟨⟩
    exact ⟨Or.inr (by simp), hhead⟩
  -- the new head is the hash of the row that is still to be inserted
  | @advance entry head row hrow =>
    obtain ⟨hown, hhead⟩ := h.advancing entry head rfl
    have horg : row.orgId = entry.orgId := by rw [hrow]; rfl
    refine ⟨hlocked, fun k v hkv => ?_, fun orgId hne => ?_, fun orgId => ?_,
      fun _ _ hphase => by cases hphase⟩
    · rcases List.mem_cons.mp hkv with heq | hkv
      · cases heq
        exact .head _ _
      · exact (h.wrote k v hkv).run (List.forall_mem_singleton.mpr (Or.inr ⟨_, rfl⟩))
    · by_cases heq : entry.orgId = orgId
      · exact Or.inl (heq ▸ hown)
      · refine Or.inl (h.head orgId ?_)
        simpa [Phase.rowFor, horg, heq] using hne
    · have hprefix := h.continues orgId
      rw [List.singleton_append, written_head]
      by_cases heq : entry.orgId = orgId
      · subst heq
        have hview : headAt (overlay writes c) entry.orgId = head := by rw [headAt, hhead]; rfl
        rw [hview] at hprefix
        rw [overlay_cons, headAt_update_self, Phase.rowFor, if_pos horg, hrow]
        rw [show written writes entry.orgId ++ Phase.rowFor entry.orgId (.advancing entry head) =
          written writes entry.orgId from List.append_nil _] at hprefix
        exact hprefix.append (continues_one entry)
      · rw [overlay_cons, headAt_update_of_ne (fun hk => heq (Key.chainHead.inj hk)), Phase.rowFor,
          horg, if_neg heq]
        exact hprefix
  -- the row that was ahead of its insertion is now written
  | @insert row hnone =>
    refine ⟨hlocked, fun k v hkv => ?_, fun orgId hne => Or.inl (h.head orgId ?_), fun orgId => ?_,
      fun _ _ hphase => by cases hphase⟩
    · rcases List.mem_cons.mp hkv with heq | hkv
      · cases heq
        exact .row row (h.notMem_of_none hnone) (Function.update_self _ _ _)
      · exact (h.wrote k v hkv).run (List.forall_mem_singleton.mpr (Or.inl hnone))
    · rw [List.singleton_append, written_row] at hne
      simpa [Phase.rowFor] using hne
    · rw [List.singleton_append, written_row, overlay_cons,
        headAt_update_of_ne (fun hk => by cases hk)]
      simpa [Phase.rowFor] using h.continues orgId

theorem session_invariant : SessionInvariant (statement casts sha256) (Session casts sha256) where
  frame := fun hc h => h.frame hc
  run := fun h heq => session_run h (runs_of_statement heq)
  commit := fun _ heq => ((ready_of_end).1 heq).2 ▸ Session.idle _ _
  rollback := fun _ heq => (ready_of_end).2 heq ▸ Session.idle _ _

/-! ### The system -/

/-- The rows of an organization, in order: they lead from the empty head to its
head. -/
structure Chain (casts : Casts Jsonb Inet) (sha256 : Bytes → Bytes) (rows : Rows Jsonb Inet)
    (orgId : Uuid) (entries : List (AuditRow Jsonb Inet)) : Prop where
  continues : Continues casts sha256 ⟨0, []⟩ entries (headAt rows orgId)
  mem : ∀ row, row ∈ entries ↔ row.orgId = orgId ∧ rows row.key = some (.auditLog row)

/-- The keys of the rows there are. -/
structure KeysOf (keys : List Key) (rows : Rows Jsonb Inet) : Prop where
  nodup : keys.Nodup
  complete : ∀ k, (rows k).isSome = true → k ∈ keys

/-- A commit adds the keys it has written. -/
theorem KeysOf.overlay {keys : List Key} (h : KeysOf keys c) :
    ∃ keys, KeysOf keys (overlay writes c) := by
  refine ⟨(writes.map Prod.fst ++ keys).dedup, List.nodup_dedup _, fun k hk => ?_⟩
  rw [List.mem_dedup, List.mem_append]
  by_cases hmem : k ∈ writes.map Prod.fst
  · exact Or.inl hmem
  · exact Or.inr (h.complete k (by rwa [overlay_of_notMem hmem] at hk))

/-- Every row is under its key. -/
def Keyed (rows : Rows Jsonb Inet) : Prop :=
  ∀ k row, rows k = some (.auditLog row) → k = row.key

/-- What a transaction has written is under its key. -/
theorem Session.keyed {phase : Phase Jsonb Inet} {own : Key → Prop}
    (h : Session casts sha256 phase writes own c) (hc : Keyed c) : Keyed (overlay writes c) := by
  intro k row hrow
  by_cases hmem : k ∈ writes.map Prod.fst
  · have hwrote := h.wrote k _ (overlay_mem hmem c)
    rw [hrow] at hwrote
    cases hwrote
    rfl
  · rw [overlay_of_notMem hmem] at hrow
    exact hc k row hrow

/-- A commit appends what the transaction has written. -/
theorem Session.chain {own : Key → Prop} {entries : List (AuditRow Jsonb Inet)}
    (h : Session casts sha256 .ready writes own c) (hchain : Chain casts sha256 c orgId entries) :
    Chain casts sha256 (overlay writes c) orgId (entries ++ written writes orgId) := by
  refine ⟨hchain.continues.append ?_, fun row => ?_⟩
  · simpa [Phase.rowFor] using h.continues orgId
  · rw [List.mem_append, hchain.mem, mem_written]
    constructor
    · rintro (⟨horg, hrow⟩ | ⟨horg, k, hk⟩)
      · refine ⟨horg, ?_⟩
        by_cases hmem : row.key ∈ writes.map Prod.fst
        · obtain ⟨⟨k, v⟩, hkv, hk⟩ := List.mem_map.mp hmem
          cases h.wrote k v hkv with
          | head => cases hk
          | row row' hnone =>
            rw [show row'.key = row.key from hk, hrow] at hnone
            cases hnone
        · rwa [overlay_of_notMem hmem]
      · refine ⟨horg, ?_⟩
        cases h.wrote k _ hk with
        | row _ _ hrow => exact hrow
    · rintro ⟨horg, hrow⟩
      by_cases hmem : row.key ∈ writes.map Prod.fst
      · exact Or.inr ⟨horg, row.key, hrow ▸ overlay_mem hmem c⟩
      · rw [overlay_of_notMem hmem] at hrow
        exact Or.inl ⟨horg, hrow⟩

end

variable {S : Type} [DecidableEq S] {w w' : State S Jsonb Inet}

structure Valid (casts : Casts Jsonb Inet) (sha256 : Bytes → Bytes) (w : State S Jsonb Inet) :
    Prop where
  locked : Locked w
  session : ∀ s, Session casts sha256 (w.locals s) (w.pending s) (w.Owns s) w.committed
  keyed : Keyed w.committed
  keys : ∃ keys, KeysOf keys w.committed
  chain : ∀ orgId, ∃ entries, Chain casts sha256 w.committed orgId entries

omit [DecidableEq S] in
theorem valid_initial : Valid casts sha256 (initial : State S Jsonb Inet) where
  locked := locked_initial _ _
  session := fun _ => Session.idle _ _
  keyed := fun _ _ h => by cases h
  keys := ⟨[], List.nodup_nil, fun _ h => by cases h⟩
  chain := fun _ => ⟨[], rfl, fun _ => by simp [initial, World.initial]⟩

theorem valid_step {a : S × Input Jsonb Inet} (hv : Valid casts sha256 w)
    (h : step casts sha256 w a = some w') : Valid casts sha256 w' := by
  obtain ⟨s, i⟩ := a
  have hlocked := locked_step hv.locked h
  have hsession := (session_invariant).step hv.locked hv.session h
  rcases step_cases h with ⟨locks, writes, next, _, _, rfl⟩ | ⟨next, heq, rfl⟩ | ⟨next, _, rfl⟩
  · exact ⟨hlocked, hsession, hv.keyed, hv.keys, hv.chain⟩
  · have hs := hv.session s
    rw [((ready_of_end).1 heq).1] at hs
    obtain ⟨keys, hkeys⟩ := hv.keys
    refine ⟨hlocked, hsession, hs.keyed hv.keyed, hkeys.overlay, fun orgId => ?_⟩
    obtain ⟨entries, hchain⟩ := hv.chain orgId
    exact ⟨_, hs.chain hchain⟩
  · exact ⟨hlocked, hsession, hv.keyed, hv.keys, hv.chain⟩

/-! ### Reading the chain -/

theorem rowAt_eq_some {rows : Rows Jsonb Inet} {k : Key} {row : AuditRow Jsonb Inet}
    (h : rowAt rows k = some row) : rows k = some (.auditLog row) := by
  cases k with
  | chainHead => cases h
  | auditLog orgId occurredAt id =>
    rw [rowAt] at h
    split at h
    · rename_i hrow
      rw [hrow, Option.some.inj h]
    · cases h

theorem rowAt_key {rows : Rows Jsonb Inet} {row : AuditRow Jsonb Inet}
    (h : rows row.key = some (.auditLog row)) : rowAt rows row.key = some row := by
  rw [NewEntry.key] at h ⊢
  rw [rowAt, h]

instance : IsTrans (AuditRow Jsonb Inet) fun a b => a.seq ≤ b.seq := ⟨fun _ _ _ => Nat.le_trans⟩

instance : Std.Total fun a b : AuditRow Jsonb Inet => a.seq ≤ b.seq := ⟨fun _ _ => Nat.le_total _ _⟩

/-- In order of their sequence numbers the rows are the chain. -/
theorem Chain.orderedRows_eq {rows : Rows Jsonb Inet} {orgId : Uuid}
    {entries : List (AuditRow Jsonb Inet)} (h : Chain casts sha256 rows orgId entries)
    (hkeyed : Keyed rows) {keys : List Key} (hkeys : KeysOf keys rows) : orderedRows keys rows orgId = entries := by
  have hread : ((keys.filterMap (rowAt rows)).filter fun row => row.orgId = orgId).Nodup :=
    (hkeys.nodup.filterMap fun k k' row hk hk' =>
      (hkeyed k row (rowAt_eq_some hk)).trans (hkeyed k' row (rowAt_eq_some hk')).symm).filter _
  have hentries : entries.Nodup := h.continues.sorted.imp fun hlt heq => by simp [heq] at hlt
  have hperm : ((keys.filterMap (rowAt rows)).filter fun row => row.orgId = orgId).Perm entries := by
    apply (List.perm_ext_iff_of_nodup hread hentries).mpr
    intro row
    rw [List.mem_filter, List.mem_filterMap, h.mem, decide_eq_true_eq, and_comm]
    refine and_congr_right fun _ => ⟨?_, fun hrow => ?_⟩
    · rintro ⟨k, -, hk⟩
      have hrow := rowAt_eq_some hk
      exact hkeyed k row hrow ▸ hrow
    · exact ⟨row.key, hkeys.complete _ (by rw [hrow]; rfl), rowAt_key hrow⟩
  have hseq : (entries.map AuditRow.seq).Nodup := by
    rw [h.continues.seq_eq.1]
    exact List.nodup_range'
  refine List.Perm.eq_of_pairwise (fun a b ha hb hab hba => ?_)
    (List.pairwise_insertionSort _ _) (h.continues.sorted.imp Nat.le_of_lt)
    ((List.perm_insertionSort _ _).trans hperm)
  have hmem := hperm.subset ((List.perm_insertionSort _ _).subset ha)
  exact List.inj_on_of_nodup_map hseq hmem hb (Nat.le_antisymm hab hba)

/-- **The chain the trigger writes is the chain the verifier accepts**, from the
first row to the head, and its sequence numbers are 1 to n: for any number of
sessions, in any order of their statements, for every organization. -/
theorem audit_chain_intact (h : Reachable (step casts sha256) (initial : State S Jsonb Inet) w)
    (orgId : Uuid) :
    (∃ keys, KeysOf keys w.committed) ∧ ∀ keys, KeysOf keys w.committed →
      let rows := orderedRows keys w.committed orgId
      (∃ v, verifyAuditChain sha256 (readAuditChain casts keys w.committed orgId) = some v ∧
        v.intact = true) ∧
        rows.map AuditRow.seq = List.range' 1 rows.length ∧
        headAt w.committed orgId =
          ⟨rows.length, (rows.getLast?.map AuditRow.hash).getD []⟩ := by
  have hv : Valid casts sha256 w := h.invariant valid_initial (fun hv _ hs => valid_step hv hs)
  refine ⟨hv.keys, fun keys hkeys => ?_⟩
  obtain ⟨entries, hchain⟩ := hv.chain orgId
  have hrows := hchain.orderedRows_eq hv.keyed hkeys
  simp only [readAuditChain, hrows]
  obtain ⟨hseq, hlast⟩ := hchain.continues.seq_eq
  rw [Nat.zero_add] at hlast
  refine ⟨intact_iff.mpr (hchain.continues.linked (fun _ => rfl) (by simp)), hseq, ?_⟩
  rw [hchain.continues.hash_eq, ← hlast]

/-! ### Two writers -/

/-- Values that are their own text. -/
def textCasts : Casts String String := ⟨id, id⟩

def oneOrg : Uuid := ⟨"0195bb00-0000-7000-8000-00000000000a", by decide⟩

def firstNew : NewEntry String String where
  id := ⟨"0195bb00-0000-7000-8000-0000000000e1", by decide⟩
  orgId := oneOrg
  occurredAt := 1700000000000000
  actorId := some ⟨"0195bb00-0000-7000-8000-000000000001", by decide⟩
  action := "member.role_changed"
  resourceType := some "membership"
  resourceId := none
  changes := firstEntry.changes
  decision := none
  ip := some "10.0.0.1"
  userAgent := some ""
  sessionId := none
  requestId := none

def secondNew : NewEntry String String where
  id := ⟨"0195bb00-0000-7000-8000-0000000000e2", by decide⟩
  orgId := oneOrg
  occurredAt := 1700000000000500
  actorId := none
  action := "org.renamed"
  resourceType := none
  resourceId := none
  changes := secondEntry.changes
  decision := none
  ip := none
  userAgent := none
  sessionId := none
  requestId := some "req-7"

/-- The second writer has to wait until the first commits. -/
def twoWriters : List (Bool × Input String String) :=
  [(false, .insert firstNew), (false, .next), (false, .next), (false, .next), (false, .commit),
   (true, .insert secondNew), (true, .next), (true, .next), (true, .next), (true, .commit)]

theorem audit_chain_intact_two_writers :
    ∃ (w : State Bool String String) (keys : List Key),
      headAt w.committed oneOrg = ⟨2, secondHash⟩ ∧ KeysOf keys w.committed ∧
      ∃ v, verifyAuditChain knownSha256 (readAuditChain textCasts keys w.committed oneOrg) =
        some v ∧ v.intact = true := by
  have hrun : (run (step textCasts knownSha256) initial twoWriters).map
      (fun w => headAt w.committed oneOrg) = some ⟨2, secondHash⟩ := by decide +kernel
  obtain ⟨w, hw, hhead⟩ := Option.map_eq_some_iff.mp hrun
  obtain ⟨⟨keys, hkeys⟩, hchain⟩ := audit_chain_intact (reachable_of_run hw) oneOrg
  exact ⟨w, keys, hhead, hkeys, (hchain keys hkeys).1⟩

end AuditLog
end TaskFlow
