import Mathlib.Data.Bool.AllAny
import TaskFlow.AuditChain

/-! # The last hash binds the audit chain

The bytes hashed determine the fields, so where the hash function has no
collision on what two verifications hash, two intact chains with the same last
hash are the same chain.  That a first entry, which is hashed alone, is not
taken for a later one, which is hashed after 32 bytes of digest, rests on the
id being a uuid: the length of a field would stand inside it.
-/
namespace TaskFlow
namespace AuditChain
open NetString

/-! ### The encoding -/

theorem field_eq (value : Option String) : field value = encode (value.map String.toList) := by
  cases value <;> rfl

theorem canonicalBytes_eq (entry : AuditChainEntry) :
    canonicalBytes entry =
      utf8 ((entry.fields.map (Option.map String.toList)).flatMap encode) := by
  rw [canonicalBytes, List.flatMap_map, ← funext field_eq]

theorem fields_injective : Function.Injective AuditChainEntry.fields := by
  rintro ⟨⟩ ⟨⟩ h
  simpa [AuditChainEntry.fields] using h

/-- **No two entries share an encoding.** -/
theorem canonicalBytes_injective : Function.Injective canonicalBytes := by
  intro entry entry' h
  rw [canonicalBytes_eq, canonicalBytes_eq] at h
  have hfields := flatMap_encode_inj (by simp [AuditChainEntry.fields]) (utf8_inj h)
  exact fields_injective
    (List.map_injective_iff.mpr (Option.map_injective fun _ _ => String.toList_injective) hfields)

/-! ### A first entry and a later one -/

/-- The colon. -/
def colon : UInt8 := 58

theorem mem_of_isUuid {text : String} (h : isUuid text = true) :
    text.toList.length = 36 ∧ ∀ c ∈ text.toList, c ∈ '-' :: hexDigits := by
  have hshape : text.toList.map (fun c => if c ∈ hexDigits then '0' else c) =
      "00000000-0000-0000-0000-000000000000".toList := of_decide_eq_true h
  refine ⟨by simpa using congrArg List.length hshape, fun c hc => ?_⟩
  have hmem := List.mem_map_of_mem (f := fun c => if c ∈ hexDigits then '0' else c) hc
  rw [hshape] at hmem
  by_cases hhex : c ∈ hexDigits
  · exact List.mem_cons_of_mem _ hhex
  · rw [if_neg hhex] at hmem
    have hzero : ∀ c ∈ "00000000-0000-0000-0000-000000000000".toList, c ∈ '-' :: hexDigits :=
      List.all_iff_forall_prop.mp (by decide)
    exact hzero c hmem

theorem utf8_uuid {text : String} (h : isUuid text = true) :
    (utf8 text.toList).length = 36 ∧ colon ∉ utf8 text.toList := by
  obtain ⟨hlen, hchar⟩ := mem_of_isUuid h
  have hbyte : ∀ c ∈ '-' :: hexDigits,
      (String.utf8EncodeChar c).length = 1 ∧ colon ∉ String.utf8EncodeChar c :=
    List.all_iff_forall_prop.mp (by decide)
  constructor
  · rw [utf8, List.length_flatMap, List.map_congr_left fun c hc => (hbyte c (hchar c hc)).1,
      List.map_const', List.sum_replicate_nat, hlen]
  · intro hmem
    obtain ⟨c, hc, hcolon⟩ := List.mem_flatMap.mp hmem
    exact (hbyte c (hchar c hc)).2 hcolon

/-- What is hashed of an entry begins with the length of its id, a colon and the
id. -/
theorem canonicalBytes_uuid {entry : AuditChainEntry} (h : isUuid entry.id = true) :
    ∃ rest, canonicalBytes entry = [51, 54, colon] ++ (utf8 entry.id.toList ++ rest) := by
  have hid : encode (some entry.id.toList) = '3' :: '6' :: ':' :: entry.id.toList := by
    rw [encode, octets, (utf8_uuid h).1]
    rfl
  refine ⟨utf8 ((entry.fields.tail.map (Option.map String.toList)).flatMap encode), ?_⟩
  rw [canonicalBytes_eq, AuditChainEntry.fields, List.map_cons, List.flatMap_cons, Option.map_some,
    hid, utf8_append, utf8_cons, utf8_cons, utf8_cons]
  rfl

/-- A first entry is not hashed as a later one is. -/
theorem canonicalBytes_ne_append {entry entry' : AuditChainEntry} {hash : Bytes}
    (h : isUuid entry.id = true) (h' : isUuid entry'.id = true) (hhash : hash.length = 32) :
    canonicalBytes entry ≠ hash ++ canonicalBytes entry' := by
  intro heq
  obtain ⟨rest, hrest⟩ := canonicalBytes_uuid h
  obtain ⟨rest', hrest'⟩ := canonicalBytes_uuid h'
  obtain ⟨hlen, hcolon⟩ := utf8_uuid h
  rw [hrest, hrest'] at heq
  -- The later entry's colon is byte 34, inside the id of the first.
  have hleft : ([51, 54, colon] ++ (utf8 entry.id.toList ++ rest))[34]? =
      (utf8 entry.id.toList)[31]? := by
    rw [List.getElem?_append_right (by simp), List.getElem?_append_left (by simp [hlen])]
    rfl
  have hright : (hash ++ ([51, 54, colon] ++ (utf8 entry'.id.toList ++ rest')))[34]? =
      some colon := by
    rw [List.getElem?_append_right (by simp [hhash]), hhash]
    rfl
  rw [heq, hright] at hleft
  exact hcolon (List.mem_of_getElem? hleft.symm)

/-! ### The chain -/

/-- What the verification of linked entries hashes. -/
def preimages (previousHash : Bytes) : List StoredAuditEntry → List Bytes
  | [] => []
  | entry :: entries =>
    (previousHash ++ canonicalBytes entry.toAuditChainEntry) :: preimages entry.hash entries

section
variable {sha256 : Bytes → Bytes} {entries entries' : List StoredAuditEntry}

theorem Linked.links_eq {previousHash : Bytes} {expectedSeq : Option Int}
    (h : Linked sha256 previousHash expectedSeq entries) :
    (HashChain.links (digest sha256) previousHash
      (entries.map StoredAuditEntry.toAuditChainEntry)).map
        (fun p => p.1 ++ canonicalBytes p.2) = preimages previousHash entries := by
  induction entries generalizing previousHash expectedSeq with
  | nil => rfl
  | cons entry entries ih =>
    obtain ⟨-, hhash, seq, -, -, hrest⟩ := h
    rw [List.map_cons, HashChain.links, List.map_cons, preimages, digest, hhash, ih hrest]

/-- Two links that hash the same bytes are one. -/
theorem link_eq {p p' : Bytes × AuditChainEntry} (hp : p.1 = [] ∨ p.1.length = 32)
    (hp' : p'.1 = [] ∨ p'.1.length = 32) (hid : isUuid p.2.id = true)
    (hid' : isUuid p'.2.id = true)
    (h : p.1 ++ canonicalBytes p.2 = p'.1 ++ canonicalBytes p'.2) : p = p' := by
  have hsame (hlen : p.1.length = p'.1.length) : p = p' := by
    obtain ⟨hhash, hbytes⟩ := List.append_inj h hlen
    exact Prod.ext hhash (canonicalBytes_injective hbytes)
  rcases hp with hp | hp <;> rcases hp' with hp' | hp'
  · exact hsame (by rw [hp, hp'])
  · rw [hp, List.nil_append] at h
    exact absurd h (canonicalBytes_ne_append hid hid' hp')
  · rw [hp', List.nil_append] at h
    exact absurd h.symm (canonicalBytes_ne_append hid' hid hp)
  · exact hsame (by rw [hp, hp'])

/-- Where digests have 32 bytes and no two of the byte strings that two
verifications hash have one digest, two intact chains with the same last hash
are the same. -/
theorem fields_eq_of_last_hash_eq (hlen : ∀ bytes, (sha256 bytes).length = 32)
    (hinj : ∀ bytes ∈ preimages [] entries, ∀ bytes' ∈ preimages [] entries',
      sha256 bytes = sha256 bytes' → bytes = bytes')
    (hid : ∀ entry ∈ entries, isUuid entry.id = true)
    (hid' : ∀ entry ∈ entries', isUuid entry.id = true)
    (h : ∃ v, verifyAuditChain sha256 entries = some v ∧ v.intact = true)
    (h' : ∃ v, verifyAuditChain sha256 entries' = some v ∧ v.intact = true)
    (hlast : entries.getLast?.map StoredAuditEntry.hash =
      entries'.getLast?.map StoredAuditEntry.hash) :
    entries.map StoredAuditEntry.toAuditChainEntry =
      entries'.map StoredAuditEntry.toAuditChainEntry := by
  have hl := intact_iff.mp h
  have hl' := intact_iff.mp h'
  have hhash (entries : List AuditChainEntry) :
      ∀ p ∈ HashChain.links (digest sha256) [] entries, p.1 = [] ∨ p.1.length = 32 :=
    HashChain.links_fst (P := fun hash => hash = [] ∨ hash.length = 32) (digest sha256)
      (Or.inl rfl) fun _ _ => Or.inr (hlen _)
  refine HashChain.eq_of_head_eq (digest sha256) [] (fun hash entry heq => ?_)
    (fun p hp p' hp' heq => ?_) ?_
  · exact absurd (congrArg List.length heq) (by simp [digest, auditEntryHash, hlen])
  · refine link_eq (hhash _ p hp) (hhash _ p' hp') ?_ ?_ (hinj _ ?_ _ ?_ heq)
    · obtain ⟨entry, hentry, heq⟩ := List.mem_map.mp (HashChain.mem_of_mem_links hp)
      exact heq ▸ hid entry hentry
    · obtain ⟨entry, hentry, heq⟩ := List.mem_map.mp (HashChain.mem_of_mem_links hp')
      exact heq ▸ hid' entry hentry
    · exact hl.links_eq ▸ List.mem_map_of_mem hp
    · exact hl'.links_eq ▸ List.mem_map_of_mem hp'
  · rw [hl.head_eq, hl'.head_eq, hlast]

/-- **The last hash binds the chain**: two intact chains with the same last hash
are equally long and agree in every hashed field of every entry, and no two
entries share an encoding. -/
theorem last_hash_binds (hlen : ∀ bytes, (sha256 bytes).length = 32)
    (hinj : ∀ bytes ∈ preimages [] entries, ∀ bytes' ∈ preimages [] entries',
      sha256 bytes = sha256 bytes' → bytes = bytes')
    (hid : ∀ entry ∈ entries, isUuid entry.id = true)
    (hid' : ∀ entry ∈ entries', isUuid entry.id = true)
    (h : ∃ v, verifyAuditChain sha256 entries = some v ∧ v.intact = true)
    (h' : ∃ v, verifyAuditChain sha256 entries' = some v ∧ v.intact = true)
    (hlast : entries.getLast?.map StoredAuditEntry.hash =
      entries'.getLast?.map StoredAuditEntry.hash) :
    entries.length = entries'.length ∧
      entries.map StoredAuditEntry.toAuditChainEntry =
        entries'.map StoredAuditEntry.toAuditChainEntry ∧
      ∀ entry entry', canonicalBytes entry = canonicalBytes entry' → entry = entry' := by
  have hfields := fields_eq_of_last_hash_eq hlen hinj hid hid' h h' hlast
  exact ⟨by simpa using congrArg List.length hfields, hfields,
    fun _ _ heq => canonicalBytes_injective heq⟩

end

/-- It does not matter whether the first link is stored as null or as empty. -/
theorem last_hash_binds_two_entries :
    twoEntries none ≠ twoEntries (some []) ∧
      (twoEntries none).map StoredAuditEntry.toAuditChainEntry =
        (twoEntries (some [])).map StoredAuditEntry.toAuditChainEntry := by
  have hlen : ∀ bytes, (knownSha256 bytes).length = 32 := by
    intro bytes
    unfold knownSha256
    split
    · rfl
    · split <;> rfl
  have hne : firstHash ≠ secondHash := by decide
  refine ⟨by simp [twoEntries], (last_hash_binds hlen ?_ (by decide) (by decide)
    (intact_iff.mpr (twoEntries_linked rfl)) (intact_iff.mpr (twoEntries_linked rfl)) rfl).2.1⟩
  simp [preimages, twoEntries, knownSha256_first, knownSha256_second, hne, hne.symm]

end AuditChain
end TaskFlow
