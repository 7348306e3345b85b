import TaskFlow.NetString
import TaskFlow.HashChain

/-! # Verifying the audit chain

An entry of the audit log is hashed with the hash of the entry before it:
the bytes hashed are the previous hash and then the entry's fields, each written
as its length in bytes, a colon and itself.  `verifyAuditChain` walks the
entries of an organization and reports each one whose sequence number, stored
link or hash is not the one it computes.

A field is text as the database renders it, so it is a sequence of characters
(no lone surrogates), and `sha256` stands for the digest of `node:crypto`.
-/
namespace TaskFlow
namespace AuditChain
open NetString

abbrev Bytes := List UInt8

/-- One entry's hashed fields. -/
structure AuditChainEntry where
  id : String
  orgId : String
  seq : String
  occurredAtMs : String
  actorId : Option String
  action : String
  resourceType : Option String
  resourceId : Option String
  changes : Option String
  decision : Option String
  ip : Option String
  userAgent : Option String
  sessionId : Option String
  requestId : Option String
  deriving DecidableEq, Repr

/-- An entry as it is read back. -/
structure StoredAuditEntry extends AuditChainEntry where
  prevHash : Option Bytes
  hash : Bytes
  deriving DecidableEq, Repr

inductive BreakReason where
  | hashMismatch
  | brokenLink
  | sequenceGap
  deriving DecidableEq, Repr

structure ChainBreak where
  seq : String
  id : String
  reason : BreakReason
  deriving DecidableEq, Repr

structure ChainVerification where
  verified : Nat
  intact : Bool
  breaks : List ChainBreak
  deriving DecidableEq, Repr

/-- `Buffer.byteLength(value, 'utf8')`. -/
def byteLength (value : String) : Nat := octets value.toList

/-- One field, encoded so that its end can be told. -/
def field : Option String → List Char
  | none => ['-']
  | some value => Nat.toDigits 10 (byteLength value) ++ ':' :: value.toList

/-- The fields in the order they are hashed. -/
def AuditChainEntry.fields (entry : AuditChainEntry) : List (Option String) :=
  [some entry.id, some entry.orgId, some entry.seq, some entry.occurredAtMs, entry.actorId,
    some entry.action, entry.resourceType, entry.resourceId, entry.changes, entry.decision,
    entry.ip, entry.userAgent, entry.sessionId, entry.requestId]

def canonicalBytes (entry : AuditChainEntry) : Bytes :=
  utf8 (entry.fields.flatMap field)

def hexDigits : List Char := "0123456789abcdef".toList

/-- The text of a uuid: 32 hexadecimal digits in five groups. -/
def isUuid (text : String) : Bool :=
  text.toList.map (fun c => if c ∈ hexDigits then '0' else c) =
    "00000000-0000-0000-0000-000000000000".toList

variable (sha256 : Bytes → Bytes)

def auditEntryHash (entry : AuditChainEntry) (previousHash : Bytes) : Bytes :=
  sha256 (previousHash ++ canonicalBytes entry)

/-! ### `BigInt(text)` -/

/-- A character that `BigInt` ignores at the ends of its argument. -/
def isWhiteSpace (c : Char) : Bool :=
  c.toNat ∈ [0x09, 0x0A, 0x0B, 0x0C, 0x0D, 0x20, 0xA0, 0x1680, 0x2028, 0x2029, 0x202F, 0x205F,
    0x3000, 0xFEFF] || (0x2000 ≤ c.toNat && c.toNat ≤ 0x200A)

/-- The value of a digit. -/
def digitValue (c : Char) : Option Nat :=
  if '0' ≤ c ∧ c ≤ '9' then some (c.toNat - '0'.toNat)
  else if 'a' ≤ c ∧ c ≤ 'f' then some (c.toNat - 'a'.toNat + 10)
  else if 'A' ≤ c ∧ c ≤ 'F' then some (c.toNat - 'A'.toNat + 10)
  else none

/-- At least one digit of base `b`. -/
def digits (b : Nat) (cs : List Char) : Option Nat :=
  if cs = [] then none
  else cs.foldl (fun value c => do
    let value ← value
    let d ← digitValue c
    if d < b then some (b * value + d) else none) (some 0)

/-- `none` is a `SyntaxError`. -/
def bigInt (text : String) : Option Int :=
  match ((text.toList.dropWhile isWhiteSpace).reverse.dropWhile isWhiteSpace).reverse with
  | [] => some 0
  | '0' :: 'x' :: cs | '0' :: 'X' :: cs => (digits 16 cs).map Int.ofNat
  | '0' :: 'o' :: cs | '0' :: 'O' :: cs => (digits 8 cs).map Int.ofNat
  | '0' :: 'b' :: cs | '0' :: 'B' :: cs => (digits 2 cs).map Int.ofNat
  -- a sign goes with decimal digits only
  | '-' :: cs => (digits 10 cs).map fun n => -(n : Int)
  | '+' :: cs => (digits 10 cs).map Int.ofNat
  | cs => (digits 10 cs).map Int.ofNat

/-! ### The walk -/

structure Walk where
  breaks : List ChainBreak
  previousHash : Bytes
  expectedSeq : Option Int
  deriving DecidableEq, Repr

/-- The breaks an entry adds. -/
def entryBreaks (walk : Walk) (seq : Int) (entry : StoredAuditEntry) : List ChainBreak :=
  (if walk.expectedSeq.any fun expected => seq ≠ expected then
      [⟨entry.seq, entry.id, .sequenceGap⟩] else []) ++
    (if entry.prevHash.getD [] ≠ walk.previousHash then
      [⟨entry.seq, entry.id, .brokenLink⟩] else []) ++
    if auditEntryHash sha256 entry.toAuditChainEntry walk.previousHash ≠ entry.hash then
      [⟨entry.seq, entry.id, .hashMismatch⟩] else []

def verifyEntry (walk : Walk) (entry : StoredAuditEntry) : Option Walk := do
  let seq ← bigInt entry.seq
  return { breaks := walk.breaks ++ entryBreaks sha256 walk seq entry,
           previousHash := entry.hash, expectedSeq := some (seq + 1) }

/-- Walks the entries and reports every disagreement.  `none` is an exception. -/
def verifyAuditChain (entries : List StoredAuditEntry) : Option ChainVerification := do
  let walk ← entries.foldlM (verifyEntry sha256) ⟨[], [], none⟩
  return { verified := entries.length, intact := walk.breaks.length = 0, breaks := walk.breaks }

/-! ### What intact means -/

/-- Each entry has the sequence number, the link and the hash that the entries
before it give. -/
def Linked (previousHash : Bytes) (expectedSeq : Option Int) : List StoredAuditEntry → Prop
  | [] => True
  | entry :: entries => entry.prevHash.getD [] = previousHash ∧
      auditEntryHash sha256 entry.toAuditChainEntry previousHash = entry.hash ∧
      ∃ seq, bigInt entry.seq = some seq ∧ (∀ expected ∈ expectedSeq, seq = expected) ∧
        Linked entry.hash (some (seq + 1)) entries

variable {sha256} {entries : List StoredAuditEntry} {entry : StoredAuditEntry} {walk walk' : Walk}

theorem entryBreaks_eq_nil_iff {seq : Int} :
    entryBreaks sha256 walk seq entry = [] ↔ (∀ expected ∈ walk.expectedSeq, seq = expected) ∧
      entry.prevHash.getD [] = walk.previousHash ∧
      auditEntryHash sha256 entry.toAuditChainEntry walk.previousHash = entry.hash := by
  have hgap : (walk.expectedSeq.any fun expected => seq ≠ expected) = false ↔
      ∀ expected ∈ walk.expectedSeq, seq = expected := by
    cases walk.expectedSeq <;> simp
  rw [← hgap]
  simp [entryBreaks]

/-- A walk ends without a break if and only if it begins without one and the
entries are linked. -/
theorem walk_intact_iff (walk : Walk) :
    (∃ walk', entries.foldlM (verifyEntry sha256) walk = some walk' ∧ walk'.breaks = []) ↔
      walk.breaks = [] ∧ Linked sha256 walk.previousHash walk.expectedSeq entries := by
  induction entries generalizing walk with
  | nil => simp [Linked]
  | cons entry entries ih =>
    rw [List.foldlM_cons, Linked, verifyEntry]
    cases hseq : bigInt entry.seq with
    | none => simp
    | some seq =>
      simp only [Option.bind_eq_bind, Option.bind_some, Option.pure_def, ih,
        List.append_eq_nil_iff, entryBreaks_eq_nil_iff, Option.some.injEq, exists_eq_left']
      tauto

/-- **A chain is reported intact if and only if its entries are linked.** -/
theorem intact_iff :
    (∃ v, verifyAuditChain sha256 entries = some v ∧ v.intact = true) ↔
      Linked sha256 [] none entries := by
  have h : (∃ walk, entries.foldlM (verifyEntry sha256) ⟨[], [], none⟩ = some walk ∧
      walk.breaks = []) ↔ Linked sha256 [] none entries :=
    (walk_intact_iff _).trans (and_iff_right rfl)
  rw [← h, verifyAuditChain]
  cases entries.foldlM (verifyEntry sha256) ⟨[], [], none⟩ <;> simp

variable (sha256) in
/-- `auditEntryHash` as the digest of a hash chain. -/
abbrev digest (previousHash : Bytes) (entry : AuditChainEntry) : Bytes :=
  auditEntryHash sha256 entry previousHash

/-- The hashes of linked entries are the heads of a hash chain. -/
theorem Linked.head_eq {previousHash : Bytes} {expectedSeq : Option Int}
    (h : Linked sha256 previousHash expectedSeq entries) :
    HashChain.head (digest sha256) previousHash
      (entries.map StoredAuditEntry.toAuditChainEntry) =
        (entries.getLast?.map StoredAuditEntry.hash).getD previousHash := by
  induction entries generalizing previousHash expectedSeq with
  | nil => rfl
  | cons entry entries ih =>
    obtain ⟨-, hhash, seq, -, -, hrest⟩ := h
    rw [List.map_cons, HashChain.head_cons, digest, hhash, ih hrest]
    cases entries <;> simp [List.getLast?_cons]

/-! ### A chain of two entries -/

def firstEntry : AuditChainEntry where
  id := "0195bb00-0000-7000-8000-0000000000e1"
  orgId := "0195bb00-0000-7000-8000-00000000000a"
  seq := "1"
  occurredAtMs := "1700000000000"
  actorId := some "0195bb00-0000-7000-8000-000000000001"
  action := "member.role_changed"
  resourceType := some "membership"
  resourceId := none
  changes := some "\x7b\"to\": \"owner\", \"from\": \"admin\"\x7d"
  decision := none
  ip := some "10.0.0.1"
  userAgent := some ""
  sessionId := none
  requestId := none

def secondEntry : AuditChainEntry where
  id := "0195bb00-0000-7000-8000-0000000000e2"
  orgId := "0195bb00-0000-7000-8000-00000000000a"
  seq := "2"
  occurredAtMs := "1700000000001"
  actorId := none
  action := "org.renamed"
  resourceType := none
  resourceId := none
  changes := some "\x7b\"name\": \"Zoë\"\x7d"
  decision := none
  ip := none
  userAgent := none
  sessionId := none
  requestId := some "req-7"

/-- The SHA-256 of the first entry. -/
def firstHash : Bytes :=
  [141, 127, 170, 187, 112, 163, 131, 128, 121, 224, 238, 156, 87, 50, 150, 110, 125, 80, 64, 217,
    31, 11, 114, 129, 238, 179, 130, 68, 15, 124, 121, 12]

/-- The SHA-256 of the first entry's hash and the second entry. -/
def secondHash : Bytes :=
  [208, 108, 142, 155, 16, 254, 207, 132, 231, 109, 31, 141, 136, 153, 174, 43, 73, 92, 226, 159,
    194, 87, 68, 157, 117, 101, 172, 222, 253, 148, 174, 85]

/-- SHA-256 on the two byte strings of that chain. -/
def knownSha256 (bytes : Bytes) : Bytes :=
  if bytes = canonicalBytes firstEntry then firstHash
  else if bytes = firstHash ++ canonicalBytes secondEntry then secondHash
  else List.replicate 32 0

/-- The two entries, with what is stored as the link of the first. -/
def twoEntries (link : Option Bytes) : List StoredAuditEntry :=
  [⟨firstEntry, link, firstHash⟩, ⟨secondEntry, some firstHash, secondHash⟩]

theorem knownSha256_first : knownSha256 (canonicalBytes firstEntry) = firstHash := if_pos rfl

theorem knownSha256_second :
    knownSha256 (firstHash ++ canonicalBytes secondEntry) = secondHash := by
  have hne : firstHash ++ canonicalBytes secondEntry ≠ canonicalBytes firstEntry := by decide
  rw [knownSha256, if_neg hne, if_pos rfl]

theorem twoEntries_linked {link : Option Bytes} (h : link.getD [] = []) :
    Linked knownSha256 [] none (twoEntries link) := by
  have hfirst : auditEntryHash knownSha256 firstEntry [] = firstHash := knownSha256_first
  have hsecond : auditEntryHash knownSha256 secondEntry firstHash = secondHash :=
    knownSha256_second
  have hseq : bigInt firstEntry.seq = some 1 ∧ bigInt secondEntry.seq = some 2 := by decide
  refine ⟨h, hfirst, 1, hseq.1, by simp, rfl, hsecond, 2, hseq.2, ?_, trivial⟩
  rintro expected ⟨⟩
  rfl

end AuditChain
end TaskFlow
