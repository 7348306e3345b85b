import Mathlib.Data.Char
import Mathlib.Data.List.TakeWhile
import TaskFlow.BigEndian
import TaskFlow.LexOrder
import TaskFlow.RichText

/-! # Version 7 identifiers

`uuidv7` keeps the last millisecond and a counter.  The clock may stand still or go
back: the ids of a process still increase as strings, `run_increasing`, and
`timestampOf` reads the millisecond back from each, `timestampOf_run`.
-/
namespace TaskFlow
namespace Uuid

open LexOrder

def COUNTER_MAX : ℕ := 2 ^ 12 - 1
def COUNTER_SEED_MAX : ℕ := 2 ^ 11

/-- `lastMs` and `counter`. -/
structure Generator where
  lastMs : ℤ
  counter : ℕ

def Generator.initial : Generator := ⟨-1, 0⟩

/-- The clock, the seed of the counter and the random bytes of one call. -/
structure Draw where
  now : ℕ
  seed : Fin COUNTER_SEED_MAX
  bytes : Fin 16 → Fin 256

def Generator.next (g : Generator) (draw : Draw) : Generator :=
  if g.lastMs < draw.now then ⟨draw.now, draw.seed⟩
  else if g.counter < COUNTER_MAX then { g with counter := g.counter + 1 }
  else ⟨g.lastMs + 1, draw.seed⟩

/-- The bytes up to the counter. -/
def stampBytes (ms counter : ℕ) : List ℕ :=
  let high := ms / 0x100000000
  let low := ms % 0x100000000
  [(high >>> 8) &&& 0xff, high &&& 0xff, (low >>> 24) &&& 0xff, (low >>> 16) &&& 0xff,
    (low >>> 8) &&& 0xff, low &&& 0xff, 0x70 ||| ((counter >>> 8) &&& 0x0f), counter &&& 0xff]

def bytesOf (g : Generator) (bytes : Fin 16 → Fin 256) : List ℕ :=
  stampBytes g.lastMs.toNat g.counter ++
    (0x80 ||| ((bytes 8 : ℕ) &&& 0x3f)) :: [9, 10, 11, 12, 13, 14, 15].map fun i => (bytes i : ℕ)

def hexDigits : List Char := "0123456789abcdef".toList

def hexDigit (n : ℕ) : Char := hexDigits.getD n '0'

def nibbles (bytes : List ℕ) : List ℕ := bytes.flatMap fun b => [b / 16, b % 16]

def hexOf (bytes : List ℕ) : List Char := (nibbles bytes).map hexDigit

/-- A hyphen behind each group. -/
def hyphenated : List ℕ → List Char → List Char
  | [], hex => hex
  | n :: groups, hex => hex.take n ++ '-' :: hyphenated groups (hex.drop n)

def format (bytes : List ℕ) : List Char := hyphenated [8, 4, 4, 4] (hexOf bytes)

/-- The ids of successive calls, each with the millisecond it was given. -/
def run : Generator → List Draw → List (List Char × ℤ)
  | _, [] => []
  | g, draw :: draws =>
    (format (bytesOf (g.next draw) draw.bytes), (g.next draw).lastMs) :: run (g.next draw) draws

def digitOf (c : Char) : Option ℕ := hexDigits.idxOf? c.toLower

/-- `Number.parseInt(text, 16)` of a text without a minus sign. -/
def parseHex (text : List Char) : Option ℕ :=
  let trimmed := text.dropWhile RichText.isSpace
  let unsigned := if trimmed.head? = some '+' then trimmed.tail else trimmed
  let body := if unsigned.head? = some '0' ∧ (unsigned[1]? = some 'x' ∨ unsigned[1]? = some 'X')
    then unsigned.drop 2 else unsigned
  let digits := (body.map digitOf).takeWhile Option.isSome
  if digits = [] then none else some (BigEndian.value 16 (digits.filterMap id))

def timestampOf (uuid : List Char) : Option ℕ :=
  let hex := uuid.filter (· ≠ '-')
  if hex.length ≠ 32 ∨ hex[12]? ≠ some '7' then none else parseHex (hex.take 12)

variable {g g' : Generator} {draw : Draw} {draws : List Draw}

/-! ### The bytes -/

theorem and_ff (n : ℕ) : n &&& 0xff = n % 256 := Nat.and_two_pow_sub_one_eq_mod n 8

theorem versionByte (n : ℕ) : 0x70 ||| (n &&& 0x0f) = 0x70 + n % 16 := by
  rw [show n &&& 0x0f = n % 16 from Nat.and_two_pow_sub_one_eq_mod n 4]
  exact (Nat.two_pow_add_eq_or_of_lt (i := 4) (Nat.mod_lt _ (by decide)) 7).symm

theorem variantByte (n : ℕ) : 0x80 ||| (n &&& 0x3f) = 0x80 + n % 64 := by
  rw [show n &&& 0x3f = n % 64 from Nat.and_two_pow_sub_one_eq_mod n 6]
  exact (Nat.two_pow_add_eq_or_of_lt (i := 6) (Nat.mod_lt _ (by decide)) 2).symm

theorem stampBytes_eq (ms counter : ℕ) : stampBytes ms counter =
    [ms / 2 ^ 40 % 256, ms / 2 ^ 32 % 256, ms / 2 ^ 24 % 256, ms / 2 ^ 16 % 256, ms / 2 ^ 8 % 256,
      ms % 256, 0x70 + counter / 256 % 16, counter % 256] := by
  simp only [stampBytes, and_ff, versionByte, Nat.shiftRight_eq_div_pow, List.cons.injEq, and_true]
  omega

theorem value_stampBytes {ms counter : ℕ} (hms : ms < 2 ^ 48) (hcounter : counter < 4096) :
    BigEndian.value 256 (stampBytes ms counter) = ms * 65536 + 0x7000 + counter := by
  rw [stampBytes_eq]
  simp only [BigEndian.value_cons, BigEndian.value_nil, List.length_cons, List.length_nil]
  omega

theorem value_nibbles (bytes : List ℕ) :
    BigEndian.value 16 (nibbles bytes) = BigEndian.value 256 bytes := by
  induction bytes with
  | nil => rfl
  | cons b bytes ih =>
    have hlength : (nibbles bytes).length = 2 * bytes.length := by
      simp [nibbles, mul_comm]
    show BigEndian.value 16 (b / 16 :: b % 16 :: nibbles bytes) = _
    rw [BigEndian.value_cons, BigEndian.value_cons, BigEndian.value_cons, ih, List.length_cons,
      hlength, pow_succ, pow_mul]
    have hbyte := congrArg (· * 256 ^ bytes.length) (Nat.div_add_mod b 16)
    norm_num
    linarith

theorem lt_of_mem_nibbles {bytes : List ℕ} (h : ∀ b ∈ bytes, b < 256) :
    ∀ n ∈ nibbles bytes, n < 16 := by
  intro n hn
  obtain ⟨b, hb, hn⟩ := List.mem_flatMap.mp hn
  have := h b hb
  simp only [List.mem_cons, List.not_mem_nil, or_false] at hn
  omega

theorem stampBytes_lt (ms counter : ℕ) : ∀ b ∈ stampBytes ms counter, b < 256 := by
  rw [stampBytes_eq]
  simp only [List.forall_mem_cons, List.not_mem_nil, IsEmpty.forall_iff, implies_true, and_true]
  omega

/-! ### The order of the texts -/

/-- Numbers in order differ at a digit, when both are written in one width. -/
theorem below_of_value_lt {b : ℕ} (hb : 1 < b) : ∀ {xs ys : List ℕ}, xs.length = ys.length →
    (∀ y ∈ ys, y < b) → BigEndian.value b xs < BigEndian.value b ys → Below xs ys
  | [], [], _, _, hlt => absurd hlt (lt_irrefl _)
  | x :: xs, y :: ys, hlength, hys, hlt => by
    rw [List.forall_mem_cons] at hys
    rw [List.length_cons, List.length_cons, Nat.add_right_cancel_iff] at hlength
    rw [BigEndian.value_cons, BigEndian.value_cons, hlength] at hlt
    rcases lt_trichotomy x y with h | rfl | h
    · exact below_of_head h _ _
    · exact (below_of_value_lt hb hlength hys.2 (by omega)).cons x
    · have hbound := BigEndian.value_lt hb hys.2
      have := Nat.mul_le_mul_right (b ^ ys.length) (Nat.succ_le_of_lt h)
      rw [Nat.succ_mul] at this
      omega

theorem below_map_hexDigit {xs ys : List ℕ} (h : Below xs ys) (hys : ∀ y ∈ ys, y < 16) :
    Below (xs.map hexDigit) (ys.map hexDigit) := by
  obtain ⟨p, c, d, s, t, rfl, rfl, hcd⟩ := h
  have hdigits : ∀ d < 16, ∀ c < d, hexDigit c < hexDigit d := by decide
  exact ⟨p.map hexDigit, hexDigit c, hexDigit d, s.map hexDigit, t.map hexDigit, by simp, by simp,
    hdigits d (hys d (by simp)) c hcd⟩

theorem below_hyphenated (groups : List ℕ) : ∀ {x y : List Char}, Below x y →
    Below (hyphenated groups x) (hyphenated groups y) := by
  induction groups with
  | nil => exact id
  | cons n groups ih =>
    intro x y h
    obtain ⟨p, c, d, s, t, rfl, rfl, hcd⟩ := h
    rcases le_or_gt n p.length with hn | hn
    · -- the first group is the same
      have hrest : Below (p.drop n ++ c :: s) (p.drop n ++ d :: t) := ⟨_, c, d, s, t, rfl, rfl, hcd⟩
      obtain ⟨p', c', d', s', t', hx, hy, hcd'⟩ := ih hrest
      refine ⟨p.take n ++ '-' :: p', c', d', s', t', ?_, ?_, hcd'⟩ <;>
        simp [hyphenated, List.take_append_of_le_length hn, List.drop_append_of_le_length hn, *]
    · obtain ⟨k, hk⟩ : ∃ k, n - p.length = k + 1 := ⟨n - p.length - 1, by omega⟩
      have hcut (z : Char) (zs : List Char) : ∃ rest,
          hyphenated (n :: groups) (p ++ z :: zs) = p ++ z :: rest :=
        ⟨zs.take k ++ '-' :: hyphenated groups ((p ++ z :: zs).drop n), by
          simp [hyphenated, List.take_append, hk, List.take_of_length_le hn.le]⟩
      obtain ⟨s', hs⟩ := hcut c s
      obtain ⟨t', ht⟩ := hcut d t
      exact ⟨p, c, d, s', t', hs, ht, hcd⟩

/-! ### Successive ids -/

/-- What the ids are ordered by. -/
def Generator.stamp (g : Generator) : ℤ := g.lastMs * 4096 + g.counter

theorem next_stamp (draw : Draw) (hg : g.counter < 4096) :
    g.stamp < (g.next draw).stamp ∧ (g.next draw).counter < 4096 ∧
      draw.now ≤ (g.next draw).lastMs := by
  have hseed : (draw.seed : ℕ) < 2 ^ 11 := draw.seed.isLt
  have hmax : COUNTER_MAX = 4095 := rfl
  unfold Generator.next Generator.stamp
  by_cases hnow : g.lastMs < draw.now
  · simp only [if_pos hnow]
    omega
  by_cases hroom : g.counter < COUNTER_MAX
  · simp only [if_neg hnow, if_pos hroom]
    omega
  · simp only [if_neg hnow, if_neg hroom]
    omega

theorem format_lt (hg : 0 ≤ g.lastMs) (hcounter : g.counter < 4096) (hms : g'.lastMs < 2 ^ 48)
    (hcounter' : g'.counter < 4096) (h : g.stamp < g'.stamp) (bytes bytes' : Fin 16 → Fin 256) :
    format (bytesOf g bytes) < format (bytesOf g' bytes') := by
  unfold Generator.stamp at h
  apply Below.lt
  apply below_hyphenated
  have hstamps : Below (nibbles (stampBytes g.lastMs.toNat g.counter))
      (nibbles (stampBytes g'.lastMs.toNat g'.counter)) := by
    refine below_of_value_lt (by decide) ?_ (lt_of_mem_nibbles (stampBytes_lt _ _)) ?_
    · rfl
    rw [value_nibbles, value_nibbles, value_stampBytes (by omega) hcounter,
      value_stampBytes (by omega) hcounter']
    omega
  rw [bytesOf, bytesOf, hexOf, hexOf, nibbles, nibbles, List.flatMap_append, List.flatMap_append,
    List.map_append, List.map_append]
  exact (below_map_hexDigit hstamps (lt_of_mem_nibbles (stampBytes_lt _ _))).append _ _

theorem exists_of_mem_run {e : List Char × ℤ} (hg : g.counter < 4096) (h : e ∈ run g draws) :
    ∃ g' bytes, e = (format (bytesOf g' bytes), g'.lastMs) ∧ g.stamp < g'.stamp ∧
      g'.counter < 4096 ∧ 0 ≤ g'.lastMs := by
  induction draws generalizing g with
  | nil => exact absurd h List.not_mem_nil
  | cons draw draws ih =>
    obtain ⟨hstamp, hcounter, hnow⟩ := next_stamp draw hg
    rcases List.mem_cons.mp h with rfl | h
    · exact ⟨g.next draw, draw.bytes, rfl, hstamp, hcounter, by omega⟩
    · obtain ⟨g', bytes, heq, hlt, hfacts⟩ := ih hcounter h
      exact ⟨g', bytes, heq, hstamp.trans hlt, hfacts⟩

/-- **Successive ids increase as strings**, whatever the clock does, as long as the millisecond
fits into 48 bits. -/
theorem run_increasing (hg : g.counter < 4096) (hms : ∀ e ∈ run g draws, e.2 < 2 ^ 48) :
    ((run g draws).map Prod.fst).Pairwise (· < ·) := by
  induction draws generalizing g with
  | nil => exact List.Pairwise.nil
  | cons draw draws ih =>
    obtain ⟨-, hcounter, hnow⟩ := next_stamp draw hg
    rw [run, List.forall_mem_cons] at hms
    rw [run, List.map_cons, List.pairwise_cons]
    refine ⟨fun id hid => ?_, ih hcounter hms.2⟩
    obtain ⟨e, he, rfl⟩ := List.mem_map.mp hid
    have hlt := hms.2 e he
    obtain ⟨g', bytes, rfl, hstamp, hcounter', -⟩ := exists_of_mem_run hcounter he
    exact format_lt (by omega) hcounter hlt hcounter' hstamp _ _

/-- The clock goes back. -/
def sampleDraws : List Draw := [⟨5, ⟨7, by decide⟩, fun _ => 0⟩, ⟨3, ⟨0, by decide⟩, fun _ => 255⟩]

theorem run_increasing_sample : ((run .initial sampleDraws).map Prod.fst).Pairwise (· < ·) :=
  run_increasing (by decide) (by decide)

/-! ### Reading the millisecond -/

theorem hexDigit_facts : ∀ n < 16, digitOf (hexDigit n) = some n ∧ hexDigit n ≠ '-' ∧
    RichText.isSpace (hexDigit n) = false ∧ hexDigit n ∉ ['+', 'x', 'X'] := by
  decide

theorem filter_hyphenated (groups : List ℕ) : ∀ {hex : List Char}, (∀ c ∈ hex, c ≠ '-') →
    (hyphenated groups hex).filter (· ≠ '-') = hex := by
  induction groups with
  | nil => exact fun h => List.filter_eq_self.mpr fun c hc => by simpa using h c hc
  | cons n groups ih =>
    intro hex h
    have htake : (hex.take n).filter (· ≠ '-') = hex.take n :=
      List.filter_eq_self.mpr fun c hc => by simpa using h c (List.mem_of_mem_take hc)
    rw [hyphenated, List.filter_append, List.filter_cons_of_neg (by decide), htake,
      ih fun c hc => h c (List.mem_of_mem_drop hc), List.take_append_drop]

theorem parseHex_map {ns : List ℕ} (hne : ns ≠ []) (h : ∀ m ∈ ns, m < 16) :
    parseHex (ns.map hexDigit) = some (BigEndian.value 16 ns) := by
  obtain ⟨n, ns, rfl⟩ := List.exists_cons_of_ne_nil hne
  have hfacts : ∀ m ∈ n :: ns, _ := fun m hm => hexDigit_facts m (h m hm)
  have hn := hfacts n List.mem_cons_self
  have hplus : (((n :: ns).map hexDigit).head? = some '+') = False := by
    simp_all
  have hx : ¬(((n :: ns).map hexDigit)[1]? = some 'x' ∨
      ((n :: ns).map hexDigit)[1]? = some 'X') := by
    cases ns with
    | nil => simp
    | cons m ns =>
      have hm := hfacts m (by simp)
      simp_all
  have hdigits : ((n :: ns).map hexDigit).map digitOf = (n :: ns).map some := by
    rw [List.map_map]
    exact List.map_congr_left fun m hm => (hfacts m hm).1
  have htrimmed : ((n :: ns).map hexDigit).dropWhile RichText.isSpace = (n :: ns).map hexDigit := by
    rw [List.map_cons]
    exact List.dropWhile_cons_of_neg (by simp [hn.2.2.1])
  have hall : ((n :: ns).map some).takeWhile Option.isSome = (n :: ns).map some :=
    List.takeWhile_eq_self_iff.mpr (by simp)
  simp only [parseHex, htrimmed, hplus, if_false, hx, and_false, hdigits, hall]
  simp

theorem versionDigit (g : Generator) :
    some (hexDigit ((0x70 ||| ((g.counter >>> 8) &&& 0x0f)) / 16)) = some '7' := by
  rw [versionByte, show (0x70 + (g.counter >>> 8) % 16) / 16 = 7 by omega]
  rfl

theorem timestampOf_format (hms : g.lastMs < 2 ^ 48) (bytes : Fin 16 → Fin 256) :
    timestampOf (format (bytesOf g bytes)) = some g.lastMs.toNat := by
  have hbytes : ∀ b ∈ bytesOf g bytes, b < 256 := by
    intro b hb
    rw [bytesOf, variantByte] at hb
    rcases List.mem_append.mp hb with hb | hb
    · exact stampBytes_lt _ _ b hb
    · simp only [List.map_cons, List.map_nil, List.mem_cons, List.not_mem_nil, or_false] at hb
      omega
  have hhex : ∀ c ∈ hexOf (bytesOf g bytes), c ≠ '-' := by
    intro c hc
    obtain ⟨n, hn, rfl⟩ := List.mem_map.mp hc
    exact (hexDigit_facts n (lt_of_mem_nibbles hbytes n hn)).2.1
  have hversion : (hexOf (bytesOf g bytes))[12]? = some '7' := versionDigit g
  have hstamp : (hexOf (bytesOf g bytes)).take 12 =
      (nibbles ((stampBytes g.lastMs.toNat g.counter).take 6)).map hexDigit := rfl
  have hlt := lt_of_mem_nibbles fun b hb =>
    stampBytes_lt g.lastMs.toNat g.counter b (List.mem_of_mem_take (i := 6) hb)
  have hne : nibbles ((stampBytes g.lastMs.toNat g.counter).take 6) ≠ [] := List.cons_ne_nil _ _
  rw [timestampOf, format, filter_hyphenated _ hhex, hstamp, parseHex_map hne hlt,
    value_nibbles, stampBytes_eq]
  have hlength : (hexOf (bytesOf g bytes)).length = 32 := rfl
  simp only [hlength, hversion, ne_eq, not_true_eq_false, or_self, if_false, List.take_succ_cons,
    List.take_zero, BigEndian.value_cons, BigEndian.value_nil, List.length_cons, List.length_nil]
  congr 1
  omega

/-- **Each id carries its version and its variant, and the millisecond it was given.** -/
theorem timestampOf_run {e : List Char × ℤ} (hg : g.counter < 4096) (h : e ∈ run g draws)
    (hms : e.2 < 2 ^ 48) :
    timestampOf e.1 = some e.2.toNat ∧ e.1[14]? = some '7' ∧
      ∃ c ∈ ['8', '9', 'a', 'b'], e.1[19]? = some c := by
  obtain ⟨g, bytes, rfl, -, -, -⟩ := exists_of_mem_run hg h
  refine ⟨timestampOf_format hms bytes, versionDigit _, ?_⟩
  show ∃ c ∈ _, some (hexDigit ((0x80 ||| ((bytes 8 : ℕ) &&& 0x3f)) / 16)) = some c
  rw [variantByte]
  have hvariants : ∀ k < 4, hexDigit (8 + k) ∈ ['8', '9', 'a', 'b'] := by decide
  refine ⟨_, ?_, rfl⟩
  rw [show (0x80 + (bytes 8 : ℕ) % 64) / 16 = 8 + (bytes 8 : ℕ) % 64 / 16 by omega]
  exact hvariants _ (by omega)

theorem timestampOf_sample :
    let id := format (bytesOf ⟨5, 7⟩ fun _ => 0)
    timestampOf id = some 5 ∧ id[14]? = some '7' ∧
      ∃ c ∈ ['8', '9', 'a', 'b'], id[19]? = some c :=
  @timestampOf_run .initial sampleDraws (_, 5) (by decide) List.mem_cons_self (by decide)

end Uuid
end TaskFlow
