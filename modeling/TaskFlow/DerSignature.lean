import TaskFlow.BigEndian

/-! # The signature of a web push token

`crypto.sign` returns a signature in DER: two integers, each in as few bytes as
it takes and with a zero in front where its first bit is set.  The token has to
hold each of them in 32 bytes.  `derToJws` and `toJwsInteger` are the code's;
`derSignature` writes what they are given.
-/
namespace TaskFlow
namespace WebPush

inductive DerError
  | notASignature
  | rTag
  | rLength
  | sTag
  | sLength
  | integerTooLong
  deriving DecidableEq

def DerError.message : DerError → String
  | .notASignature => "web-push: not a DER ECDSA signature"
  | .rTag => "web-push: malformed DER (r tag)"
  | .rLength => "web-push: malformed DER (r length)"
  | .sTag => "web-push: malformed DER (s tag)"
  | .sLength => "web-push: malformed DER (s length)"
  | .integerTooLong => "web-push: signature integer exceeds 32 bytes"

/-- Strips a DER integer's sign byte and left-pads to 32 bytes. -/
def toJwsInteger (value : List UInt8) : Except DerError (List UInt8) :=
  let bytes := if 32 < value.length ∧ value[0]? = some 0 then value.drop 1 else value
  if 32 < bytes.length then .error .integerTooLong
  else .ok (List.replicate (32 - bytes.length) 0 ++ bytes)

/-- `der.subarray(start, start + length)`. -/
def subarray (der : List UInt8) (start length : ℕ) : List UInt8 := (der.drop start).take length

/-- Converts a DER ECDSA signature to the raw form. -/
def derToJws (der : List UInt8) : Except DerError (List UInt8) := do
  if der.length < 8 ∨ der[0]? ≠ some 0x30 then throw .notASignature
  let offset := 2
  if der[offset]? ≠ some 0x02 then throw .rTag
  let some rLen := der[offset + 1]? | throw .rLength
  let r := subarray der (offset + 2) rLen.toNat
  let offset := offset + (2 + rLen.toNat)
  if der[offset]? ≠ some 0x02 then throw .sTag
  let some sLen := der[offset + 1]? | throw .sLength
  let s := subarray der (offset + 2) sLen.toNat
  return (← toJwsInteger r) ++ (← toJwsInteger s)

/-! ### What a signature is -/

/-- The number that bytes spell. -/
def valueOf (bytes : List UInt8) : ℕ := BigEndian.value 256 (bytes.map UInt8.toNat)

/-- `n` in 32 bytes. -/
def bigEndian32 (n : ℕ) : List UInt8 := (BigEndian.digits 256 32 n).map UInt8.ofNat

/-- `n` in as few bytes as it takes. -/
def magnitude (n : ℕ) : List UInt8 := (Nat.digits 256 n).reverse.map UInt8.ofNat

/-- The same with its sign: the first bit of a number that is not negative is zero. -/
def derContent (n : ℕ) : List UInt8 :=
  if 128 ≤ (magnitude n).headD 0 then 0 :: magnitude n else magnitude n

def derInteger (n : ℕ) : List UInt8 := 0x02 :: UInt8.ofNat (derContent n).length :: derContent n

/-- A sequence of two integers.  Its length is one byte, as it is below 128. -/
def derSignature (r s : ℕ) : List UInt8 :=
  0x30 :: UInt8.ofNat (derInteger r ++ derInteger s).length :: (derInteger r ++ derInteger s)

/-- The two integers that a buffer declares, where it holds them. -/
def declaredIntegers (der : List UInt8) : Option (List UInt8 × List UInt8) := do
  let rLen ← der[3]?
  let sLen ← der[5 + rLen.toNat]?
  if 6 + rLen.toNat + sLen.toNat ≤ der.length then
    some (subarray der 4 rLen.toNat, subarray der (6 + rLen.toNat) sLen.toNat)
  else none

example : derToJws (derSignature 1 255) =
    .ok (List.replicate 31 0 ++ 1 :: (List.replicate 31 0 ++ [255])) := by decide +kernel

variable {n r s : ℕ} {der out rs ss rOut sOut : List UInt8}

/-! ### One integer -/

theorem length_magnitude : (magnitude n).length = (Nat.digits 256 n).length := by
  simp [magnitude]

theorem length_magnitude_le (hn : n < 2 ^ 256) : (magnitude n).length ≤ 32 := by
  rw [length_magnitude, Nat.digits_length_le_iff (by decide)]
  exact hn

theorem magnitude_ne_nil (hn : 0 < n) : magnitude n ≠ [] := by
  simpa [magnitude] using Nat.digits_ne_nil_iff_ne_zero.mpr hn.ne'

theorem bigEndian32_eq (n : ℕ) :
    bigEndian32 n = List.replicate (32 - (magnitude n).length) 0 ++ magnitude n := by
  rw [bigEndian32, BigEndian.digits_eq, List.map_append, List.map_replicate, length_magnitude]
  rfl

/-- The content is the magnitude with at most one zero in front. -/
theorem length_derContent_le (hn : n < 2 ^ 256) : (derContent n).length ≤ 33 := by
  have := length_magnitude_le hn
  rw [derContent]
  split
  · exact Nat.succ_le_succ this
  · exact this.trans (by decide)

theorem length_derContent_pos (hn : 0 < n) : 0 < (derContent n).length := by
  rw [derContent]
  split
  · exact Nat.succ_pos _
  · exact List.length_pos_iff.mpr (magnitude_ne_nil hn)

/-- The sign byte goes, if the number is that long, and the rest is padded. -/
theorem toJwsInteger_derContent (hn : n < 2 ^ 256) :
    toJwsInteger (derContent n) = .ok (bigEndian32 n) := by
  have hle := length_magnitude_le hn
  rw [bigEndian32_eq, derContent]
  by_cases hsign : 128 ≤ (magnitude n).headD 0
  · rw [if_pos hsign, toJwsInteger]
    by_cases hfull : (magnitude n).length = 32
    · simp [hfull]
    · have hpad : 32 - (magnitude n).length = 32 - ((magnitude n).length + 1) + 1 := by omega
      have hlong : ¬32 < (magnitude n).length + 1 := by omega
      simp [hlong, hpad, List.replicate_succ']
  · rw [if_neg hsign, toJwsInteger]
    simp [hle.not_gt]

/-- What is returned for an integer is 32 bytes that spell it. -/
theorem toJwsInteger_sound (h : toJwsInteger rs = .ok out) :
    out.length = 32 ∧ valueOf out = valueOf rs := by
  rw [toJwsInteger] at h
  set bytes := if 32 < rs.length ∧ rs[0]? = some 0 then rs.drop 1 else rs with hbytes
  have hvalue : valueOf bytes = valueOf rs := by
    rw [hbytes]
    split
    · next hsign =>
      cases rs with
      | nil => rfl
      | cons b rest =>
        obtain rfl : b = 0 := Option.some.inj hsign.2
        simp [valueOf, BigEndian.value_cons]
    · rfl
  split at h
  · cases h
  · next hshort =>
    obtain rfl := Except.ok.inj h
    refine ⟨by simp; omega, hvalue ▸ ?_⟩
    rw [valueOf, List.map_append, List.map_replicate]
    exact BigEndian.value_zeros_append _ _

/-! ### Two of them -/

/-- A buffer that holds two integers and is not too short is read as these. -/
theorem derToJws_integers (len : UInt8) (hrs : rs.length < 256) (hss : ss.length < 256)
    (hlen : 2 ≤ rs.length + ss.length) (hr : toJwsInteger rs = .ok rOut)
    (hs : toJwsInteger ss = .ok sOut) :
    derToJws (0x30 :: len :: (0x02 :: UInt8.ofNat rs.length :: rs ++
      0x02 :: UInt8.ofNat ss.length :: ss)) = .ok (rOut ++ sOut) := by
  have hrLen : (UInt8.ofNat rs.length).toNat = rs.length := UInt8.toNat_ofNat_of_lt' hrs
  have hsLen : (UInt8.ofNat ss.length).toNat = ss.length := UInt8.toNat_ofNat_of_lt' hss
  have hoffset : 2 + (2 + rs.length) = rs.length + 4 := by omega
  have hlong : ¬(rs.length + (ss.length + 1 + 1) + 1 + 1 + 1 + 1 < 8) := by omega
  simp [derToJws, hrLen, hsLen, hoffset, hlong, subarray, hr, hs, bind, Except.bind, pure,
    Except.pure]

theorem derToJws_derSignature (hr : 0 < r) (hr' : r < 2 ^ 256) (hs : 0 < s) (hs' : s < 2 ^ 256) :
    derToJws (derSignature r s) = .ok (bigEndian32 r ++ bigEndian32 s) := by
  have hrPos := length_derContent_pos hr
  have hsPos := length_derContent_pos hs
  have hrLe := length_derContent_le hr'
  have hsLe := length_derContent_le hs'
  exact derToJws_integers _ (by omega) (by omega) (by omega) (toJwsInteger_derContent hr')
    (toJwsInteger_derContent hs')

/-- What a buffer that is not refused has held. -/
theorem derToJws_eq_ok (h : derToJws der = .ok out) :
    ∃ rLen sLen rOut sOut, der[3]? = some rLen ∧ der[5 + rLen.toNat]? = some sLen ∧
      toJwsInteger (subarray der 4 rLen.toNat) = .ok rOut ∧
      toJwsInteger (subarray der (6 + rLen.toNat) sLen.toNat) = .ok sOut ∧ out = rOut ++ sOut := by
  simp only [derToJws, bind, Except.bind, pure, Except.pure, throw, throwThe,
    MonadExceptOf.throw] at h
  split at h
  · cases h
  split at h
  · cases h
  split at h
  · next rLen hrLen =>
    have hlength : 2 + (2 + rLen.toNat) + 1 = 5 + rLen.toNat := by omega
    have hstart : 2 + (2 + rLen.toNat) + 2 = 6 + rLen.toNat := by omega
    rw [hlength, hstart] at h
    split at h
    · cases h
    split at h
    · next sLen hsLen =>
      cases hr : toJwsInteger (subarray der 4 rLen.toNat) with
      | error e =>
        rw [hr] at h
        cases h
      | ok rOut =>
        cases hs : toJwsInteger (subarray der (6 + rLen.toNat) sLen.toNat) with
        | error e =>
          rw [hr, hs] at h
          cases h
        | ok sOut =>
          rw [hr, hs] at h
          exact ⟨rLen, sLen, rOut, sOut, hrLen, hsLen, hr, hs, (Except.ok.inj h).symm⟩
    · cases h
  · cases h

/-- What is returned are the integers that the buffer declares. -/
theorem derToJws_sound (h : derToJws der = .ok out)
    (hdeclared : declaredIntegers der = some (rs, ss)) :
    out.length = 64 ∧ valueOf (out.take 32) = valueOf rs ∧ valueOf (out.drop 32) = valueOf ss := by
  obtain ⟨rLen, sLen, rOut, sOut, hrLen, hsLen, hr, hs, rfl⟩ := derToJws_eq_ok h
  simp only [declaredIntegers, hrLen, hsLen, Option.bind_eq_bind, Option.bind_some,
    Option.ite_none_right_eq_some, Option.some_inj, Prod.mk.injEq] at hdeclared
  obtain ⟨-, rfl, rfl⟩ := hdeclared
  obtain ⟨hrLength, hrValue⟩ := toJwsInteger_sound hr
  obtain ⟨hsLength, hsValue⟩ := toJwsInteger_sound hs
  refine ⟨by rw [List.length_append, hrLength, hsLength], ?_, ?_⟩
  · rw [List.take_left' hrLength, hrValue]
  · rw [List.drop_left' hrLength, hsValue]

/-- **`derToJws` undoes DER**: it returns both numbers of every signature in 32 bytes each, and
what it returns for any buffer are the integers that the buffer declares. -/
theorem derToJws_undoes_der :
    (∀ r s, 0 < r → r < 2 ^ 256 → 0 < s → s < 2 ^ 256 →
      derToJws (derSignature r s) = .ok (bigEndian32 r ++ bigEndian32 s)) ∧
    ∀ der out rs ss, derToJws der = .ok out → declaredIntegers der = some (rs, ss) →
      out.length = 64 ∧ valueOf (out.take 32) = valueOf rs ∧
        valueOf (out.drop 32) = valueOf ss :=
  ⟨fun _ _ => derToJws_derSignature, fun _ _ _ _ => derToJws_sound⟩

/-- A short number and one whose first bit is set; and a buffer whose second integer is not
minimal. -/
theorem derToJws_undoes_der_short :
    derToJws (derSignature 1 255) = .ok (bigEndian32 1 ++ bigEndian32 255) ∧
    ∃ out, derToJws [0x30, 7, 2, 1, 7, 2, 2, 0, 9] = .ok out ∧ out.length = 64 ∧
      valueOf (out.take 32) = valueOf [7] ∧ valueOf (out.drop 32) = valueOf [0, 9] := by
  have hrun : derToJws [0x30, 7, 2, 1, 7, 2, 2, 0, 9] =
      .ok (List.replicate 31 0 ++ 7 :: (List.replicate 31 0 ++ [9])) := by decide
  exact ⟨(derToJws_undoes_der).1 1 255 (by decide) (by norm_num) (by decide) (by norm_num), _, hrun,
    (derToJws_undoes_der).2 _ _ _ _ hrun (by decide)⟩

end WebPush
end TaskFlow
