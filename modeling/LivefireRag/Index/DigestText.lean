import LivefireRag.Lib.Hex
import LivefireRag.Index.Open

/-!
# Digest texts

Which texts the index reads as a digest (`decode_sha256`). The text is cut into pairs by
byte offsets after its length alone was looked at, and each pair is given to the parser of
integers. So a text may be cut inside a character (`CutsCharacter`), and a plus sign may
stand for the first digit of a pair (`HasSign`). Every other text is read exactly when it
consists of 64 hexadecimal digits (`decodesExactly_iff`), and then an index that states
any other text for the order of its documents is refused (`refusesOrder_of_exact`).
-/

namespace LivefireRag.Index

open Machine Fallible

/-! ### The texts -/

/-- A text of 64 hexadecimal digits of either case. -/
def IsHexDigest (value : String) : Prop :=
  value.toList.length = 64 ∧ ∀ c ∈ value.toList, Hex.IsDigit c

/-- The pair of bytes at an index is read as a number in base 16. -/
def ReadsPair (bytes : List UInt8) (index : ℕ) : Prop :=
  ∃ high ∈ bytes[2 * index]?, ∃ low ∈ bytes[2 * index + 1]?, (hexPairValue high low).isSome

/-- The pair at an index starts or ends inside a character. -/
def CutsPair (bytes : List UInt8) (index : ℕ) : Prop :=
  ¬ IsCharBoundary bytes (2 * index) ∨ ¬ IsCharBoundary bytes (2 * index + 2)

/-- 64 bytes with a character across a cut, before any pair that is not a number. -/
def CutsCharacter (value : String) : Prop :=
  value.utf8ByteSize = 64 ∧ ∃ i < 32, CutsPair (Text.utf8 value) i ∧
    ∀ j < i, ReadsPair (Text.utf8 value) j

/-- 32 pairs that are numbers, some of them with a plus sign. -/
def HasSign (value : String) : Prop :=
  value.utf8ByteSize = 64 ∧ (∀ i < 32, ReadsPair (Text.utf8 value) i) ∧
    ∃ i < 32, (Text.utf8 value)[2 * i]? = some 43

instance (bytes : List UInt8) (index : ℕ) : Decidable (ReadsPair bytes index) := by
  unfold ReadsPair
  infer_instance

instance (bytes : List UInt8) (index : ℕ) : Decidable (CutsPair bytes index) := by
  unfold CutsPair
  infer_instance

/-- The decoder ends in an answer, reads the hexadecimal digests and nothing else, and
loses nothing but the case of the digits. -/
structure DecodesExactly (value : String) : Prop where
  total : decodeSha256 value ≠ .error .aborted
  accepts : (∃ bytes, decodeSha256 value = .ok bytes) ↔ IsHexDigest value
  encode : ∀ bytes, decodeSha256 value = .ok bytes →
    Hex.encode bytes = value.toList.map Char.toLower

/-- An index whose manifest states the text for the order of its documents is refused
when the text is no digest. -/
def RefusesOrder (value : String) : Prop :=
  ¬ IsHexDigest value → ∀ (prims : Pipeline.Primitives) (readers : FileReaders)
    (directory : IndexDirectory) (manifest : FastIndexManifest),
    directory.manifest = some manifest → manifest.vectors.documentOrderSha256 = value →
    (∀ provenance ∈ manifest.pipelineProvenance, ∀ digest ∈ provenance.digests,
      ¬ CutsCharacter digest) →
    ∃ e ≠ .aborted, OpenFastIndex.open prims readers directory = .error e

/-! ### One pair -/

/-- What a byte of a number in base 16 can be. -/
theorem hexDigitValue_eq_some {byte : UInt8} {n : ℕ} (h : hexDigitValue byte = some n) :
    byte < 128 ∧ byte ≠ 43 ∧ n < 16 := by
  have hall : ∀ k < 256, ∀ n ∈ hexDigitValue (UInt8.ofNat k),
      UInt8.ofNat k < 128 ∧ UInt8.ofNat k ≠ 43 ∧ n < 16 := by decide +kernel
  have hbyte := hall byte.toNat byte.toNat_lt n
  rw [UInt8.ofNat_toNat] at hbyte
  exact hbyte h

theorem hexPairValue_of_ne {high low : UInt8} (h : high ≠ 43) :
    hexPairValue high low = do
      let m ← hexDigitValue high
      let n ← hexDigitValue low
      return 16 * m + n := if_neg h

/-- Both bytes of a number are ASCII. -/
theorem ascii_of_hexPairValue {high low : UInt8} (h : (hexPairValue high low).isSome) :
    high < 128 ∧ low < 128 := by
  obtain ⟨value, h⟩ := Option.isSome_iff_exists.mp h
  by_cases hsign : high = 43
  · rw [hexPairValue, if_pos hsign] at h
    exact ⟨by rw [hsign]; decide, (hexDigitValue_eq_some h).1⟩
  · rw [hexPairValue_of_ne hsign] at h
    obtain ⟨m, hm, h⟩ := Option.bind_eq_some_iff.mp h
    obtain ⟨n, hn, -⟩ := Option.bind_eq_some_iff.mp h
    exact ⟨(hexDigitValue_eq_some hm).1, (hexDigitValue_eq_some hn).1⟩

section Pair

variable {bytes : List UInt8} {i : ℕ}

theorem decodeSha256Byte_of_cutsPair (h : CutsPair bytes i) :
    decodeSha256Byte bytes i = .error .aborted := by
  unfold CutsPair at h
  unfold decodeSha256Byte
  rw [throwIf, if_pos h]
  rfl

theorem decodeSha256Byte_eq_ok {byte : UInt8} :
    decodeSha256Byte bytes i = .ok byte ↔ ¬ CutsPair bytes i ∧
      ∃ high low value, bytes[2 * i]? = some high ∧ bytes[2 * i + 1]? = some low ∧
        hexPairValue high low = some value ∧ UInt8.ofNat value = byte := by
  simp only [decodeSha256Byte, bind_eq_ok, exists_unit, throwIf_eq_ok, orThrow_eq_ok, pure_eq_ok]
  constructor
  · rintro ⟨hcut, high, hhigh, low, hlow, value, hvalue, hbyte⟩
    exact ⟨hcut, high, low, value, hhigh, hlow, hvalue, hbyte⟩
  · rintro ⟨hcut, high, low, value, hhigh, hlow, hvalue, hbyte⟩
    exact ⟨hcut, high, hhigh, low, hlow, value, hvalue, hbyte⟩

theorem exists_decodeSha256Byte :
    (∃ byte, decodeSha256Byte bytes i = .ok byte) ↔ ¬ CutsPair bytes i ∧ ReadsPair bytes i := by
  simp only [decodeSha256Byte_eq_ok]
  constructor
  · rintro ⟨byte, hcut, high, low, value, hhigh, hlow, hvalue, -⟩
    exact ⟨hcut, high, hhigh, low, hlow, Option.isSome_iff_exists.mpr ⟨value, hvalue⟩⟩
  · rintro ⟨hcut, high, hhigh, low, hlow, hvalue⟩
    obtain ⟨value, hvalue⟩ := Option.isSome_iff_exists.mp hvalue
    exact ⟨_, hcut, high, low, value, hhigh, hlow, hvalue, rfl⟩

/-- A pair inside the text that is not cut ends in an answer. -/
theorem decodeSha256Byte_avoids_aborted (hin : 2 * i + 1 < bytes.length)
    (h : ¬ CutsPair bytes i) : Avoids .aborted (decodeSha256Byte bytes i) := by
  unfold CutsPair at h
  unfold decodeSha256Byte
  rw [throwIf_bind_of_not h, List.getElem?_eq_getElem (by omega : 2 * i < bytes.length),
    List.getElem?_eq_getElem hin]
  show Avoids IndexError.aborted (orThrow (hexPairValue _ _) (IndexError.invalid "sha256") >>= _)
  exact avoids_bind (avoids_orThrow (by decide)) fun _ _ => avoids_pure _

end Pair

/-! ### A whole text -/

theorem decodeSha256_of_size {value : String} (h : value.utf8ByteSize ≠ 64) :
    decodeSha256 value = .error (.invalid "sha256") := by
  unfold decodeSha256
  rw [throwIf, if_pos h]
  rfl

theorem decodeSha256_eq_mapM {value : String} (h : value.utf8ByteSize = 64) :
    decodeSha256 value = (List.range 32).mapM (decodeSha256Byte (Text.utf8 value)) := by
  unfold decodeSha256
  rw [throwIf_bind_of_not (not_not.mpr h)]

/-- A text is read when no pair is cut and every pair is a number. -/
theorem exists_decodeSha256_iff {value : String} :
    (∃ bytes, decodeSha256 value = .ok bytes) ↔ value.utf8ByteSize = 64 ∧
      ∀ i < 32, ¬ CutsPair (Text.utf8 value) i ∧ ReadsPair (Text.utf8 value) i := by
  by_cases hsize : value.utf8ByteSize = 64
  · rw [decodeSha256_eq_mapM hsize, exists_mapM_eq_ok]
    simp only [exists_decodeSha256Byte, List.mem_range, hsize, true_and]
  · rw [decodeSha256_of_size hsize]
    exact iff_of_false nofun fun h => hsize h.1

/-- **The decoder aborts exactly on the texts it cuts inside a character.** -/
theorem decodeSha256_eq_aborted_iff {value : String} :
    decodeSha256 value = .error .aborted ↔ CutsCharacter value := by
  by_cases hsize : value.utf8ByteSize = 64
  swap
  · rw [decodeSha256_of_size hsize]
    exact iff_of_false nofun fun h => hsize h.1
  have hlength : (Text.utf8 value).length = 64 := by rw [Text.length_utf8, hsize]
  rw [decodeSha256_eq_mapM hsize, mapM_range_eq_error]
  constructor
  · rintro ⟨i, hi, habort, hbefore⟩
    refine ⟨hsize, i, hi, ?_, fun j hj => (exists_decodeSha256Byte.mp (hbefore j hj)).2⟩
    by_contra hcut
    exact decodeSha256Byte_avoids_aborted (by omega) hcut habort
  · rintro ⟨-, i, hi, hcut, hbefore⟩
    -- the first cut decides: every pair before it is whole and a number
    have hexists : ∃ i, CutsPair (Text.utf8 value) i := ⟨i, hcut⟩
    have hle : Nat.find hexists ≤ i := Nat.find_min' hexists hcut
    refine ⟨Nat.find hexists, by omega, decodeSha256Byte_of_cutsPair (Nat.find_spec hexists),
      fun j hj => exists_decodeSha256Byte.mpr ⟨Nat.find_min hexists hj, hbefore j (by omega)⟩⟩

/-! ### The digits of a text -/

theorem readsPair_iff {bytes : List UInt8} {i : ℕ} (hin : 2 * i + 1 < bytes.length) :
    ReadsPair bytes i ↔ (bytes[2 * i] = 43 ∨ (hexDigitValue bytes[2 * i]).isSome) ∧
      (hexDigitValue bytes[2 * i + 1]).isSome := by
  have hhigh : bytes[2 * i]? = some bytes[2 * i] := List.getElem?_eq_getElem (by omega)
  have hlow : bytes[2 * i + 1]? = some bytes[2 * i + 1] := List.getElem?_eq_getElem hin
  have hreads : ReadsPair bytes i ↔ (hexPairValue bytes[2 * i] bytes[2 * i + 1]).isSome := by
    simp [ReadsPair, hhigh, hlow]
  rw [hreads]
  by_cases hsign : bytes[2 * i] = 43
  · rw [hexPairValue, if_pos hsign]
    simp only [hsign, true_or, true_and]
  · rw [hexPairValue_of_ne hsign]
    simp only [hsign, false_or]
    cases hexDigitValue bytes[2 * i] <;> cases hexDigitValue bytes[2 * i + 1] <;> simp

/-- The pairs of 64 bytes cover them. -/
theorem forall_mem_of_pairs {bytes : List UInt8} {P : UInt8 → Prop} (hlength : bytes.length = 64)
    (h : ∀ i (_ : i < 32), P bytes[2 * i] ∧ P bytes[2 * i + 1]) : ∀ byte ∈ bytes, P byte := by
  intro byte hbyte
  obtain ⟨k, hk, rfl⟩ := List.getElem_of_mem hbyte
  obtain ⟨hhigh, hlow⟩ := h (k / 2) (by omega)
  rcases Nat.mod_two_eq_zero_or_one k with hmod | hmod
  · have hindex : 2 * (k / 2) = k := by omega
    simpa only [hindex] using hhigh
  · have hindex : 2 * (k / 2) + 1 = k := by omega
    simpa only [hindex] using hlow

theorem ascii_of_readsPairs {bytes : List UInt8} (hlength : bytes.length = 64)
    (h : ∀ i < 32, ReadsPair bytes i) : ∀ byte ∈ bytes, byte < 128 := by
  refine forall_mem_of_pairs hlength fun i hi => ?_
  obtain ⟨high, hhigh, low, hlow, hvalue⟩ := h i hi
  obtain ⟨_, rfl⟩ := List.getElem?_eq_some_iff.mp hhigh
  obtain ⟨_, rfl⟩ := List.getElem?_eq_some_iff.mp hlow
  exact ascii_of_hexPairValue hvalue

/-- ASCII bytes are never cut. -/
theorem not_cutsPair_of_ascii {bytes : List UInt8} (h : ∀ byte ∈ bytes, byte < 128) (i : ℕ) :
    ¬ CutsPair bytes i := by
  have hboundary : ∀ offset, IsCharBoundary bytes offset := fun offset byte hbyte hcut =>
    UInt8.not_le.mpr (h byte (List.mem_of_getElem? hbyte)) hcut.1
  exact not_or.mpr ⟨not_not.mpr (hboundary _), not_not.mpr (hboundary _)⟩

/-- Bytes and characters agree on what a digit stands for. -/
theorem hexDigitValue_ofNat {c : Char} (h : c.toNat ≤ 127) :
    hexDigitValue (UInt8.ofNat c.toNat) = Hex.digitValue c := by
  have hall : ∀ n < 128, hexDigitValue (UInt8.ofNat n) = Hex.digitValue (Char.ofNat n) := by
    decide +kernel
  rw [hall c.toNat (by omega), Char.ofNat_toNat]

theorem ascii_of_isDigit {c : Char} (h : Hex.IsDigit c) : c.toNat ≤ 127 := by
  have hrange : 48 ≤ c.toNat ∧ c.toNat ≤ 57 ∨ 97 ≤ c.toNat ∧ c.toNat ≤ 102 ∨
      65 ≤ c.toNat ∧ c.toNat ≤ 70 := h
  omega

theorem IsHexDigest.utf8_eq {value : String} (h : IsHexDigest value) :
    Text.utf8 value = value.toList.map fun c => UInt8.ofNat c.toNat :=
  Text.utf8_of_ascii fun c hc => ascii_of_isDigit (h.2 c hc)

/-- A digest text seen through its bytes. -/
theorem isHexDigest_iff {value : String} :
    IsHexDigest value ↔ value.utf8ByteSize = 64 ∧
      ∀ byte ∈ Text.utf8 value, (hexDigitValue byte).isSome := by
  constructor
  · intro h
    have hutf8 := h.utf8_eq
    refine ⟨by rw [← Text.length_utf8, hutf8, List.length_map, h.1], ?_⟩
    rw [hutf8, List.forall_mem_map]
    intro c hc
    rw [hexDigitValue_ofNat (ascii_of_isDigit (h.2 c hc))]
    exact Hex.digitValue_isSome.mpr (h.2 c hc)
  · rintro ⟨hsize, hdigits⟩
    have hascii : ∀ c ∈ value.toList, c.toNat ≤ 127 := Text.ascii_of_utf8 fun byte hbyte =>
      (hexDigitValue_eq_some (Option.some_get (hdigits byte hbyte)).symm).1
    have hutf8 := Text.utf8_of_ascii hascii
    refine ⟨by rw [← hsize, ← Text.length_utf8, hutf8, List.length_map], fun c hc => ?_⟩
    rw [hutf8, List.forall_mem_map] at hdigits
    have hdigit := hdigits c hc
    rw [hexDigitValue_ofNat (hascii c hc)] at hdigit
    exact Hex.digitValue_isSome.mp hdigit

/-- A text that is read is a digest unless a sign stands for a digit. -/
theorem isHexDigest_iff_decoded {value : String} :
    IsHexDigest value ↔ (∃ bytes, decodeSha256 value = .ok bytes) ∧ ¬ HasSign value := by
  rw [isHexDigest_iff, exists_decodeSha256_iff]
  constructor
  · rintro ⟨hsize, hdigits⟩
    have hlength : (Text.utf8 value).length = 64 := by rw [Text.length_utf8, hsize]
    have hreads : ∀ i < 32, ReadsPair (Text.utf8 value) i := fun i hi =>
      (readsPair_iff (by omega)).mpr
        ⟨.inr (hdigits _ (List.getElem_mem _)), hdigits _ (List.getElem_mem _)⟩
    refine ⟨⟨hsize, fun i hi => ⟨?_, hreads i hi⟩⟩, ?_⟩
    · exact not_cutsPair_of_ascii (ascii_of_readsPairs hlength hreads) i
    · rintro ⟨-, -, i, hi, hsign⟩
      exact absurd (hdigits 43 (List.mem_of_getElem? hsign)) (by decide)
  · rintro ⟨⟨hsize, hpairs⟩, hsign⟩
    have hlength : (Text.utf8 value).length = 64 := by rw [Text.length_utf8, hsize]
    refine ⟨hsize, forall_mem_of_pairs hlength fun i hi => ?_⟩
    obtain ⟨hhigh, hlow⟩ := (readsPair_iff (by omega)).mp (hpairs i hi).2
    refine ⟨hhigh.resolve_left fun h => hsign ?_, hlow⟩
    refine ⟨hsize, fun j hj => (hpairs j hj).2, i, hi, ?_⟩
    rw [List.getElem?_eq_getElem (by omega), h]

/-- What a digest is read as is written back in lowercase. -/
theorem IsHexDigest.decodeSha256_eq {value : String} (h : IsHexDigest value) :
    ∃ bytes, decodeSha256 value = .ok bytes ∧
      Hex.encode bytes = value.toList.map Char.toLower := by
  obtain ⟨bytes, hdecode, hencode⟩ := Hex.encode_decode_toLower (by rw [h.1]) h.2
  have hlength : bytes.length = 32 := by
    have hcount := congrArg List.length hencode
    rw [Hex.length_encode, List.length_map, h.1] at hcount
    omega
  obtain ⟨⟨hsize, hpairs⟩, -⟩ := (isHexDigest_iff_decoded.mp h).imp_left exists_decodeSha256_iff.mp
  have hdigit : ∀ k m : ℕ, value.toList[k]?.bind Hex.digitValue = some m →
      ∃ byte, (Text.utf8 value)[k]? = some byte ∧ hexDigitValue byte = some m := by
    intro k m hm
    obtain ⟨c, hc, hm⟩ := Option.bind_eq_some_iff.mp hm
    have hascii := ascii_of_isDigit (h.2 c (List.mem_of_getElem? hc))
    exact ⟨_, by rw [h.utf8_eq, List.getElem?_map, hc]; rfl, by rw [hexDigitValue_ofNat hascii, hm]⟩
  refine ⟨bytes, ?_, hencode⟩
  rw [decodeSha256_eq_mapM hsize, mapM_eq_ok, List.forall₂_iff_get]
  refine ⟨by rw [List.length_range, hlength], fun i hi hi' => ?_⟩
  rw [List.length_range] at hi
  rw [List.get_eq_getElem, List.get_eq_getElem, List.getElem_range]
  -- both readings take the byte from the same two digits
  have hbyte := Hex.getElem?_decode hdecode i
  rw [List.getElem?_eq_getElem hi'] at hbyte
  obtain ⟨m, hm, hbyte⟩ := Option.bind_eq_some_iff.mp hbyte.symm
  obtain ⟨n, hn, hbyte⟩ := Option.bind_eq_some_iff.mp hbyte
  obtain ⟨high, hhigh, hm⟩ := hdigit _ _ hm
  obtain ⟨low, hlow, hn⟩ := hdigit _ _ hn
  refine decodeSha256Byte_eq_ok.mpr ⟨(hpairs i hi).1, high, low, 16 * m + n, hhigh, hlow, ?_,
    Option.some.inj hbyte⟩
  rw [hexPairValue_of_ne (hexDigitValue_eq_some hm).2.1, hm, hn]
  rfl

/-! ### An index that states the text -/

/-- **An index is opened only when the stated order of its documents is read.** -/
theorem exists_decodeSha256_of_open {prims : Pipeline.Primitives} {readers : FileReaders}
    {directory : IndexDirectory} {manifest : FastIndexManifest} {index : OpenFastIndex}
    (hmanifest : directory.manifest = some manifest)
    (h : OpenFastIndex.open prims readers directory = .ok index) :
    ∃ bytes, decodeSha256 manifest.vectors.documentOrderSha256 = .ok bytes := by
  simp only [OpenFastIndex.open, openInternal, readFile, bind_eq_ok, exists_unit, throwIf_eq_ok,
    orThrow_eq_ok, hmanifest, Option.some.injEq, exists_eq_left'] at h
  obtain ⟨-, _, -, _, -, _, -, -, _, -, -, -, -, _, -, hvectors, -⟩ := h
  simp only [validateVectorFile, bind_eq_ok, exists_unit] at hvectors
  obtain ⟨-, -, order, horder, -⟩ := hvectors
  exact ⟨order, horder⟩

/-- Where the decoder reads the digests only, the index refuses the rest. -/
theorem refusesOrder_of_exact {value : String} (h : DecodesExactly value) :
    RefusesOrder value := by
  rintro hdigest prims readers directory manifest hmanifest rfl hprovenance
  have hdecodes : ∀ manifest' ∈ directory.manifest, manifest'.Decodes := by
    intro manifest' hmem
    obtain rfl : manifest = manifest' := Option.some.inj (hmanifest.symm.trans hmem)
    refine List.forall_mem_cons.mpr ⟨h.total, fun digest hmem => ?_⟩
    obtain ⟨provenance, hprov, hdigest⟩ := List.mem_flatMap.mp hmem
    exact fun habort => hprovenance provenance (Option.mem_toList.mp hprov) digest hdigest
      (decodeSha256_eq_aborted_iff.mp habort)
  cases hopen : OpenFastIndex.open prims readers directory with
  | ok index =>
    exact absurd (h.accepts.mp (exists_decodeSha256_of_open hmanifest hopen)) hdigest
  | error e =>
    refine ⟨e, fun habort => ?_, rfl⟩
    exact OpenFastIndex.open_avoids_aborted prims readers hdecodes (by rw [hopen, habort])

end LivefireRag.Index
